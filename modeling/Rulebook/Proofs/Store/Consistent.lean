import Rulebook.Proofs.Store.Build
import Rulebook.Proofs.Tree.Evaluation
import Rulebook.Store.Cycle

/-!
# Consistent stores

The invariant of a store: its live fields and its snapshots hold the declared names, and all its trees
are well formed over them. Every operation keeps it, and no rule and no trigger of a consistent store
can fail.
-/

namespace Rulebook

variable {σ : Type} {declared : List String}

/-- The live fields and all snapshots hold the declared names, and the compiled trees are well formed
over them. -/
structure State.Consistent (declared : List String) (s : State) : Prop where
  distinct : declared.Nodup
  fields : s.fieldNames = declared
  expressions : s.vocabulary.WellFormed
  rules : ∀ t ∈ s.rules, t.WellFormed declared
  live : s.live.names.Perm declared
  history : ∀ f ∈ s.history, f.names.Perm declared
  kept : s.history ≠ []

/-- The triggers of the handlers are well formed too. -/
structure Store.Consistent (declared : List String) (s : Store σ) : Prop
    extends State.Consistent declared s.toState where
  triggers : ∀ h ∈ s.handlers, h.trigger.WellFormed declared

namespace State

variable {s t : State}

/-- A history is put in place exactly if it has a snapshot and none of its snapshots is refused. -/
theorem restore_ok_iff {history : History} :
    s.restore history = .ok t ↔
      (∀ f ∈ history, f.hasNames s.fieldNames = true) ∧
        ∃ last, history.getLast? = some last ∧ t = { s with live := last, history } := by
  have whole : (history.findIdx? fun f => !f.hasNames s.fieldNames) = none ↔
      ∀ f ∈ history, f.hasNames s.fieldNames = true := by
    simp [List.findIdx?_eq_none_iff]
  rw [restore, ← whole]
  cases history.findIdx? fun f => !f.hasNames s.fieldNames with
  | some i => simp
  | none =>
    cases history.getLast? with
    | none => simp
    | some last => simp [eq_comm]

/-- A history that is not empty is refused for one of its snapshots. -/
theorem exists_refused {history : History} {e : StoreError} (kept : history ≠ [])
    (refused : s.restore history = .error e) : ∃ f ∈ history, f.hasNames s.fieldNames = false := by
  by_contra whole
  have accepted : s.restore history = .ok _ :=
    restore_ok_iff.mpr ⟨by simpa using whole, _, List.getLast?_eq_some_getLast kept, rfl⟩
  cases accepted.symm.trans refused

theorem build_consistent {c : Config} (built : State.build c = .ok s) : s.Consistent c.data.names := by
  obtain ⟨live, history, fields, expressions, rules⟩ := build_ok built
  refine ⟨c.data.nodup_names, fields, expressions, fields ▸ rules, live ▸ List.Perm.refl _, ?_, ?_⟩
  · intro f member
    rw [history, List.mem_singleton] at member
    exact member ▸ List.Perm.refl _
  · exact history ▸ List.cons_ne_nil _ _

namespace Consistent

theorem contains_iff (consistent : s.Consistent declared) {name : String} :
    s.live.contains name = true ↔ name ∈ declared :=
  Table.contains_iff.trans consistent.live.mem_iff

theorem covers (consistent : s.Consistent declared) : declared ⊆ s.live.names := consistent.live.symm.subset

/-! ### Sentences -/

theorem compile (consistent : s.Consistent declared) {sentence : String} {t : Tree}
    (compiled : s.compile sentence = .ok t) : t.WellFormed declared :=
  consistent.fields ▸ Vocabulary.wellFormed_of_compiled consistent.expressions compiled

theorem trigger (consistent : s.Consistent declared) {text : String} {t : Tree}
    (compiled : s.trigger text = .ok t) : t.WellFormed declared := by
  simp only [State.trigger] at compiled
  split at compiled
  · exact consistent.fields ▸ Vocabulary.wellFormed_of_parse consistent.expressions (mapError_ok.mp compiled)
  · exact consistent.compile compiled

/-! ### Operations without listeners -/

theorem withLive (consistent : s.Consistent declared) {live : Fields} (same : live.names = s.live.names) :
    ({ s with live } : State).Consistent declared :=
  { consistent with live := same ▸ consistent.live }

theorem set (consistent : s.Consistent declared) {name : String} {v : Value} (ran : s.set name v = .ok t) :
    t.Consistent declared := by
  by_cases present : name ∈ s.live.names
  · rw [State.set, Table.replace?_of_mem v present] at ran
    cases ran
    exact consistent.withLive (Table.names_insert_of_mem v present)
  · rw [State.set, Table.replace?_eq_none.mpr present] at ran
    cases ran

/-- Of a consistent store, the snapshots that are not refused are those that hold the declared names. -/
theorem restore_ok_iff (consistent : s.Consistent declared) {history : History} :
    s.restore history = .ok t ↔
      (∀ f ∈ history, f.names.Perm declared) ∧
        ∃ last, history.getLast? = some last ∧ t = { s with live := last, history } := by
  have holds : ∀ f : Fields, f.hasNames s.fieldNames = true ↔ f.names.Perm declared := fun f => by
    rw [consistent.fields]
    exact Table.hasNames_iff consistent.distinct
  simp only [State.restore_ok_iff, holds]

theorem restore (consistent : s.Consistent declared) {history : History}
    (ran : s.restore history = .ok t) : t.Consistent declared := by
  obtain ⟨whole, last, found, rfl⟩ := consistent.restore_ok_iff.mp ran
  have member := List.mem_of_getLast? found
  exact { consistent with live := whole last member, history := whole, kept := List.ne_nil_of_mem member }

end Consistent

end State

namespace Store

/-! ### Rules and triggers -/

theorem runRules_safe {rules : List Tree} (wellFormed : ∀ t ∈ rules, t.WellFormed declared) (prior : Fields) :
    (runRules prior rules).Safe declared := by
  induction rules with
  | nil => exact .pure ()
  | cons rule rules ih =>
    have first := (wellFormed rule List.mem_cons_self).safe prior .current
    have rest := ih fun t member => wellFormed t (List.mem_cons_of_mem _ member)
    have dropped : (discard (rule.eval prior .current)).Safe declared := first.bind fun _ => .pure ()
    exact dropped.bind fun _ => rest

theorem fired_safe {handlers : List (Handler σ × Nat)}
    (wellFormed : ∀ h ∈ handlers, h.1.trigger.WellFormed declared) (prior : Fields) :
    (fired prior handlers).Safe declared := by
  induction handlers with
  | nil => exact .pure []
  | cons h rest ih =>
    have first := (wellFormed h List.mem_cons_self).safe prior .current
    have later := ih fun t member => wellFormed t (List.mem_cons_of_mem _ member)
    exact first.bind fun _ => later.bind fun _ => .pure _

variable {s t : Store σ}

/-- A registration adds one handler at the end. -/
theorem listen_ok {trigger : String} {props : List String} {listener : Payload → Script σ}
    (ran : s.listen trigger props listener = .ok t) :
    ∃ tree, s.trigger trigger = .ok tree ∧
      t = { s with handlers := s.handlers ++ [⟨tree, props, listener⟩] } := by
  unfold listen at ran
  split at ran
  · cases ran
  · obtain ⟨tree, compiled, ran⟩ := bind_ok ran
    cases ran
    exact ⟨tree, compiled, rfl⟩

/-- A handler can ask only for fields that there are. -/
theorem props_of_listen {trigger : String} {props : List String} {listener : Payload → Script σ}
    (ran : s.listen trigger props listener = .ok t) : ∀ prop ∈ props, prop ∈ s.live.names := by
  unfold listen at ran
  split at ran
  · cases ran
  · next asked =>
    intro prop member
    simpa [Table.contains_iff] using List.find?_eq_none.mp asked prop member

/-- A patch with an undeclared name changes nothing. -/
theorem commit_refused {patch : Patch} {name : String} (refused : s.undeclared? patch = some name) :
    s.commit patch = (.error (.unknownField name), s) := by
  rw [commit, refused]

namespace Consistent

theorem listen (consistent : s.Consistent declared) {trigger : String} {props : List String}
    {listener : Payload → Script σ} (ran : s.listen trigger props listener = .ok t) :
    t.Consistent declared := by
  obtain ⟨tree, compiled, rfl⟩ := listen_ok ran
  refine { consistent with triggers := fun h member => ?_ }
  rcases List.mem_append.mp member with old | new
  · exact consistent.triggers h old
  · cases List.mem_singleton.mp new
    exact consistent.trigger compiled

theorem undeclared?_eq_none (consistent : s.Consistent declared) {patch : Patch} :
    s.undeclared? patch = none ↔ ∀ p ∈ patch, p.1 ∈ declared := by
  simp only [undeclared?, Option.map_eq_none_iff, List.find?_eq_none, Bool.not_eq_true', Bool.not_eq_false,
    consistent.contains_iff]

theorem exists_undeclared (consistent : s.Consistent declared) {patch : Patch}
    (strange : ∃ p ∈ patch, p.1 ∉ declared) : ∃ name, s.undeclared? patch = some name := by
  obtain ⟨p, member, missing⟩ := strange
  apply Option.ne_none_iff_exists'.mp
  exact fun accepted => missing (consistent.undeclared?_eq_none.mp accepted p member)

/-- A patch of declared names is taken in: all rules and all triggers have their values, the snapshot
holds the fields as the rules leave them, and the live fields are those that the triggers leave. -/
theorem commit_accepted (consistent : s.Consistent declared) {patch : Patch}
    (known : ∀ p ∈ patch, p.1 ∈ declared) :
    ∃ settled handlers final,
      (runRules s.live s.rules).runOn (s.live.insertAll patch) = (.ok (), settled) ∧
        (fired s.live s.handlers.zipIdx).runOn settled = (.ok handlers, final) ∧
        settled.names = s.live.names ∧ final.names = s.live.names ∧
        s.commit patch = (.ok handlers, { s with live := final, history := s.history ++ [settled] }) := by
  have merged : (s.live.insertAll patch).names = s.live.names :=
    Table.names_insertAll fun p member => consistent.covers (known p member)
  obtain ⟨⟨⟩, settled, rules, same⟩ :=
    runRules_safe consistent.rules s.live (s.live.insertAll patch) (merged ▸ consistent.covers)
  have settledNames := same.trans merged
  have judged : ∀ h ∈ s.handlers.zipIdx, h.1.trigger.WellFormed declared := fun h member =>
    consistent.triggers h.1 (List.fst_mem_of_mem_zipIdx member)
  obtain ⟨handlers, final, triggers, unchanged⟩ :=
    fired_safe judged s.live settled (settledNames ▸ consistent.covers)
  refine ⟨settled, handlers, final, rules, triggers, settledNames, unchanged.trans settledNames, ?_⟩
  rw [commit, consistent.undeclared?_eq_none.mpr known]
  simp only [rules, triggers]

theorem commit (consistent : s.Consistent declared) (patch : Patch) :
    (s.commit patch).2.Consistent declared := by
  cases refused : s.undeclared? patch with
  | some name => exact (commit_refused refused).symm ▸ consistent
  | none =>
    have known := consistent.undeclared?_eq_none.mp refused
    obtain ⟨settled, handlers, final, _, _, settledNames, finalNames, accepted⟩ := consistent.commit_accepted known
    rw [accepted]
    refine { consistent with live := finalNames ▸ consistent.live, history := ?_, kept := by simp }
    intro f member
    rcases List.mem_append.mp member with old | new
    · exact consistent.history f old
    · cases List.mem_singleton.mp new
      exact settledNames ▸ consistent.live

end Consistent

end Store

end Rulebook
