import Mathlib.Data.List.Nodup
import Rulebook.Proofs.History.Audit
import Rulebook.Proofs.Store.Reachable

/-!
# Changes rebuild snapshots

The changes that an audit finds are the whole history: written into the first snapshot one after the other they lead
through all the others, `changes_rebuild_snapshots`.
-/

namespace Rulebook

namespace Fields

variable {fields before after : Fields} {cs ds : List Change} {version : Nat}

/-- The fields after the changes, each of which writes its new value. -/
def apply (fields : Fields) (cs : List Change) : Fields :=
  cs.foldl (fun fields c => fields.insert c.field c.after) fields

theorem apply_append : fields.apply (cs ++ ds) = (fields.apply cs).apply ds := List.foldl_append

theorem get?_apply_of_forall_ne {name : String} (others : ∀ c ∈ cs, c.field ≠ name) :
    (fields.apply cs).get? name = fields.get? name := by
  induction cs generalizing fields with
  | nil => rfl
  | cons c cs ih =>
    obtain ⟨first, later⟩ := List.forall_mem_cons.mp others
    exact (ih later).trans ((Table.get?_insert ..).trans (if_neg first))

theorem get?_apply_of_mem {c : Change} (distinct : (cs.map Change.field).Nodup) (member : c ∈ cs) :
    (fields.apply cs).get? c.field = some c.after := by
  induction cs generalizing fields with
  | nil => cases member
  | cons d cs ih =>
    obtain ⟨fresh, later⟩ := List.nodup_cons.mp distinct
    rcases List.mem_cons.mp member with rfl | behind
    · have others : ∀ d ∈ cs, d.field ≠ c.field := fun d behind same => fresh (same ▸ List.mem_map_of_mem behind)
      exact (get?_apply_of_forall_ne others).trans ((Table.get?_insert ..).trans (if_pos rfl))
    · exact ih later behind

/-! ### Changes in their places -/

/-- Each change in turn finds its field with the value before it, which is not the one after it. -/
def Fits (fields : Fields) : List Change → Prop
  | [] => True
  | c :: cs => (fields.get? c.field = some c.before ∧ c.before ≠ c.after) ∧ (fields.apply [c]).Fits cs

theorem fits_append : fields.Fits (cs ++ ds) ↔ fields.Fits cs ∧ (fields.apply cs).Fits ds := by
  induction cs generalizing fields with
  | nil => exact (iff_of_eq (true_and _)).symm
  | cons c cs ih => exact (and_congr_right fun _ => ih).trans and_assoc.symm

theorem fits_of_distinct (distinct : (cs.map Change.field).Nodup)
    (each : ∀ c ∈ cs, fields.get? c.field = some c.before ∧ c.before ≠ c.after) : fields.Fits cs := by
  induction cs generalizing fields with
  | nil => trivial
  | cons c cs ih =>
    obtain ⟨fresh, later⟩ := List.nodup_cons.mp distinct
    obtain ⟨first, others⟩ := List.forall_mem_cons.mp each
    refine ⟨first, ih later ?_⟩
    intro d behind
    have apart : ∀ e ∈ [c], e.field ≠ d.field := by
      simpa using fun same : c.field = d.field => fresh (same ▸ List.mem_map_of_mem behind)
    rw [get?_apply_of_forall_ne apart]
    exact others d behind

/-! ### From one snapshot to the next -/

theorem apply_changes (names : after.names.Perm before.names) (same : fields.Same before) :
    (fields.apply (changes version before after)).Same after := by
  intro name
  by_cases changed : ∃ c ∈ changes version before after, c.field = name
  · obtain ⟨c, member, rfl⟩ := changed
    rw [get?_apply_of_mem nodup_changes member, (mem_changes_iff.mp member).2.1]
  · have others : ∀ c ∈ changes version before after, c.field ≠ name := fun c member same => changed ⟨c, member, same⟩
    rw [get?_apply_of_forall_ne others, same name]
    cases read : after.get? name with
    | none => exact Table.get?_eq_none.mpr fun member => Table.get?_eq_none.mp read (names.mem_iff.mpr member)
    | some v =>
      have still : (before.get? name).getD .null = v :=
        by_contra fun other => changed ((exists_change_iff read).mpr other)
      obtain ⟨w, old⟩ := Table.exists_get?_of_mem (names.mem_iff.mp (Table.mem_names_of_get? read))
      rw [old] at still ⊢
      exact congrArg some still

theorem fits_changes (names : after.names.Perm before.names) (same : fields.Same before) :
    fields.Fits (changes version before after) := by
  apply fits_of_distinct nodup_changes
  intro c member
  obtain ⟨_, read, old, other⟩ := mem_changes_iff.mp member
  obtain ⟨w, value⟩ := Table.exists_get?_of_mem (names.mem_iff.mp (mem_changes member).2)
  refine ⟨?_, other⟩
  rw [same, old, value]
  rfl

end Fields

namespace History

variable {h : History} {declared : List String} {first : Fields}

/-! ### From the first snapshot on -/

theorem changes_upTo {version : Nat} (within : version < h.length) :
    (h.changes.filter fun c => c.version ≤ version) = (List.range (version + 1)).flatMap h.changesAt := by
  obtain ⟨k, size⟩ := Nat.exists_eq_add_of_le within
  have before : ∀ n ∈ List.range (version + 1),
      ((h.changesAt n).filter fun c => c.version ≤ version) = h.changesAt n := by
    intro n member
    rw [List.filter_eq_self]
    intro c change
    have := List.mem_range.mp member
    rw [version_of_mem_changesAt change]
    exact decide_eq_true (by omega)
  have behind : ∀ n ∈ (List.range k).map (version + 1 + ·),
      ((h.changesAt n).filter fun c => c.version ≤ version) = [] := by
    intro n member
    obtain ⟨m, _, rfl⟩ := List.mem_map.mp member
    rw [List.filter_eq_nil_iff]
    intro c change
    rw [version_of_mem_changesAt change, decide_eq_true_eq]
    omega
  rw [changes, size, List.range_add, List.flatMap_append, List.filter_append, List.filter_flatMap, List.filter_flatMap,
    List.flatMap_congr before, List.flatMap_eq_nil_iff.mpr behind, List.append_nil]

theorem exists_previous (alike : ∀ fields ∈ h, fields.names.Perm declared) {n : Nat} {fields : Fields}
    (stored : h[n + 1]? = some fields) : ∃ before, h[n]? = some before ∧ fields.names.Perm before.names := by
  obtain ⟨within, _⟩ := List.getElem?_eq_some_iff.mp stored
  have older : h[n]? = some (h.get ⟨n, Nat.lt_of_succ_lt within⟩) := List.getElem?_eq_getElem _
  exact ⟨_, older, (alike fields (List.mem_of_getElem? stored)).trans (alike _ (List.mem_of_getElem? older)).symm⟩

theorem apply_upTo (alike : ∀ fields ∈ h, fields.names.Perm declared) (begins : h[0]? = some first) {version : Nat}
    {fields : Fields} (stored : h[version]? = some fields) :
    first.Fits ((List.range (version + 1)).flatMap h.changesAt) ∧
      (first.apply ((List.range (version + 1)).flatMap h.changesAt)).Same fields := by
  induction version generalizing fields with
  | zero =>
    cases begins.symm.trans stored
    exact ⟨trivial, fun _ => rfl⟩
  | succ version ih =>
    obtain ⟨before, older, names⟩ := exists_previous alike stored
    obtain ⟨fits, same⟩ := ih older
    have last : (List.range (version + 1 + 1)).flatMap h.changesAt =
        (List.range (version + 1)).flatMap h.changesAt ++ Fields.changes (version + 1) before fields := by
      rw [List.range_succ, List.flatMap_append, List.flatMap_singleton, changesAt_succ older stored]
    rw [last, Fields.fits_append, Fields.apply_append]
    exact ⟨⟨fits, Fields.fits_changes names same⟩, Fields.apply_changes names same⟩

theorem nodup_changesAt (h : History) (n : Nat) : ((h.changesAt n).map Change.field).Nodup := by
  rcases changesAt_cases h n with none | ⟨_, _, _, _, _, _, same⟩
  · rw [none]
    exact List.nodup_nil
  · rw [same]
    exact Fields.nodup_changes

theorem nodup_changes (h : History) : (h.changes.map fun c => (c.version, c.field)).Nodup := by
  rw [changes, List.map_flatMap, List.nodup_flatMap]
  constructor
  · intro n _
    have fields := nodup_changesAt h n
    apply List.Nodup.of_map Prod.snd
    rwa [List.map_map]
  · apply List.nodup_range.imp
    intro n m apart p left right
    apply apart
    obtain ⟨c, member, rfl⟩ := List.mem_map.mp left
    obtain ⟨d, member', same⟩ := List.mem_map.mp right
    rw [← version_of_mem_changesAt member, ← version_of_mem_changesAt member', (Prod.mk.inj same).1]

end History

/-- Written into the first snapshot in their order, the changes up to a version make the snapshot of that version. Each
finds its field with the value that it is to have before, and changes it; and no field changes twice in one version. -/
theorem App.Reachable.changes_rebuild_snapshots {σ : Type} {c : Config} {app : App σ} (reachable : app.Reachable c) :
    let h := app.store.history
    (∃ first, h[0]? = some first ∧ ∀ version fields, h[version]? = some fields →
      let upTo := h.changes.filter fun change => change.version ≤ version
      (first.apply upTo).Same fields ∧
        ∀ done change rest, upTo = done ++ change :: rest →
          (first.apply done).get? change.field = some change.before ∧ change.before ≠ change.after) ∧
      (h.changes.map fun change => (change.version, change.field)).Nodup := by
  intro h
  have alike : ∀ fields ∈ h, fields.names.Perm c.data.names := reachable.consistent.history
  have begins : h[0]? = some (h.head reachable.consistent.kept) := by
    rw [List.head_eq_getElem]
    exact List.getElem?_eq_getElem _
  refine ⟨⟨_, begins, ?_⟩, History.nodup_changes h⟩
  intro version fields stored
  obtain ⟨within, _⟩ := List.getElem?_eq_some_iff.mp stored
  obtain ⟨fits, same⟩ := History.apply_upTo alike begins stored
  rw [← History.changes_upTo within] at fits same
  refine ⟨same, ?_⟩
  intro done change rest split
  rw [split, Fields.fits_append] at fits
  exact fits.2.1

namespace Pages

/-- The page that is shown, and how often one was left. -/
def config : Config where
  data := .ofList [("page", .text "login"), ("left", .number .zero)]

def state : State where
  live := config.data
  history := [config.data]
  vocabulary := { fields := .ofList [("page", "page"), ("left", "left")] }
  rules := []

/-- Four snapshots, of which one has its fields the other way round. -/
def history : History :=
  [.ofList [("page", .text "login"), ("left", .number .zero)],
    .ofList [("left", .number .one), ("page", .text "home")],
    .ofList [("page", .text "home"), ("left", .number .one)],
    .ofList [("page", .null), ("left", .number .one)]]

def app : App Unit := ((App.mk { toState := state } ()).restore history).2

theorem reachable : app.Reachable config := .restore _ (.built () (by decide))

theorem history_eq : app.store.history = history := by decide

end Pages

/-- Three changes in two versions make the last snapshot. -/
theorem pages_rebuilt :
    ∃ first last, Pages.app.store.history[0]? = some first ∧ Pages.app.store.history[3]? = some last ∧
      (first.apply [⟨1, "left", .number .zero, .number .one⟩, ⟨1, "page", .text "login", .text "home"⟩,
        ⟨3, "page", .text "home", .null⟩]).Same last := by
  obtain ⟨⟨first, begins, rebuilt⟩, _⟩ := Pages.reachable.changes_rebuild_snapshots
  obtain ⟨last, stored⟩ : ∃ last, Pages.app.store.history[3]? = some last := by
    rw [Pages.history_eq]
    exact ⟨_, rfl⟩
  have changes : (Pages.app.store.history.changes.filter fun change => change.version ≤ 3) =
      [⟨1, "left", .number .zero, .number .one⟩, ⟨1, "page", .text "login", .text "home"⟩,
        ⟨3, "page", .text "home", .null⟩] := by
    rw [Pages.history_eq]
    decide
  exact ⟨first, last, begins, stored, changes ▸ (rebuilt 3 last stored).1⟩

end Rulebook
