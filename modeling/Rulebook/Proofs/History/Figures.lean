import Mathlib.Algebra.GroupWithZero.Nat
import Mathlib.Data.List.Dedup
import Rulebook.History.Report
import Rulebook.Proofs.History.Changes

/-!
# The figures of a report

The changes of a history counted in several ways: all together, by field, by version, along the timeline of a field,
and by the versions that have none. All of them look at neighbouring snapshots, `updates_map_changesAt`, and so they
agree, `figures_agree`.
-/

namespace Rulebook

variable {α β : Type}

/-! ### Neighbours -/

/-- Each element of the list but the last, with the next one. -/
def neighbours (l : List α) : List (α × α) := l.zip l.tail

theorem neighbours_map (f : α → β) (l : List α) : neighbours (l.map f) = (neighbours l).map (Prod.map f f) := by
  rw [neighbours, ← List.map_tail, List.zip_map]
  rfl

theorem mem_of_mem_neighbours {p : α × α} {l : List α} (member : p ∈ neighbours l) : p.1 ∈ l ∧ p.2 ∈ l :=
  (List.of_mem_zip member).imp_right List.mem_of_mem_tail

/-- A row of lists with at most one element each is as long as there are lists that have one. -/
theorem length_flatMap_eq_countP {l : List α} {f : α → List β} {kept : α → Bool}
    (each : ∀ a ∈ l, (f a).length = if kept a then 1 else 0) : (l.flatMap f).length = l.countP kept := by
  induction l with
  | nil => rfl
  | cons a l ih =>
    obtain ⟨first, later⟩ := List.forall_mem_cons.mp each
    rw [List.flatMap_cons, List.length_append, first, ih later, List.countP_cons, Nat.add_comm]

/-! ### Tallies -/

namespace Table

theorem sum_put (name : String) (n : Nat) (l : List (String × Nat)) :
    ((put name n l).map Prod.snd).sum + (find? name l).getD 0 = (l.map Prod.snd).sum + n := by
  induction l with
  | nil => simp [put, find?]
  | cons p rest ih =>
    obtain ⟨key, m⟩ := p
    by_cases here : key = name
    · simp only [put, find?, if_pos here, List.map_cons, List.sum_cons, Option.getD_some]
      omega
    · simp only [put, find?, if_neg here, List.map_cons, List.sum_cons]
      omega

theorem sum_values_insert (t : Table Nat) (name : String) :
    (t.insert name ((t.get? name).getD 0 + 1)).values.sum = t.values.sum + 1 := by
  have sum := sum_put name ((t.get? name).getD 0 + 1) t.entries
  change (t.insert name _).values.sum + (t.get? name).getD 0 = t.values.sum + _ at sum
  omega

end Table

namespace History

variable {h : History} {declared : List String} {first : Fields}

theorem sum_tally (t : Table Nat) (cs : List Change) : (tally t cs).values.sum = t.values.sum + cs.length := by
  induction cs generalizing t with
  | nil => rfl
  | cons c cs ih =>
    rw [tally_cons, ih, Table.sum_values_insert, List.length_cons]
    omega

theorem names_tally {t : Table Nat} {cs : List Change} (known : ∀ c ∈ cs, c.field ∈ t.names) :
    (tally t cs).names = t.names := by
  induction cs generalizing t with
  | nil => rfl
  | cons c cs ih =>
    obtain ⟨present, later⟩ := List.forall_mem_cons.mp known
    have same := Table.names_insert_of_mem ((t.get? c.field).getD 0 + 1) present
    rw [tally_cons, ih (by rwa [same]), same]

theorem entries_zeros (first : Fields) : (zeros first).entries = first.names.map fun name => (name, 0) := by
  have distinct : ((first.names.map fun name => (name, 0)).map Prod.fst).Nodup := by
    simpa [Function.comp_def] using first.nodup_names
  exact Table.entries_insertAll distinct

theorem names_zeros (first : Fields) : (zeros first).names = first.names := by
  simp [Table.names, entries_zeros, Function.comp_def]

theorem sum_zeros (first : Fields) : (zeros first).values.sum = 0 := by
  simp [Table.values, entries_zeros, Function.comp_def]

/-! ### Pairs of snapshots -/

/-- The changes of the updates are those between neighbouring snapshots. -/
theorem updates_map_changesAt (h : History) :
    h.updates.map h.changesAt = ((neighbours h).zipIdx 1).map fun p => Fields.changes p.2 p.1.1 p.1.2 := by
  apply List.ext_getElem
  · simp [updates, neighbours]
  · intro n left right
    have within : n + 1 < h.length := by
      simp only [updates, List.length_map, List.length_range'] at left
      omega
    have here := changesAt_succ (List.getElem?_eq_getElem (Nat.lt_of_succ_lt within)) (List.getElem?_eq_getElem within)
    simpa [updates, neighbours, Nat.add_comm 1] using here

/-- Neighbouring snapshots without changes between them are the same mapping. -/
theorem changes_eq_nil_iff {version : Nat} {before after : Fields} (names : after.names.Perm before.names) :
    Fields.changes version before after = [] ↔ before.Same after := by
  constructor
  · intro none
    have same : (before.apply (Fields.changes version before after)).Same after :=
      Fields.apply_changes names fun _ => rfl
    rwa [none] at same
  · intro same
    rw [List.eq_nil_iff_forall_not_mem]
    intro c member
    obtain ⟨_, read, old, other⟩ := Fields.mem_changes_iff.mp member
    rw [same, read] at old
    exact other old

theorem idle_eq (h : History) (n : Nat) : (!h.changes.any fun c => c.version = n) = (h.changesAt n).isEmpty := by
  rw [Bool.eq_iff_iff, Bool.not_eq_true', ← Bool.not_eq_true, List.any_eq_true, List.isEmpty_iff,
    List.eq_nil_iff_forall_not_mem, not_exists]
  apply forall_congr'
  intro c
  apply not_congr
  constructor
  · rintro ⟨member, same⟩
    exact of_decide_eq_true same ▸ mem_changes_iff.mp member
  · intro member
    have version := version_of_mem_changesAt member
    exact ⟨mem_changes_iff.mpr (version ▸ member), decide_eq_true version⟩

/-- Idle are the updates after which the snapshot is the same mapping as before. -/
theorem length_idleUpdates (alike : ∀ fields ∈ h, fields.names.Perm declared) :
    h.idleUpdates.length = (neighbours h).countP fun p => p.1.Same p.2 := by
  have still : ∀ p ∈ (neighbours h).zipIdx 1, (Fields.changes p.2 p.1.1 p.1.2).isEmpty = decide (p.1.1.Same p.1.2) := by
    intro p member
    obtain ⟨older, newer⟩ := mem_of_mem_neighbours (List.fst_mem_of_mem_zipIdx member)
    rw [Bool.eq_iff_iff, List.isEmpty_iff, decide_eq_true_iff]
    exact changes_eq_nil_iff ((alike _ newer).trans (alike _ older).symm)
  calc h.idleUpdates.length
      = (h.updates.map h.changesAt).countP List.isEmpty := by
        rw [idleUpdates, List.filter_congr fun n _ => idle_eq h n, List.countP_map, List.countP_eq_length_filter]
        rfl
    _ = (((neighbours h).zipIdx 1).map Prod.fst).countP fun p => p.1.Same p.2 := by
        rw [updates_map_changesAt, List.countP_map, List.countP_map]
        exact List.countP_congr fun p member => Bool.eq_iff_iff.mp (still p member)
    _ = (neighbours h).countP fun p => p.1.Same p.2 := by rw [List.zipIdx_map_fst]

theorem version_mem_updates {c : Change} (member : c ∈ h.changes) : c.version ∈ h.updates := by
  obtain ⟨m, _, _, next, _, newer, _⟩ := exists_of_mem_changesAt (mem_changes_iff.mp member)
  obtain ⟨within, _⟩ := List.getElem?_eq_some_iff.mp newer
  rw [updates, List.mem_range'_1]
  omega

/-- Each update is idle or the version of some change. -/
theorem length_idleUpdates_add (h : History) :
    h.idleUpdates.length + (h.changes.map Change.version).dedup.length = h.updates.length := by
  have changed : (h.changes.map Change.version).dedup.Perm
      (h.updates.filter fun n => h.changes.any fun c => c.version = n) := by
    apply (List.perm_ext_iff_of_nodup (List.nodup_dedup _) ((List.nodup_range').filter _)).mpr
    intro n
    rw [List.mem_dedup, List.mem_map, List.mem_filter, List.any_eq_true]
    simp only [decide_eq_true_iff]
    constructor
    · rintro ⟨c, member, rfl⟩
      exact ⟨version_mem_updates member, c, member, rfl⟩
    · exact And.right
  rw [changed.length_eq, idleUpdates, ← List.countP_eq_length_filter, ← List.countP_eq_length_filter, Nat.add_comm,
    List.length_eq_countP_add_countP fun n => h.changes.any fun c => c.version = n]
  simp only [Bool.not_eq_true, Bool.decide_eq_false]

/-! ### One field -/

theorem field_mem_declared (alike : ∀ fields ∈ h, fields.names.Perm declared) {c : Change} (member : c ∈ h.changes) :
    c.field ∈ declared := by
  obtain ⟨_, _, after, _, _, newer, between⟩ := exists_of_mem_changesAt (mem_changes_iff.mp member)
  exact (alike after (List.mem_of_getElem? newer)).mem_iff.mp (Fields.mem_changes between).2

variable {f : String}

/-- What a snapshot says of the field. -/
def saying (f : String) (fields : Fields) : Value := (fields.get? f).getD .null

theorem timeline_values (holding : ∀ fields ∈ h, f ∈ fields.names) :
    (h.timeline f).map Prod.snd = h.map (saying f) := by
  have all : h.timeline f = h.zipIdx.map fun p => (p.2, saying f p.1) := by
    rw [timeline, ← List.filterMap_eq_map]
    apply List.filterMap_congr
    intro p member
    obtain ⟨v, read⟩ := Table.exists_get?_of_mem (holding p.1 (List.fst_mem_of_mem_zipIdx member))
    simp [saying, read]
  calc (h.timeline f).map Prod.snd
      = (h.zipIdx.map Prod.fst).map (saying f) := by
        rw [all, List.map_map, List.map_map]
        rfl
    _ = h.map (saying f) := by rw [List.zipIdx_map_fst]

theorem length_filter_fields_changes {version : Nat} {before after : Fields} (holds : f ∈ after.names) :
    ((Fields.changes version before after).filter fun c => c.field = f).length =
      if saying f before ≠ saying f after then 1 else 0 := by
  obtain ⟨v, read⟩ := Table.exists_get?_of_mem holds
  unfold saying
  rw [Fields.filter_changes read, read, Option.getD_some]
  by_cases same : (before.get? f).getD .null = v
  · rw [if_neg (not_not_intro same), if_pos same, List.length_nil]
  · rw [if_pos same, if_neg same, List.length_singleton]

/-- A field changes as often as neighbouring values in its timeline differ. -/
theorem length_filter_changes (holding : ∀ fields ∈ h, f ∈ fields.names) :
    (h.changes.filter fun c => c.field = f).length = (neighbours (h.timeline f)).countP fun p => p.1.2 ≠ p.2.2 := by
  have each : ∀ p ∈ (neighbours h).zipIdx 1,
      ((Fields.changes p.2 p.1.1 p.1.2).filter fun c => c.field = f).length =
        if decide (saying f p.1.1 ≠ saying f p.1.2) then 1 else 0 := by
    intro p member
    have newer := (mem_of_mem_neighbours (List.fst_mem_of_mem_zipIdx member)).2
    rw [length_filter_fields_changes (holding p.1.2 newer)]
    simp only [decide_eq_true_iff]
  calc (h.changes.filter fun c => c.field = f).length
      = (((neighbours h).zipIdx 1).flatMap fun p =>
          (Fields.changes p.2 p.1.1 p.1.2).filter fun c => c.field = f).length := by
        rw [changes_eq, List.flatMap_def, updates_map_changesAt, ← List.flatMap_def, List.filter_flatMap]
    _ = (((neighbours h).zipIdx 1).map Prod.fst).countP fun p => saying f p.1 ≠ saying f p.2 := by
        rw [length_flatMap_eq_countP each, List.countP_map]
        rfl
    _ = (neighbours (h.map (saying f))).countP fun p => p.1 ≠ p.2 := by
        rw [List.zipIdx_map_fst, neighbours_map, List.countP_map]
        rfl
    _ = (neighbours (h.timeline f)).countP fun p => p.1.2 ≠ p.2.2 := by
        rw [← timeline_values holding, neighbours_map, List.countP_map]
        rfl

end History

/-- The changes of a report are as many as those of its fields taken together, and as those of the versions. A field
has as many as its timeline has neighbouring values that differ. Idle are as many updates as there are neighbouring
snapshots that are the same mapping, and every other update is the version of some change. -/
theorem App.Reachable.figures_agree {σ : Type} {c : Config} {app : App σ} (reachable : app.Reachable c) :
    let h := app.store.history
    let r := h.report
    (r.changes = r.changeCounts.values.sum ∧
      r.changes = ((List.range h.length).map fun version => (h.changesAt version).length).sum) ∧
    (r.changeCounts.Covers c.data.names ∧ ∀ f ∈ c.data.names,
      r.changeCounts.get? f = some ((neighbours (h.timeline f)).countP fun p => p.1.2 ≠ p.2.2)) ∧
    r.idleUpdates = ((neighbours h).countP fun p => p.1.Same p.2) ∧
    r.idleUpdates + (h.changes.map Change.version).dedup.length = r.updates := by
  intro h r
  have alike : ∀ fields ∈ h, fields.names.Perm c.data.names := reachable.consistent.history
  obtain ⟨first, begins⟩ : ∃ first, h.head? = some first := ⟨_, List.head?_eq_some_head reachable.consistent.kept⟩
  have names := alike first (List.mem_of_head? begins)
  have counts : r.changeCounts = History.tally (History.zeros first) h.changes := History.changeCounts_eq begins
  have known : ∀ change ∈ h.changes, change.field ∈ (History.zeros first).names := by
    intro change member
    rw [History.names_zeros, names.mem_iff]
    exact History.field_mem_declared alike member
  refine ⟨⟨?_, List.length_flatMap⟩, ⟨?_, ?_⟩, History.length_idleUpdates alike, History.length_idleUpdates_add h⟩
  · rw [counts, History.sum_tally, History.sum_zeros, Nat.zero_add]
    rfl
  · intro name
    rw [counts, History.names_tally known, History.names_zeros, names.mem_iff]
  · intro f declared
    have holding : ∀ fields ∈ h, f ∈ fields.names := fun fields member => (alike fields member).mem_iff.mpr declared
    rw [← History.length_filter_changes holding]
    exact History.get?_changeCounts begins (names.mem_iff.mpr declared)

/-- Of the three updates one is idle, though its snapshot has the fields in another order. -/
theorem pages_figures_agree :
    Pages.app.store.history.report.changes = 3 ∧ Pages.app.store.history.report.idleUpdates = 1 ∧
      Pages.app.store.history.report.changeCounts.get? "page" = some 2 := by
  obtain ⟨⟨_, versions⟩, ⟨_, fields⟩, idle, _⟩ := Pages.reachable.figures_agree
  refine ⟨versions.trans ?_, idle.trans ?_, (fields "page" (by decide)).trans ?_⟩
  · rw [Pages.history_eq]
    decide
  · rw [Pages.history_eq]
    decide
  · rw [Pages.history_eq]
    decide

end Rulebook
