import Rulebook.History.Report
import Rulebook.Proofs.Table

/-!
# What audits count

The changes of one field, version by version: there is at most one in each, and the change counts are their
number.
-/

namespace Rulebook

namespace Table

variable {α : Type}

theorem get?_insertAll_of_not_mem {t : Table α} {pairs : List (String × α)} {name : String}
    (absent : name ∉ pairs.map Prod.fst) : (t.insertAll pairs).get? name = t.get? name := by
  induction pairs generalizing t with
  | nil => rfl
  | cons p pairs ih =>
    rw [List.map_cons, List.mem_cons, not_or] at absent
    have rest : (t.insertAll (p :: pairs)).get? name = (t.insert p.1 p.2).get? name := ih absent.2
    rw [rest, get?_insert, if_neg fun same => absent.1 same.symm]

theorem get?_insertAll_const {t : Table α} {names : List String} {name : String} (a : α) (member : name ∈ names) :
    (t.insertAll (names.map fun name => (name, a))).get? name = some a := by
  induction names generalizing t with
  | nil => cases member
  | cons first names ih =>
    by_cases later : name ∈ names
    · exact ih later
    · obtain rfl : name = first := (List.mem_cons.mp member).resolve_right later
      have rest : ((t.insert name a).insertAll (names.map fun name => (name, a))).get? name =
          (t.insert name a).get? name := get?_insertAll_of_not_mem (by simpa using later)
      refine rest.trans ?_
      rw [get?_insert, if_pos rfl]

end Table

namespace Fields

variable {version : Nat} {before : Fields}

theorem changes_cons {name : String} {v : Value} {rest : List (String × Value)}
    (nodup : (((name, v) :: rest).map Prod.fst).Nodup) :
    changes version before ⟨(name, v) :: rest, nodup⟩ =
      (if (before.get? name).getD .null = v then [] else [⟨version, name, (before.get? name).getD .null, v⟩]) ++
        changes version before ⟨rest, (List.nodup_cons.mp nodup).2⟩ := by
  simp only [changes, List.filterMap_cons]
  by_cases same : (before.get? name).getD .null = v
  · simp [same]
  · simp [same]

theorem mem_changes {after : Fields} {c : Change} (member : c ∈ changes version before after) :
    c.version = version ∧ c.field ∈ after.names := by
  obtain ⟨p, stored, made⟩ := List.mem_filterMap.mp member
  obtain ⟨name, v⟩ := p
  simp only at made
  split at made
  · cases made
  · cases made
    exact ⟨rfl, List.mem_map_of_mem stored⟩

/-- The changes are exactly the steps of fields from one value to another. -/
theorem mem_changes_iff {after : Fields} {c : Change} :
    c ∈ changes version before after ↔ c.version = version ∧ after.get? c.field = some c.after ∧
      c.before = (before.get? c.field).getD .null ∧ c.before ≠ c.after := by
  rw [changes, List.mem_filterMap]
  constructor
  · rintro ⟨⟨name, v⟩, stored, made⟩
    have read : after.get? name = some v := Table.find?_of_mem after.nodup stored
    simp only at made
    split at made
    · cases made
    · next other =>
      cases made
      exact ⟨rfl, read, rfl, other⟩
  · rintro ⟨rfl, read, old, other⟩
    refine ⟨(c.field, c.after), Table.mem_entries_of_find? read, ?_⟩
    simp only [← old, if_neg other]

/-- No field changes twice between two snapshots. -/
theorem nodup_changes {after : Fields} : ((changes version before after).map Change.field).Nodup := by
  have sublist : ((changes version before after).map Change.field).Sublist after.names := by
    obtain ⟨entries, nodup⟩ := after
    induction entries with
    | nil => exact List.nil_sublist _
    | cons p rest ih =>
      obtain ⟨name, v⟩ := p
      have later := ih (List.nodup_cons.mp nodup).2
      rw [changes_cons, List.map_append]
      split
      · exact later.cons name
      · exact later.cons_cons name
  exact sublist.nodup after.nodup_names

/-- A field changes at most once between two snapshots, from its value before to its value after. -/
theorem filter_changes {after : Fields} {name : String} {v : Value} (read : after.get? name = some v) :
    ((changes version before after).filter fun c => c.field = name) =
      if (before.get? name).getD .null = v then [] else [⟨version, name, (before.get? name).getD .null, v⟩] := by
  have inside : ((changes version before after).filter fun c => c.field = name) =
      (after.entries.filter fun p => p.1 = name).filterMap fun p =>
        if (before.get? p.1).getD .null = p.2 then none
        else some ⟨version, p.1, (before.get? p.1).getD .null, p.2⟩ := by
    rw [changes, List.filter_filterMap, List.filterMap_filter]
    refine List.filterMap_congr fun p _ => ?_
    by_cases here : p.1 = name
    · subst here
      by_cases same : (before.get? p.1).getD .null = p.2 <;> simp [same]
    · by_cases same : (before.get? p.1).getD .null = p.2 <;> simp [same, here]
  rw [inside, Table.filter_of_find? after.nodup read]
  by_cases same : (before.get? name).getD .null = v <;> simp [same]

theorem exists_change_iff {after : Fields} {name : String} {v : Value} (read : after.get? name = some v) :
    (∃ c ∈ changes version before after, c.field = name) ↔ (before.get? name).getD .null ≠ v := by
  constructor
  · rintro ⟨c, member, rfl⟩ same
    obtain ⟨_, new, old, other⟩ := mem_changes_iff.mp member
    cases read.symm.trans new
    exact other (old.trans same)
  · exact fun other => ⟨⟨version, name, _, v⟩, mem_changes_iff.mpr ⟨rfl, read, rfl, other⟩, rfl⟩

end Fields

namespace History

variable {h : History} {first : Fields}

theorem changesAt_succ {n : Nat} {before after : Fields} (older : h[n]? = some before)
    (newer : h[n + 1]? = some after) : h.changesAt (n + 1) = Fields.changes (n + 1) before after := by
  rw [changesAt, older, newer]

/-- A version that brings changes follows another one. -/
theorem changesAt_cases (h : History) (n : Nat) :
    h.changesAt n = [] ∨ ∃ m before after, n = m + 1 ∧ h[m]? = some before ∧ h[n]? = some after ∧
      h.changesAt n = Fields.changes n before after := by
  cases n with
  | zero => exact .inl rfl
  | succ m =>
    cases older : h[m]? with
    | none => exact .inl (by rw [changesAt, older])
    | some before =>
      cases newer : h[m + 1]? with
      | none => exact .inl (by rw [changesAt, older, newer])
      | some after => exact .inr ⟨m, before, after, rfl, older, rfl, changesAt_succ older newer⟩

theorem exists_of_mem_changesAt {n : Nat} {c : Change} (member : c ∈ h.changesAt n) :
    ∃ m before after, n = m + 1 ∧ h[m]? = some before ∧ h[n]? = some after ∧ c ∈ Fields.changes n before after := by
  rcases changesAt_cases h n with none | ⟨m, before, after, next, older, newer, same⟩
  · rw [none] at member
    cases member
  · exact ⟨m, before, after, next, older, newer, same ▸ member⟩

theorem version_of_mem_changesAt {n : Nat} {c : Change} (member : c ∈ h.changesAt n) : c.version = n := by
  obtain ⟨_, _, _, _, _, _, between⟩ := exists_of_mem_changesAt member
  exact (Fields.mem_changes between).1

theorem mem_changes_iff {c : Change} : c ∈ h.changes ↔ c ∈ h.changesAt c.version := by
  rw [changes, List.mem_flatMap]
  constructor
  · rintro ⟨n, _, member⟩
    rwa [version_of_mem_changesAt member]
  · intro member
    obtain ⟨_, _, _, _, _, newer, _⟩ := exists_of_mem_changesAt member
    obtain ⟨within, _⟩ := List.getElem?_eq_some_iff.mp newer
    exact ⟨c.version, List.mem_range.mpr within, member⟩

theorem query_field (h : History) (f : String) :
    h.query { field? := some f } = h.changes.filter fun c => c.field = f := by
  refine List.filter_congr fun c _ => ?_
  simp only [Query.accepts, Option.all_none, Option.all_some, Bool.true_and, Bool.and_true]
  exact decide_eq_decide.mpr eq_comm

/-- Only updates bring changes. -/
theorem changes_eq (h : History) : h.changes = h.updates.flatMap h.changesAt := by
  cases h with
  | nil => rfl
  | cons first rest =>
    rw [changes, updates, List.length_cons, List.range_eq_range', List.range'_succ, List.flatMap_cons]
    rfl

/-- A table of counts, raised by one for the field of each change. -/
def tally (t : Table Nat) (cs : List Change) : Table Nat :=
  cs.foldl (fun t c => t.insert c.field ((t.get? c.field).getD 0 + 1)) t

theorem tally_cons (t : Table Nat) (c : Change) (cs : List Change) :
    tally t (c :: cs) = tally (t.insert c.field ((t.get? c.field).getD 0 + 1)) cs := rfl

theorem get?_tally (cs : List Change) {t : Table Nat} {name : String} {n : Nat} (start : t.get? name = some n) :
    (tally t cs).get? name = some (n + (cs.filter fun c => c.field = name).length) := by
  induction cs generalizing t n with
  | nil => exact start
  | cons c cs ih =>
    by_cases here : c.field = name
    · have next : (t.insert c.field ((t.get? c.field).getD 0 + 1)).get? name = some (n + 1) := by
        rw [Table.get?_insert, if_pos here, here, start]
        rfl
      rw [tally_cons, ih next, List.filter_cons_of_pos (by simpa using here), List.length_cons]
      congr 1
      omega
    · have next : (t.insert c.field ((t.get? c.field).getD 0 + 1)).get? name = some n := by
        rw [Table.get?_insert, if_neg here, start]
      rw [tally_cons, ih next, List.filter_cons_of_neg (by simpa using here)]

/-- Each field of the first snapshot, with no change so far. -/
def zeros (first : Fields) : Table Nat := .ofList (first.names.map fun name => (name, 0))

theorem changeCounts_eq (begins : h.head? = some first) : h.changeCounts = tally (zeros first) h.changes := by
  rw [changeCounts, begins]
  rfl

/-- The count of a field is the number of its changes. -/
theorem get?_changeCounts {name : String} (begins : h.head? = some first) (declared : name ∈ first.names) :
    h.changeCounts.get? name = some (h.changes.filter fun c => c.field = name).length := by
  have zero : (zeros first).get? name = some 0 := Table.get?_insertAll_const 0 declared
  have counted := get?_tally h.changes zero
  rwa [Nat.zero_add, ← changeCounts_eq begins] at counted

end History

end Rulebook
