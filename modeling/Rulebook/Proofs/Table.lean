import Mathlib.Data.List.Induction
import Mathlib.Data.List.Perm.Subperm
import Rulebook.Value

/-!
# What writing does to a table

The names and the values of a table after each way to write to it, and what it means to hold exactly
some names.
-/

namespace Rulebook

namespace Table

variable {α : Type}

theorem nodup_names (t : Table α) : t.names.Nodup := t.nodup

theorem length_names (t : Table α) : t.names.length = t.size := List.length_map ..

/-! ### Reading -/

theorem mem_of_find? {name : String} {a : α} {l : List (String × α)} (found : find? name l = some a) :
    a ∈ l.map Prod.snd := by
  induction l with
  | nil => cases found
  | cons p rest ih =>
    rw [find?] at found
    split at found
    · cases found
      exact List.mem_cons_self
    · exact List.mem_cons_of_mem _ (ih found)

theorem mem_values_of_get? {t : Table α} {name : String} {a : α} (found : t.get? name = some a) :
    a ∈ t.values := mem_of_find? found

theorem find?_of_mem {l : List (String × α)} {name : String} {a : α} (nodup : (l.map Prod.fst).Nodup)
    (member : (name, a) ∈ l) : find? name l = some a := by
  induction l with
  | nil => cases member
  | cons p rest ih =>
    obtain ⟨fresh, later⟩ := List.nodup_cons.mp nodup
    rcases List.mem_cons.mp member with rfl | behind
    · rw [find?, if_pos rfl]
    · have other : p.1 ≠ name := fun same => fresh (same ▸ List.mem_map_of_mem behind)
      rw [find?, if_neg other, ih later behind]

theorem exists_get?_of_mem_values {t : Table α} {a : α} (member : a ∈ t.values) :
    ∃ name, t.get? name = some a := by
  obtain ⟨p, stored, rfl⟩ := List.mem_map.mp member
  exact ⟨p.1, find?_of_mem t.nodup stored⟩

theorem contains_eq_false {t : Table α} {name : String} : t.contains name = false ↔ name ∉ t.names := by
  rw [← contains_iff, Bool.not_eq_true]

theorem get?_eq_none {t : Table α} {name : String} : t.get? name = none ↔ name ∉ t.names := by
  rw [← contains_eq_false, contains, Option.isSome_eq_false_iff, Option.isNone_iff_eq_none]

theorem mem_names_of_get? {t : Table α} {name : String} {a : α} (found : t.get? name = some a) : name ∈ t.names :=
  contains_iff.mp (Option.isSome_of_eq_some found)

theorem exists_get?_of_mem {t : Table α} {name : String} (present : name ∈ t.names) : ∃ a, t.get? name = some a :=
  Option.isSome_iff_exists.mp (contains_iff.mpr present)

/-! ### Writing -/

theorem put_of_not_mem {name : String} {a : α} {l : List (String × α)} (fresh : name ∉ l.map Prod.fst) :
    put name a l = l ++ [(name, a)] := by
  induction l with
  | nil => rfl
  | cons p rest ih =>
    rw [List.map_cons, List.mem_cons, not_or] at fresh
    rw [put, if_neg fun same => fresh.1 same.symm, ih fresh.2, List.cons_append]

theorem mem_put {name : String} {a : α} {p : String × α} {l : List (String × α)} (member : p ∈ put name a l) :
    p = (name, a) ∨ p ∈ l := by
  induction l with
  | nil => exact Or.inl (List.mem_singleton.mp member)
  | cons q rest ih =>
    rw [put] at member
    split at member
    · next same =>
      exact (List.mem_cons.mp member).imp (fun first => first.trans (by rw [same])) (List.mem_cons_of_mem _)
    · rcases List.mem_cons.mp member with rfl | later
      · exact Or.inr List.mem_cons_self
      · exact (ih later).imp_right (List.mem_cons_of_mem _)

theorem values_insert {t : Table α} {name : String} (a : α) (fresh : t.contains name = false) :
    (t.insert name a).values = t.values ++ [a] := by
  have entries : (t.insert name a).entries = t.entries ++ [(name, a)] :=
    put_of_not_mem (contains_eq_false.mp fresh)
  rw [values, entries, List.map_append]
  rfl

theorem mem_values_insert {t : Table α} {name : String} {a b : α} (member : b ∈ (t.insert name a).values) :
    b = a ∨ b ∈ t.values := by
  obtain ⟨p, stored, rfl⟩ := List.mem_map.mp member
  exact (mem_put stored).imp (congrArg Prod.snd) fun old => List.mem_map.mpr ⟨p, old, rfl⟩

theorem names_insert_of_mem {t : Table α} {name : String} (a : α) (present : name ∈ t.names) :
    (t.insert name a).names = t.names := (t.names_insert name a).trans (if_pos present)

theorem names_insertAll {t : Table α} {pairs : List (String × α)} (present : ∀ p ∈ pairs, p.1 ∈ t.names) :
    (t.insertAll pairs).names = t.names := by
  induction pairs generalizing t with
  | nil => rfl
  | cons p pairs ih =>
    have first := names_insert_of_mem p.2 (present p List.mem_cons_self)
    have rest : ∀ q ∈ pairs, q.1 ∈ (t.insert p.1 p.2).names := fun q member =>
      first.symm ▸ present q (List.mem_cons_of_mem _ member)
    exact (ih rest).trans first

theorem ext_entries {t u : Table α} (same : t.entries = u.entries) : t = u := by
  cases t
  cases u
  cases same
  rfl

theorem entries_insertAll {t : Table α} {pairs : List (String × α)}
    (distinct : ((t.entries ++ pairs).map Prod.fst).Nodup) : (t.insertAll pairs).entries = t.entries ++ pairs := by
  induction pairs generalizing t with
  | nil => exact (List.append_nil _).symm
  | cons p pairs ih =>
    have fresh : p.1 ∉ t.entries.map Prod.fst := by
      rw [List.map_append, List.nodup_append] at distinct
      exact fun member => distinct.2.2 p.1 member p.1 List.mem_cons_self rfl
    have stored : (t.insert p.1 p.2).entries = t.entries ++ [p] := put_of_not_mem fresh
    have rest : ((t.insert p.1 p.2).insertAll pairs).entries = (t.insert p.1 p.2).entries ++ pairs :=
      ih (by rw [stored]; simpa using distinct)
    rw [stored, List.append_assoc] at rest
    exact rest

theorem entries_insertAll_entries {t u : Table α} (apart : ∀ name ∈ t.names, name ∉ u.names) :
    (t.insertAll u.entries).entries = t.entries ++ u.entries := by
  apply entries_insertAll
  rw [List.map_append, List.nodup_append]
  exact ⟨t.nodup, u.nodup, fun name left other right same => apart name left (same ▸ right)⟩

/-- A table is made of its own entries. -/
theorem ofList_entries (t : Table α) : ofList t.entries = t := by
  have all : (insertAll ∅ t.entries).entries = t.entries := entries_insertAll t.nodup
  exact ext_entries all

theorem replace?_of_mem {t : Table α} {name : String} (a : α) (present : name ∈ t.names) :
    t.replace? name a = some (t.insert name a) := if_pos (contains_iff.mpr present)

theorem replace?_eq_none {t : Table α} {name : String} {a : α} :
    t.replace? name a = none ↔ name ∉ t.names := by
  rw [replace?, ← contains_eq_false]
  cases t.contains name <;> simp

/-! ### Tables of pairs -/

theorem ofList_concat (pairs : List (String × α)) (p : String × α) :
    ofList (pairs ++ [p]) = (ofList pairs).insert p.1 p.2 := List.foldl_append

/-- The names stand in the order in which they first came. -/
theorem names_ofList (pairs : List (String × α)) : (ofList pairs).names = (pairs.map Prod.fst).eraseDups := by
  induction pairs using List.reverseRecOn with
  | nil => rfl
  | append_singleton pairs p ih =>
    rw [ofList_concat, names_insert, ih, List.map_append, List.eraseDups_append]
    by_cases present : p.1 ∈ pairs.map Prod.fst
    · rw [if_pos (List.mem_eraseDups.mpr present)]
      simp [List.removeAll, present]
    · rw [if_neg fun held => present (List.mem_eraseDups.mp held)]
      simp [List.removeAll, present, List.eraseDups_cons]

theorem get?_ofList_map (value : String → α) {names : List String} {name : String} (asked : name ∈ names) :
    (ofList (names.map fun name => (name, value name))).get? name = some (value name) := by
  induction names using List.reverseRecOn with
  | nil => cases asked
  | append_singleton names last ih =>
    rw [List.map_append, List.map_singleton, ofList_concat, get?_insert]
    split
    · next same =>
      obtain rfl := same
      rfl
    · next other =>
      rcases List.mem_append.mp asked with before | behind
      · exact ih before
      · exact (other (List.mem_singleton.mp behind).symm).elim

/-! ### Taking out -/

def erase (t : Table α) (name : String) : Table α where
  entries := t.entries.filter fun p => p.1 ≠ name
  nodup := t.nodup.sublist (List.filter_sublist.map Prod.fst)

theorem find?_filter_ne (name other : String) (l : List (String × α)) :
    find? other (l.filter fun p => p.1 ≠ name) = if name = other then none else find? other l := by
  induction l with
  | nil => simp [find?]
  | cons p rest ih =>
    obtain ⟨key, a⟩ := p
    by_cases taken : key = name
    · have dropped : ((key, a) :: rest).filter (fun p => p.1 ≠ name) = rest.filter fun p => p.1 ≠ name := by
        simp [taken]
      rw [dropped, ih]
      split
      · rfl
      · next different => rw [find?, if_neg (taken ▸ different)]
    · have kept : ((key, a) :: rest).filter (fun p => p.1 ≠ name) = (key, a) :: rest.filter fun p => p.1 ≠ name := by
        simp [taken]
      rw [kept, find?, find?, ih]
      by_cases here : key = other
      · rw [if_pos here, if_pos here, if_neg fun same => taken (here.trans same.symm)]
      · rw [if_neg here, if_neg here]

theorem get?_erase (t : Table α) (name other : String) :
    (t.erase name).get? other = if name = other then none else t.get? other :=
  find?_filter_ne name other t.entries

theorem values_erase_subset (t : Table α) (name : String) : (t.erase name).values ⊆ t.values :=
  (List.filter_sublist.map Prod.snd).subset

/-! ### Telling tables apart -/

theorem eq_of_find? {l m : List (String × α)} (nodup : (l.map Prod.fst).Nodup)
    (names : l.map Prod.fst = m.map Prod.fst) (values : ∀ name, find? name l = find? name m) : l = m := by
  induction l generalizing m with
  | nil => exact (List.map_eq_nil_iff.mp names.symm).symm
  | cons p l ih =>
    obtain ⟨key, a⟩ := p
    cases m with
    | nil => cases names
    | cons q m =>
      obtain ⟨other, b⟩ := q
      obtain ⟨rfl, later⟩ := List.cons.inj names
      have same := values key
      rw [find?, if_pos rfl, find?, if_pos rfl] at same
      obtain rfl := Option.some.inj same
      have fresh := (List.nodup_cons.mp nodup).1
      rw [ih (List.nodup_cons.mp nodup).2 later]
      intro name
      by_cases first : key = name
      · have left := Option.not_isSome_iff_eq_none.mp fun found => fresh (first ▸ find?_isSome.mp found)
        have right := Option.not_isSome_iff_eq_none.mp fun found =>
          fresh (later ▸ first ▸ find?_isSome.mp found)
        exact left.trans right.symm
      · have both := values name
        rwa [find?, if_neg first, find?, if_neg first] at both

theorem ext_get? {t u : Table α} (names : t.names = u.names) (values : ∀ name, t.get? name = u.get? name) :
    t = u := by
  obtain ⟨l, nodup⟩ := t
  obtain ⟨m, _⟩ := u
  obtain rfl : l = m := eq_of_find? nodup names values
  rfl

/-! ### Exact names -/

/-- Counting the names is enough to tell that a table holds them all and no others. -/
theorem hasNames_iff {t : Table α} {names : List String} (distinct : names.Nodup) :
    t.hasNames names = true ↔ t.names.Perm names := by
  rw [hasNames, Bool.and_eq_true, List.all_eq_true, beq_iff_eq, ← length_names]
  constructor
  · rintro ⟨present, count⟩
    have below := distinct.subperm fun name member => contains_iff.mp (present name member)
    exact (below.perm_of_length_le (Nat.le_of_eq count.symm)).symm
  · intro same
    exact ⟨fun name member => contains_iff.mpr (same.mem_iff.mpr member), same.length_eq.symm⟩

/-- The names of the table are, as a set, those given. -/
def Covers (t : Table α) (names : List String) : Prop := ∀ name, name ∈ t.names ↔ name ∈ names

theorem covers_iff_perm {t : Table α} {names : List String} (distinct : names.Nodup) :
    t.Covers names ↔ t.names.Perm names := (List.perm_ext_iff_of_nodup t.nodup_names distinct).symm

theorem covers_iff_subset {t : Table α} {names : List String} :
    t.Covers names ↔ t.names ⊆ names ∧ names ⊆ t.names := by
  constructor
  · exact fun covers => ⟨fun name held => (covers name).mp held, fun name asked => (covers name).mpr asked⟩
  · exact fun both name => ⟨fun held => both.1 held, fun asked => both.2 asked⟩

/-- As many names as the table holds, with all of its own among them, leave no room for a repetition. -/
theorem nodup_of_names_subset {t : Table α} {names : List String} (within : t.names ⊆ names)
    (count : names.length = t.size) : names.Nodup := by
  have below := t.nodup_names.subperm within
  have same := below.perm_of_length_le (Nat.le_of_eq (count.trans t.length_names.symm))
  exact same.nodup_iff.mp t.nodup_names

/-- The check tells whether the table holds the names and no others, unless a name is repeated. Then it is
right only where it says no and should: for a name that the table lacks, or for too few or too many names that
leave out one of the table. -/
theorem hasNames_exact_iff (t : Table α) (names : List String) :
    (t.hasNames names = true ↔ t.Covers names) ↔
      names.Nodup ∨ ¬ names ⊆ t.names ∨ (names.length ≠ t.size ∧ ¬ t.names ⊆ names) := by
  by_cases distinct : names.Nodup
  · exact iff_of_true ((hasNames_iff distinct).trans (covers_iff_perm distinct).symm) (.inl distinct)
  have counted : t.hasNames names = true ↔ names ⊆ t.names ∧ names.length = t.size := by
    rw [hasNames, Bool.and_eq_true, List.all_eq_true, beq_iff_eq]
    exact and_congr_left fun _ => forall₂_congr fun _ _ => contains_iff
  have apart : ¬ (t.names ⊆ names ∧ names.length = t.size) := fun both =>
    distinct (nodup_of_names_subset both.1 both.2)
  rw [counted, covers_iff_subset]
  tauto

/-- Two names are counted where one is asked for twice, and a table of both passes for a table of that one. -/
theorem repeated_name_passes :
    let snapshot : Fields := .ofList [("a", .number .one), ("b", .number .zero)]
    snapshot.hasNames ["a", "a"] = true ∧ ¬ snapshot.Covers ["a", "a"] := by
  intro snapshot
  refine ⟨by decide, fun covers => ?_⟩
  have asked : "b" ∈ ["a", "a"] := (covers "b").mp (by decide)
  exact absurd asked (by decide)

/-! ### The same mapping -/

/-- Both tables hold the same values under the same names, in whatever order. -/
def Same (t u : Table α) : Prop := ∀ name, t.get? name = u.get? name

theorem Same.mem_names_iff {t u : Table α} (same : t.Same u) {name : String} : name ∈ t.names ↔ name ∈ u.names := by
  rw [← contains_iff, ← contains_iff, contains, contains, same name]

theorem Same.perm {t u : Table α} (same : t.Same u) : t.names.Perm u.names :=
  (List.perm_ext_iff_of_nodup t.nodup_names u.nodup_names).mpr fun _ => same.mem_names_iff

theorem mem_entries_of_find? {name : String} {a : α} {l : List (String × α)} (found : find? name l = some a) :
    (name, a) ∈ l := by
  induction l with
  | nil => cases found
  | cons p rest ih =>
    rw [find?] at found
    split at found
    · next here =>
      cases found
      exact here ▸ List.mem_cons_self
    · exact List.mem_cons_of_mem _ (ih found)

/-- Under a name that is present there is one entry. -/
theorem filter_of_find? {l : List (String × α)} {name : String} {a : α} (nodup : (l.map Prod.fst).Nodup)
    (found : find? name l = some a) : (l.filter fun p => p.1 = name) = [(name, a)] := by
  induction l with
  | nil => cases found
  | cons p rest ih =>
    obtain ⟨fresh, later⟩ := List.nodup_cons.mp nodup
    rw [find?] at found
    split at found
    · next here =>
      cases found
      have none : (rest.filter fun q => q.1 = name) = [] := by
        rw [List.filter_eq_nil_iff]
        intro q member same
        exact fresh (here ▸ of_decide_eq_true same ▸ List.mem_map_of_mem member)
      rw [List.filter_cons_of_pos (by simpa using here), none, ← here]
    · next other => rw [List.filter_cons_of_neg (by simpa using other), ih later found]

/-- Tables of one size are the same mapping if one of them finds all its values in the other. -/
def sameAs [DecidableEq α] (t u : Table α) : Bool :=
  t.size == u.size && t.entries.all fun p => u.get? p.1 = some p.2

theorem sameAs_iff [DecidableEq α] {t u : Table α} : t.sameAs u = true ↔ t.Same u := by
  rw [sameAs, Bool.and_eq_true, beq_iff_eq, List.all_eq_true]
  constructor
  · rintro ⟨size, found⟩ name
    have known : ∀ key ∈ t.names, u.contains key = true := by
      intro key member
      obtain ⟨p, stored, rfl⟩ := List.mem_map.mp member
      rw [contains, of_decide_eq_true (found p stored)]
      rfl
    have names : u.names.Perm t.names := by
      rw [← hasNames_iff t.nodup_names, hasNames, Bool.and_eq_true, List.all_eq_true, beq_iff_eq, length_names]
      exact ⟨known, size⟩
    cases read : t.get? name with
    | some a => exact (of_decide_eq_true (found (name, a) (mem_entries_of_find? read))).symm
    | none => exact (get?_eq_none.mpr fun member => get?_eq_none.mp read (names.mem_iff.mp member)).symm
  · intro same
    refine ⟨?_, fun p stored => decide_eq_true ?_⟩
    · rw [← length_names, ← length_names, same.perm.length_eq]
    · exact (same p.1).symm.trans (find?_of_mem t.nodup stored)

instance [DecidableEq α] (t u : Table α) : Decidable (t.Same u) := decidable_of_iff _ sameAs_iff

end Table

end Rulebook
