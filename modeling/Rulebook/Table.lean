/-!
# Tables

A table holds values under distinct names and keeps the names in the order in which they came.
Storing under a name that is present replaces the value and leaves the name where it is.
-/

namespace Rulebook

/-- Values under distinct names, in the order in which the names came. -/
structure Table (α : Type) where
  entries : List (String × α) := []
  nodup : (entries.map Prod.fst).Nodup := by simp
deriving DecidableEq

namespace Table

variable {α : Type}

instance : EmptyCollection (Table α) := ⟨{}⟩

instance : Inhabited (Table α) := ⟨∅⟩

def names (t : Table α) : List String := t.entries.map Prod.fst

def values (t : Table α) : List α := t.entries.map Prod.snd

def size (t : Table α) : Nat := t.entries.length

/-- The value stored under `name` in a list of pairs, of which the first counts. -/
def find? (name : String) : List (String × α) → Option α
  | [] => none
  | (key, a) :: rest => if key = name then some a else find? name rest

def get? (t : Table α) (name : String) : Option α := find? name t.entries

def contains (t : Table α) (name : String) : Bool := (t.get? name).isSome

/-- Puts a value under `name` into a list of pairs, at the end if the name is new. -/
def put (name : String) (a : α) : List (String × α) → List (String × α)
  | [] => [(name, a)]
  | (key, b) :: rest => if key = name then (key, a) :: rest else (key, b) :: put name a rest

theorem map_fst_put (name : String) (a : α) (l : List (String × α)) :
    (put name a l).map Prod.fst =
      if name ∈ l.map Prod.fst then l.map Prod.fst else l.map Prod.fst ++ [name] := by
  induction l with
  | nil => simp [put]
  | cons p rest ih =>
    obtain ⟨key, b⟩ := p
    by_cases h : key = name
    · simp [put, h]
    · have h' : ¬ name = key := fun e => h e.symm
      by_cases hm : name ∈ rest.map Prod.fst
      · simp only [put, h, if_false, List.map_cons, ih, hm, if_true, List.mem_cons, h', false_or]
      · simp only [put, h, if_false, List.map_cons, ih, hm, List.mem_cons, h', false_or,
          List.cons_append]

theorem nodup_put {name : String} {a : α} {l : List (String × α)} (h : (l.map Prod.fst).Nodup) :
    ((put name a l).map Prod.fst).Nodup := by
  rw [map_fst_put]
  split
  · exact h
  · next hm =>
    rw [List.nodup_append]
    exact ⟨h, by simp, by simpa using fun x hx (e : x = name) => hm (e ▸ hx)⟩

/-- Stores a value. A new name goes to the end; a name that is present keeps its place. -/
def insert (t : Table α) (name : String) (a : α) : Table α :=
  ⟨put name a t.entries, nodup_put t.nodup⟩

def insertAll (t : Table α) (pairs : List (String × α)) : Table α :=
  pairs.foldl (fun t p => t.insert p.1 p.2) t

/-- The table of a list of pairs. A repeated name keeps its first place and its last value. -/
def ofList (pairs : List (String × α)) : Table α := insertAll ∅ pairs

/-- Replaces the value under a name that is present. -/
def replace? (t : Table α) (name : String) (a : α) : Option (Table α) :=
  if t.contains name then some (t.insert name a) else none

/-- Whether all the names are present and there are as many of them as values. -/
def hasNames (t : Table α) (names : List String) : Bool :=
  names.all t.contains && names.length == t.size

/-! ### Reading after writing -/

theorem find?_put (name other : String) (a : α) (l : List (String × α)) :
    find? other (put name a l) = if name = other then some a else find? other l := by
  induction l with
  | nil => simp [put, find?]
  | cons p rest ih =>
    obtain ⟨key, b⟩ := p
    by_cases h : key = name
    · subst h
      by_cases ho : key = other <;> simp [put, find?, ho]
    · by_cases ho : key = other
      · subst ho
        have hn : ¬ name = key := fun e => h e.symm
        simp [put, find?, h, hn]
      · simp [put, find?, h, ho, ih]

@[simp] theorem get?_empty (name : String) : (∅ : Table α).get? name = none := rfl

theorem get?_insert (t : Table α) (name other : String) (a : α) :
    (t.insert name a).get? other = if name = other then some a else t.get? other :=
  find?_put name other a t.entries

theorem find?_isSome {name : String} {l : List (String × α)} :
    (find? name l).isSome = true ↔ name ∈ l.map Prod.fst := by
  induction l with
  | nil => simp [find?]
  | cons p rest ih =>
    obtain ⟨key, b⟩ := p
    by_cases h : key = name
    · simp [find?, h]
    · have h' : ¬ name = key := fun e => h e.symm
      simp only [find?, h, if_false, ih, List.map_cons, List.mem_cons, h', false_or]

theorem contains_iff {t : Table α} {name : String} : t.contains name = true ↔ name ∈ t.names :=
  find?_isSome

theorem names_insert (t : Table α) (name : String) (a : α) :
    (t.insert name a).names = if name ∈ t.names then t.names else t.names ++ [name] :=
  map_fst_put name a t.entries

end Table

end Rulebook
