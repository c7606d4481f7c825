import Rulebook.Tree.Basic

/-!
# Fields in trees

A tree is well formed over declared names if every field in it is declared, every effect has a field
on its left, and placeholders stand only where an operator has no right operand. Another tree can be put
in place of a field.
-/

namespace Rulebook

namespace Tree

/-! ### Well-formed trees -/

/-- No placeholder stands where an operand belongs, and all fields are declared. -/
def WellFormed (declared : List String) : Tree → Prop
  | value _ => True
  | field name => name ∈ declared
  | placeholder => False
  | compare _ l r | both l r | was _ l r | becomes l r | ceases l r | when l r =>
    l.WellFormed declared ∧ r.WellFormed declared
  | changed l r | unchanged l r => l.WellFormed declared ∧ r = placeholder
  | assign l r => (∃ name ∈ declared, l = field name) ∧ r.WellFormed declared
  | increment l r => (∃ name ∈ declared, l = field name) ∧ r = placeholder

instance decidableWellFormed (declared : List String) : (t : Tree) → Decidable (t.WellFormed declared)
  | value _ => .isTrue trivial
  | field name => inferInstanceAs (Decidable (name ∈ declared))
  | placeholder => .isFalse id
  | compare _ l r | both l r | was _ l r | becomes l r | ceases l r | when l r =>
    have := decidableWellFormed declared l
    have := decidableWellFormed declared r
    inferInstanceAs (Decidable (l.WellFormed declared ∧ r.WellFormed declared))
  | changed l r | unchanged l r =>
    have := decidableWellFormed declared l
    inferInstanceAs (Decidable (l.WellFormed declared ∧ r = placeholder))
  | assign l r =>
    have := decidableWellFormed declared r
    inferInstanceAs (Decidable ((∃ name ∈ declared, l = field name) ∧ r.WellFormed declared))
  | increment l r => inferInstanceAs (Decidable ((∃ name ∈ declared, l = field name) ∧ r = placeholder))

/-! ### Substitution -/

/-- The names on the leaves of the tree. -/
def fields : Tree → List String
  | value _ | placeholder => []
  | field name => [name]
  | compare _ l r | both l r | was _ l r | becomes l r | ceases l r | changed l r | unchanged l r | assign l r
  | increment l r | when l r => l.fields ++ r.fields

/-- Puts the tree `u` in place of every leaf with the field `name`. -/
def subst (t : Tree) (name : String) (u : Tree) : Tree :=
  match t with
  | value v => value v
  | field other => if other = name then u else field other
  | placeholder => placeholder
  | compare c l r => compare c (l.subst name u) (r.subst name u)
  | both l r => both (l.subst name u) (r.subst name u)
  | was c l r => was c (l.subst name u) (r.subst name u)
  | becomes l r => becomes (l.subst name u) (r.subst name u)
  | ceases l r => ceases (l.subst name u) (r.subst name u)
  | changed l r => changed (l.subst name u) (r.subst name u)
  | unchanged l r => unchanged (l.subst name u) (r.subst name u)
  | assign l r => assign (l.subst name u) (r.subst name u)
  | increment l r => increment (l.subst name u) (r.subst name u)
  | when l r => when (l.subst name u) (r.subst name u)

variable {name : String} {u : Tree}

@[simp] theorem subst_placeholder : placeholder.subst name u = placeholder := rfl

@[simp] theorem subst_field_self : (field name).subst name u = u := if_pos rfl

@[simp] theorem subst_join (k : Keyword) (l r : Tree) :
    (join k l r).subst name u = join k (l.subst name u) (r.subst name u) := by
  cases k <;> rfl

theorem subst_of_not_mem {t : Tree} (absent : name ∉ t.fields) : t.subst name u = t := by
  induction t with
  | value | placeholder => rfl
  | field other => exact if_neg fun same => absent (List.mem_singleton.mpr same.symm)
  | compare _ l r left right | both l r left right | was _ l r left right | becomes l r left right
  | ceases l r left right | changed l r left right | unchanged l r left right | assign l r left right
  | increment l r left right | when l r left right =>
    rw [fields, List.mem_append, not_or] at absent
    rw [subst, left absent.1, right absent.2]

end Tree

end Rulebook
