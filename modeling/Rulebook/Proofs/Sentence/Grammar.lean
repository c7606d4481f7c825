import Rulebook.Sentence.Item

/-!
# The grammar of sentences

Sentences by the strength of their operators. A clause of an operator is put together from phrases of
tighter operators, and a clause of the weakest operator is a sentence. The grammar names its levels and the
trees that are no atoms by itself; `levels_eq_byStrength` and `needsFence_iff` say that the parser goes by the
same.
-/

namespace Rulebook

namespace Keyword

/-- Where the operands of an operator stand. -/
inductive Form where
  /-- Between two tighter phrases. -/
  | between
  /-- Between two tighter phrases, in chains that group to the left. -/
  | chain
  /-- Behind a tighter phrase, its only operand. -/
  | behind
  /-- Before a field, its only operand. -/
  | step
  /-- Before a field and a tighter phrase. -/
  | write
deriving DecidableEq

def form : Keyword → Form
  | and | or => .chain
  | hasChanged | hasNotChanged => .behind
  | inc => .step
  | set => .write
  | thenDo | was | wasNot | is | isNot | isNow | isNotNow | greaterThan | lessThan => .between

/-- The operators at the root of a reused tree that keep it from being an operand like any other: the effects
and the questions about change. -/
def fencing : List Keyword := [set, inc, hasChanged, hasNotChanged]

/-- The levels of the grammar, from whole sentences to comparisons of two operands. -/
def levels : List Keyword :=
  [thenDo, or, and, set, inc, was, wasNot, is, isNot, isNow, isNotNow, hasChanged, hasNotChanged, greaterThan,
    lessThan]

/-- The parser takes the operators in the order of the levels. -/
theorem levels_eq_byStrength : levels = byStrength := rfl

theorem mem_levels (k : Keyword) : k ∈ levels := k.mem_byStrength

theorem associative_iff {k : Keyword} : k.associative = true ↔ k.form = .chain := by
  cases k <;> decide

theorem takesPlaceholder_iff {k : Keyword} : k.takesPlaceholder = true ↔ k.form = .behind ∨ k.form = .step := by
  cases k <;> decide

theorem assigns_iff {k : Keyword} : k.assigns = true ↔ k.form = .step ∨ k.form = .write := by
  cases k <;> decide

theorem not_assigns_iff {k : Keyword} :
    k.assigns = false ↔ k.form = .between ∨ k.form = .chain ∨ k.form = .behind := by
  cases k <;> decide

theorem form_step {k : Keyword} : k.form = .step ↔ k = inc := by
  cases k <;> decide

theorem form_write {k : Keyword} : k.form = .write ↔ k = set := by
  cases k <;> decide

end Keyword

namespace Item

/-- A literal, a field, or a reused tree without an operator at its root that would keep it from being one. -/
def Atom (run : List Item) (t : Tree) : Prop := run = [operand t] ∧ ∀ k ∈ Keyword.fencing, t.keyword? ≠ some k

/-- A reused tree with such an operator `k` at its root. -/
def Reused (k : Keyword) (run : List Item) (t : Tree) : Prop :=
  run = [operand t] ∧ k ∈ Keyword.fencing ∧ t.keyword? = some k

/-- The clauses of one operator over the phrases of all tighter ones. -/
inductive Clause (k : Keyword) (Tighter : List Item → Tree → Prop) : List Item → Tree → Prop
  | tighter {run : List Item} {t : Tree} : Tighter run t → Clause k Tighter run t
  | reused {run : List Item} {t : Tree} : Reused k run t → Clause k Tighter run t
  | between {left right : List Item} {l r : Tree} : k.form = .between → Tighter left l → Tighter right r →
      Clause k Tighter (left ++ pending k :: right) (.join k l r)
  | chain {left right : List Item} {l r : Tree} : k.form = .chain → Clause k Tighter left l →
      Tighter right r → Clause k Tighter (left ++ pending k :: right) (.join k l r)
  | behind {run : List Item} {t : Tree} : k.form = .behind → Tighter run t ∨ Reused k run t →
      Clause k Tighter (run ++ [pending k]) (.join k t .placeholder)
  | step {f : String} : k.form = .step →
      Clause k Tighter [pending k, operand (.field f)] (.join k (.field f) .placeholder)
  | write {f : String} {right : List Item} {r : Tree} : k.form = .write → Tighter right r →
      Clause k Tighter (pending k :: operand (.field f) :: right) (.join k (.field f) r)

/-- The phrases of some operators, of which the first is the weakest, with the trees that they mean. -/
def Phrase (ks : List Keyword) : List Item → Tree → Prop := ks.foldr Clause Atom

/-- The sentences, with the trees that they mean. -/
def Sentence : List Item → Tree → Prop := Phrase Keyword.levels

theorem Reused.form {k : Keyword} {run : List Item} {t : Tree} (reused : Reused k run t) :
    k.form = .behind ∨ k.form = .step ∨ k.form = .write := by
  have all : ∀ k ∈ Keyword.fencing, k.form = .behind ∨ k.form = .step ∨ k.form = .write := by decide
  exact all k reused.2.1

/-! ### Fences -/

/-- The parser puts fences around the trees that are no atoms. -/
theorem needsFence_iff {t : Tree} : needsFence t = true ↔ ∃ k ∈ Keyword.fencing, t.keyword? = some k := by
  unfold needsFence
  split <;> simp_all [Keyword.fencing]

theorem atom_iff {run : List Item} {t : Tree} : Atom run t ↔ run = [operand t] ∧ needsFence t = false := by
  rw [Atom, ← Bool.not_eq_true, needsFence_iff]
  simp

theorem reused_iff {k : Keyword} {run : List Item} {t : Tree} :
    Reused k run t ↔ run = [operand t] ∧ needsFence t = true ∧ t.keyword? = some k := by
  rw [Reused, needsFence_iff]
  refine and_congr_right fun _ => ⟨fun ⟨fences, root⟩ => ⟨⟨k, fences, root⟩, root⟩, ?_⟩
  rintro ⟨⟨j, fences, other⟩, root⟩
  obtain rfl := Option.some.inj (other.symm.trans root)
  exact ⟨fences, root⟩

end Item

end Rulebook
