import Rulebook.Keyword
import Rulebook.Value

/-!
# Trees

The compiled form of a sentence. `join` builds the tree of an operator from its two operands, and
`keyword?` gives the operator back.
-/

namespace Rulebook

/-- What stands at the root of a tree, or at one place of a sentence. -/
inductive Kind where
  | value
  | field
  | placeholder
  | operator (k : Keyword)
deriving DecidableEq

/-- The kind in the words of an error message. -/
def Kind.describe : Kind → String
  | value => "value"
  | field => "field"
  | placeholder => "placeholder"
  | operator k => k.phrase

/-- A compiled sentence. A `placeholder` fills the place of an operand that an operator does not
have. -/
inductive Tree where
  | value (v : Value)
  | field (name : String)
  | placeholder
  /-- A question about two values of now. -/
  | compare (c : Comparison) (left right : Tree)
  /-- Both hold; or, behind an effect, both are carried out. -/
  | both (left right : Tree)
  /-- A question about the left value before and the right value now. -/
  | was (c : Comparison) (left right : Tree)
  /-- The left value has just become the right one. -/
  | becomes (left right : Tree)
  /-- The left value has just stopped being the right one. -/
  | ceases (left right : Tree)
  | changed (left right : Tree)
  | unchanged (left right : Tree)
  /-- Writes the right value to the field on the left. -/
  | assign (left right : Tree)
  /-- Steps the field on the left up. -/
  | increment (left right : Tree)
  /-- Carries out the right tree if the left one is true. -/
  | when (left right : Tree)
deriving DecidableEq

namespace Tree

/-- The tree of an operator with its two operands. -/
def join : Keyword → Tree → Tree → Tree
  | .thenDo => when
  | .or => compare .either
  | .and => both
  | .set => assign
  | .inc => increment
  | .was => was .equal
  | .wasNot => was .differ
  | .is => compare .equal
  | .isNot => compare .differ
  | .isNow => becomes
  | .isNotNow => ceases
  | .hasChanged => changed
  | .hasNotChanged => unchanged
  | .greaterThan => compare .greater
  | .lessThan => compare .less

def keyword? : Tree → Option Keyword
  | value _ | field _ | placeholder => none
  | compare .equal _ _ => some .is
  | compare .differ _ _ => some .isNot
  | compare .greater _ _ => some .greaterThan
  | compare .less _ _ => some .lessThan
  | compare .either _ _ => some .or
  | both _ _ => some .and
  | was .differ _ _ => some .wasNot
  | was _ _ _ => some .was
  | becomes _ _ => some .isNow
  | ceases _ _ => some .isNotNow
  | changed _ _ => some .hasChanged
  | unchanged _ _ => some .hasNotChanged
  | assign _ _ => some .set
  | increment _ _ => some .inc
  | when _ _ => some .thenDo

def kind (t : Tree) : Kind :=
  match t.keyword?, t with
  | some k, _ => .operator k
  | none, field _ => .field
  | none, placeholder => .placeholder
  | none, _ => .value

/-- Whether the tree is there for what it writes and not for its value. A chain of effects nests to
the left, so its first link decides. -/
def isEffect : Tree → Bool
  | assign _ _ | increment _ _ => true
  | both left _ => left.isEffect
  | _ => false

@[simp] theorem keyword?_join (k : Keyword) (l r : Tree) : (join k l r).keyword? = some k := by
  cases k <;> rfl

end Tree

end Rulebook
