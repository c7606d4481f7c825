import Rulebook.Sentence.Chunk

/-!
# Items

The working form of a sentence: finished trees, operators that wait for their operands, and
placeholders. `arrange` gives every operator a neighbour on each side.
-/

namespace Rulebook

/-- One place of a sentence that is being put together. -/
inductive Item where
  | operand (t : Tree)
  /-- A tree made in the running pass. -/
  | built (t : Tree)
  | pending (k : Keyword)
  /-- A reused tree that must not be taken apart from its own operands. -/
  | fenced (t : Tree)
  | placeholder
deriving DecidableEq

namespace Item

def kind : Item → Kind
  | operand t | built t | fenced t => t.kind
  | pending k => .operator k
  | placeholder => .placeholder

/-- The item once the running pass is over. -/
def settle : Item → Item
  | built t => operand t
  | item => item

def ofChunk (c : Chunk) : Item :=
  match c.meaning? with
  | some (.keyword k) => pending k
  | some (.field name) => operand (.field name)
  | some (.expression t) => operand t
  | none => operand (.value (.ofWord (phraseOf c.words)))

/-- A question about change has no right operand: a placeholder follows it. -/
def padChange : Item → List Item
  | pending .hasChanged => [pending .hasChanged, placeholder]
  | pending .hasNotChanged => [pending .hasNotChanged, placeholder]
  | item => [item]

/-- Writes `set x v` as `x set v`. -/
def moveSet : List Item → List Item
  | pending .set :: x :: rest => x :: pending .set :: moveSet rest
  | x :: rest => x :: moveSet rest
  | [] => []

/-- Writes `inc x` as `x inc _`. -/
def moveInc : List Item → List Item
  | pending .inc :: x :: rest => x :: pending .inc :: placeholder :: moveInc rest
  | x :: rest => x :: moveInc rest
  | [] => []

/-- Whether a reused tree has this operator at its root and therefore needs a fence. -/
def needsFence (t : Tree) : Bool :=
  match t.keyword? with
  | some .set | some .inc | some .hasChanged | some .hasNotChanged => true
  | _ => false

/-- Puts a fence of two placeholders around a reused effect or question about change. -/
def fence : Item → List Item
  | operand t => if needsFence t then [placeholder, fenced t, placeholder] else [operand t]
  | item => [item]

/-- Gives every operator a left and a right neighbour. -/
def arrange (items : List Item) : List Item :=
  (moveInc (moveSet (items.flatMap padChange))).flatMap fence

end Item

end Rulebook
