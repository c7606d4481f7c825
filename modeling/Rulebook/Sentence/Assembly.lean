import Rulebook.Error
import Rulebook.Sentence.Item

/-!
# Assembly

Items become one tree in passes, one for each operator from the tightest to the weakest. A pass goes
from left to right, and each of its operators takes its two neighbours as operands.
-/

namespace Rulebook

namespace Item

/-- The tree that the item offers to an operator on its right. A tree made in the same pass is
accepted only if the operator may be grouped either way. -/
def asLeft (k : Keyword) : Item → Except GrammarError Tree
  | operand t => .ok t
  | built t => if k.associative then .ok t else .error (.ambiguous k)
  | placeholder => .error (.misplacedPlaceholder k)
  | pending _ | fenced _ => .error (.missingOperand k)

/-- The tree that the item offers to an operator on its left. -/
def asRight (k : Keyword) : Item → Except GrammarError Tree
  | placeholder => if k.takesPlaceholder then .ok .placeholder else .error (.misplacedPlaceholder k)
  | item => item.asLeft k

/-- The tree of an operator between two items. -/
def build (k : Keyword) (left right : Item) : Except GrammarError Tree := do
  let l ← left.asLeft k
  let r ← right.asRight k
  if k.assigns && l.kind != .field then throw (.notAssignable k l.kind)
  return .join k l r

/-- One pass for the operator `k`. `done` holds the items that the pass has gone by, the nearest
first. A fenced tree with `k` at its root loses its fence. -/
def sweep (k : Keyword) : List Item → List Item → Except GrammarError (List Item)
  | done, [] => return done.reverse.map settle
  | done, pending j :: rest =>
    if j = k then
      match done, rest with
      | left :: done, right :: rest => do
        let t ← build k left right
        sweep k (built t :: done) rest
      | _, _ => throw (.missingOperand k)
    else sweep k (pending j :: done) rest
  | done, fenced t :: rest =>
    if t.keyword? = some k then
      match done, rest with
      | placeholder :: done, placeholder :: rest => sweep k (operand t :: done) rest
      | _, _ => throw (.misplacedPlaceholder k)
    else sweep k (fenced t :: done) rest
  | done, item :: rest => sweep k (item :: done) rest

/-- The tree of the one item that is left. -/
def finish : List Item → Except GrammarError Tree
  | operand t :: _ | built t :: _ | fenced t :: _ => .ok t
  | pending k :: _ => .error (.missingOperand k)
  | placeholder :: _ | [] => .error .empty

/-- Makes passes for the keywords in turn until one item is left. There are at most as many rounds as
`rounds` says, and the rounds after the last keyword change nothing. -/
def assembleIn (limit : Nat) : Nat → List Keyword → List Item → Except GrammarError Tree
  | rounds, ks, items =>
    if items.length ≤ 1 then finish items
    else
      match rounds, ks with
      | 0, _ => throw (.unresolved (items.map kind) limit)
      | rounds + 1, [] => assembleIn limit rounds [] items
      | rounds + 1, k :: ks => do assembleIn limit rounds ks (← sweep k [] items)

/-- Makes one tree of arranged items in at most `limit` rounds. -/
def assemble (limit : Nat) (items : List Item) : Except GrammarError Tree :=
  assembleIn limit limit Keyword.byStrength.reverse items

end Item

def roundLimit : Nat := 100

namespace Vocabulary

/-- The tree of a sentence that is given by its words. -/
def parse (v : Vocabulary) (ws : List String) : Except GrammarError Tree :=
  if ws.isEmpty then .error .empty
  else Item.assemble roundLimit (Item.arrange ((v.chunks ws).map Item.ofChunk))

def compile (v : Vocabulary) (sentence : String) : Except GrammarError Tree :=
  v.parse (sentenceWords sentence)

end Vocabulary

end Rulebook
