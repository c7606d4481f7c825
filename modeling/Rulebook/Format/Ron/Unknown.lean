import Rulebook.Format.Ron.Document
import Rulebook.Format.Ron.Number

/-!
# Unknown fields

Fields of a record that a reader does not know are skipped, whatever they hold, as long as it is well
formed and does not nest too deep.
-/

namespace Rulebook.Ron

/-- How deep a document may nest. Every bracket counts, every element in one, and every `Some`. -/
def nestingLimit : Nat := 128

/-- The depth of a bracket around elements of these depths. -/
def bracketDepth (depths : List Nat) : Nat :=
  match depths with
  | [] => 1
  | ds => ds.foldl max 0 + 2

/-- The depth of an entry whose key and value have these depths. -/
def entryDepth (p : (Nat × Nat) × List Char) : Nat × List Char := (max p.1.1 p.1.2, p.2)

/-- Whether a parenthesis with this content holds fields with names. -/
def beginsField (cs : List Char) : Bool :=
  match (skipBlanks cs).bind identifier with
  | some (_, rest) => ((skipBlanks rest).bind List.head?) == some ':'
  | none => false

/-- Drops the content of a parenthesis, which is that of a record or of a tuple, and gives the depths of
what was in it. `item` drops a value. -/
def dropGroup (item : List Char → Option (Nat × List Char)) (cs : List Char) :
    Option (List Nat × List Char) :=
  if beginsField cs then
    content (fun cs => (entry identifier (fun _ => item) cs).map fun p => (p.1.2, p.2)) ')' cs
  else content item ')' cs

/-- The words that are whole values. -/
def standalone : List String := ["true", "false", "None"] ++ boundless

/-- Drops a value that is no bracket and no word. -/
def dropScalar (cs : List Char) : Option (List Char) :=
  ((text cs).map Prod.snd).or <| ((bytes cs).map Prod.snd).or <|
    (dropChar cs).or (dropRange cs)

/-- Drops what follows `Some`, and gives the depth of the whole. -/
def dropSome (exts : Extensions) (item : List Char → Option (Nat × List Char)) (cs : List Char) :
    Option (Nat × List Char) := do
  match ← skipBlanks cs with
  | '(' :: inner =>
    if exts.unwrapVariants then
      let (depths, rest) ← dropGroup item inner
      match depths, beginsField inner with
      | [], _ => return (1, rest)
      | [d], false => return (d + 1, rest)
      | ds, _ => return (bracketDepth ds + 1, rest)
    else
      match ← content item ')' inner with
      | ([d], rest) => return (d + 1, rest)
      | _ => none
  | behind =>
    if exts.implicitSome then (item behind).map fun p => (p.1 + 1, p.2) else none

/-- Drops a value of any form, and gives its depth. At most so many values may stand one inside the
other. -/
def dropValue (exts : Extensions) : Nat → List Char → Option (Nat × List Char)
  | 0, _ => none
  | levels + 1, cs =>
    let item := dropValue exts levels
    let group (cs : List Char) : Option (Nat × List Char) :=
      (dropGroup item cs).map fun p => (bracketDepth p.1, p.2)
    let named (cs : List Char) : Option (Nat × List Char) := do
      match ← skipBlanks cs with
      | '(' :: inner => group inner
      | _ => return (0, cs)
    match cs with
    | '(' :: ')' :: rest => some (0, rest)
    | '(' :: inner => group inner
    | '[' :: inner => (content item ']' inner).map fun p => (bracketDepth p.1, p.2)
    | '\x7b' :: inner =>
      (content (fun cs => (entry item (fun _ => item) cs).map entryDepth) '\x7d' inner).map
        fun p => (bracketDepth p.1, p.2)
    | _ =>
      match rawIdentifier cs, plainIdentifier cs with
      | some (_, rest), _ => named rest
      | none, some (name, rest) =>
        if standalone.contains name then some (0, rest)
        else if name = "Some" then dropSome exts item rest
        else named rest
      | none, none => (dropScalar cs).map fun rest => (0, rest)

/-- Drops the value of a field that is not known. The record around it takes two from the limit. -/
def unknown {α : Type} (exts : Extensions) (a : α) (cs : List Char) : Option (α × List Char) := do
  let (depth, rest) ← dropValue exts nestingLimit cs
  if depth + 2 ≤ nestingLimit then return (a, rest) else none

end Rulebook.Ron
