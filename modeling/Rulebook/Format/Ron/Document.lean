import Rulebook.Format.Ron.Group

/-!
# Documents in object notation

A document is one value with a header before it. The header asks for extensions of the notation, and
may say what the document is.
-/

namespace Rulebook.Ron

/-- The extensions of the notation that make a difference here. -/
structure Extensions where
  explicitNames : Bool := false
  /-- `Some` may stand before a value without a parenthesis. -/
  implicitSome : Bool := false
  /-- The parenthesis behind `Some` may be that of a record or of several values. -/
  unwrapVariants : Bool := false
deriving DecidableEq

/-- Adds the extension with this name, if there is one. -/
def Extensions.enable? (exts : Extensions) : String → Option Extensions
  | "explicit_struct_names" => some { exts with explicitNames := true }
  | "implicit_some" => some { exts with implicitSome := true }
  | "unwrap_variant_newtypes" => some { exts with unwrapVariants := true }
  | "unwrap_newtypes" => some exts
  | _ => none

/-- Reads one part of a header behind its opening bracket: a request for extensions, of which it must
name one at least, or the type or the schema of the document, which are not looked at. -/
def headerPart (exts : Extensions) (cs : List Char) : Option (Extensions × List Char) := do
  let (word, cs) ← plainIdentifier cs
  let cs ← skipBlanks cs
  match word with
  | "enable" =>
    let (names, cs) ← bracketed '(' ')' identifier cs
    if names.isEmpty then none
    else
      let exts ← names.foldlM Extensions.enable? exts
      return (exts, cs)
  | "type" | "schema" =>
    let (_, cs) ← text (← tokens [['=']] cs)
    return (exts, cs)
  | _ => none

def header (exts : Extensions) : Nat → List Char → Option (Extensions × List Char)
  | 0, _ => none
  | fuel + 1, cs => do
    let cs ← skipBlanks cs
    match cs with
    | '#' :: _ =>
      let (exts, cs) ← headerPart exts (← tokens [['#'], ['!'], ['[']] cs)
      let cs ← tokens [[']']] (← skipBlanks cs)
      header exts fuel cs
    | _ => return (exts, cs)

/-- Reads a whole document, which must not go on after its value. The reader of the value is told which
extensions are in force. -/
def document {α : Type} (read : Extensions → List Char → Option (α × List Char)) (s : String) :
    Option α := do
  let (exts, cs) ← header {} (s.length + 1) s.toList
  let (a, cs) ← read exts cs
  match ← skipBlanks cs with
  | [] => return a
  | _ => none

end Rulebook.Ron
