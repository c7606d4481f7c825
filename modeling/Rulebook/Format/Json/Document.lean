import Rulebook.Format.Json.Text
import Rulebook.Value

/-!
# Documents in JSON

How values and snapshots are written, and readers for values, arrays, objects and records, and for
whole documents. A reader takes what it knows from the front of a text and gives back the rest. Fields
of a record that a reader does not know are skipped, whatever they hold.
-/

namespace Rulebook.Json

/-! ### Writing -/

/-- Levels are two spaces wide, and no comma follows the last part. -/
def layout : Layout := ⟨2, false⟩

def ofValue : Value → List Char
  | .null => "null".toList
  | .bool b => (if b then "true" else "false").toList
  | .number n => n.digits
  | .text s => quote s.toList

/-- The fields of a snapshot, set out at a depth. -/
def ofFields (depth : Nat) (fs : Fields) : List Char :=
  layout.bracket depth '\x7b' '\x7d'
    (fs.entries.map fun (name, v) => quote name.toList ++ [':', ' '] ++ ofValue v)

/-! ### Reading -/

variable {α : Type}

/-- Whether the character may stand between tokens. -/
def isBlank (c : Char) : Bool := c = ' ' || c = '\t' || c = '\n' || c = '\r'

def skipBlanks (cs : List Char) : List Char := cs.dropWhile isBlank

/-- Reads elements up to the closing character, with commas between them. -/
def elements (item : List Char → Option (α × List Char)) (close : Char) :
    Nat → List Char → Option (List α × List Char)
  | 0, _ => none
  | fuel + 1, cs => do
    let (a, cs) ← item (skipBlanks cs)
    match skipBlanks cs with
    | [] => none
    | c :: cs =>
      if c = ',' then
        let (as, cs) ← elements item close fuel cs
        return (a :: as, cs)
      else if c = close then return ([a], cs)
      else none

/-- Reads a bracket with the elements in it, if there are any. -/
def bracketed (opening close : Char) (item : List Char → Option (α × List Char)) :
    List Char → Option (List α × List Char)
  | c :: cs =>
    if c = opening then
      match skipBlanks cs with
      | d :: rest => if d = close then some ([], rest) else elements item close (cs.length + 1) cs
      | [] => none
    else none
  | [] => none

/-- Reads a key, a colon, and the value that belongs to the key. -/
def entry (value : String → List Char → Option (α × List Char)) (cs : List Char) :
    Option ((String × α) × List Char) := do
  let (key, cs) ← text cs
  match skipBlanks cs with
  | ':' :: cs =>
    let (a, cs) ← value key (skipBlanks cs)
    return ((key, a), cs)
  | _ => none

def list (item : List Char → Option (α × List Char)) : List Char → Option (List α × List Char) :=
  bracketed '[' ']' item

def map (value : List Char → Option (α × List Char)) :
    List Char → Option (List (String × α) × List Char) :=
  bracketed '\x7b' '\x7d' (entry fun _ => value)

/-- Reads the fields with these names in turn, with commas between them. -/
def inOrder (field : String → List Char → Option (α × List Char)) :
    List String → List Char → Option (List (String × α) × List Char)
  | [], _ => none
  | [name], cs => do
    let (a, cs) ← field name (skipBlanks cs)
    match skipBlanks cs with
    | ']' :: cs => return ([(name, a)], cs)
    | _ => none
  | name :: names, cs => do
    let (a, cs) ← field name (skipBlanks cs)
    match skipBlanks cs with
    | ',' :: cs =>
      let (rest, cs) ← inOrder field names cs
      return ((name, a) :: rest, cs)
    | _ => none

/-- Reads a record: an object, or an array of its fields in their order. What a field holds depends on
how it is called. -/
def record (names : List String) (field : String → List Char → Option (α × List Char)) :
    List Char → Option (List (String × α) × List Char)
  | '[' :: cs => inOrder field names cs
  | cs => bracketed '\x7b' '\x7d' (entry field) cs

/-! ### Numbers -/

/-- Whether a number goes on with a fraction or an exponent. -/
def hasFraction : List Char → Bool
  | c :: _ => c = '.' || c = 'e' || c = 'E'
  | [] => false

/-- Reads digits of which the first is zero only if it is the only one. -/
def natural (cs : List Char) : Option (Nat × List Char) :=
  let ds := cs.takeWhile Char.isDigit
  if ds.isEmpty || (ds.head? = some '0' && ds.length ≠ 1) then none
  else some (Nat.ofDigitChars 10 ds 0, cs.dropWhile Char.isDigit)

/-- Reads a whole number. Minus zero and a number with a fraction or an exponent are none. -/
def integer : List Char → Option (Int × List Char)
  | '-' :: cs => do
    let (n, cs) ← natural cs
    if n = 0 || hasFraction cs then none else return (-(n : Int), cs)
  | cs => do
    let (n, cs) ← natural cs
    if hasFraction cs then none else return ((n : Int), cs)

/-! ### Values -/

/-- Reads a value: null, a truth value, a text, or a whole number that fits. -/
def value (cs : List Char) : Option (Value × List Char) :=
  match cs with
  | 'n' :: 'u' :: 'l' :: 'l' :: rest => some (.null, rest)
  | 't' :: 'r' :: 'u' :: 'e' :: rest => some (.bool true, rest)
  | 'f' :: 'a' :: 'l' :: 's' :: 'e' :: rest => some (.bool false, rest)
  | '"' :: _ => (text cs).map fun p => (.text p.1, p.2)
  | _ => do
    let (i, rest) ← integer cs
    let n ← Number.ofInt? i
    return (.number n, rest)

/-- Reads the fields of a snapshot. A repeated field keeps its first place and its last value. -/
def fields (cs : List Char) : Option (Fields × List Char) :=
  (map value cs).map fun p => (.ofList p.1, p.2)

/-! ### Skipping -/

/-- Drops at least one digit. -/
def dropDigits : List Char → Option (List Char)
  | c :: cs => if c.isDigit then some (cs.dropWhile Char.isDigit) else none
  | [] => none

/-- Drops the fraction of a number, if it has one. -/
def dropFraction : List Char → Option (List Char)
  | '.' :: cs => dropDigits cs
  | cs => some cs

/-- Drops the exponent of a number, if it has one. -/
def dropExponent : List Char → Option (List Char)
  | c :: cs =>
    if c = 'e' || c = 'E' then
      match cs with
      | '+' :: cs | '-' :: cs => dropDigits cs
      | cs => dropDigits cs
    else some (c :: cs)
  | [] => some []

def dropNumber (cs : List Char) : Option (List Char) := do
  let (_, cs) ← match cs with
    | '-' :: cs => natural cs
    | cs => natural cs
  dropExponent (← dropFraction cs)

/-- Drops a value of any form that nests at most `depth` deep. -/
def dropValue : Nat → List Char → Option (List Char)
  | 0, _ => none
  | depth + 1, cs =>
    let item (cs : List Char) : Option (Unit × List Char) :=
      (dropValue depth cs).map fun rest => ((), rest)
    let member (cs : List Char) : Option (Unit × List Char) :=
      match cs with
      | '"' :: cs => do
        match skipBlanks (← dropQuoted cs) with
        | ':' :: cs => item (skipBlanks cs)
        | _ => none
      | _ => none
    match cs with
    | 'n' :: 'u' :: 'l' :: 'l' :: rest => some rest
    | 't' :: 'r' :: 'u' :: 'e' :: rest => some rest
    | 'f' :: 'a' :: 'l' :: 's' :: 'e' :: rest => some rest
    | '"' :: rest => dropQuoted rest
    | '[' :: _ => (bracketed '[' ']' item cs).map Prod.snd
    | '\x7b' :: _ => (bracketed '\x7b' '\x7d' member cs).map Prod.snd
    | _ => dropNumber cs

/-- Drops the value of a field that is not known. -/
def unknown (a : α) (cs : List Char) : Option (α × List Char) :=
  (dropValue (cs.length + 1) cs).map fun rest => (a, rest)

/-- Reads a whole document, which must not go on after its value. -/
def document (read : List Char → Option (α × List Char)) (s : String) : Option α := do
  let (a, cs) ← read (skipBlanks s.toList)
  if (skipBlanks cs).isEmpty then return a else none

end Rulebook.Json
