import Rulebook.Format.Ron.Group
import Rulebook.Format.Ron.Number
import Rulebook.Value

/-!
# Values in object notation

How values and snapshots are written and read. To a reader, an identifier that has no meaning of its own
is a text, and so is a text that is spelled in bytes. Two points, like a unit, stand for nothing.
-/

namespace Rulebook.Ron

/-! ### Writing -/

/-- Levels are four spaces wide, and every part is followed by a comma. -/
def layout : Layout := ⟨4, true⟩

def ofValue : Value → List Char
  | .null => ['(', ')']
  | .bool b => (if b then "true" else "false").toList
  | .number n => n.digits
  | .text s => quote s.toList

/-- The fields of a snapshot, set out at a depth. -/
def ofFields (depth : Nat) (fs : Fields) : List Char :=
  layout.bracket depth '\x7b' '\x7d'
    (fs.entries.map fun (name, v) => quote name.toList ++ [':', ' '] ++ ofValue v)

/-! ### Reading -/

/-- The value of an identifier that stands alone, other than those that stand for no value here. -/
def valueOfName? : String → Option Value
  | "true" => some (.bool true)
  | "false" => some (.bool false)
  | "None" => some .null
  | "Some" | "inf" | "inff32" | "inff64" | "NaN" | "NaNf32" | "NaNf64" => none
  | name => some (.text name)

/-- Reads the value of an identifier, which stands alone if no parenthesis follows it. -/
def namedValue (cs : List Char) : Option (Value × List Char) := do
  let (v, rest) ← match rawIdentifier cs with
    | some (name, rest) => some (.text name, rest)
    | none => do
      let (name, rest) ← plainIdentifier cs
      let v ← valueOfName? name
      return (v, rest)
  if (← skipBlanks rest).head? = some '(' then none else return (v, rest)

/-- Reads a text that is spelled in characters or in bytes. -/
def textValue (cs : List Char) : Option (Value × List Char) :=
  match text cs with
  | some (s, rest) => some (.text s, rest)
  | none => do
    let (bs, rest) ← bytes cs
    let s ← String.fromUTF8? ⟨bs.toArray⟩
    return (.text s, rest)

/-- Reads a number that fits: the byte of a character, or a whole number. -/
def numberValue (cs : List Char) : Option (Value × List Char) := do
  let (i, rest) : Int × List Char ← match byteChar cs with
    | some (b, rest) => some ((b.toNat : Int), rest)
    | none => (whole cs).map fun p => (p.1.value, p.2)
  let n ← Number.ofInt? i
  return (.number n, rest)

def value (cs : List Char) : Option (Value × List Char) :=
  match cs with
  | '(' :: ')' :: rest | '.' :: '.' :: rest => some (.null, rest)
  | _ => (namedValue cs).or ((textValue cs).or (numberValue cs))

/-- Reads the fields of a snapshot. A repeated field keeps its first place and its last value. -/
def fields (cs : List Char) : Option (Fields × List Char) :=
  (map value cs).map fun p => (.ofList p.1, p.2)

end Rulebook.Ron
