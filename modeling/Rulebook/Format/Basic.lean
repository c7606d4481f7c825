/-!
# What the formats share

How the parts of a bracket are set out, on one line or each on a line of its own, and how hexadecimal
digits are read.
-/

namespace Rulebook

/-! ### Layouts -/

/-- How brackets are set out on several lines. -/
structure Layout where
  /-- The number of spaces for each level. -/
  step : Nat
  finalComma : Bool

namespace Layout

def newline (l : Layout) (depth : Nat) : List Char := '\n' :: List.replicate (l.step * depth) ' '

/-- The parts of a bracket, each on a line at the depth. -/
def lines (l : Layout) (depth : Nat) : List (List Char) → List Char
  | [] => []
  | [part] => l.newline depth ++ part ++ if l.finalComma then [','] else []
  | part :: rest => l.newline depth ++ part ++ [','] ++ l.lines depth rest

/-- A bracket whose parts stand one level below `depth`. Without parts it is closed at once. -/
def bracket (l : Layout) (depth : Nat) (opening close : Char) (parts : List (List Char)) :
    List Char :=
  if parts.isEmpty then [opening, close]
  else opening :: l.lines (depth + 1) parts ++ l.newline depth ++ [close]

end Layout

/-- A bracket on one line. -/
def inlineBracket (opening close : Char) (parts : List (List Char)) : List Char :=
  opening :: [','].intercalate parts ++ [close]

/-! ### Hexadecimal digits -/

namespace Hex

/-- The value of a hexadecimal digit, small or capital. -/
def digit? (c : Char) : Option Nat :=
  if '0' ≤ c ∧ c ≤ '9' then some (c.toNat - 48)
  else if 'a' ≤ c ∧ c ≤ 'f' then some (c.toNat - 87)
  else if 'A' ≤ c ∧ c ≤ 'F' then some (c.toNat - 55)
  else none

/-- Reads digits of a base up to sixteen onto a number. -/
def readOnto? (base : Nat) (acc : Nat) : List Char → Option Nat
  | [] => some acc
  | c :: cs =>
    match digit? c with
    | some d => if d < base then readOnto? base (base * acc + d) cs else none
    | none => none

/-- The value of a run of digits in a base up to sixteen. -/
def read? (base : Nat) (cs : List Char) : Option Nat := readOnto? base 0 cs

/-- The character with this code point, if there is one. -/
def char? (n : Nat) : Option Char := if n.isValidChar then some (Char.ofNat n) else none

end Hex

end Rulebook
