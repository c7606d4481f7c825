import Rulebook.Format.Ron.Text
import Rulebook.Text.Identifier

/-!
# Numbers in object notation

A whole number may have a sign, a mark of its base, underscores between its digits, and a suffix that
names its kind. Numbers with a fraction and ranges are only skipped.
-/

namespace Rulebook.Ron

/-! ### Whole numbers -/

/-- The kinds of whole number that a suffix can name. -/
inductive Kind where
  | i8
  | i16
  | i32
  | i64
  | u8
  | u16
  | u32
  | u64
deriving DecidableEq

namespace Kind

def ofSuffix? : String → Option Kind
  | "i8" => some i8
  | "i16" => some i16
  | "i32" => some i32
  | "i64" => some i64
  | "u8" => some u8
  | "u16" => some u16
  | "u32" => some u32
  | "u64" => some u64
  | _ => none

def least : Kind → Int
  | i8 => -128
  | i16 => -32768
  | i32 => -2147483648
  | i64 => -9223372036854775808
  | u8 | u16 | u32 | u64 => 0

def greatest : Kind → Int
  | i8 => 127
  | i16 => 32767
  | i32 => 2147483647
  | i64 => 9223372036854775807
  | u8 => 255
  | u16 => 65535
  | u32 => 4294967295
  | u64 => 18446744073709551615

def holds (k : Kind) (i : Int) : Bool := k.least ≤ i && i ≤ k.greatest

end Kind

/-- A whole number, with the kind that its suffix names. -/
structure Whole where
  value : Int
  kind? : Option Kind
deriving DecidableEq

/-- Whether the number fits its kind. Without a suffix a negative number has 64 bits with a sign, and
any other has 64 bits without one. -/
def Whole.fits (w : Whole) : Bool :=
  match w.kind? with
  | some k => k.holds w.value
  | none => Kind.i64.holds w.value || Kind.u64.holds w.value

/-- Whether the character may stand in a whole number. -/
def isDigitOrGap (c : Char) : Bool := c = '_' || (Hex.digit? c).isSome

/-- Splits off the mark of a base. -/
def base : List Char → Nat × List Char
  | '0' :: 'x' :: cs => (16, cs)
  | '0' :: 'o' :: cs => (8, cs)
  | '0' :: 'b' :: cs => (2, cs)
  | cs => (10, cs)

/-- Reads digits behind the mark of their base. Underscores may stand between them. -/
def natural (cs : List Char) : Option (Nat × List Char) :=
  let (b, cs) := base cs
  match cs.takeWhile isDigitOrGap with
  | [] => none
  | '_' :: _ => none
  | ds =>
    (Hex.read? b (ds.filter (· ≠ '_'))).map fun n => (n, cs.dropWhile isDigitOrGap)

/-- Reads digits that may have a sign. -/
def signed : List Char → Option (Int × List Char)
  | '-' :: cs => (natural cs).map fun p => (-(p.1 : Int), p.2)
  | '+' :: cs => (natural cs).map fun p => ((p.1 : Int), p.2)
  | cs => (natural cs).map fun p => ((p.1 : Int), p.2)

def splitWord (cs : List Char) : String × List Char :=
  (String.ofList (cs.takeWhile Text.isIdentifierPart), cs.dropWhile Text.isIdentifierPart)

/-- Reads a whole number that fits its kind. -/
def whole (cs : List Char) : Option (Whole × List Char) := do
  let (i, cs) ← signed cs
  let (word, rest) := splitWord cs
  let (w, rest) := match Kind.ofSuffix? word with
    | some k => (Whole.mk i (some k), rest)
    | none => (Whole.mk i none, cs)
  if w.fits then return (w, rest) else none

/-- Reads a number of one kind, which may have the suffix of that kind and no other. -/
def ofKind (k : Kind) (cs : List Char) : Option (Int × List Char) := do
  let (w, rest) ← whole cs
  if w.kind?.all (· = k) && k.holds w.value then return (w.value, rest) else none

/-! ### Numbers with a fraction -/

/-- Whether the character may stand in a number with a fraction. -/
def isFractionChar (c : Char) : Bool :=
  c.isDigit || c = 'e' || c = 'E' || c = '.' || c = '+' || c = '-' || c = '_'

/-- The run of such characters, up to the two points of a range. -/
def fractionRun : List Char → List Char
  | [] => []
  | '.' :: '.' :: _ => []
  | c :: cs => if isFractionChar c then c :: fractionRun cs else []

def dropSign : List Char → List Char
  | '+' :: cs | '-' :: cs => cs
  | cs => cs

/-- Whether the rest of a number is empty or an exponent. -/
def isExponent : List Char → Bool
  | [] => true
  | c :: cs =>
    (c = 'e' || c = 'E') && !(dropSign cs).isEmpty && (dropSign cs).all Char.isDigit

/-- Whether the characters are digits with a point somewhere, at least one digit, and an exponent. -/
def isDecimal (cs : List Char) : Bool :=
  let whole := cs.takeWhile Char.isDigit
  match cs.dropWhile Char.isDigit with
  | '.' :: rest =>
    (!whole.isEmpty || !(rest.takeWhile Char.isDigit).isEmpty) &&
      isExponent (rest.dropWhile Char.isDigit)
  | rest => !whole.isEmpty && isExponent rest

/-- Whether every underscore has a digit or an exponent mark before it, with no point between. -/
def gapsFit (allowed : Bool) : List Char → Bool
  | [] => true
  | '_' :: cs => allowed && gapsFit allowed cs
  | c :: cs => gapsFit (c.isDigit || c = 'e' || c = 'E' || (c ≠ '.' && allowed)) cs

/-- The words for numbers that digits cannot write. -/
def boundless : List String := ["inf", "inff32", "inff64", "NaN", "NaNf32", "NaNf64"]

/-- Drops a number with a fraction or an exponent, or a word for a number, which may have a sign. -/
def dropFraction (cs : List Char) : Option (List Char) :=
  let run := fractionRun cs
  let (word, rest) := splitWord (cs.drop run.length)
  if gapsFit false run && isDecimal (dropSign (run.filter (· ≠ '_'))) then
    some (if word = "f32" ∨ word = "f64" then rest else cs.drop run.length)
  else if [[], ['+'], ['-']].contains run && boundless.contains word then some rest
  else none

/-- Drops a number that is not the byte of a character. A whole number that is too great without a suffix
is taken for one with a fraction. -/
def dropDigits (cs : List Char) : Option (List Char) :=
  let unsigned := dropSign cs
  if (unsigned.takeWhile isDigitOrGap).length < (fractionRun unsigned).length then dropFraction cs
  else
    match whole cs with
    | some (_, rest) => some rest
    | none => dropFraction cs

def dropNumber (cs : List Char) : Option (List Char) :=
  ((byteChar cs).map Prod.snd).or (dropDigits cs)

/-! ### Ranges -/

/-- Drops the end of a range, which may be left out unless it belongs to the range. -/
def dropEnd : List Char → Option (List Char)
  | '=' :: cs => dropNumber cs
  | cs => some ((dropNumber cs).getD cs)

def dropRange (cs : List Char) : Option (List Char) :=
  match cs with
  | '.' :: '.' :: rest => dropEnd rest
  | _ =>
    match dropNumber cs with
    | some ('.' :: '.' :: rest) => dropEnd rest
    | found => found

end Rulebook.Ron
