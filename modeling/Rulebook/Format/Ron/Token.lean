import Rulebook.Text.Identifier

/-!
# Tokens of object notation

Blanks with comments between them, and identifiers. A raw identifier stands behind `r#`; it may hold
points and signs, and is never a word with a meaning of its own.
-/

namespace Rulebook.Ron

/-! ### Blanks -/

/-- Whether the character may stand between tokens. -/
def isBlank (c : Char) : Bool :=
  let n := c.toNat
  (9 ≤ n && n ≤ 13) || n = 32 || n = 0x85 || n = 0x200E || n = 0x200F || n = 0x2028 || n = 0x2029

/-- Where a reader of blanks is. -/
inductive Gap where
  | open
  /-- In a comment up to the end of its line. -/
  | line
  /-- In comments that nest this deep, one not counted. -/
  | block (depth : Nat)

/-- Drops blanks and comments. A slash that starts no comment and a comment that does not end are
errors. -/
def dropGap : Gap → List Char → Option (List Char)
  | .open, [] => some []
  | .open, '/' :: '/' :: cs => dropGap .line cs
  | .open, '/' :: '*' :: cs => dropGap (.block 0) cs
  | .open, '/' :: _ => none
  | .open, c :: cs => if isBlank c then dropGap .open cs else some (c :: cs)
  | .line, [] => some []
  | .line, c :: cs => if c = '\n' then dropGap .open cs else dropGap .line cs
  | .block _, [] => none
  | .block depth, '/' :: '*' :: cs => dropGap (.block (depth + 1)) cs
  | .block 0, '*' :: '/' :: cs => dropGap .open cs
  | .block (depth + 1), '*' :: '/' :: cs => dropGap (.block depth) cs
  | .block depth, _ :: cs => dropGap (.block depth) cs

def skipBlanks (cs : List Char) : Option (List Char) := dropGap .open cs

/-- Reads the tokens in turn, with blanks behind each. -/
def tokens : List (List Char) → List Char → Option (List Char)
  | [], cs => some cs
  | t :: ts, cs => if t.isPrefixOf cs then (skipBlanks (cs.drop t.length)).bind (tokens ts) else none

/-! ### Identifiers -/

/-- Whether the character goes on a run that begins like an identifier and is none. -/
def spoilsIdentifier (c : Char) : Bool := c = '.' || c = '+' || c = '-'

/-- Whether the character may stand in a raw identifier. -/
def isRawPart (c : Char) : Bool := spoilsIdentifier c || Text.isIdentifierPart c

def rawIdentifier : List Char → Option (String × List Char)
  | 'r' :: '#' :: cs =>
    match cs.takeWhile isRawPart with
    | [] => none
    | name => some (String.ofList name, cs.dropWhile isRawPart)
  | _ => none

/-- Whether raw text, a raw identifier, or something spelled in bytes begins here. -/
def beginsLiteral : List Char → Bool
  | 'r' :: '"' :: _ | 'r' :: '#' :: _ => true
  | 'b' :: '"' :: _ | 'b' :: '\'' :: _ | 'b' :: 'r' :: '"' :: _ | 'b' :: 'r' :: '#' :: _ => true
  | _ => false

def plainIdentifier (cs : List Char) : Option (String × List Char) :=
  match cs with
  | [] => none
  | c :: behind =>
    if beginsLiteral cs then none
    else if Text.isIdentifierStart c then
      let rest := behind.dropWhile Text.isIdentifierPart
      if rest.head?.any spoilsIdentifier then none
      else some (String.ofList (c :: behind.takeWhile Text.isIdentifierPart), rest)
    else none

def identifier (cs : List Char) : Option (String × List Char) :=
  (rawIdentifier cs).or (plainIdentifier cs)

end Rulebook.Ron
