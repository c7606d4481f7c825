import Rulebook.Format.Ron.Text
import Rulebook.Format.Ron.Token

/-!
# Groups in object notation

Readers for lists, maps and records, given readers for what is in them. A reader takes what it knows
from the front of a text and gives back the rest.
-/

namespace Rulebook.Ron

variable {α β : Type}

/-- Reads elements up to the closing character, with commas between them. A comma may follow the
last element too. -/
def elements (item : List Char → Option (α × List Char)) (close : Char) :
    Nat → List Char → Option (List α × List Char)
  | 0, _ => none
  | fuel + 1, cs => do
    match ← skipBlanks cs with
    | [] => none
    | c :: rest =>
      if c = close then return ([], rest)
      else
        let (a, cs) ← item (c :: rest)
        match ← skipBlanks cs with
        | [] => none
        | c :: cs =>
          if c = ',' then
            let (as, cs) ← elements item close fuel cs
            return (a :: as, cs)
          else if c = close then return ([a], cs)
          else none

/-- Reads the elements behind an opening bracket. -/
def content (item : List Char → Option (α × List Char)) (close : Char) (cs : List Char) :
    Option (List α × List Char) :=
  elements item close (cs.length + 1) cs

/-- Reads a bracket with the elements in it. -/
def bracketed (opening close : Char) (item : List Char → Option (α × List Char)) :
    List Char → Option (List α × List Char)
  | c :: cs => if c = opening then content item close cs else none
  | [] => none

/-- Reads a key, a colon, and the value that belongs to the key. -/
def entry (key : List Char → Option (α × List Char))
    (value : α → List Char → Option (β × List Char)) (cs : List Char) :
    Option ((α × β) × List Char) := do
  let (a, cs) ← key cs
  match ← skipBlanks cs with
  | ':' :: cs =>
    let (b, cs) ← value a (← skipBlanks cs)
    return ((a, b), cs)
  | _ => none

def list (item : List Char → Option (α × List Char)) : List Char → Option (List α × List Char) :=
  bracketed '[' ']' item

def map (value : List Char → Option (α × List Char)) :
    List Char → Option (List (String × α) × List Char) :=
  bracketed '\x7b' '\x7d' (entry text fun _ => value)

/-- Reads a record. It may bear its name, and must if `named` says so. What a field holds depends on
how it is called. -/
def record (named : Bool) (name : String) (field : String → List Char → Option (α × List Char))
    (cs : List Char) : Option (List (String × α) × List Char) := do
  let cs ← match cs with
    | '(' :: _ => if named then none else some cs
    | _ =>
      let (found, cs) ← identifier cs
      if found = name then skipBlanks cs else none
  bracketed '(' ')' (entry identifier field) cs

end Rulebook.Ron
