/-!
# Keywords

The operators of the sentence language, from the one that binds its neighbours most weakly to the
one that binds them most tightly.
-/

namespace Rulebook

/-- An operator of the sentence language, named for its phrase. -/
inductive Keyword where
  | thenDo
  | or
  | and
  | set
  | inc
  | was
  | wasNot
  | is
  | isNot
  | isNow
  | isNotNow
  | hasChanged
  | hasNotChanged
  | greaterThan
  | lessThan
deriving DecidableEq

namespace Keyword

def phrase : Keyword → String
  | thenDo => "then"
  | or => "or"
  | and => "and"
  | set => "set"
  | inc => "inc"
  | was => "was"
  | wasNot => "was not"
  | is => "is"
  | isNot => "is not"
  | isNow => "is now"
  | isNotNow => "is not now"
  | hasChanged => "has changed"
  | hasNotChanged => "has not changed"
  | greaterThan => "greater than"
  | lessThan => "less than"

/-- All operators, the weakest first. -/
def byStrength : List Keyword :=
  [thenDo, or, and, set, inc, was, wasNot, is, isNot, isNow, isNotNow, hasChanged, hasNotChanged,
    greaterThan, lessThan]

def ofPhrase? (phrase : String) : Option Keyword := byStrength.find? fun k => k.phrase = phrase

def strength (k : Keyword) : Nat := byStrength.idxOf k

/-- Whether a chain of the operator may be grouped either way. -/
def associative : Keyword → Bool
  | and | or => true
  | _ => false

/-- Whether the operator has no operand on its right, so that a placeholder stands there. -/
def takesPlaceholder : Keyword → Bool
  | hasChanged | hasNotChanged | inc => true
  | _ => false

/-- Whether the operator writes to the field on its left. -/
def assigns : Keyword → Bool
  | set | inc => true
  | _ => false

theorem mem_byStrength (k : Keyword) : k ∈ byStrength := by cases k <;> decide

theorem ofPhrase?_phrase (k : Keyword) : ofPhrase? k.phrase = some k := by cases k <;> decide

theorem phrase_of_ofPhrase? {s : String} {k : Keyword} (h : ofPhrase? s = some k) :
    k.phrase = s := by
  simpa using List.find?_some h

end Keyword

end Rulebook
