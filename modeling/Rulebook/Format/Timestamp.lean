import Rulebook.Text.Basic

/-!
# Timestamps

The text of a moment: a date, a `T` or a blank, a time of day, and its offset from universal time.
Blanks may stand between the parts. In universal time the moment has to lie in the years that a date
may name.
-/

namespace Rulebook

namespace Moment

/-- Reads at least one and at most `most` digits. -/
def digits (most : Nat) (cs : List Char) : Option (Nat × List Char) :=
  let ds := (cs.take most).takeWhile Char.isDigit
  if ds.isEmpty then none else some (Nat.ofDigitChars 10 ds 0, cs.drop ds.length)

/-- Reads a number of at most two digits that lies between two bounds. -/
def twoDigits (least greatest : Nat) (cs : List Char) : Option (Nat × List Char) := do
  let (n, cs) ← digits 2 (Text.trimStart cs)
  if least ≤ n ∧ n ≤ greatest then return (n, cs) else none

/-- Reads a character, with blanks before it. -/
def mark (c : Char) (cs : List Char) : Option (List Char) :=
  match Text.trimStart cs with
  | d :: rest => if d = c then some rest else none
  | [] => none

def firstYear : Int := -262143

def lastYear : Int := 262142

/-- Reads a year: four digits at most, or any number of digits behind a sign. -/
def year (cs : List Char) : Option (Int × List Char) := do
  let (y, cs) ← match Text.trimStart cs with
    | '-' :: cs => (digits cs.length cs).map fun p => (-(p.1 : Int), p.2)
    | '+' :: cs => (digits cs.length cs).map fun p => ((p.1 : Int), p.2)
    | cs => (digits 4 cs).map fun p => ((p.1 : Int), p.2)
  if firstYear ≤ y ∧ y ≤ lastYear then return (y, cs) else none

def isLeap (y : Int) : Bool := y % 4 = 0 && (y % 100 ≠ 0 || y % 400 = 0)

def monthLength (y : Int) (month : Nat) : Nat :=
  if month = 2 then if isLeap y then 29 else 28
  else if month = 4 ∨ month = 6 ∨ month = 9 ∨ month = 11 then 30
  else 31

structure Date where
  year : Int
  month : Nat
  day : Nat
deriving DecidableEq

def date (cs : List Char) : Option (Date × List Char) := do
  let (year, cs) ← year cs
  let (month, cs) ← twoDigits 1 12 (← mark '-' cs)
  let (day, cs) ← twoDigits 1 (monthLength year month) (← mark '-' cs)
  return (⟨year, month, day⟩, cs)

/-- Drops the fraction of a second, if there is one. -/
def dropFraction : List Char → Option (List Char)
  | '.' :: c :: cs => if c.isDigit then some (cs.dropWhile Char.isDigit) else none
  | ['.'] => none
  | cs => some cs

/-- Reads a time of day as the number of seconds that have passed. The second 60 is a leap second and
counts as a part of the one before it. -/
def time (cs : List Char) : Option (Nat × List Char) := do
  let (hour, cs) ← twoDigits 0 23 cs
  let (minute, cs) ← twoDigits 0 59 (← mark ':' cs)
  let (second, cs) ← twoDigits 0 60 (← mark ':' cs)
  return (3600 * hour + 60 * minute + min second 59, ← dropFraction cs)

/-- Reads hours and minutes, with two digits each, as seconds. -/
def hours : List Char → Option (Nat × List Char)
  | a :: b :: cs =>
    let hour := Nat.ofDigitChars 10 [a, b] 0
    if a.isDigit && b.isDigit && hour < 24 then
      match cs.dropWhile fun c => c = ':' || Text.isBlank c with
      | c :: d :: cs =>
        if '0' ≤ c && c ≤ '5' && d.isDigit then
          some (3600 * hour + 60 * Nat.ofDigitChars 10 [c, d] 0, cs)
        else none
      | _ => none
    else none
  | _ => none

/-- Reads an offset, as the seconds by which a local time is ahead: the letter of universal time or its
name, or hours and minutes with a sign. -/
def offset (cs : List Char) : Option (Int × List Char) :=
  match Text.trimStart cs with
  | 'Z' :: cs | 'z' :: cs => some (0, cs)
  | '+' :: cs => (hours cs).map fun p => ((p.1 : Int), p.2)
  | '-' :: cs | '−' :: cs => (hours cs).map fun p => (-(p.1 : Int), p.2)
  | a :: b :: c :: cs => if [a, b, c].map Char.toUpper = "UTC".toList then some (0, cs) else none
  | _ => none

/-- Whether the moment that lies so many seconds after the start of a day belongs to the years that a
date may name. The seconds may be negative or go over the day, but not by a whole day. -/
def inRange (d : Date) (seconds : Int) : Bool :=
  (d ≠ ⟨firstYear, 1, 1⟩ || 0 ≤ seconds) && (d ≠ ⟨lastYear, 12, 31⟩ || seconds < 86400)

def drop (cs : List Char) : Option (List Char) := do
  match ← date cs with
  | (d, c :: cs) =>
    if c = 'T' || c = 't' || c = ' ' then
      let (seconds, cs) ← time cs
      let (ahead, cs) ← offset cs
      if inRange d (seconds - ahead) then return Text.trimStart cs else none
    else none
  | (_, []) => none

end Moment

def isTimestamp (s : String) : Bool := Moment.drop s.toList = some []

/-- The text of a moment. -/
structure Timestamp where
  text : String
  valid : isTimestamp text = true
deriving DecidableEq

namespace Timestamp

def ofText? (s : String) : Option Timestamp :=
  if h : isTimestamp s = true then some ⟨s, h⟩ else none

def epoch : Timestamp := ⟨"1970-01-01T00:00:00Z", by decide⟩

theorem ofText?_text (t : Timestamp) : ofText? t.text = some t := by
  simp [ofText?, t.valid]

end Timestamp

end Rulebook
