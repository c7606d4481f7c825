import Rulebook.Number
import Rulebook.Table
import Rulebook.Text.Basic

/-!
# Values

What a field can hold, how a word of a sentence is read as a value, and the readings of a value:
as a truth value, as a number, and as text for people. Then the questions that a sentence can ask of two
values. Equality is strict: values of two kinds are never equal. The order compares text with text by
code points, and all else by number.
-/

namespace Rulebook

inductive Value where
  | null
  | bool (b : Bool)
  | number (n : Number)
  | text (s : String)
deriving DecidableEq, Inhabited

/-- Values under the names of their fields. -/
abbrev Fields := Table Value

/-- Snapshots of the fields, oldest first. The place of a snapshot is its version. -/
abbrev History := List Fields

namespace Value

/-- The value that a word of a sentence stands for. Digits are a number if it fits, and any word that
is not a literal of its own is text. -/
def ofWord (word : String) : Value :=
  if word = "true" then bool true
  else if word = "false" then bool false
  else if word = "null" then null
  else
    match Number.ofDigits? word.toList with
    | some n => number n
    | none => text word

def truthy : Value → Bool
  | null => false
  | bool b => b
  | number n => n.val ≠ 0
  | text s => !s.isEmpty

/-- The value read as a number. Text is one only if it spells a number, blanks around it aside. -/
def number? : Value → Option Number
  | null => some .zero
  | bool b => some (if b then .one else .zero)
  | number n => some n
  | text s => Number.read? (Text.trim s.toList)

/-- The value after one step up: text grows by the digit one, and all else by one as a number. -/
def incremented : Value → Value
  | text s => text (s ++ "1")
  | null => number Number.zero.succ
  | bool b => number (if b then Number.one else Number.zero).succ
  | number n => number n.succ

def kind : Value → String
  | null => "null"
  | bool _ => "bool"
  | number _ => "int"
  | text _ => "string"

def bool? : Value → Option Bool
  | bool b => some b
  | _ => none

def text? : Value → Option String
  | text s => some s
  | _ => none

/-- The value as people read it: text stands between quotes, as it is. -/
def render : Value → String
  | null => "null"
  | bool b => if b then "true" else "false"
  | number n => n.render
  | text s => "\"" ++ s ++ "\""

end Value

/-! ### Comparisons -/

/-- A question about two values. -/
inductive Comparison where
  | equal
  | differ
  | greater
  | less
  | either
deriving DecidableEq

/-- How two values are ordered. Text that spells no number has no order beside a value of another
kind. -/
def Value.order? : Value → Value → Option Ordering
  | .text s, .text t => some (compare s t)
  | a, b => a.number?.bind fun m => b.number?.map fun n => compare m.val n.val

/-- Whether the comparison holds of the two values. -/
def Comparison.holds : Comparison → Value → Value → Bool
  | equal, a, b => a = b
  | differ, a, b => a ≠ b
  | greater, a, b => a.order? b = some .gt
  | less, a, b => a.order? b = some .lt
  | either, a, b => a.truthy || b.truthy

end Rulebook
