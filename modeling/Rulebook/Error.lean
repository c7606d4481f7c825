import Rulebook.Tree.Basic

/-!
# What can go wrong

With a sentence, with a store and with a history. Each fault has a message for people, which ends with the
message of its cause if it has one.
-/

namespace Rulebook

/-! ### Sentences -/

/-- A fault in the way a sentence is put together. -/
inductive GrammarError where
  | empty
  | unknownOperator (phrase : String)
  | missingOperand (k : Keyword)
  /-- An operand of `k` was itself made by `k`, and `k` may not be grouped either way. -/
  | ambiguous (k : Keyword)
  | misplacedPlaceholder (k : Keyword)
  | notAssignable (k : Keyword) (found : Kind)
  /-- More than one item was left after the last pass. -/
  | unresolved (left : List Kind) (passes : Nat)
deriving DecidableEq

def GrammarError.message : GrammarError → String
  | empty => "sentence is empty"
  | unknownOperator phrase => "unknown operator: " ++ phrase
  | missingOperand k => "operator \"" ++ k.phrase ++ "\" is missing an operand"
  | ambiguous k =>
    "ambiguous nesting of \"" ++ k.phrase ++ "\"; split the sentence or use a named expression"
  | misplacedPlaceholder k => "placeholder cannot be an operand of \"" ++ k.phrase ++ "\""
  | notAssignable k found =>
    "\"" ++ k.phrase ++ "\" needs a field on its left, found " ++ found.describe
  | unresolved left passes =>
    "cannot resolve tree [" ++ ", ".intercalate (left.map Kind.describe) ++ "] within " ++
      toString passes ++ " passes"

/-! ### Stores -/

inductive StoreError where
  | compile (sentence : String) (cause : GrammarError)
  | unknownField (name : String)
  | duplicateName (name : String)
  | reservedName (name : String)
  /-- A placeholder was asked for its value. -/
  | strayPlaceholder
  /-- The tree on the left of an assignment is no field. -/
  | notAField (k : Keyword) (found : Kind)
  | emptyHistory
  | snapshotMismatch (index : Nat)
deriving DecidableEq

def StoreError.message : StoreError → String
  | compile sentence cause => "Failed to compile \"" ++ sentence ++ "\": " ++ cause.message
  | unknownField name => "Unknown field: " ++ name
  | duplicateName name => "Duplicate name: " ++ name
  | reservedName name => "Name \"" ++ name ++ "\" is an operator keyword"
  | strayPlaceholder =>
    "Invariant violation: placeholder node evaluated; its parent should never evaluate it"
  | notAField k found =>
    "Invariant violation: \"" ++ k.phrase ++ "\" target is a " ++ found.describe ++ ", not a field"
  | emptyHistory => "History must contain at least one snapshot"
  | snapshotMismatch index =>
    "Snapshot " ++ toString index ++ " does not match the declared fields"

/-! ### Histories -/

inductive HistoryError where
  /-- There is no snapshot with this index among so many. -/
  | noSnapshot (index length : Nat)
  /-- Only archives can hold a part of a history. -/
  | partialFormat
  /-- The archive is of a version that cannot be read. -/
  | archiveVersion (version : Nat)
  | unreadable
  | store (cause : StoreError)
deriving DecidableEq

def HistoryError.message : HistoryError → String
  | noSnapshot index length =>
    "Invalid history index " ++ toString index ++ " (history has " ++ toString length ++ " entries)"
  | partialFormat => "Export error: Range export only supports RON and JSON"
  | archiveVersion version => "Export error: unsupported export version " ++ toString version
  | unreadable => "Serialization error"
  | store cause => "Store error: " ++ cause.message

end Rulebook
