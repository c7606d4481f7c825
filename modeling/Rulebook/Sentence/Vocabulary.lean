import Rulebook.Text.Alphanumeric
import Rulebook.Text.Lowercase
import Rulebook.Tree.Basic

/-!
# Words and vocabularies

A text is read as words: pieces between blanks, without punctuation and in small letters. Names and
sentences are folded in the same way, except that a sentence loses its filler words. The phrases that a
sentence can use are the keywords, the declared fields and the compiled expressions. Fields and
expressions are filed under their folded names.
-/

namespace Rulebook

/-! ### Words -/

def isWordChar (c : Char) : Bool := c = '_' || Text.isAlphanumeric c

/-- The word that is left of a piece of text. -/
def foldWord (piece : List Char) : List Char := (piece.filter isWordChar).flatMap Text.lowercase

def words (text : String) : List String :=
  (((Text.chunks text.toList).map foldWord).filter fun word => !word.isEmpty).map String.ofList

/-- The folded form of a name: its words, joined by single spaces. -/
def foldName (name : String) : String := " ".intercalate (words name)

/-- Words that carry no meaning in a sentence. -/
def fillers : List String := ["if"]

/-- The words of a sentence that carry meaning. -/
def sentenceWords (sentence : String) : List String :=
  (words sentence).filter fun word => !fillers.contains word

/-! ### Vocabularies -/

/-- What a phrase stands for. -/
inductive Meaning where
  | keyword (k : Keyword)
  /-- A field, by its name as declared. -/
  | field (name : String)
  | expression (t : Tree)
deriving DecidableEq

/-- The declared fields and the compiled expressions. -/
structure Vocabulary where
  /-- The declared names of the fields, under their folded names. -/
  fields : Table String := ∅
  /-- The trees of the expressions, under their folded names. -/
  expressions : Table Tree := ∅
deriving DecidableEq

namespace Vocabulary

/-- What a phrase stands for. Keywords win over fields, and fields over expressions. -/
def find? (v : Vocabulary) (phrase : String) : Option Meaning :=
  match Keyword.ofPhrase? phrase with
  | some k => some (.keyword k)
  | none =>
    match v.fields.get? phrase with
    | some name => some (.field name)
    | none => (v.expressions.get? phrase).map .expression

/-- Whether a folded name is taken by a field or an expression. -/
def names (v : Vocabulary) (name : String) : Bool :=
  v.fields.contains name || v.expressions.contains name

def addField (v : Vocabulary) (name : String) : Vocabulary :=
  { v with fields := v.fields.insert (foldName name) name }

def addExpression (v : Vocabulary) (name : String) (t : Tree) : Vocabulary :=
  { v with expressions := v.expressions.insert (foldName name) t }

end Vocabulary

end Rulebook
