import Rulebook.Sentence.Assembly
import Rulebook.Tree.Eval

/-!
# The state of a store

What a store is built from, and what it is without its listeners: the live fields, their history, and
what the sentences of the configuration were compiled to. All that needs no listener is defined here:
building, reading, writing one field, asking a sentence, and putting another history in place.
-/

namespace Rulebook

/-! ### Configurations -/

/-- What a store is built from: the fields with their first values, the named expressions, and the
rules, each in the order of declaration. -/
structure Config where
  data : Fields := ∅
  expressions : Table String := ∅
  rules : List String := []
deriving DecidableEq

namespace Config

/-- The declared names: those of the fields, then those of the expressions. -/
def names (c : Config) : List String := c.data.names ++ c.expressions.names

def append (c d : Config) : Config where
  data := c.data.insertAll d.data.entries
  expressions := c.expressions.insertAll d.expressions.entries
  rules := c.rules ++ d.rules

end Config

/-! ### Declarations -/

/-- The folded form of a declared name. A name that reads as a keyword is refused. -/
def reserve (name : String) : Except StoreError String :=
  let folded := foldName name
  if (Keyword.ofPhrase? folded).isSome then .error (.reservedName name) else .ok folded

namespace Vocabulary

/-- The tree of a sentence, or the sentence with the fault in it. -/
def compiled (v : Vocabulary) (sentence : String) : Except StoreError Tree :=
  (v.compile sentence).mapError (.compile sentence)

def declareField (v : Vocabulary) (name : String) : Except StoreError Vocabulary := do
  let folded ← reserve name
  if v.fields.contains folded then throw (.duplicateName name)
  return v.addField name

/-- Declares an expression. It can use the fields and the expressions declared before it. -/
def declareExpression (v : Vocabulary) (name sentence : String) : Except StoreError Vocabulary := do
  let folded ← reserve name
  if v.names folded then throw (.duplicateName name)
  let t ← v.compiled sentence
  return v.addExpression name t

end Vocabulary

/-! ### States -/

/-- A store without its handlers. -/
structure State where
  live : Fields
  history : History
  vocabulary : Vocabulary
  rules : List Tree
deriving DecidableEq

namespace State

/-- Compiles a configuration. The first snapshot of the history holds the fields as declared. -/
def build (c : Config) : Except StoreError State := do
  let v ← c.data.names.foldlM Vocabulary.declareField {}
  let v ← c.expressions.entries.foldlM (fun v p => v.declareExpression p.1 p.2) v
  let rules ← c.rules.mapM v.compiled
  return { live := c.data, history := [c.data], vocabulary := v, rules }

/-- The declared names of the fields, in order. -/
def fieldNames (s : State) : List String := s.vocabulary.fields.values

def get? (s : State) (name : String) : Option Value := s.live.get? name

/-- Writes one field, without rules, history or listeners. -/
def set (s : State) (name : String) (v : Value) : Except StoreError State :=
  match s.live.replace? name v with
  | some live => .ok { s with live }
  | none => .error (.unknownField name)

def previous? (s : State) : Option Fields := s.history.reverse[1]?

def compile (s : State) (sentence : String) : Except StoreError Tree := s.vocabulary.compiled sentence

/-- The tree of an expression, by any name that folds to its own. -/
def expression? (s : State) (name : String) : Option Tree :=
  s.vocabulary.expressions.get? (foldName name)

/-- The value of a sentence now. Questions about change compare with the snapshot before the latest
one, and nothing that the sentence writes is kept. -/
def evaluate (s : State) (sentence : String) : Except StoreError Value := do
  let t ← s.compile sentence
  ((t.eval (s.previous?.getD s.live) .current).runOn s.live).1

/-- The tree of a trigger. The name of a field or an expression asks whether its value has changed;
anything else is a sentence. -/
def trigger (s : State) (text : String) : Except StoreError Tree :=
  let name := foldName text
  if s.vocabulary.names name then
    (s.vocabulary.parse (name.splitOn " " ++ ["has", "changed"])).mapError (.compile text)
  else s.compile text

/-- Puts another history in place. Each of its snapshots must hold the declared fields, and the last
one becomes the live fields. -/
def restore (s : State) (history : History) : Except StoreError State :=
  match history.findIdx? fun f => !f.hasNames s.fieldNames with
  | some i => .error (.snapshotMismatch i)
  | none =>
    match history.getLast? with
    | none => .error .emptyHistory
    | some last => .ok { s with live := last, history }

end State

end Rulebook
