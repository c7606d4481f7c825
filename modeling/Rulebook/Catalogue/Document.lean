import Rulebook.Format.Ron.Unknown
import Rulebook.Format.Ron.Value
import Rulebook.Store.State

/-!
# Configuration documents

A configuration written in object notation: a record of its data, its expressions and its rules, of
which only the data must be there.
-/

namespace Rulebook.Config

def recordName : String := "StoreConfig"

/-- The configuration on one line. -/
def toRon (c : Config) : String :=
  let pair (key : String) (part : List Char) : List Char := Ron.quote key.toList ++ ':' :: part
  let data := c.data.entries.map fun (name, v) => pair name (Ron.ofValue v)
  let expressions := c.expressions.entries.map fun (name, s) => pair name (Ron.quote s.toList)
  let rules := c.rules.map fun s => Ron.quote s.toList
  String.ofList <| inlineBracket '(' ')'
    ["data:".toList ++ inlineBracket '\x7b' '\x7d' data,
      "expressions:".toList ++ inlineBracket '\x7b' '\x7d' expressions,
      "rules:".toList ++ inlineBracket '[' ']' rules]

/-- One field of a configuration that is being read. -/
inductive Part where
  | data (fs : Fields)
  | expressions (sentences : Table String)
  | rules (sentences : List String)
  | other

def readPart (exts : Ron.Extensions) : String → List Char → Option (Part × List Char)
  | "data", cs => (Ron.fields cs).map fun p => (.data p.1, p.2)
  | "expressions", cs => (Ron.map Ron.text cs).map fun p => (.expressions (.ofList p.1), p.2)
  | "rules", cs => (Ron.list Ron.text cs).map fun p => (.rules p.1, p.2)
  | _, cs => Ron.unknown exts .other cs

def Part.data? : Part → Option Fields
  | .data fs => some fs
  | _ => none

def Part.expressions? : Part → Option (Table String)
  | .expressions sentences => some sentences
  | _ => none

def Part.rules? : Part → Option (List String)
  | .rules sentences => some sentences
  | _ => none

/-- The configuration with these fields. The data must be there, and no field may come twice. -/
def ofParts? (parts : List Part) : Option Config :=
  match parts.filterMap Part.data?, parts.filterMap Part.expressions?,
    parts.filterMap Part.rules? with
  | [data], [], [] => some { data }
  | [data], [expressions], [] => some { data, expressions }
  | [data], [], [rules] => some { data, rules }
  | [data], [expressions], [rules] => some { data, expressions, rules }
  | _, _, _ => none

def ofRon? (s : String) : Option Config :=
  let read (exts : Ron.Extensions) := Ron.record exts.explicitNames recordName (readPart exts)
  (Ron.document read s).bind fun l => ofParts? (l.map Prod.snd)

end Rulebook.Config
