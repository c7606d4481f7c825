import Rulebook.Value

/-!
# Listings and sheets

A history for people to read: every version with its fields, where a mark shows what differs from the
version before. And a history as a table of comma-separated values: a column for each field of the first
snapshot, and a row for each version.
-/

namespace Rulebook

/-! ### Listings -/

/-- One field of a listed version. -/
structure ListedField where
  /-- Whether the version before shows something else, or nothing. -/
  marked : Bool
  name : String
  value : Value
deriving DecidableEq

def ListedField.line (f : ListedField) : String :=
  " " ++ (if f.marked then "*" else " ") ++ " " ++ f.name ++ ": " ++ f.value.render ++ "\n"

namespace History

/-- The fields of a version, with the version before it if there is one. -/
def listedFields (previous? : Option Fields) (fs : Fields) : List ListedField :=
  fs.entries.map fun (name, v) =>
    ⟨previous?.any fun previous => previous.get? name ≠ some v, name, v⟩

/-- The fields of every version. -/
def listedVersions (previous? : Option Fields) : History → List (List ListedField)
  | [] => []
  | fs :: rest => listedFields previous? fs :: listedVersions (some fs) rest

def listing (h : History) : String :=
  "=== History Export ===\n\n" ++
  s!"Snapshots: {h.length}\n" ++
  (match h.head? with
    | some first => "Fields: " ++ ", ".intercalate first.names ++ "\n"
    | none => "") ++
  "\n=== Snapshots ===\n" ++
  String.join ((h.listedVersions none).zipIdx.map fun (fields, version) =>
    s!"\n--- Version {version} ---\n" ++ String.join (fields.map ListedField.line))

end History

/-! ### Comma-separated values -/

namespace Csv

/-- Whether the character keeps a cell from being written as it is. -/
def needsQuotes (c : Char) : Bool := c = ',' || c = '"' || c = '\n'

def cell (text : List Char) : List Char :=
  if text.any needsQuotes then
    '"' :: (text.flatMap fun c => if c = '"' then ['"', '"'] else [c]) ++ ['"']
  else text

/-- The text of one record, with its line end. -/
def record (cells : List (List Char)) : List Char := [','].intercalate cells ++ ['\n']

end Csv

/-! ### Sheets -/

/-- The text of a value in a cell. -/
def Value.plain : Value → List Char
  | null => []
  | bool b => (if b then "true" else "false").toList
  | number n => n.digits
  | text s => s.toList

namespace History

def columns (h : History) : List String := (h.head?.map Table.names).getD []

/-- The rows of the sheet, the header first. -/
def rows (h : History) : List (List (List Char)) :=
  ("version".toList :: h.columns.map String.toList) ::
    h.zipIdx.map fun (fs, version) =>
      Nat.toDigits 10 version :: h.columns.map fun name => ((fs.get? name).map Value.plain).getD []

/-- The history as comma-separated values. -/
def sheet (h : History) : String :=
  String.ofList ((h.rows.map fun row => Csv.record (row.map Csv.cell)).flatten)

end History

end Rulebook
