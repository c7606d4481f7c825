import Rulebook.Error
import Rulebook.Format.Json.Document
import Rulebook.Format.Ron.Unknown
import Rulebook.Format.Ron.Value
import Rulebook.Format.Timestamp
import Rulebook.History.Listing

/-!
# Archives

A history, or a range of its versions, written out so that it can be read back. An archive is a
record in object notation or in JSON.
-/

namespace Rulebook

/-- Snapshots with the circumstances of their export. -/
structure Archive where
  version : Nat := 1
  exportedAt : Timestamp
  /-- The version of the first snapshot in the history that it was taken from. -/
  firstVersion : Nat
  snapshots : History
deriving DecidableEq

namespace Archive

/-- The names of the fields, in the order in which they are written. -/
def fieldNames : List String := ["version", "exported_at", "first_version", "snapshots"]

/-! ### Writing -/

def toRon (a : Archive) : String :=
  let parts : List (List Char) :=
    [Nat.toDigits 10 a.version, Ron.quote a.exportedAt.text.toList, Nat.toDigits 10 a.firstVersion,
      Ron.layout.bracket 1 '[' ']' (a.snapshots.map (Ron.ofFields 2))]
  String.ofList (Ron.layout.bracket 0 '(' ')' <|
    (fieldNames.zip parts).map fun (name, part) => name.toList ++ [':', ' '] ++ part)

def toJson (a : Archive) : String :=
  let parts : List (List Char) :=
    [Nat.toDigits 10 a.version, Json.quote a.exportedAt.text.toList,
      Nat.toDigits 10 a.firstVersion,
      Json.layout.bracket 1 '[' ']' (a.snapshots.map (Json.ofFields 2))]
  String.ofList (Json.layout.bracket 0 '\x7b' '\x7d' <|
    (fieldNames.zip parts).map fun (name, part) => Json.quote name.toList ++ [':', ' '] ++ part)

/-! ### Reading -/

/-- One field of an archive that is being read. -/
inductive Part where
  | version (n : Nat)
  | exportedAt (t : Timestamp)
  | firstVersion (n : Nat)
  | snapshots (h : History)
  | other

def below (bound : Nat) (p : Int × List Char) : Option (Nat × List Char) :=
  if 0 ≤ p.1 ∧ p.1 < bound then some (p.1.toNat, p.2) else none

/-- Keeps the text of a moment. -/
def moment (p : String × List Char) : Option (Timestamp × List Char) :=
  (Timestamp.ofText? p.1).map fun t => (t, p.2)

def ronPart (exts : Ron.Extensions) : String → List Char → Option (Part × List Char)
  | "version", cs => (Ron.ofKind .u32 cs).map fun p => (.version p.1.toNat, p.2)
  | "exported_at", cs => ((Ron.text cs).bind moment).map fun p => (.exportedAt p.1, p.2)
  | "first_version", cs => (Ron.ofKind .u64 cs).map fun p => (.firstVersion p.1.toNat, p.2)
  | "snapshots", cs => (Ron.list Ron.fields cs).map fun p => (.snapshots p.1, p.2)
  | _, cs => Ron.unknown exts .other cs

def jsonPart : String → List Char → Option (Part × List Char)
  | "version", cs => ((Json.integer cs).bind (below UInt32.size)).map fun p => (.version p.1, p.2)
  | "exported_at", cs => ((Json.text cs).bind moment).map fun p => (.exportedAt p.1, p.2)
  | "first_version", cs =>
    ((Json.integer cs).bind (below UInt64.size)).map fun p => (.firstVersion p.1, p.2)
  | "snapshots", cs => (Json.list Json.fields cs).map fun p => (.snapshots p.1, p.2)
  | _, cs => Json.unknown .other cs

def Part.version? : Part → Option Nat
  | .version n => some n
  | _ => none

def Part.exportedAt? : Part → Option Timestamp
  | .exportedAt t => some t
  | _ => none

def Part.firstVersion? : Part → Option Nat
  | .firstVersion n => some n
  | _ => none

def Part.snapshots? : Part → Option History
  | .snapshots h => some h
  | _ => none

/-- The archive with these fields. Each of its own must be there once. -/
def ofParts? (parts : List Part) : Option Archive :=
  match parts.filterMap Part.version?, parts.filterMap Part.exportedAt?,
    parts.filterMap Part.firstVersion?, parts.filterMap Part.snapshots? with
  | [version], [exportedAt], [firstVersion], [snapshots] =>
    some { version, exportedAt, firstVersion, snapshots }
  | _, _, _, _ => none

def ofRon? (s : String) : Option Archive :=
  let read (exts : Ron.Extensions) := Ron.record exts.explicitNames "ExportData" (ronPart exts)
  (Ron.document read s).bind fun l => ofParts? (l.map Prod.snd)

def ofJson? (s : String) : Option Archive :=
  (Json.document (Json.record fieldNames jsonPart) s).bind fun l => ofParts? (l.map Prod.snd)

/-- The snapshots of an archive that was read. Only archives of the first version are understood. -/
def open? (a? : Option Archive) : Except HistoryError History :=
  match a? with
  | none => .error .unreadable
  | some a => if a.version = 1 then .ok a.snapshots else .error (.archiveVersion a.version)

end Archive

/-- The forms in which a history can be written. -/
inductive ExportFormat where
  | ron
  | json
  | sheet
  | listing
deriving DecidableEq

namespace History

def exportAs (h : History) (t : Timestamp) : ExportFormat → String
  | .ron => Archive.toRon { exportedAt := t, firstVersion := 0, snapshots := h }
  | .json => Archive.toJson { exportedAt := t, firstVersion := 0, snapshots := h }
  | .sheet => h.sheet
  | .listing => h.listing

/-- The versions from `first` to `last`, both included, as an archive. -/
def exportRange (h : History) (t : Timestamp) (first last : Nat) (form : ExportFormat) :
    Except HistoryError String :=
  if h.length ≤ last then .error (.noSnapshot last h.length)
  else if last < first then .error (.noSnapshot first (last + 1))
  else
    let a : Archive :=
      { exportedAt := t, firstVersion := first, snapshots := (h.take (last + 1)).drop first }
    match form with
    | .ron => .ok a.toRon
    | .json => .ok a.toJson
    | .sheet | .listing => .error .partialFormat

/-- The snapshots of an archive in object notation. -/
def ofRon (s : String) : Except HistoryError History := Archive.open? (Archive.ofRon? s)

/-- The snapshots of an archive in JSON. -/
def ofJson (s : String) : Except HistoryError History := Archive.open? (Archive.ofJson? s)

end History

end Rulebook
