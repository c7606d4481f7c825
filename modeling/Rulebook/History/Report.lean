import Rulebook.Value

/-!
# Audits and reports

What changed in a history, and when: the changes of a version, the changes that answer a query, the
number of changes of each field, and the values of one field over time. A report is the figures of a
history, with the text that shows them.
-/

namespace Rulebook

/-! ### Audits -/

/-- One field that differs from the snapshot before. -/
structure Change where
  /-- The version that has the new value. -/
  version : Nat
  field : String
  before : Value
  after : Value
deriving DecidableEq

namespace Fields

/-- The fields of `after` that differ from `before`, in their order. A field that `before` lacks was
null. -/
def changes (version : Nat) (before after : Fields) : List Change :=
  after.entries.filterMap fun (name, v) =>
    let old := (before.get? name).getD .null
    if old = v then none else some ⟨version, name, old, v⟩

end Fields

/-- Which changes are asked for. What is not given does not matter. -/
structure Query where
  first? : Option Nat := none
  last? : Option Nat := none
  field? : Option String := none
  after? : Option Value := none

def Query.accepts (q : Query) (c : Change) : Bool :=
  q.first?.all (· ≤ c.version) && q.last?.all (c.version ≤ ·) && q.field?.all (· = c.field) &&
    q.after?.all (· = c.after)

namespace History

/-- The changes that one version brought. The first version brought none. -/
def changesAt (h : History) : Nat → List Change
  | 0 => []
  | v + 1 =>
    match h[v]?, h[v + 1]? with
    | some before, some after => Fields.changes (v + 1) before after
    | _, _ => []

/-- All changes, oldest first. -/
def changes (h : History) : List Change := (List.range h.length).flatMap h.changesAt

def query (h : History) (q : Query) : List Change := h.changes.filter q.accepts

/-- How often each field changed. The fields come in the order of the first snapshot. -/
def changeCounts (h : History) : Table Nat :=
  let zeros := ((h.head?.map Table.names).getD []).map fun name => (name, 0)
  h.changes.foldl (fun t c => t.insert c.field ((t.get? c.field).getD 0 + 1)) (.ofList zeros)

/-- The values of a field, each with its version. -/
def timeline (h : History) (field : String) : List (Nat × Value) :=
  h.zipIdx.filterMap fun (fs, version) => (fs.get? field).map fun v => (version, v)

/-- The versions after the first, in order. -/
def updates (h : History) : List Nat := List.range' 1 (h.length - 1)

/-- The versions after the first that changed nothing. -/
def idleUpdates (h : History) : List Nat :=
  h.updates.filter fun version => !h.changes.any fun c => c.version = version

end History

/-! ### Reports -/

structure Report where
  snapshots : Nat
  updates : Nat
  /-- The number of updates that changed nothing. -/
  idleUpdates : Nat
  changes : Nat
  changeCounts : Table Nat
deriving DecidableEq

def History.report (h : History) : Report where
  snapshots := h.length
  updates := h.updates.length
  idleUpdates := h.idleUpdates.length
  changes := h.changes.length
  changeCounts := h.changeCounts

namespace Report

/-- The fields with their counts, the greatest count first. Equal counts keep their order. -/
def ranking (r : Report) : List (String × Nat) :=
  r.changeCounts.entries.mergeSort fun p q => q.2 ≤ p.2

/-- The report as text, each line with its end. -/
def text (r : Report) : String :=
  "=== Audit Report ===\n" ++
  s!"Snapshots: {r.snapshots}\n" ++
  s!"Updates: {r.updates}\n" ++
  s!"Idle updates: {r.idleUpdates}\n" ++
  s!"Field changes: {r.changes}\n" ++
  if r.changeCounts.entries.isEmpty then ""
  else "\nChanges by field:\n" ++
    String.join (r.ranking.map fun (field, count) => s!"  {field}: {count}\n")

end Report

end Rulebook
