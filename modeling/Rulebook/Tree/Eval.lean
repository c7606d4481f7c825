import Rulebook.Error

/-!
# Evaluation

A tree is evaluated over the live fields, which it may write, and the fields before the running
update. A view says which of the two its reads see; writes go to the live fields from either view,
and stay there if a later part of the tree fails.
-/

namespace Rulebook

/-- Which fields a tree reads. -/
inductive View where
  | current
  | previous
deriving DecidableEq

def View.shown (view : View) (live prior : Fields) : Fields :=
  match view with
  | current => live
  | previous => prior

/-- A computation over the live fields. What it wrote before an error stays written. -/
abbrev Eval := ExceptT StoreError (StateM Fields)

namespace Eval

/-- Runs a computation on live fields: its outcome and the live fields after it. -/
def runOn {α : Type} (e : Eval α) (live : Fields) : Except StoreError α × Fields :=
  (ExceptT.run e).run live

/-- Reads a field through a view. A field that is not there reads as null. -/
def read (prior : Fields) (view : View) (name : String) : Eval Value := do
  return ((view.shown (← get) prior).get? name).getD .null

def write (name : String) (v : Value) : Eval Unit := do
  match (← get).replace? name v with
  | some live => set live
  | none => throw (.unknownField name)

end Eval

namespace Tree

def target (k : Keyword) : Tree → Eval String
  | field name => return name
  | t => throw (.notAField k t.kind)

/-- Evaluates a tree. `prior` holds the fields before the running update; the previous view of a
previous view is itself. -/
def eval (prior : Fields) (view : View) : Tree → Eval Value
  | value v => return v
  | field name => Eval.read prior view name
  | placeholder => throw .strayPlaceholder
  | compare c l r => do
    let a ← l.eval prior view
    let b ← r.eval prior view
    return .bool (c.holds a b)
  | both l r =>
    if l.isEffect then do
      let _ ← l.eval prior view
      let _ ← r.eval prior view
      return .null
    else do
      let a ← l.eval prior view
      if a.truthy then
        let b ← r.eval prior view
        return .bool b.truthy
      else return .bool false
  | was c l r => do
    let before ← l.eval prior .previous
    let b ← r.eval prior view
    return .bool (c.holds before b)
  | becomes l r => do
    let before ← l.eval prior .previous
    let now ← l.eval prior view
    let b ← r.eval prior view
    return .bool (before ≠ now && now = b)
  | ceases l r => do
    let before ← l.eval prior .previous
    let now ← l.eval prior view
    let b ← r.eval prior view
    return .bool (before ≠ now && before = b)
  | changed l _ => do
    let before ← l.eval prior .previous
    let now ← l.eval prior view
    return .bool (before ≠ now)
  | unchanged l _ => do
    let before ← l.eval prior .previous
    let now ← l.eval prior view
    return .bool (before = now)
  | assign l r => do
    let name ← l.target .set
    let v ← r.eval prior view
    Eval.write name v
    return v
  | increment l _ => do
    let name ← l.target .inc
    let v ← l.eval prior view
    Eval.write name v.incremented
    return v.incremented
  | when l r => do
    let a ← l.eval prior view
    if a.truthy then r.eval prior view else return .null

end Tree

end Rulebook
