import Rulebook.Store.Script

/-!
# Updates

An update has two phases. In the first the patch is merged, the rules run, the fields join the
history, and all triggers are judged. In the second the listeners of the triggers that fired run, in
the order of their registration. A listener may start an update of its own, so a run is given a depth
to which updates may nest, and has no outcome if that is exceeded.
-/

namespace Rulebook

namespace Store

variable {σ : Type}

/-- The first name of a patch that is not declared. -/
def undeclared? (s : Store σ) (patch : Patch) : Option String :=
  (patch.find? fun p => !s.live.contains p.1).map Prod.fst

def listen (s : Store σ) (trigger : String) (props : List String) (listener : Payload → Script σ) :
    Except StoreError (Store σ) :=
  match props.find? fun prop => !s.live.contains prop with
  | some prop => .error (.unknownField prop)
  | none => do
    let t ← s.trigger trigger
    return { s with handlers := s.handlers ++ [⟨t, props, listener⟩] }

def runRules (prior : Fields) (rules : List Tree) : Eval Unit :=
  rules.forM fun rule => discard (rule.eval prior .current)

/-- The handlers whose trigger is true, each with its place. -/
def fired (prior : Fields) : List (Handler σ × Nat) → Eval (List (Handler σ × Nat))
  | [] => return []
  | h :: rest => do
    let v ← h.1.trigger.eval prior .current
    let later ← fired prior rest
    return if v.truthy then h :: later else later

/-- The first phase of an update: the handlers that fire, and the store with one more snapshot. -/
def commit (s : Store σ) (patch : Patch) : Except StoreError (List (Handler σ × Nat)) × Store σ :=
  match s.undeclared? patch with
  | some name => (.error (.unknownField name), s)
  | none =>
    match (runRules s.live s.rules).runOn (s.live.insertAll patch) with
    | (.error e, live) => (.error e, { s with live })
    | (.ok (), live) =>
      let (handlers, final) := (fired s.live s.handlers.zipIdx).runOn live
      (handlers, { s with live := final, history := s.history ++ [live] })

end Store

/-- How the updates of listeners are carried out. There may be no outcome. -/
abbrev Updater (σ : Type) := Patch → App σ → Option (Except StoreError Cycle × App σ)

namespace App

variable {σ : Type}

/-- Changes the store, unless the change is refused. -/
def change {ε : Type} (app : App σ) (result : Except ε (Store σ)) : Except ε Unit × App σ :=
  match result with
  | .ok store => (.ok (), { app with store })
  | .error e => (.error e, app)

def set (app : App σ) (name : String) (v : Value) : Except StoreError Unit × App σ :=
  app.change ((app.store.toState.set name v).map fun s => { app.store with toState := s })

def listen (app : App σ) (trigger : String) (props : List String)
    (listener : Payload → Script σ) : Except StoreError Unit × App σ :=
  app.change (app.store.listen trigger props listener)

def restore (app : App σ) (history : History) : Except StoreError Unit × App σ :=
  app.change ((app.store.toState.restore history).map fun s => { app.store with toState := s })

end App

def Script.run {σ : Type} (nested : Updater σ) : Script σ → App σ → Option (App σ)
  | done, app => some app
  | look next, app => (next app.store.toState app.store.handlers.length).run nested app
  | consult next, app => (next app.memory).run nested app
  | remember memory next, app => next.run nested { app with memory }
  | set name v next, app =>
    let (reply, app) := app.set name v
    (next reply).run nested app
  | update patch next, app =>
    match nested patch app with
    | none => none
    | some (reply, app) => (next reply).run nested app
  | listen trigger props listener next, app =>
    let (reply, app) := app.listen trigger props listener
    (next reply).run nested app
  | restore history next, app =>
    let (reply, app) := app.restore history
    (next reply).run nested app

namespace App

variable {σ : Type}

/-- The second phase of an update: runs the listeners in turn. Each is given what its properties
select from the live fields at its turn. -/
def dispatch (nested : Updater σ) : List (Handler σ × Nat) → App σ → Option (List Run × App σ)
  | [], app => some ([], app)
  | (h, i) :: rest, app => do
    let payload := Payload.select app.store.live h.props
    let app ← (h.listener payload).run nested app
    let (runs, app) ← dispatch nested rest app
    return (⟨i, payload⟩ :: runs, app)

/-- An update whose listeners update through `nested`. -/
def updateWith (nested : Updater σ) : Updater σ := fun patch app =>
  match app.store.commit patch with
  | (.error e, store) => some (.error e, { app with store })
  | (.ok handlers, store) => do
    let (runs, after) ← dispatch nested handlers { app with store }
    return (.ok ⟨app.store.history.length, runs⟩, after)

/-- An update in which updates nest at most `depth` deep. -/
def update : Nat → Updater σ
  | 0 => fun _ _ => none
  | depth + 1 => updateWith (update depth)

/-- Updates with the patches in turn, all of which must be accepted. -/
def updates (depth : Nat) : List Patch → App σ → Option (List Cycle × App σ)
  | [], app => some ([], app)
  | patch :: rest, app =>
    match app.update depth patch with
    | some (.ok cycle, middle) => (updates depth rest middle).map fun (cycles, after) => (cycle :: cycles, after)
    | _ => none

/-- Updates with the patches in turn, refused or not, and what they answer. -/
def replies (depth : Nat) : List Patch → App σ → Option (List (Except StoreError Cycle) × App σ)
  | [], app => some ([], app)
  | patch :: rest, app => do
    let (reply, app) ← app.update depth patch
    let (later, app) ← replies depth rest app
    return (reply :: later, app)

/-- Carries out a script on an application, with updates nesting at most `depth` deep. -/
def run (depth : Nat) (script : Script σ) (app : App σ) : Option (App σ) :=
  script.run (update depth) app

end App

end Rulebook
