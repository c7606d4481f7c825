import Rulebook.Store.State

/-!
# Listeners

A listener is a script: it looks at the store and at the memory of the application, acts on them one
step at a time, and goes on according to the reply of each step. A store is a state with handlers,
and a handler is a trigger with its listener.
-/

namespace Rulebook

/-- What a listener is given. -/
inductive Payload where
  /-- The value of the one field asked for. -/
  | value (v : Value)
  /-- The fields asked for, or all of them if none were. -/
  | fields (fs : Fields)
deriving DecidableEq

namespace Payload

/-- The payload that some properties select from the live fields. -/
def select (live : Fields) : List String → Payload
  | [] => fields live
  | [prop] => value ((live.get? prop).getD .null)
  | props => fields (.ofList (props.map fun prop => (prop, (live.get? prop).getD .null)))

def value? : Payload → Option Value
  | value v => some v
  | fields _ => none

def fields? : Payload → Option Fields
  | value _ => none
  | fields fs => some fs

def get? (p : Payload) (name : String) : Option Value := p.fields?.bind (·.get? name)

end Payload

/-- Values to be stored, in order. -/
abbrev Patch := List (String × Value)

/-- One run of a listener: the place of its handler, and what it was given. -/
structure Run where
  handler : Nat
  payload : Payload
deriving DecidableEq

/-- What an accepted update did: the version that it added to the history, and the listeners that it
ran, in order. -/
structure Cycle where
  version : Nat
  runs : List Run
deriving DecidableEq

/-- What a listener does, step by step. `σ` is the memory of the application. -/
inductive Script (σ : Type) where
  | done
  /-- Looks at the state of the store and at the number of its handlers. -/
  | look (next : State → Nat → Script σ)
  /-- Looks at the memory of the application. -/
  | consult (next : σ → Script σ)
  | remember (memory : σ) (next : Script σ)
  | set (name : String) (v : Value) (next : Except StoreError Unit → Script σ)
  | update (patch : Patch) (next : Except StoreError Cycle → Script σ)
  | listen (trigger : String) (props : List String) (listener : Payload → Script σ)
      (next : Except StoreError Unit → Script σ)
  | restore (history : History) (next : Except StoreError Unit → Script σ)

/-- A trigger with the listener that it starts. -/
structure Handler (σ : Type) where
  trigger : Tree
  props : List String
  listener : Payload → Script σ

/-- A state with handlers, in the order of their registration. -/
structure Store (σ : Type) extends State where
  handlers : List (Handler σ) := []

/-- A store and the memory of the application around it. -/
structure App (σ : Type) where
  store : Store σ
  memory : σ

/-! ### Writing scripts in steps -/

/-- A step of a script that answers with an `α`. -/
def Act (σ α : Type) : Type := (α → Script σ) → Script σ

namespace Act

variable {σ α β : Type}

instance : Monad (Act σ) where
  pure a := fun next => next a
  bind x f := fun next => x fun a => f a next

/-- The script that takes the step and ends. -/
def script (act : Act σ Unit) : Script σ := act fun _ => .done

def state : Act σ State := fun next => .look fun s _ => next s

def handlerCount : Act σ Nat := fun next => .look fun _ n => next n

def memory : Act σ σ := fun next => .consult next

def remember (memory : σ) : Act σ Unit := fun next => .remember memory (next ())

def set (name : String) (v : Value) : Act σ (Except StoreError Unit) := fun next => .set name v next

def update (patch : Patch) : Act σ (Except StoreError Cycle) := fun next => .update patch next

def listen (trigger : String) (props : List String) (listener : Payload → Act σ Unit) :
    Act σ (Except StoreError Unit) :=
  fun next => .listen trigger props (fun p => (listener p).script) next

def restore (history : History) : Act σ (Except StoreError Unit) :=
  fun next => .restore history next

end Act

end Rulebook
