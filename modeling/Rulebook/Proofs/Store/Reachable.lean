import Rulebook.History.Playback
import Rulebook.Proofs.Store.Consistent
import Rulebook.Proofs.Store.Steps

/-!
# Reachable applications

What an application can come to, from the store of its configuration, by calls of its own and of its
listeners. `Reachable.update` says that whole updates stay inside, however they nest, and
`Reachable.consistent` that every store reached is consistent.
-/

namespace Rulebook

variable {σ : Type}

namespace App

/-- The applications that calls lead to. An update passes through the one in which its listeners start,
and from there on its listeners make the calls. -/
inductive Reachable (c : Config) : App σ → Prop
  | built {s : State} (memory : σ) : State.build c = .ok s → Reachable c ⟨{ toState := s }, memory⟩
  | remember {app : App σ} (memory : σ) : Reachable c app → Reachable c { app with memory }
  | set {app : App σ} (name : String) (v : Value) : Reachable c app → Reachable c (app.set name v).2
  | listen {app : App σ} (trigger : String) (props : List String) (listener : Payload → Script σ) :
      Reachable c app → Reachable c (app.listen trigger props listener).2
  | restore {app : App σ} (history : History) : Reachable c app → Reachable c (app.restore history).2
  | commit {app : App σ} (patch : Patch) :
      Reachable c app → Reachable c { app with store := (app.store.commit patch).2 }

end App

/-! ### Cutting a history -/

namespace App

theorem rewind_eq (app : App σ) (index : Nat) :
    app.rewind index =
      if index < app.store.history.length then
        ((app.restore (app.store.history.take (index + 1))).1.mapError .store,
          (app.restore (app.store.history.take (index + 1))).2)
      else (.error (.noSnapshot index app.store.history.length), app) := by
  by_cases within : index < app.store.history.length
  · rw [rewind, State.rewind, if_pos within, if_pos within, restore]
    cases app.store.toState.restore (app.store.history.take (index + 1)) <;> rfl
  · rw [rewind, State.rewind, if_neg within, if_neg within]
    rfl

end App

/-! ### Calls -/

/-- A call keeps a store consistent. -/
theorem App.Call.consistent {declared : List String} {app after : App σ} (call : app.Call after)
    (consistent : app.store.Consistent declared) : after.store.Consistent declared := by
  cases call with
  | none | remember => exact consistent
  | set name v =>
    unfold App.set
    cases ran : app.store.toState.set name v with
    | error e => exact consistent
    | ok s => exact { consistent.toConsistent.set ran with triggers := consistent.triggers }
  | listen trigger props listener =>
    unfold App.listen
    cases ran : app.store.listen trigger props listener with
    | error e => exact consistent
    | ok store => exact consistent.listen ran
  | restore history =>
    unfold App.restore
    cases ran : app.store.toState.restore history with
    | error e => exact consistent
    | ok s => exact { consistent.toConsistent.restore ran with triggers := consistent.triggers }
  | commit patch => exact consistent.commit patch

namespace App

namespace Reachable

variable {c : Config} {app after : App σ}

theorem rewind (index : Nat) (reachable : app.Reachable c) : (app.rewind index).2.Reachable c := by
  rw [rewind_eq]
  split
  · exact reachable.restore _
  · exact reachable

/-! ### Runs -/

theorem call (reachable : app.Reachable c) (call : app.Call after) : after.Reachable c := by
  cases call with
  | none => exact reachable
  | remember memory => exact reachable.remember memory
  | set name v => exact reachable.set name v
  | listen trigger props listener => exact reachable.listen trigger props listener
  | restore history => exact reachable.restore history
  | commit patch => exact reachable.commit patch

/-- All points of a run that begins at a reachable application show reachable ones. -/
theorem point {p q : Point σ} (leads : p.Leads q) (reachable : p.app.Reachable c) : q.app.Reachable c := by
  have step : ∀ p q : Point σ, p.app.Reachable c → p.step? = some q → q.app.Reachable c :=
    fun _ _ reachable stepped => reachable.call (Point.call_of_step stepped)
  exact leads.keeps step reachable

/-- An update that comes to an end leads to a reachable application. -/
theorem update {depth : Nat} {patch : Patch} {reply : Except StoreError Cycle} (reachable : app.Reachable c)
    (ran : app.update depth patch = some (reply, after)) : after.Reachable c :=
  point (stepwise_update depth patch app reply after ran (fun _ => .done) []) reachable

/-- So does any script of calls. -/
theorem run {depth : Nat} {script : Script σ} (reachable : app.Reachable c)
    (ran : app.run depth script = some after) : after.Reachable c :=
  point (App.run_ends_iff.mp ⟨depth, ran⟩) reachable

/-! ### What stays as it was built -/

theorem exists_built (reachable : app.Reachable c) :
    ∃ s, State.build c = .ok s ∧ app.store.vocabulary = s.vocabulary ∧ app.store.rules = s.rules := by
  induction reachable with
  | built memory built => exact ⟨_, built, rfl, rfl⟩
  | remember memory _ ih => exact ih
  | @set app name v _ ih =>
    unfold App.set State.set
    cases app.store.live.replace? name v <;> exact ih
  | @listen app trigger props listener _ ih =>
    unfold App.listen
    cases ran : app.store.listen trigger props listener with
    | error e => exact ih
    | ok store =>
      obtain ⟨tree, _, rfl⟩ := Store.listen_ok ran
      exact ih
  | @restore app history _ ih =>
    unfold App.restore State.restore
    cases history.findIdx? fun f => !f.hasNames app.store.fieldNames with
    | some i => exact ih
    | none => cases history.getLast? <;> exact ih
  | @commit app patch _ ih =>
    unfold Store.commit
    split
    · exact ih
    · split <;> exact ih

/-! ### The invariant -/

/-- Every store reached is consistent over the declared fields. -/
theorem consistent (reachable : app.Reachable c) : app.store.Consistent c.data.names := by
  induction reachable with
  | built memory built => exact { State.build_consistent built with triggers := fun _ member => nomatch member }
  | remember memory _ ih => exact ih
  | set name v _ ih => exact Call.consistent (.set _ name v) ih
  | listen trigger props listener _ ih => exact Call.consistent (.listen _ trigger props listener) ih
  | restore history _ ih => exact Call.consistent (.restore _ history) ih
  | commit patch _ ih => exact ih.commit patch

end Reachable

end App

/-! ### A small store -/

namespace Counter

/-- A counter that counts on by itself once it was set going. -/
def config : Config where
  data := .ofList [("x", .number .zero)]
  expressions := .ofList [("started", "x greater than 0")]
  rules := ["if started then inc x"]

def started : Tree := .compare .greater (.field "x") (.value (.number .zero))

/-- What the counter is compiled to. -/
def state : State where
  live := config.data
  history := [config.data]
  vocabulary := { fields := .ofList [("x", "x")], expressions := .ofList [("started", started)] }
  rules := [.when started (.increment (.field "x") .placeholder)]

theorem built : State.build config = .ok state := by decide +kernel

def app : App Unit := ⟨{ toState := state }, ()⟩

theorem reachable : app.Reachable config := .built () built

end Counter

/-! ### All trees are well formed -/

/-- A sentence compiles to a well-formed tree or not at all if the expressions are well formed, and so all
trees of a reachable store are well formed: those of its expressions and rules, those that its sentences
compile to, and its triggers. -/
theorem compiled_trees_wellFormed :
    (∀ (v : Vocabulary) (ws : List String) (t : Tree), v.WellFormed → v.parse ws = .ok t →
      t.WellFormed v.fields.values) ∧
    ∀ (σ : Type) (c : Config) (app : App σ), app.Reachable c →
      app.store.vocabulary.fields.values = c.data.names ∧
      (∀ t ∈ app.store.vocabulary.expressions.values, t.WellFormed c.data.names) ∧
      (∀ t ∈ app.store.rules, t.WellFormed c.data.names) ∧
      (∀ sentence t, app.store.compile sentence = .ok t → t.WellFormed c.data.names) ∧
      ∀ h ∈ app.store.handlers, h.trigger.WellFormed c.data.names := by
  refine ⟨fun v ws t wellFormed parsed => Vocabulary.wellFormed_of_parse wellFormed parsed, ?_⟩
  intro σ c app reachable
  have consistent := reachable.consistent
  have fields : app.store.vocabulary.fields.values = c.data.names := consistent.fields
  refine ⟨fields, ?_, consistent.rules, fun _ _ => consistent.compile, consistent.triggers⟩
  exact fields ▸ consistent.expressions

theorem counter_trees_wellFormed :
    (Tree.when Counter.started (.assign (.field "x") (.value .null))).WellFormed ["x"] ∧
      ∀ t ∈ Counter.app.store.rules, t.WellFormed ["x"] :=
  ⟨compiled_trees_wellFormed.1 Counter.state.vocabulary ["started", "then", "set", "x", "null"] _
      (by decide) (by decide),
    (compiled_trees_wellFormed.2 Unit Counter.config Counter.app Counter.reachable).2.2.1⟩

end Rulebook
