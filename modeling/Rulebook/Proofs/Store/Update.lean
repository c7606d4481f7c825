import Rulebook.Proofs.Store.Reachable

/-!
# What an update does

An update of a reachable application is refused for an undeclared name and for no other reason, and
whatever is refused leaves the application as it was.
-/

namespace Rulebook

namespace App

variable {σ : Type} {c : Config} {app after : App σ}

theorem change_error {ε : Type} {result : Except ε (Store σ)} {e : ε}
    (refused : (app.change result).1 = .error e) : (app.change result).2 = app := by
  cases result with
  | ok store => cases refused
  | error e => rfl

def withHandlers (app : App σ) (handlers : List (Handler σ)) : App σ :=
  { app with store := { app.store with handlers } }

/-- A patch is refused before any rule, trigger or listener has run. -/
theorem updateWith_refused {patch : Patch} {name : String} (refused : app.store.undeclared? patch = some name)
    (nested : Updater σ) (handlers : List (Handler σ)) :
    updateWith nested patch (app.withHandlers handlers) =
      some (.error (.unknownField name), app.withHandlers handlers) := by
  have same : (app.withHandlers handlers).store.undeclared? patch = some name := refused
  rw [updateWith, Store.commit_refused same]

namespace Reachable

/-- An accepted patch is committed, and the listeners of the triggers that fired run from there. -/
theorem updateWith_accepted (reachable : app.Reachable c) {patch : Patch}
    (known : ∀ p ∈ patch, p.1 ∈ c.data.names) :
    ∃ settled handlers final,
      (Store.runRules app.store.live app.store.rules).runOn (app.store.live.insertAll patch) =
          (.ok (), settled) ∧
        (Store.fired app.store.live app.store.handlers.zipIdx).runOn settled = (.ok handlers, final) ∧
        ∀ nested, App.updateWith nested patch app =
          (App.dispatch nested handlers { app with
            store := { app.store with live := final, history := app.store.history ++ [settled] } }).map
              fun (runs, after) => (.ok ⟨app.store.history.length, runs⟩, after) := by
  obtain ⟨settled, handlers, final, rules, triggers, _, _, accepted⟩ :=
    reachable.consistent.commit_accepted known
  refine ⟨settled, handlers, final, rules, triggers, fun nested => ?_⟩
  rw [App.updateWith, accepted, Option.map_eq_bind]
  rfl

theorem update_reply (reachable : app.Reachable c) {depth : Nat} {patch : Patch}
    {reply : Except StoreError Cycle} (ran : app.update depth patch = some (reply, after)) :
    ((∃ e, reply = .error e) ↔ ∃ p ∈ patch, p.1 ∉ c.data.names) ∧
      ((∃ e, reply = .error e) → after = app) := by
  cases depth with
  | zero => cases ran
  | succ depth =>
    by_cases strange : ∃ p ∈ patch, p.1 ∉ c.data.names
    · obtain ⟨name, refused⟩ := reachable.consistent.exists_undeclared strange
      cases ran.symm.trans (updateWith_refused refused (App.update depth) app.store.handlers)
      exact ⟨⟨fun _ => strange, fun _ => ⟨_, rfl⟩⟩, fun _ => rfl⟩
    · have known : ∀ p ∈ patch, p.1 ∈ c.data.names := fun p member =>
        Decidable.byContradiction fun missing => strange ⟨p, member, missing⟩
      obtain ⟨settled, handlers, final, _, _, continues⟩ := reachable.updateWith_accepted known
      obtain ⟨_, _, same⟩ := Option.map_eq_some_iff.mp ((continues (App.update depth)).symm.trans ran)
      cases same
      refine ⟨⟨?_, fun contrary => (strange contrary).elim⟩, ?_⟩
      · exact fun ⟨_, error⟩ => nomatch error
      · exact fun ⟨_, error⟩ => nomatch error

theorem known_of_update (reachable : app.Reachable c) {depth : Nat} {patch : Patch} {cycle : Cycle}
    (ran : app.update depth patch = some (.ok cycle, after)) : ∀ p ∈ patch, p.1 ∈ c.data.names := by
  intro p member
  by_contra missing
  obtain ⟨e, refused⟩ := (reachable.update_reply ran).1.mpr ⟨p, member, missing⟩
  cases refused

/-- Operations are all or nothing. An update is refused exactly for an undeclared name, whatever handlers
there are, and then the application is as before; the rules and the triggers of any other update have
their values. Every other call that is refused leaves the application as before too. -/
theorem operations_all_or_nothing (reachable : app.Reachable c) :
    (∀ depth patch reply after, app.update depth patch = some (reply, after) →
      ((∃ e, reply = .error e) ↔ ∃ p ∈ patch, p.1 ∉ c.data.names) ∧
        ((∃ e, reply = .error e) → after = app)) ∧
    (∀ patch, (∃ p ∈ patch, p.1 ∉ c.data.names) → ∃ name, ∀ nested handlers,
      App.updateWith nested patch (app.withHandlers handlers) =
        some (.error (.unknownField name), app.withHandlers handlers)) ∧
    (∀ patch, (∀ p ∈ patch, p.1 ∈ c.data.names) → ∃ settled handlers final,
      (Store.runRules app.store.live app.store.rules).runOn (app.store.live.insertAll patch) =
          (.ok (), settled) ∧
        (Store.fired app.store.live app.store.handlers.zipIdx).runOn settled = (.ok handlers, final)) ∧
    (∀ name v e, (app.set name v).1 = .error e → (app.set name v).2 = app) ∧
    (∀ trigger props listener e, (app.listen trigger props listener).1 = .error e →
      (app.listen trigger props listener).2 = app) ∧
    (∀ history e, (app.restore history).1 = .error e → (app.restore history).2 = app) ∧
    (∀ index e, (app.rewind index).1 = .error e → (app.rewind index).2 = app) := by
  refine ⟨fun _ _ _ _ ran => reachable.update_reply ran, fun patch strange => ?_, fun patch known => ?_,
    fun _ _ _ => change_error, fun _ _ _ _ => change_error, fun _ _ => change_error,
    fun _ _ => change_error⟩
  · obtain ⟨name, refused⟩ := reachable.consistent.exists_undeclared strange
    exact ⟨name, updateWith_refused refused⟩
  · obtain ⟨settled, handlers, final, rules, triggers, _⟩ := reachable.updateWith_accepted known
    exact ⟨settled, handlers, final, rules, triggers⟩

/-- The counter has one field, and any other name is refused. -/
theorem counter_all_or_nothing :
    ∃ name, ∀ nested handlers,
      App.updateWith nested [("x", .null), ("y", .null)] (Counter.app.withHandlers handlers) =
        some (.error (.unknownField name), Counter.app.withHandlers handlers) :=
  Counter.reachable.operations_all_or_nothing.2.1 [("x", .null), ("y", .null)]
    ⟨("y", .null), by decide, by decide⟩

end Reachable

end App

end Rulebook
