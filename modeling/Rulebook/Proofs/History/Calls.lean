import Rulebook.Proofs.History.Audit
import Rulebook.Proofs.Store.Asking

/-!
# Calls and changes

Over a row of updates, listeners to a field are called in the versions in which an audit of the history finds
the field changed: `Reachable.calls_follow_changes`. An update judges its triggers over two successive
snapshots, and an audit compares the same two.
-/

namespace Rulebook

variable {σ : Type} {c : Config}

/-- In every reachable application, the listener leaves the store as it is. -/
def Handler.Idle (c : Config) (h : Handler σ) : Prop :=
  ∀ depth payload (app after : App σ), app.Reachable c → app.run depth (h.listener payload) = some after →
    after.store = app.store

/-- How often the update called the handler at a place. -/
def Cycle.calls (cycle : Cycle) (place : Nat) : Nat := (cycle.runs.map Run.handler).count place

/-- The versions that called the handler at a place, each as often as it did. -/
def callsOf (place : Nat) (cycles : List Cycle) : List Nat :=
  cycles.flatMap fun cycle => List.replicate (cycle.calls place) cycle.version

/-- The update called the handlers whose trigger held from the snapshot before its own to its own, once each. -/
def Cycle.Judged (handlers : List (Handler σ)) (h : History) (cycle : Cycle) : Prop :=
  ∃ n before settled, cycle.version = n + 1 ∧ h[n]? = some before ∧ h[n + 1]? = some settled ∧
    ∀ place handler, handlers[place]? = some handler →
      cycle.calls place = if handler.trigger.holds before settled then 1 else 0

theorem Cycle.Judged.mono {handlers : List (Handler σ)} {h longer : History} {cycle : Cycle}
    (judged : cycle.Judged handlers h) (grown : h <+: longer) : cycle.Judged handlers longer := by
  obtain ⟨n, before, settled, version, older, newer, calls⟩ := judged
  obtain ⟨rest, rfl⟩ := grown
  have kept {i : Nat} {f : Fields} (read : h[i]? = some f) : (h ++ rest)[i]? = some f := by
    obtain ⟨within, _⟩ := List.getElem?_eq_some_iff.mp read
    rw [List.getElem?_append_left within, read]
  exact ⟨n, before, settled, version, kept older, kept newer, calls⟩

namespace App

variable {app after : App σ}

/-! ### One update -/

theorem dispatch_idle {depth : Nat} {waiting : List (Handler σ × Nat)} {runs : List Run}
    (idle : ∀ h ∈ waiting, h.1.Idle c) (reachable : app.Reachable c)
    (ran : dispatch (App.update depth) waiting app = some (runs, after)) : after.store = app.store := by
  induction waiting generalizing app runs with
  | nil =>
    cases ran
    rfl
  | cons h rest ih =>
    obtain ⟨first, others⟩ := List.forall_mem_cons.mp idle
    obtain ⟨middle, listened, ran⟩ := Option.bind_eq_some_iff.mp ran
    obtain ⟨⟨later, last⟩, dispatched, same⟩ := Option.bind_eq_some_iff.mp ran
    cases same
    exact (ih others (reachable.run listened) dispatched).trans (first depth _ app middle reachable listened)

theorem Reachable.committed (reachable : app.Reachable c) {patch : Patch} {settled : Fields}
    {waiting : List (Handler σ × Nat)}
    (accepted : app.store.commit patch = (.ok waiting, (app.committed settled).store)) :
    (app.committed settled).Reachable c := by
  have commit := reachable.commit patch
  rwa [accepted] at commit

theorem Reachable.update_idle (reachable : app.Reachable c)
    (passive : ∀ h ∈ app.store.handlers, h.trigger.passive = true) (idle : ∀ h ∈ app.store.handlers, h.Idle c)
    {depth : Nat} {patch : Patch} {cycle : Cycle} (ran : app.update depth patch = some (.ok cycle, after)) :
    ∃ settled, (Store.runRules app.store.live app.store.rules).runOn (app.store.live.insertAll patch) =
        (.ok (), settled) ∧
      after.store = (app.committed settled).store ∧ cycle.version = app.store.history.length ∧
      cycle.runs.map Run.handler = due app.store.live settled (app.store.handlers.map Handler.trigger) := by
  cases depth with
  | zero => cases ran
  | succ depth =>
    obtain ⟨settled, waiting, rules, accepted, placed, dispatched, version, order⟩ :=
      reachable.update_passive passive ran
    have still : ∀ h ∈ waiting, h.1.Idle c := fun h member => idle h.1 (List.mem_of_getElem? (placed h member))
    exact ⟨settled, rules, dispatch_idle still (reachable.committed accepted) dispatched, version, order⟩

theorem count_due (prior live : Fields) {handlers : List (Handler σ)} {place : Nat} {h : Handler σ}
    (stored : handlers[place]? = some h) :
    (due prior live (handlers.map Handler.trigger)).count place =
      if h.trigger.holds prior live then 1 else 0 := by
  have once : (due prior live (handlers.map Handler.trigger)).Nodup :=
    (due_increasing prior live _).imp fun below => Nat.ne_of_lt below
  have called : place ∈ due prior live (handlers.map Handler.trigger) ↔ h.trigger.holds prior live = true := by
    rw [mem_due, List.getElem?_map, stored]
    simp
  rw [once.count, if_congr called rfl rfl]

/-! ### A row of updates -/

theorem Reachable.updates_judged (reachable : app.Reachable c)
    (passive : ∀ h ∈ app.store.handlers, h.trigger.passive = true) (idle : ∀ h ∈ app.store.handlers, h.Idle c)
    (latest : app.store.history.getLast? = some app.store.live) {depth : Nat} {patches : List Patch}
    {cycles : List Cycle} (ran : app.updates depth patches = some (cycles, after)) :
    after.Reachable c ∧
      (∃ snapshots, after.store.history = app.store.history ++ snapshots ∧ snapshots.length = patches.length) ∧
      cycles.map Cycle.version = List.range' app.store.history.length patches.length ∧
      ∀ cycle ∈ cycles, cycle.Judged app.store.handlers after.store.history := by
  induction patches generalizing app cycles with
  | nil =>
    cases ran
    exact ⟨reachable, ⟨[], (List.append_nil _).symm, rfl⟩, rfl, fun _ member => nomatch member⟩
  | cons patch patches ih =>
    unfold updates at ran
    split at ran
    · next cycle middle updated =>
      obtain ⟨⟨later, last⟩, ran, same⟩ := Option.map_eq_some_iff.mp ran
      cases same
      obtain ⟨settled, _, store, version, order⟩ := reachable.update_idle passive idle updated
      have handlers : middle.store.handlers = app.store.handlers := by rw [store]; rfl
      have history : middle.store.history = app.store.history ++ [settled] := by rw [store]; rfl
      have live : middle.store.live = settled := by rw [store]; rfl
      rw [← handlers] at passive idle
      obtain ⟨ended, ⟨snapshots, grown, size⟩, versions, judged⟩ := ih (reachable.update updated) passive idle
        (by rw [history, live]; exact List.getLast?_concat) ran
      rw [handlers] at judged
      rw [history] at grown versions
      refine ⟨ended, ⟨settled :: snapshots, by simp [grown], by simp [size]⟩, ?_, ?_⟩
      · rw [List.map_cons, version, versions, List.length_cons, List.range'_succ, List.length_append]
        rfl
      · -- The live fields from which the update started are the snapshot before its own.
        have own : cycle.Judged app.store.handlers (app.store.history ++ [settled]) := by
          obtain ⟨older, same⟩ := List.getLast?_eq_some_iff.mp latest
          refine ⟨older.length, app.store.live, settled, ?_, ?_, ?_, ?_⟩
          · rw [version, same, List.length_append]
            rfl
          · simp [same]
          · simp [same]
          · intro place h stored
            rw [Cycle.calls, order]
            exact count_due _ _ stored
        intro other member
        rcases List.mem_cons.mp member with rfl | later
        · exact own.mono (grown ▸ List.prefix_append ..)
        · exact judged other later
    · cases ran

end App

/-! ### Triggers about one field -/

namespace Tree

variable {before settled : Fields} {f : String} {now : Value}

theorem holds_changed (read : settled.get? f = some now) :
    (changed (.field f) .placeholder).holds before settled = decide ((before.get? f).getD .null ≠ now) := by
  change decide ((before.get? f).getD .null ≠ (settled.get? f).getD .null) = _
  rw [read]
  rfl

theorem holds_becomes (read : settled.get? f = some now) (v : Value) :
    (becomes (.field f) (.value v)).holds before settled =
      (decide ((before.get? f).getD .null ≠ now) && decide (now = v)) := by
  change (decide ((before.get? f).getD .null ≠ (settled.get? f).getD .null) &&
    decide ((settled.get? f).getD .null = v)) = _
  rw [read]
  rfl

end Tree

namespace Cycle

variable {handlers : List (Handler σ)} {h : History} {cycle : Cycle} {place : Nat} {handler : Handler σ} {f : String}

theorem Judged.changed (judged : cycle.Judged handlers h) (declared : ∀ fields ∈ h, f ∈ fields.names)
    (stored : handlers[place]? = some handler) (asks : handler.trigger = .changed (.field f) .placeholder) :
    List.replicate (cycle.calls place) cycle.version =
      ((h.changesAt cycle.version).filter fun change => change.field = f).map Change.version := by
  obtain ⟨n, before, settled, version, older, newer, calls⟩ := judged
  obtain ⟨now, read⟩ := Table.exists_get?_of_mem (declared settled (List.mem_of_getElem? newer))
  rw [calls place handler stored, asks, Tree.holds_changed read, version, History.changesAt_succ older newer,
    Fields.filter_changes read]
  by_cases same : (before.get? f).getD .null = now
  · simp [same]
  · simp [same]

theorem Judged.becomes (judged : cycle.Judged handlers h) (declared : ∀ fields ∈ h, f ∈ fields.names) {v : Value}
    (stored : handlers[place]? = some handler) (asks : handler.trigger = .becomes (.field f) (.value v)) :
    List.replicate (cycle.calls place) cycle.version =
      ((h.changesAt cycle.version).filter (Query.accepts { field? := some f, after? := some v })).map
        Change.version := by
  obtain ⟨n, before, settled, version, older, newer, calls⟩ := judged
  obtain ⟨now, read⟩ := Table.exists_get?_of_mem (declared settled (List.mem_of_getElem? newer))
  have query : ∀ change : Change, Query.accepts { field? := some f, after? := some v } change =
      (decide (change.after = v) && decide (change.field = f)) := by
    intro change
    simp only [Query.accepts, Option.all_none, Option.all_some, Bool.true_and]
    rw [Bool.and_comm, decide_eq_decide.mpr eq_comm, decide_eq_decide.mpr (eq_comm (a := change.field))]
  have filtered : (h.changesAt (n + 1)).filter (Query.accepts { field? := some f, after? := some v }) =
      ((h.changesAt (n + 1)).filter fun change => change.field = f).filter fun change => change.after = v := by
    rw [List.filter_filter]
    exact List.filter_congr fun change _ => query change
  rw [calls place handler stored, asks, Tree.holds_becomes read, version, filtered,
    History.changesAt_succ older newer, Fields.filter_changes read]
  by_cases same : (before.get? f).getD .null = now
  · simp [same]
  · by_cases reached : now = v
    · subst reached
      simp [same]
    · simp [same, reached]

end Cycle

/-- Calls that follow the changes version by version follow them over the whole history. -/
theorem callsOf_eq_of_versions {h : History} {cycles : List Cycle} {place : Nat} {kept : Change → Bool}
    (versions : cycles.map Cycle.version = h.updates)
    (each : ∀ cycle ∈ cycles, List.replicate (cycle.calls place) cycle.version =
      ((h.changesAt cycle.version).filter kept).map Change.version) :
    callsOf place cycles = (h.changes.filter kept).map Change.version := by
  calc callsOf place cycles
      = cycles.flatMap fun cycle => ((h.changesAt cycle.version).filter kept).map Change.version :=
        List.flatMap_congr each
    _ = (cycles.map Cycle.version).flatMap fun n => ((h.changesAt n).filter kept).map Change.version := by
        rw [List.flatMap_map]
    _ = (h.changes.filter kept).map Change.version := by
        rw [versions, History.changes_eq, List.filter_flatMap, List.map_flatMap]

/-- From a store that was just built, accepted updates call a handler that asks whether a declared field has
changed in the versions in which an audit finds it changed, and as often as the audit counts. They call a handler
that asks whether the field is now some value in the versions of the changes to this value. -/
theorem App.Reachable.calls_follow_changes {s : State} {app after : App σ} {depth : Nat} {patches : List Patch}
    {cycles : List Cycle} (built : State.build c = .ok s) (reachable : app.Reachable c) (fresh : app.store.toState = s)
    (passive : ∀ h ∈ app.store.handlers, h.trigger.passive = true) (idle : ∀ h ∈ app.store.handlers, h.Idle c)
    (ran : app.updates depth patches = some (cycles, after)) :
    let history := after.store.history
    cycles.map Cycle.version = history.updates ∧
      ∀ place h, app.store.handlers[place]? = some h → ∀ f ∈ c.data.names,
        (h.trigger = .changed (.field f) .placeholder →
          (∀ cycle ∈ cycles, place ∈ cycle.runs.map Run.handler ↔
            ∃ change ∈ history.changesAt cycle.version, change.field = f) ∧
          callsOf place cycles = (history.query { field? := some f }).map Change.version ∧
          history.changeCounts.get? f = some (callsOf place cycles).length) ∧
        ∀ v, h.trigger = .becomes (.field f) (.value v) →
          callsOf place cycles = (history.query { field? := some f, after? := some v }).map Change.version := by
  intro history
  obtain ⟨live, first, _⟩ := State.build_ok built
  rw [← fresh] at live first
  have latest : app.store.history.getLast? = some app.store.live := by
    rw [first, live]
    rfl
  obtain ⟨ended, ⟨snapshots, grown, size⟩, versions, judged⟩ := reachable.updates_judged passive idle latest ran
  have whole : history = c.data :: snapshots := by
    rw [first] at grown
    exact grown
  have updates : cycles.map Cycle.version = history.updates := by
    rw [versions, first, whole, ← size]
    rfl
  have holding {f : String} (declared : f ∈ c.data.names) : ∀ fields ∈ history, f ∈ fields.names :=
    fun fields member => (ended.consistent.history fields member).mem_iff.mpr declared
  refine ⟨updates, fun place h stored f declared => ⟨fun asks => ?_, fun v asks => ?_⟩⟩
  · have each : ∀ cycle ∈ cycles, _ := fun cycle member =>
      (judged cycle member).changed (holding declared) stored asks
    have calls := callsOf_eq_of_versions updates each
    refine ⟨fun cycle member => ?_, ?_, ?_⟩
    · have called := congrArg List.length (each cycle member)
      rw [List.length_replicate, List.length_map] at called
      rw [← List.count_pos_iff, ← Cycle.calls, called, List.length_pos_iff_exists_mem]
      simp only [List.mem_filter, decide_eq_true_eq]
      exact Iff.rfl
    · rw [calls, History.query_field]
    · have begins : history.head? = some c.data := by
        rw [whole]
        rfl
      rw [History.get?_changeCounts begins declared, calls, List.length_map]
  · exact callsOf_eq_of_versions updates fun cycle member =>
      (judged cycle member).becomes (holding declared) stored asks

theorem Counter.heard_idle {trigger : String} {h : Handler Unit} (member : h ∈ (heard trigger).store.handlers) :
    h.Idle config := by
  intro depth payload app after _ ran
  rcases App.listener_of_mem_listen member with old | same
  · cases old
  · rw [same] at ran
    cases ran
    rfl

/-- The counter counts on by itself, and its listener hears of it both times. -/
theorem App.Reachable.counter_calls_follow_changes :
    ∃ cycles after, (Counter.heard "x has changed").updates 1 [[("x", .number .one)], []] = some (cycles, after) ∧
      callsOf 0 cycles = [1, 2] ∧ after.store.history.changeCounts.get? "x" = some 2 := by
  have passive : (Counter.heard "x has changed").store.handlers.all (fun h => h.trigger.passive) = true := by
    decide +kernel
  have asks : (Counter.heard "x has changed").store.handlers.map Handler.trigger =
      [.changed (.field "x") .placeholder] := by
    decide +kernel
  have ends : ((Counter.heard "x has changed").updates 1 [[("x", .number .one)], []]).map
      (fun r => callsOf 0 r.1) = some [1, 2] := by
    decide +kernel
  obtain ⟨⟨cycles, after⟩, ran, calls⟩ := Option.map_eq_some_iff.mp ends
  have fresh : (Counter.heard "x has changed").store.toState = Counter.state := by decide +kernel
  have follow := App.Reachable.calls_follow_changes Counter.built (Counter.heard_reachable _) fresh
    (List.all_eq_true.mp passive) (fun _ => Counter.heard_idle) ran
  obtain ⟨h, stored, trigger⟩ : ∃ h, (Counter.heard "x has changed").store.handlers[0]? = some h ∧
      h.trigger = .changed (.field "x") .placeholder := by
    obtain ⟨h, one, trigger⟩ := List.map_eq_singleton_iff.mp asks
    exact ⟨h, by rw [one]; rfl, trigger⟩
  obtain ⟨_, _, count⟩ := (follow.2 0 h stored "x" (by decide)).1 trigger
  exact ⟨cycles, after, ran, calls, by rw [count, calls]; rfl⟩

end Rulebook
