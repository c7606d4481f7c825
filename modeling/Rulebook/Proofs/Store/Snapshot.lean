import Rulebook.Proofs.Store.Update

/-!
# The last snapshot

When the live fields and the last snapshot agree at the end of an update. The snapshot is taken before
the triggers are judged, so a trigger that writes can leave the live fields ahead of it.
-/

namespace Rulebook

variable {σ : Type}

namespace Store

theorem fired_sublist {prior : Fields} {handlers chosen : List (Handler σ × Nat)} {live after : Fields}
    (ran : (fired prior handlers).runOn live = (.ok chosen, after)) : chosen.Sublist handlers := by
  induction handlers generalizing chosen live after with
  | nil =>
    cases ran
    exact .slnil
  | cons h rest ih =>
    obtain ⟨v, middle, _, ran⟩ := Eval.runOn_bind_inv ran
    obtain ⟨later, last, judged, ran⟩ := Eval.runOn_bind_inv ran
    have sub := ih judged
    cases ran
    split
    · exact sub.cons_cons h
    · exact sub.cons h

theorem fired_frames (prior : Fields) (handlers : List (Handler σ × Nat)) :
    (fired prior handlers).Frames (handlers.flatMap fun h => h.1.trigger.written) := by
  induction handlers with
  | nil => exact .pure []
  | cons h rest ih =>
    have first := h.1.trigger.eval_frames prior .current
    exact (first.left _).bind fun _ => (ih.right _).bind fun _ => .pure _

end Store

/-! ### Listeners that do not write -/

/-- Whatever it is told, the script makes no call that writes fields or history. -/
inductive Script.Reading : Script σ → Prop
  | done : Reading .done
  | look {next : State → Nat → Script σ} : (∀ s n, Reading (next s n)) → Reading (.look next)
  | consult {next : σ → Script σ} : (∀ memory, Reading (next memory)) → Reading (.consult next)
  | remember {memory : σ} {next : Script σ} : Reading next → Reading (.remember memory next)
  | listen {trigger : String} {props : List String} {listener : Payload → Script σ}
      {next : Except StoreError Unit → Script σ} :
      (∀ reply, Reading (next reply)) → Reading (.listen trigger props listener next)

namespace App

theorem listen_toState (app : App σ) (trigger : String) (props : List String) (listener : Payload → Script σ) :
    (app.listen trigger props listener).2.store.toState = app.store.toState := by
  unfold listen
  cases ran : app.store.listen trigger props listener with
  | error e => rfl
  | ok store =>
    obtain ⟨tree, _, rfl⟩ := Store.listen_ok ran
    rfl

theorem listen_frame (app : App σ) (trigger : String) (props : List String) (listener : Payload → Script σ) :
    (app.listen trigger props listener).2.store.live = app.store.live ∧
      (app.listen trigger props listener).2.store.history = app.store.history := by
  have same := app.listen_toState trigger props listener
  exact ⟨congrArg State.live same, congrArg State.history same⟩

theorem listener_of_mem_listen {app : App σ} {trigger : String} {props : List String}
    {listener : Payload → Script σ} {h : Handler σ}
    (member : h ∈ (app.listen trigger props listener).2.store.handlers) :
    h ∈ app.store.handlers ∨ h.listener = listener := by
  unfold listen at member
  cases ran : app.store.listen trigger props listener with
  | error e =>
    rw [ran] at member
    exact Or.inl member
  | ok store =>
    obtain ⟨tree, _, rfl⟩ := Store.listen_ok ran
    rw [ran] at member
    refine (List.mem_append.mp member).imp_right fun new => ?_
    rw [List.mem_singleton.mp new]

end App

theorem Script.Reading.frame {nested : Updater σ} {script : Script σ} {app after : App σ}
    (reading : script.Reading) (ran : script.run nested app = some after) :
    after.store.live = app.store.live ∧ after.store.history = app.store.history := by
  induction reading generalizing app with
  | done =>
    cases ran
    exact ⟨rfl, rfl⟩
  | look _ ih => exact ih _ _ ran
  | consult _ ih => exact ih _ ran
  | @remember memory next _ ih =>
    have frame := ih (show next.run nested { app with memory } = some after from ran)
    exact frame
  | @listen trigger props listener next _ ih =>
    obtain ⟨live, history⟩ := ih _ ran
    obtain ⟨sameLive, sameHistory⟩ := app.listen_frame trigger props listener
    exact ⟨live.trans sameLive, history.trans sameHistory⟩

namespace App

/-- Each of the listeners, at its turn, leaves the live fields and the history as they are. -/
def Untouched (nested : Updater σ) : List (Handler σ × Nat) → App σ → Prop
  | [], _ => True
  | (h, _) :: rest, app =>
    ∀ after, (h.listener (.select app.store.live h.props)).run nested app = some after →
      after.store.live = app.store.live ∧ after.store.history = app.store.history ∧
        Untouched nested rest after

theorem untouched_of_reading {nested : Updater σ} {handlers : List (Handler σ × Nat)}
    (reading : ∀ h ∈ handlers, ∀ payload, (h.1.listener payload).Reading) (app : App σ) :
    Untouched nested handlers app := by
  induction handlers generalizing app with
  | nil => trivial
  | cons h rest ih =>
    intro after ran
    obtain ⟨live, history⟩ := (reading h List.mem_cons_self _).frame ran
    exact ⟨live, history, ih (fun t member => reading t (List.mem_cons_of_mem _ member)) after⟩

theorem dispatch_untouched {nested : Updater σ} {handlers : List (Handler σ × Nat)} {app after : App σ}
    {runs : List Run} (untouched : Untouched nested handlers app)
    (ran : dispatch nested handlers app = some (runs, after)) :
    after.store.live = app.store.live ∧ after.store.history = app.store.history := by
  induction handlers generalizing app runs with
  | nil =>
    cases ran
    exact ⟨rfl, rfl⟩
  | cons h rest ih =>
    obtain ⟨middle, listened, ran⟩ := Option.bind_eq_some_iff.mp ran
    obtain ⟨⟨later, last⟩, dispatched, same⟩ := Option.bind_eq_some_iff.mp ran
    cases same
    obtain ⟨live, history, rest⟩ := untouched middle listened
    obtain ⟨laterLive, laterHistory⟩ := ih rest dispatched
    exact ⟨laterLive.trans live, laterHistory.trans history⟩

/-- If the listeners do not write, the live fields are the last snapshot at the end of an update exactly
if judging the triggers leaves the fields as the rules settled them. Only fields that a trigger writes can
differ, and so none does if no trigger has an effect. -/
theorem Reachable.last_snapshot_is_live_iff {c : Config} {app after : App σ} {depth : Nat} {patch : Patch}
    {cycle : Cycle} {handlers : List (Handler σ × Nat)} {start : Store σ} (reachable : app.Reachable c)
    (committed : app.store.commit patch = (.ok handlers, start))
    (untouched : Untouched (App.update depth) handlers { app with store := start })
    (ran : app.update (depth + 1) patch = some (.ok cycle, after)) :
    ∃ settled,
      (Store.runRules app.store.live app.store.rules).runOn (app.store.live.insertAll patch) =
          (.ok (), settled) ∧
        after.store.history = app.store.history ++ [settled] ∧
        (after.store.history.getLast? = some after.store.live ↔
          ((Store.fired app.store.live app.store.handlers.zipIdx).runOn settled).2 = settled) ∧
        (∀ name, (∀ h ∈ app.store.handlers, name ∉ h.trigger.written) →
          after.store.live.get? name = settled.get? name) ∧
        ((∀ h ∈ app.store.handlers, h.trigger.passive = true) →
          after.store.history.getLast? = some after.store.live) := by
  have known := reachable.known_of_update ran
  obtain ⟨settled, chosen, final, rules, triggers, _, _, commits⟩ :=
    reachable.consistent.commit_accepted known
  cases committed.symm.trans commits
  rw [App.update, App.updateWith, committed] at ran
  obtain ⟨⟨runs, last⟩, dispatched, same⟩ := Option.bind_eq_some_iff.mp ran
  cases same
  obtain ⟨live, history⟩ := dispatch_untouched untouched dispatched
  have latest : after.store.history.getLast? = some settled := by
    rw [history]
    exact List.getLast?_concat
  have judged : after.store.live =
      ((Store.fired app.store.live app.store.handlers.zipIdx).runOn settled).2 := by
    rw [triggers]
    exact live
  have agree : after.store.history.getLast? = some after.store.live ↔
      ((Store.fired app.store.live app.store.handlers.zipIdx).runOn settled).2 = settled := by
    rw [latest, judged, Option.some_inj]
    exact eq_comm
  -- The snapshot is older than the judging of the triggers, whose writes are framed.
  have frames := Store.fired_frames app.store.live app.store.handlers.zipIdx
  refine ⟨settled, rules, history, agree, fun name free => ?_, fun passive => agree.mpr ?_⟩
  · rw [judged]
    apply (frames settled).2 name
    intro member
    obtain ⟨h, present, writes⟩ := List.mem_flatMap.mp member
    exact free h.1 (List.fst_mem_of_mem_zipIdx present) writes
  · have none : (app.store.handlers.zipIdx.flatMap fun h => h.1.trigger.written) = [] :=
      List.flatMap_eq_nil_iff.mpr fun h member =>
        Tree.written_of_passive (passive h.1 (List.fst_mem_of_mem_zipIdx member))
    rw [none] at frames
    exact frames.idle settled

end App

namespace Counter

/-- The counter with a listener that does nothing. -/
def heard (trigger : String) : App Unit := (app.listen trigger [] fun _ => .done).2

theorem heard_reachable (trigger : String) : (heard trigger).Reachable config := reachable.listen _ _ _

theorem heard_reading {trigger : String} {h : Handler Unit} (member : h ∈ (heard trigger).store.handlers)
    (payload : Payload) : (h.listener payload).Reading := by
  rcases App.listener_of_mem_listen member with old | same
  · cases old
  · rw [same]
    exact .done

end Counter

/-- A trigger that asks whether the counter has changed leaves it alone. -/
theorem watched_counter_agrees :
    ∃ cycle after, (Counter.heard "x has changed").update 1 [("x", .number .one)] = some (.ok cycle, after) ∧
      after.store.history.getLast? = some after.store.live := by
  have known : ∀ p ∈ [("x", Value.number .one)], p.1 ∈ Counter.config.data.names := by decide
  have reachable := Counter.heard_reachable "x has changed"
  obtain ⟨settled, handlers, final, _, triggers, _, _, committed⟩ := reachable.consistent.commit_accepted known
  have reading : ∀ h ∈ handlers, ∀ payload, (h.1.listener payload).Reading := fun h member =>
    Counter.heard_reading (List.fst_mem_of_mem_zipIdx ((Store.fired_sublist triggers).subset member))
  have ends : ((Counter.heard "x has changed").update 1 [("x", .number .one)]).map (fun r => r.1.isOk) = some true := by
    decide +kernel
  have passive : (Counter.heard "x has changed").store.handlers.all (fun h => h.trigger.passive) = true := by
    decide +kernel
  obtain ⟨⟨reply, after⟩, ran, accepted⟩ := Option.map_eq_some_iff.mp ends
  cases reply with
  | error e => cases accepted
  | ok cycle =>
    obtain ⟨_, _, _, _, _, agree⟩ :=
      reachable.last_snapshot_is_live_iff committed (App.untouched_of_reading reading _) ran
    exact ⟨cycle, after, ran, agree (List.all_eq_true.mp passive)⟩

/-- A trigger that writes runs ahead of the snapshot, though its listener does nothing. -/
theorem writing_trigger_outruns_snapshot :
    (Counter.heard "set x 1").Reachable Counter.config ∧
      (∀ h ∈ (Counter.heard "set x 1").store.handlers, ∀ payload, (h.listener payload).Reading) ∧
      ∃ cycle after, (Counter.heard "set x 1").update 1 [] = some (.ok cycle, after) ∧
        after.store.history.getLast? = some (.ofList [("x", .number .zero)]) ∧
        after.store.live = .ofList [("x", .number .one)] := by
  have ends : ((Counter.heard "set x 1").update 1 []).map
      (fun r => (r.1.isOk, r.2.store.history.getLast?, r.2.store.live)) =
        some (true, some (.ofList [("x", .number .zero)]), .ofList [("x", .number .one)]) := by
    decide +kernel
  obtain ⟨⟨reply, after⟩, ran, same⟩ := Option.map_eq_some_iff.mp ends
  simp only [Prod.mk.injEq] at same
  obtain ⟨accepted, last, live⟩ := same
  refine ⟨Counter.heard_reachable _, fun _ => Counter.heard_reading, ?_⟩
  cases reply with
  | error e => cases accepted
  | ok cycle => exact ⟨cycle, after, ran, last, live⟩

end Rulebook
