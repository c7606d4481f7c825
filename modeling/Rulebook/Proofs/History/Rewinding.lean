import Rulebook.Proofs.History.Calls
import Rulebook.Proofs.History.Playback

/-!
# Rewinding

An update with listeners that do no harm is a function of the live fields, the history and the rules, and of nothing
else: `State.advance`. So a store that is rewound to the state that an update left goes on from there as it did then.
-/

namespace Rulebook

variable {σ : Type} {c : Config}

/-! ### States that updates lead to -/

namespace State

/-- The fields as the rules leave them behind a patch. -/
def settle (s : State) (patch : Patch) : Fields := ((Store.runRules s.live s.rules).runOn (s.live.insertAll patch)).2

/-- The state behind an update. -/
def advance (s : State) (patch : Patch) : State :=
  { s with live := s.settle patch, history := s.history ++ [s.settle patch] }

/-- A row of updates adds a snapshot for each of them, and the last one is live. -/
theorem advance_all (s : State) (patches : List Patch) :
    ∃ snapshots live, snapshots.length = patches.length ∧
      patches.foldl advance s = { s with live, history := s.history ++ snapshots } ∧
      (s.history.getLast? = some s.live → (s.history ++ snapshots).getLast? = some live) := by
  induction patches generalizing s with
  | nil => exact ⟨[], s.live, rfl, by simp, fun latest => by simpa using latest⟩
  | cons patch patches ih =>
    obtain ⟨snapshots, live, size, same, latest⟩ := ih (s.advance patch)
    refine ⟨s.settle patch :: snapshots, live, by simp [size], ?_, fun _ => ?_⟩
    · rw [List.foldl_cons, same]
      simp [advance]
    · have last := latest List.getLast?_concat
      simpa [advance] using last

/-- A row of updates that is cut somewhere: the state there, and what the later updates add to it. -/
theorem advance_cut {s : State} (fresh : s.history.getLast? = some s.live) {patches : List Patch} {i : Nat}
    (within : i ≤ patches.length) {past : State} (reached : past = (patches.take i).foldl advance s) :
    past.history.length = s.history.length + i ∧ past.history.getLast? = some past.live ∧
      (patches.drop i).foldl advance past = patches.foldl advance s ∧
      ∃ live later, patches.foldl advance s = { past with live, history := past.history ++ later } := by
  have whole : (patches.drop i).foldl advance past = patches.foldl advance s := by
    rw [reached, ← List.foldl_append, List.take_append_drop]
  obtain ⟨before, live, size, early, latest⟩ := s.advance_all (patches.take i)
  obtain ⟨later, live', _, late, _⟩ := past.advance_all (patches.drop i)
  rw [early] at reached
  refine ⟨?_, ?_, whole, live', later, whole ▸ late⟩
  · rw [reached]
    simp [size, within]
  · rw [reached]
    exact latest fresh

end State

/-! ### Listeners that do no harm -/

/-- In every reachable application, the listener comes to an end and leaves the store as it is. -/
def Handler.Harmless (c : Config) (h : Handler σ) : Prop :=
  ∀ payload (app : App σ), app.Reachable c →
    ∃ depth after, app.run depth (h.listener payload) = some after ∧ after.store = app.store

theorem App.run_below {depth deeper : Nat} (le : depth ≤ deeper) {script : Script σ} {app after : App σ}
    (ran : app.run depth script = some after) : app.run deeper script = some after :=
  (App.update_below le).script ran

theorem Handler.Harmless.idle {h : Handler σ} (harmless : h.Harmless c) : h.Idle c := by
  intro depth payload app after reachable ran
  obtain ⟨enough, last, ends, same⟩ := harmless payload app reachable
  have both := (App.run_below (Nat.le_max_left depth enough) ran).symm.trans
    (App.run_below (Nat.le_max_right depth enough) ends)
  cases both
  exact same

/-- Whatever it is told, the script makes no call to the store but to look at it. -/
inductive Script.Aloof : Script σ → Prop
  | done : Aloof .done
  | look {next : State → Nat → Script σ} : (∀ s n, Aloof (next s n)) → Aloof (.look next)
  | consult {next : σ → Script σ} : (∀ memory, Aloof (next memory)) → Aloof (.consult next)
  | remember {memory : σ} {next : Script σ} : Aloof next → Aloof (.remember memory next)

theorem Script.Aloof.ends {script : Script σ} (aloof : script.Aloof) (nested : Updater σ) (app : App σ) :
    ∃ after, script.run nested app = some after ∧ after.store = app.store := by
  induction aloof generalizing app with
  | done => exact ⟨app, rfl, rfl⟩
  | look _ ih => exact ih _ _ app
  | consult _ ih => exact ih _ app
  | remember _ ih => exact ih { app with memory := _ }

theorem Handler.harmless_of_aloof {h : Handler σ} (aloof : ∀ payload, (h.listener payload).Aloof) : h.Harmless c :=
  fun payload app _ => ⟨0, (aloof payload).ends _ app⟩

namespace App

variable {app after : App σ}

/-! ### One update -/

theorem dispatch_ends {waiting : List (Handler σ × Nat)} (harmless : ∀ h ∈ waiting, h.1.Harmless c)
    (reachable : app.Reachable c) : ∃ depth result, dispatch (App.update depth) waiting app = some result := by
  induction waiting generalizing app with
  | nil => exact ⟨0, _, rfl⟩
  | cons h rest ih =>
    obtain ⟨first, others⟩ := List.forall_mem_cons.mp harmless
    obtain ⟨turn, middle, listened, _⟩ := first (.select app.store.live h.1.props) app reachable
    obtain ⟨turns, ⟨runs, last⟩, dispatched⟩ := ih others (reachable.run listened)
    refine ⟨max turn turns, (⟨h.2, .select app.store.live h.1.props⟩ :: runs, last), ?_⟩
    have own := run_below (Nat.le_max_left turn turns) listened
    have later := (App.update_below (Nat.le_max_right turn turns)).dispatch dispatched
    exact Option.bind_eq_some_iff.mpr ⟨middle, own, Option.bind_eq_some_iff.mpr ⟨_, later, rfl⟩⟩

variable {patch : Patch}

theorem Reachable.update_ends (reachable : app.Reachable c)
    (passive : ∀ h ∈ app.store.handlers, h.trigger.passive = true)
    (harmless : ∀ h ∈ app.store.handlers, h.Harmless c) (known : ∀ p ∈ patch, p.1 ∈ c.data.names) :
    ∃ depth cycle after, app.update depth patch = some (.ok cycle, after) := by
  obtain ⟨settled, waiting, _, _, placed, accepted⟩ := reachable.commit_passive passive known
  have still : ∀ h ∈ waiting, h.1.Harmless c := fun h member => harmless h.1 (List.mem_of_getElem? (placed h member))
  obtain ⟨depth, ⟨runs, last⟩, dispatched⟩ := dispatch_ends still (reachable.committed accepted)
  refine ⟨depth + 1, ⟨app.store.history.length, runs⟩, last, ?_⟩
  rw [App.update, updateWith, accepted]
  exact Option.bind_eq_some_iff.mpr ⟨_, dispatched, rfl⟩

theorem Reachable.update_advances {depth : Nat} {cycle : Cycle} (reachable : app.Reachable c)
    (passive : ∀ h ∈ app.store.handlers, h.trigger.passive = true) (idle : ∀ h ∈ app.store.handlers, h.Idle c)
    (ran : app.update depth patch = some (.ok cycle, after)) :
    after.store = { app.store with toState := app.store.toState.advance patch } := by
  obtain ⟨settled, rules, store, _⟩ := reachable.update_idle passive idle ran
  have same : app.store.toState.settle patch = settled := by rw [State.settle, rules]
  rw [store, State.advance, same]
  rfl

theorem handlers_of_update {depth : Nat} {reply : Except StoreError Cycle}
    (ran : app.update depth patch = some (reply, after)) : app.store.handlers <+: after.store.handlers := by
  have leads := stepwise_update depth patch app reply after ran (fun _ => .done) []
  refine leads.keeps (P := fun p => app.store.handlers <+: p.app.store.handlers) ?_ List.prefix_rfl
  intro p q kept stepped
  exact kept.trans (Point.call_of_step stepped).handlers

/-! ### Rows of updates -/

theorem updates_below {depth deeper : Nat} (le : depth ≤ deeper) {patches : List Patch}
    {result : List Cycle × App σ} (ran : app.updates depth patches = some result) :
    app.updates deeper patches = some result := by
  induction patches generalizing app result with
  | nil => exact ran
  | cons patch patches ih =>
    unfold updates at ran ⊢
    split at ran
    · next cycle middle updated =>
      obtain ⟨later, rest, same⟩ := Option.map_eq_some_iff.mp ran
      rw [App.update_below le _ _ _ updated]
      exact Option.map_eq_some_iff.mpr ⟨later, ih rest, same⟩
    · cases ran

theorem Reachable.updates_advance (reachable : app.Reachable c)
    (passive : ∀ h ∈ app.store.handlers, h.trigger.passive = true)
    (harmless : ∀ h ∈ app.store.handlers, h.Harmless c) {patches : List Patch}
    (known : ∀ patch ∈ patches, ∀ p ∈ patch, p.1 ∈ c.data.names) :
    ∃ depth cycles after, app.updates depth patches = some (cycles, after) ∧
      after.store = { app.store with toState := patches.foldl State.advance app.store.toState } := by
  induction patches generalizing app with
  | nil => exact ⟨0, [], app, rfl, rfl⟩
  | cons patch patches ih =>
    obtain ⟨first, others⟩ := List.forall_mem_cons.mp known
    obtain ⟨depth, cycle, middle, ran⟩ := reachable.update_ends passive harmless first
    have store := reachable.update_advances passive (fun h member => (harmless h member).idle) ran
    have handlers : middle.store.handlers = app.store.handlers := by rw [store]
    rw [← handlers] at passive harmless
    obtain ⟨deep, cycles, last, rest, same⟩ := ih (reachable.update ran) passive harmless others
    refine ⟨max depth deep, cycle :: cycles, last, ?_, ?_⟩
    · unfold updates
      rw [App.update_below (Nat.le_max_left depth deep) _ _ _ ran]
      exact Option.map_eq_some_iff.mpr ⟨_, updates_below (Nat.le_max_right depth deep) rest, rfl⟩
    · rw [same, store]
      rfl

/-! ### Courses -/

/-- A course of accepted updates, with their patches and the states that they left. In between, handlers may be
registered and the memory may change. -/
inductive Course : App σ → List (Patch × State) → App σ → Prop
  | ended (app : App σ) : Course app [] app
  | remember {app after : App σ} {trail : List (Patch × State)} (memory : σ) :
      Course { app with memory } trail after → Course app trail after
  | listen {app after : App σ} {trail : List (Patch × State)} (trigger : String) (props : List String)
      (listener : Payload → Script σ) :
      Course (app.listen trigger props listener).2 trail after → Course app trail after
  | update {app middle after : App σ} {trail : List (Patch × State)} {depth : Nat} {patch : Patch} {cycle : Cycle} :
      app.update depth patch = some (.ok cycle, middle) → Course middle trail after →
      Course app ((patch, middle.store.toState) :: trail) after

variable {trail : List (Patch × State)}

theorem Course.of_updates {depth : Nat} {patches : List Patch} {cycles : List Cycle}
    (ran : app.updates depth patches = some (cycles, after)) :
    ∃ trail, app.Course trail after ∧ trail.map Prod.fst = patches := by
  induction patches generalizing app cycles with
  | nil =>
    cases ran
    exact ⟨[], .ended _, rfl⟩
  | cons patch patches ih =>
    unfold updates at ran
    split at ran
    · next cycle middle updated =>
      obtain ⟨⟨later, last⟩, ran, same⟩ := Option.map_eq_some_iff.mp ran
      cases same
      obtain ⟨trail, course, rest⟩ := ih ran
      exact ⟨_, .update updated course, congrArg (patch :: ·) rest⟩
    · cases ran

theorem Course.handlers (course : app.Course trail after) : app.store.handlers <+: after.store.handlers := by
  induction course with
  | ended => exact List.prefix_rfl
  | remember memory _ ih => exact ih
  | @listen app after trail trigger props listener _ ih => exact (app.listen_handlers trigger props listener).trans ih
  | update ran _ ih => exact (handlers_of_update ran).trans ih

theorem Course.known (course : app.Course trail after) (reachable : app.Reachable c) :
    after.Reachable c ∧ ∀ patch ∈ trail.map Prod.fst, ∀ p ∈ patch, p.1 ∈ c.data.names := by
  induction course with
  | ended => exact ⟨reachable, nofun⟩
  | remember memory _ ih => exact ih (reachable.remember memory)
  | listen trigger props listener _ ih => exact ih (reachable.listen trigger props listener)
  | update ran _ ih =>
    obtain ⟨ended, known⟩ := ih (reachable.update ran)
    exact ⟨ended, List.forall_mem_cons.mpr ⟨reachable.known_of_update ran, known⟩⟩

/-- Each state of a course is what its updates so far make of the first one. -/
theorem Course.states (course : app.Course trail after) (reachable : app.Reachable c)
    (passive : ∀ h ∈ after.store.handlers, h.trigger.passive = true)
    (idle : ∀ h ∈ after.store.handlers, h.Idle c) :
    after.store.toState = (trail.map Prod.fst).foldl State.advance app.store.toState ∧
      ∀ i past, (app.store.toState :: trail.map Prod.snd)[i]? = some past →
        past = ((trail.map Prod.fst).take i).foldl State.advance app.store.toState := by
  have first {app : App σ} {trail : List (Patch × State)} {past : State}
      (read : (app.store.toState :: trail.map Prod.snd)[0]? = some past) : past = app.store.toState :=
    (Option.some.inj read).symm
  induction course with
  | ended app =>
    refine ⟨rfl, fun i past read => ?_⟩
    cases i with
    | zero => exact first read
    | succ i => cases read
  | remember memory _ ih => exact ih (reachable.remember memory) passive idle
  | @listen app after trail trigger props listener _ ih =>
    have same : (app.listen trigger props listener).2.store.toState = app.store.toState :=
      app.listen_toState trigger props listener
    rw [← same]
    exact ih (reachable.listen trigger props listener) passive idle
  | @update app middle after trail depth patch cycle ran course ih =>
    have kept := (handlers_of_update ran).trans course.handlers
    have store := reachable.update_advances (fun h member => passive h (kept.subset member))
      (fun h member => idle h (kept.subset member)) ran
    have state : middle.store.toState = app.store.toState.advance patch := by rw [store]
    obtain ⟨last, states⟩ := ih (reachable.update ran) passive idle
    rw [state] at last states
    refine ⟨last, fun i past read => ?_⟩
    cases i with
    | zero => exact first read
    | succ i =>
      apply states i past
      rw [← state]
      exact read

/-- Rewinding puts the live fields and the history back as they were, and nothing else. -/
theorem Reachable.rewind_back (reachable : app.Reachable c) {past : State} {later : History}
    (grown : app.store.history = past.history ++ later) (latest : past.history.getLast? = some past.live)
    {i : Nat} (size : past.history.length = i + 1) :
    app.rewind i =
      (.ok (), { app with store := { app.store with live := past.live, history := past.history } }) := by
  have consistent := reachable.consistent
  have cut : app.store.history.take (i + 1) = past.history := by rw [grown, ← size, List.take_left]
  have within : i < app.store.history.length := by
    rw [grown, List.length_append]
    omega
  have restored : app.store.restore past.history =
      .ok { app.store.toState with live := past.live, history := past.history } := by
    apply consistent.restore_ok_iff.mpr
    refine ⟨fun f member => consistent.history f ?_, past.live, latest, rfl⟩
    rw [grown]
    exact List.mem_append_left _ member
  rw [rewind_eq, if_pos within, cut, restore_of_ok restored]
  rfl

/-- A store that goes on from a past state by updates is rewound to that state, and led back to where it is. -/
theorem Reachable.rewind_again (reachable : app.Reachable c)
    (passive : ∀ h ∈ app.store.handlers, h.trigger.passive = true)
    (harmless : ∀ h ∈ app.store.handlers, h.Harmless c) {past : State} {live : Fields} {later : History}
    (grown : app.store.toState = { past with live, history := past.history ++ later })
    (latest : past.history.getLast? = some past.live) {i : Nat} (size : past.history.length = i + 1)
    {patches : List Patch} (onward : patches.foldl State.advance past = app.store.toState)
    (known : ∀ patch ∈ patches, ∀ p ∈ patch, p.1 ∈ c.data.names) :
    app.rewind i =
        (.ok (), { app with store := { app.store with live := past.live, history := past.history } }) ∧
      (∀ sentence, (app.rewind i).2.store.evaluate sentence = past.evaluate sentence) ∧
      ∃ depth cycles again, (app.rewind i).2.updates depth patches = some (cycles, again) ∧
        again.store = app.store := by
  have back := reachable.rewind_back (congrArg State.history grown) latest size
  have state : (app.rewind i).2.store.toState = past := by
    rw [back]
    show ({ app.store.toState with live := past.live, history := past.history } : State) = past
    rw [grown]
  have handlers : (app.rewind i).2.store.handlers = app.store.handlers := by rw [back]
  refine ⟨back, fun sentence => by rw [state], ?_⟩
  obtain ⟨depth, cycles, again, ran, same⟩ := (reachable.rewind i).updates_advance
    (handlers.symm ▸ passive) (handlers.symm ▸ harmless) known
  refine ⟨depth, cycles, again, ran, ?_⟩
  rw [state, onward] at same
  calc again.store
      = ⟨app.store.toState, (app.rewind i).2.store.handlers⟩ := same
    _ = ⟨app.store.toState, app.store.handlers⟩ := by rw [handlers]

/-- Rewinding is exact. From a store that was just built, let a course of updates be taken with handlers whose
triggers have no effects and whose listeners do no harm. To each state of the course the store can be rewound: the
live fields and the history are again what they were, and nothing else changes. Sentences are answered as they were
then, and the later updates lead to where they led. Beyond the last update there is nothing to rewind to. -/
theorem rewind_travels_back {s : State} {memory : σ} (built : State.build c = .ok s)
    (course : Course ⟨{ toState := s }, memory⟩ trail after)
    (passive : ∀ h ∈ after.store.handlers, h.trigger.passive = true)
    (harmless : ∀ h ∈ after.store.handlers, h.Harmless c) :
    (∀ i past, (s :: trail.map Prod.snd)[i]? = some past →
      after.rewind i =
          (.ok (), { after with store := { after.store with live := past.live, history := past.history } }) ∧
        (∀ sentence, (after.rewind i).2.store.evaluate sentence = past.evaluate sentence) ∧
        ∃ depth cycles again,
          (after.rewind i).2.updates depth ((trail.drop i).map Prod.fst) = some (cycles, again) ∧
            again.store = after.store) ∧
      ∀ i, trail.length < i → (∃ e, (after.rewind i).1 = .error e) ∧ (after.rewind i).2 = after := by
  have start : (App.mk { toState := s } memory).Reachable c := .built memory built
  obtain ⟨reachable, known⟩ := course.known start
  obtain ⟨last, states⟩ := course.states start passive fun h member => (harmless h member).idle
  change after.store.toState = (trail.map Prod.fst).foldl State.advance s at last
  obtain ⟨live, history, _⟩ := State.build_ok built
  have fresh : s.history.getLast? = some s.live := by
    rw [history, live]
    rfl
  constructor
  · intro i past read
    have position : i ≤ trail.length := by
      have within := (List.getElem?_eq_some_iff.mp read).1
      simpa using Nat.le_of_lt_succ within
    have within : i ≤ (trail.map Prod.fst).length := by simpa using position
    obtain ⟨size, latest, again, live', later, ended⟩ := State.advance_cut fresh within (states i past read)
    rw [List.map_drop]
    refine reachable.rewind_again passive harmless (last.trans ended) latest ?_ (again.trans last.symm) ?_
    · rw [size, history, Nat.add_comm]
      rfl
    · exact fun patch member => known patch (List.mem_of_mem_drop member)
  · intro i beyond
    have size : after.store.history.length = trail.length + 1 := by
      obtain ⟨snapshots, _, size, same, _⟩ := s.advance_all (trail.map Prod.fst)
      rw [last, same]
      simp [history, size]
    have outside : ¬ i < after.store.history.length := by omega
    rw [rewind_eq, if_neg outside]
    exact ⟨⟨_, rfl⟩, rfl⟩

end App

namespace Counter

/-- The counter in an application that counts how often it hears of it. -/
def tallied : App Nat :=
  ((App.mk { toState := state } 0).listen "x has changed" [] fun _ => .consult fun n => .remember (n + 1) .done).2

theorem tallied_reachable : tallied.Reachable config := .listen _ _ _ (.built 0 built)

theorem tallied_harmless {h : Handler Nat} (member : h ∈ tallied.store.handlers) : h.Harmless config := by
  apply Handler.harmless_of_aloof
  intro payload
  unfold tallied at member
  rcases App.listener_of_mem_listen member with old | same
  · cases old
  · rw [same]
    exact .consult fun _ => .remember .done

end Counter

/-- The counter is rewound over two updates of three, and takes them again. -/
theorem tallied_counter_travels_back :
    ∃ trail after, App.Course ⟨{ toState := Counter.state }, 0⟩ trail after ∧
      trail.map Prod.fst = [[("x", .number .one)], [], []] ∧
      (after.rewind 1).1 = .ok () ∧ (after.rewind 1).2.store.live = .ofList [("x", .number Number.one.succ)] ∧
      ∃ depth cycles again, (after.rewind 1).2.updates depth [[], []] = some (cycles, again) ∧
        again.store = after.store := by
  have passive : Counter.tallied.store.handlers.all (fun h => h.trigger.passive) = true := by decide +kernel
  have known : ∀ patch ∈ [[("x", Value.number .one)], [], []], ∀ p ∈ patch, p.1 ∈ Counter.config.data.names := by
    decide
  obtain ⟨depth, cycles, after, ran, store⟩ := Counter.tallied_reachable.updates_advance
    (List.all_eq_true.mp passive) (fun _ => Counter.tallied_harmless) known
  obtain ⟨trail, course, patches⟩ := App.Course.of_updates ran
  have listened : App.Course ⟨{ toState := Counter.state }, 0⟩ trail after := .listen _ _ _ course
  have handlers : after.store.handlers = Counter.tallied.store.handlers := by rw [store]
  have passive' : ∀ h ∈ after.store.handlers, h.trigger.passive = true := by
    rw [handlers]
    exact List.all_eq_true.mp passive
  have harmless : ∀ h ∈ after.store.handlers, h.Harmless Counter.config := by
    rw [handlers]
    exact fun _ => Counter.tallied_harmless
  obtain ⟨back, _⟩ := App.rewind_travels_back Counter.built listened passive' harmless
  -- The state behind the first update.
  obtain ⟨_, states⟩ := course.states Counter.tallied_reachable passive' fun h member => (harmless h member).idle
  obtain ⟨⟨patch, past⟩, rest, rfl, _, others⟩ := List.map_eq_cons_iff.mp patches
  obtain ⟨rewound, _, again⟩ := back 1 past rfl
  have value : past.live = .ofList [("x", .number Number.one.succ)] := by
    have made := states 1 past rfl
    rw [patches] at made
    rw [made]
    decide +kernel
  have remaining : (((patch, past) :: rest).drop 1).map Prod.fst = [[], []] := others
  have state : (after.rewind 1).2.store.live = past.live := by rw [rewound]
  rw [remaining] at again
  exact ⟨_, after, listened, patches, congrArg Prod.fst rewound, state.trans value, again⟩

end Rulebook
