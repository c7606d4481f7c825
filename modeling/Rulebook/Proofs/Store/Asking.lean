import Rulebook.Proofs.Store.Turns

/-!
# Asking after an update

A sentence that is asked after an update compares with the snapshot before the latest one, while a trigger was
judged against the live fields from which the update started. `Reachable.evaluate_after_update` says when the
two agree: a field that was set directly has its new value only in the live fields.
-/

namespace Rulebook

variable {σ : Type}

namespace Tree

/-- The fields that the tree reads through the previous view. -/
def recalled (view : View) : Tree → List String
  | value _ | placeholder => []
  | field name => if view = .previous then [name] else []
  | compare _ l r | both l r | assign l r | when l r => l.recalled view ++ r.recalled view
  | was _ l r => l.recalled .previous ++ r.recalled view
  | becomes l r | ceases l r => l.recalled .previous ++ l.recalled view ++ r.recalled view
  | changed l _ | unchanged l _ => l.recalled .previous ++ l.recalled view
  | increment l _ => l.recalled view

/-- Of the fields before, a tree sees those that it recalls. -/
theorem eval_congr {t : Tree} {prior other : Fields} {view : View}
    (same : ∀ name ∈ t.recalled view, prior.get? name = other.get? name) : t.eval prior view = t.eval other view := by
  induction t generalizing view with
  | value | placeholder => rfl
  | field name =>
    cases view with
    | current => rfl
    | previous =>
      have read := same name (by simp [recalled])
      simp only [eval, Eval.read, View.shown, read]
  | compare c l r left right | both l r left right | «when» l r left right =>
    simp only [recalled, List.mem_append] at same
    rw [eval, eval, left fun name member => same name (Or.inl member),
      right fun name member => same name (Or.inr member)]
  | assign l r _ right =>
    simp only [recalled, List.mem_append] at same
    rw [eval, eval, right fun name member => same name (Or.inr member)]
  | was c l r left right =>
    simp only [recalled, List.mem_append] at same
    rw [eval, eval, left fun name member => same name (Or.inl member),
      right fun name member => same name (Or.inr member)]
  | becomes l r left right | ceases l r left right =>
    simp only [recalled, List.mem_append] at same
    rw [eval, eval, left fun name member => same name (Or.inl (Or.inl member)),
      left fun name member => same name (Or.inl (Or.inr member)), right fun name member => same name (Or.inr member)]
  | changed l r left _ | unchanged l r left _ =>
    simp only [recalled, List.mem_append] at same
    rw [eval, eval, left fun name member => same name (Or.inl member),
      left fun name member => same name (Or.inr member)]
  | increment l r left _ => rw [eval, eval, left same]

/-- A tree without effects has a value and leaves the fields alone. -/
theorem WellFormed.value {declared : List String} {t : Tree} (wellFormed : t.WellFormed declared)
    (passive : t.passive = true) (prior : Fields) (view : View) {live : Fields} (covers : declared ⊆ live.names) :
    ∃ v, (t.eval prior view).runOn live = (.ok v, live) := by
  obtain ⟨v, after, ran, _⟩ := wellFormed.safe prior view live covers
  obtain rfl := eq_of_passive passive ran
  exact ⟨v, ran⟩

end Tree

namespace App

/-! ### Applications whose fields no call sets -/

/-- The applications that calls lead to, if no call sets a field and no trigger writes one. -/
inductive Undisturbed (c : Config) : App σ → Prop
  | built {s : State} (memory : σ) : State.build c = .ok s → Undisturbed c ⟨{ toState := s }, memory⟩
  | remember {app : App σ} (memory : σ) : Undisturbed c app → Undisturbed c { app with memory }
  | listen {app : App σ} (trigger : String) (props : List String) (listener : Payload → Script σ) :
      Undisturbed c app → Undisturbed c (app.listen trigger props listener).2
  | restore {app : App σ} (history : History) : Undisturbed c app → Undisturbed c (app.restore history).2
  | commit {app : App σ} (patch : Patch) : Undisturbed c app → (∀ h ∈ app.store.handlers, h.trigger.passive = true) →
      Undisturbed c { app with store := (app.store.commit patch).2 }

variable {c : Config} {app after : App σ}

theorem Undisturbed.reachable (undisturbed : app.Undisturbed c) : app.Reachable c := by
  induction undisturbed with
  | built memory built => exact .built memory built
  | remember memory _ ih => exact ih.remember memory
  | listen trigger props listener _ ih => exact ih.listen trigger props listener
  | restore history _ ih => exact ih.restore history
  | commit patch _ _ ih => exact ih.commit patch

theorem Reachable.commit_passive (reachable : app.Reachable c)
    (passive : ∀ h ∈ app.store.handlers, h.trigger.passive = true) {patch : Patch}
    (known : ∀ p ∈ patch, p.1 ∈ c.data.names) :
    ∃ settled waiting, (Store.runRules app.store.live app.store.rules).runOn (app.store.live.insertAll patch) =
        (.ok (), settled) ∧
      waiting.map Prod.snd = due app.store.live settled (app.store.handlers.map Handler.trigger) ∧
      (∀ h ∈ waiting, app.store.handlers[h.2]? = some h.1) ∧
      app.store.commit patch = (.ok waiting, (app.committed settled).store) := by
  obtain ⟨settled, rules, committed⟩ := reachable.commit_due passive known
  obtain ⟨_, waiting, placed, places, accepted⟩ := committed app.store.handlers rfl
  exact ⟨settled, waiting, rules, places, placed, accepted⟩

/-- The live fields are the last snapshot. -/
theorem Undisturbed.last_is_live (undisturbed : app.Undisturbed c) :
    app.store.history.getLast? = some app.store.live := by
  induction undisturbed with
  | built memory built =>
    obtain ⟨live, history, _⟩ := State.build_ok built
    rw [history, live]
    rfl
  | remember memory _ ih => exact ih
  | @listen app trigger props listener _ ih =>
    obtain ⟨live, history⟩ := app.listen_frame trigger props listener
    rw [live, history]
    exact ih
  | @restore app history undisturbed ih =>
    unfold App.restore
    cases ran : app.store.toState.restore history with
    | error e => exact ih
    | ok s =>
      obtain ⟨_, last, latest, rfl⟩ := undisturbed.reachable.consistent.restore_ok_iff.mp ran
      exact latest
  | @commit app patch undisturbed passive ih =>
    cases refused : app.store.undeclared? patch with
    | some name =>
      rw [Store.commit_refused refused]
      exact ih
    | none =>
      have known := undisturbed.reachable.consistent.undeclared?_eq_none.mp refused
      obtain ⟨settled, _, _, _, _, accepted⟩ := undisturbed.reachable.commit_passive passive known
      rw [accepted]
      exact List.getLast?_concat

/-! ### The two ways to ask -/

theorem get?_of_not_declared {declared : List String} {fields : Fields} (names : fields.names.Perm declared)
    {name : String} (strange : name ∉ declared) : fields.get? name = none :=
  Option.not_isSome_iff_eq_none.mp fun found => strange (names.mem_iff.mp (Table.find?_isSome.mp found))

/-- The live fields and the snapshot before agree if no passive sentence can tell them apart. -/
theorem agree_of_indistinguishable {declared : List String} {last live settled : Fields}
    (lastNames : last.names.Perm declared) (liveNames : live.names.Perm declared)
    (same : ∀ t : Tree, t.passive = true → t.WellFormed declared →
      ((t.eval last .current).runOn settled).1 = ((t.eval live .current).runOn settled).1) :
    ∀ name ∈ declared, last.get? name = live.get? name := by
  intro name member
  have holds {fields : Fields} (names : fields.names.Perm declared) : ∃ v, fields.get? name = some v :=
    Option.isSome_iff_exists.mp (Table.find?_isSome.mpr (names.mem_iff.mpr member))
  obtain ⟨before, past⟩ := holds lastNames
  obtain ⟨now, present⟩ := holds liveNames
  -- One field is told apart by asking whether it was the value that it had.
  have value {prior : Fields} {v : Value} (read : prior.get? name = some v) :
      (((Tree.was .equal (.field name) (.value now)).eval prior .current).runOn settled).1 =
        .ok (.bool (v = now)) := by
    change Except.ok (Value.bool (Comparison.equal.holds ((prior.get? name).getD .null) now)) = _
    rw [read]
    rfl
  have told := same (.was .equal (.field name) (.value now)) rfl ⟨member, trivial⟩
  rw [value past, value present] at told
  have equal : before = now := by simpa using told
  rw [past, present, equal]

theorem Reachable.same_vocabulary (reachable : app.Reachable c) (other : after.Reachable c) :
    after.store.vocabulary = app.store.vocabulary := by
  obtain ⟨s, built, own, _⟩ := reachable.exists_built
  obtain ⟨s', built', own', _⟩ := other.exists_built
  obtain rfl := Except.ok.inj (built.symm.trans built')
  exact own'.trans own.symm

/-- An accepted update settles the fields, finds the handlers that are due, and runs them in their order. -/
theorem Reachable.update_passive {depth : Nat} {patch : Patch} {cycle : Cycle} (reachable : app.Reachable c)
    (passive : ∀ h ∈ app.store.handlers, h.trigger.passive = true)
    (ran : app.update (depth + 1) patch = some (.ok cycle, after)) :
    ∃ settled waiting, (Store.runRules app.store.live app.store.rules).runOn (app.store.live.insertAll patch) =
        (.ok (), settled) ∧
      app.store.commit patch = (.ok waiting, (app.committed settled).store) ∧
      (∀ h ∈ waiting, app.store.handlers[h.2]? = some h.1) ∧
      dispatch (App.update depth) waiting (app.committed settled) = some (cycle.runs, after) ∧
      cycle.version = app.store.history.length ∧
      cycle.runs.map Run.handler = due app.store.live settled (app.store.handlers.map Handler.trigger) := by
  have known := reachable.known_of_update ran
  obtain ⟨settled, waiting, rules, places, placed, accepted⟩ := reachable.commit_passive passive known
  rw [App.update, updateWith, accepted] at ran
  obtain ⟨⟨runs, last⟩, dispatched, same⟩ := Option.bind_eq_some_iff.mp ran
  cases same
  have order := (places_of_dispatch dispatched).trans places
  exact ⟨settled, waiting, rules, accepted, placed, dispatched, rfl, order⟩

/-- What an update leaves if its listeners leave the fields and the history alone. -/
theorem Reachable.update_untouched {depth : Nat} {patch : Patch} {cycle : Cycle}
    {handlers : List (Handler σ × Nat)} {start : Store σ} (reachable : app.Reachable c)
    (passive : ∀ h ∈ app.store.handlers, h.trigger.passive = true)
    (committed : app.store.commit patch = (.ok handlers, start))
    (untouched : Untouched (App.update depth) handlers { app with store := start })
    (ran : app.update (depth + 1) patch = some (.ok cycle, after)) :
    ∃ settled, (Store.runRules app.store.live app.store.rules).runOn (app.store.live.insertAll patch) =
        (.ok (), settled) ∧
      after.store.live = settled ∧ after.store.history = app.store.history ++ [settled] ∧
      ∀ place h, app.store.handlers[place]? = some h →
        (place ∈ cycle.runs.map Run.handler ↔ h.trigger.holds app.store.live settled = true) := by
  obtain ⟨settled, waiting, rules, accepted, _, dispatched, _, order⟩ := reachable.update_passive passive ran
  cases committed.symm.trans accepted
  obtain ⟨live, history⟩ := dispatch_untouched untouched dispatched
  refine ⟨settled, rules, live, history, fun place h stored => ?_⟩
  rw [order, mem_due, List.getElem?_map, stored]
  simp

/-- A sentence without effects that is asked after an update has the value that it has as a trigger of the
update, but over the last snapshot and not over the live fields from which the update started. The two are the
same if these agree on the fields that the sentence recalls; they agree on all fields if and only if no sentence
can tell, and so they do if no call ever set a field. -/
theorem Reachable.evaluate_after_update {depth : Nat} {patch : Patch} {cycle : Cycle}
    {handlers : List (Handler σ × Nat)} {start : Store σ} (reachable : app.Reachable c)
    (passive : ∀ h ∈ app.store.handlers, h.trigger.passive = true)
    (committed : app.store.commit patch = (.ok handlers, start))
    (untouched : Untouched (App.update depth) handlers { app with store := start })
    (ran : app.update (depth + 1) patch = some (.ok cycle, after)) :
    ∃ settled last,
      (Store.runRules app.store.live app.store.rules).runOn (app.store.live.insertAll patch) =
          (.ok (), settled) ∧
        app.store.history.getLast? = some last ∧
        (∀ sentence t, app.store.compile sentence = .ok t → t.passive = true →
          ∃ v, (t.eval app.store.live .current).runOn settled = (.ok v, settled) ∧
            (∀ place h, app.store.handlers[place]? = some h → h.trigger = t →
              (place ∈ cycle.runs.map Run.handler ↔ v.truthy = true)) ∧
            after.store.evaluate sentence = ((t.eval last .current).runOn settled).1 ∧
            ((∀ name ∈ t.recalled .current, last.get? name = app.store.live.get? name) →
              after.store.evaluate sentence = .ok v)) ∧
        ((∀ t : Tree, t.passive = true → t.WellFormed c.data.names →
            ((t.eval last .current).runOn settled).1 = ((t.eval app.store.live .current).runOn settled).1) ↔
          ∀ name ∈ c.data.names, last.get? name = app.store.live.get? name) ∧
        (app.Undisturbed c → last = app.store.live) := by
  have consistent := reachable.consistent
  have kept : after.Reachable c := reachable.update ran
  obtain ⟨settled, rules, live, history, called⟩ := reachable.update_untouched passive committed untouched ran
  obtain ⟨last, latest⟩ : ∃ last, app.store.history.getLast? = some last :=
    Option.ne_none_iff_exists'.mp (mt List.getLast?_eq_none_iff.mp consistent.kept)
  have previous : after.store.previous? = some last := by
    obtain ⟨older, same⟩ := List.getLast?_eq_some_iff.mp latest
    rw [State.previous?, history, same]
    simp
  have covers : c.data.names ⊆ settled.names := live ▸ kept.consistent.covers
  have asked {sentence : String} {t : Tree} (compiled : app.store.compile sentence = .ok t) :
      after.store.evaluate sentence = ((t.eval last .current).runOn settled).1 := by
    have compiled' : after.store.compile sentence = .ok t := by
      rwa [State.compile, reachable.same_vocabulary kept]
    rw [State.evaluate, compiled', previous, live]
    rfl
  refine ⟨settled, last, rules, latest, ?_, ?_, ?_⟩
  · intro sentence t compiled pure
    obtain ⟨v, judged⟩ := (consistent.compile compiled).value pure app.store.live .current covers
    refine ⟨v, judged, ?_, asked compiled, fun agree => ?_⟩
    · rintro place h stored rfl
      have value : h.trigger.holds app.store.live settled = v.truthy := by
        rw [Tree.holds, judged]
      rw [called place h stored, value]
    · rw [asked compiled, Tree.eval_congr agree, judged]
  · have lastNames := consistent.history last (List.mem_of_getLast? latest)
    refine ⟨agree_of_indistinguishable lastNames consistent.live, fun agree t _ _ => ?_⟩
    have everywhere : ∀ name, last.get? name = app.store.live.get? name := by
      intro name
      by_cases declared : name ∈ c.data.names
      · exact agree name declared
      · rw [get?_of_not_declared lastNames declared, get?_of_not_declared consistent.live declared]
    rw [Tree.eval_congr fun name _ => everywhere name]
  · intro undisturbed
    exact Option.some.inj (latest.symm.trans undisturbed.last_is_live)

end App

/-- The counter was not set before the update, so a sentence that is asked behind it sees what a trigger saw. -/
theorem watched_counter_answers :
    ∃ cycle after v, (Counter.heard "x has changed").update 1 [("x", .number .one)] = some (.ok cycle, after) ∧
      after.store.evaluate "x has changed" = .ok v ∧ (0 ∈ cycle.runs.map Run.handler ↔ v.truthy = true) := by
  have known : ∀ p ∈ [("x", Value.number .one)], p.1 ∈ Counter.config.data.names := by decide
  have undisturbed : (Counter.heard "x has changed").Undisturbed Counter.config :=
    (App.Undisturbed.built () Counter.built).listen _ _ _
  have passive : (Counter.heard "x has changed").store.handlers.all (fun h => h.trigger.passive) = true := by
    decide +kernel
  have ends : ((Counter.heard "x has changed").update 1 [("x", .number .one)]).map (fun r => r.1.isOk) = some true := by
    decide +kernel
  have asks : (Counter.heard "x has changed").store.handlers[0]?.map Handler.trigger =
      some (.changed (.field "x") .placeholder) := by
    decide +kernel
  obtain ⟨settled, waiting, _, _, placed, committed⟩ :=
    undisturbed.reachable.commit_passive (List.all_eq_true.mp passive) known
  have reading : ∀ h ∈ waiting, ∀ payload, (h.1.listener payload).Reading := fun h member =>
    Counter.heard_reading (List.mem_of_getElem? (placed h member))
  obtain ⟨⟨reply, after⟩, ran, isOk⟩ := Option.map_eq_some_iff.mp ends
  cases reply with
  | error e => cases isOk
  | ok cycle =>
    obtain ⟨_, last, _, _, answers, _, same⟩ := undisturbed.reachable.evaluate_after_update
      (List.all_eq_true.mp passive) committed (App.untouched_of_reading reading _) ran
    obtain ⟨v, _, turns, _, agrees⟩ := answers "x has changed" (.changed (.field "x") .placeholder) (by decide +kernel) rfl
    obtain ⟨h, stored, trigger⟩ := Option.map_eq_some_iff.mp asks
    refine ⟨cycle, after, v, ran, agrees fun _ _ => ?_, turns 0 h stored trigger⟩
    rw [same undisturbed]

namespace Counter

/-- The counter, set directly, with a listener to a question about what it was. -/
def moved : App Unit := ((app.set "x" (.number .one)).2.listen "x was 1" [] fun _ => .done).2

theorem moved_reachable : moved.Reachable config := (reachable.set _ _).listen _ _ _

theorem moved_reading {h : Handler Unit} (member : h ∈ moved.store.handlers) (payload : Payload) :
    (h.listener payload).Reading := by
  unfold moved at member
  rcases App.listener_of_mem_listen member with old | same
  · have none : (app.set "x" (.number .one)).2.store.handlers = [] := (app.set_frame _ _).1
    rw [none] at old
    cases old
  · rw [same]
    exact .done

end Counter

/-- The trigger saw the value that was set, and the same sentence that is asked afterwards does not. -/
theorem set_counter_answers_otherwise :
    Counter.moved.Reachable Counter.config ∧
      (∀ h ∈ Counter.moved.store.handlers, h.trigger.passive = true ∧ ∀ payload, (h.listener payload).Reading) ∧
      ∃ cycle after, Counter.moved.update 1 [] = some (.ok cycle, after) ∧
        Counter.moved.store.handlers.map Handler.trigger = [.was .equal (.field "x") (.value (.number .one))] ∧
        after.store.compile "x was 1" = .ok (.was .equal (.field "x") (.value (.number .one))) ∧
        cycle.runs.map Run.handler = [0] ∧ after.store.evaluate "x was 1" = .ok (.bool false) := by
  have passive : Counter.moved.store.handlers.all (fun h => h.trigger.passive) = true := by decide +kernel
  have ends : (Counter.moved.update 1 []).map (fun r => (r.1.map fun cycle => cycle.runs.map Run.handler,
      r.2.store.compile "x was 1", r.2.store.evaluate "x was 1")) =
        some (.ok [0], .ok (.was .equal (.field "x") (.value (.number .one))), .ok (.bool false)) := by
    decide +kernel
  refine ⟨Counter.moved_reachable, fun h member => ⟨List.all_eq_true.mp passive h member, ?_⟩, ?_⟩
  · exact Counter.moved_reading member
  obtain ⟨⟨reply, after⟩, ran, same⟩ := Option.map_eq_some_iff.mp ends
  simp only [Prod.mk.injEq] at same
  obtain ⟨order, compiled, value⟩ := same
  cases reply with
  | error e => cases order
  | ok cycle => exact ⟨cycle, after, ran, by decide +kernel, compiled, Except.ok.inj order, value⟩

end Rulebook
