import Rulebook.Proofs.Store.Growth

/-!
# The turns of listeners

Which listeners an update runs, when, and what they are given. `listeners_take_turns`: the triggers decide
before the first listener runs, so what the listeners do has no say in it. Each handler whose trigger is true
has one turn, in the order of registration, and is given what it asks of the live fields of its turn.
-/

namespace Rulebook

variable {σ : Type}

/-! ### Triggers that hold -/

/-- Whether the tree has a true value, asked over `live` after an update from `prior`. -/
def Tree.holds (t : Tree) (prior live : Fields) : Bool :=
  match ((t.eval prior .current).runOn live).1 with
  | .ok v => v.truthy
  | .error _ => false

/-- The places of the triggers that hold. -/
def due (prior live : Fields) (triggers : List Tree) : List Nat :=
  (triggers.zipIdx.filter fun t => t.1.holds prior live).map Prod.snd

theorem mem_due {prior live : Fields} {triggers : List Tree} {i : Nat} :
    i ∈ due prior live triggers ↔ ∃ t, triggers[i]? = some t ∧ t.holds prior live = true := by
  simp [due, List.mk_mem_zipIdx_iff_getElem?]

theorem due_increasing (prior live : Fields) (triggers : List Tree) :
    (due prior live triggers).Pairwise (· < ·) := by
  have sub := (List.filter_sublist (p := fun t : Tree × Nat => t.1.holds prior live) (l := triggers.zipIdx)).map Prod.snd
  rw [List.zipIdx_map_snd] at sub
  exact List.Pairwise.sublist sub List.pairwise_lt_range'

namespace Store

/-- Triggers without effects are all judged over the same fields, and leave them alone. -/
theorem fired_of_passive {prior : Fields} {handlers chosen : List (Handler σ × Nat)} {live after : Fields}
    (passive : ∀ h ∈ handlers, h.1.trigger.passive = true)
    (ran : (fired prior handlers).runOn live = (.ok chosen, after)) :
    after = live ∧ chosen = handlers.filter fun h => h.1.trigger.holds prior live := by
  induction handlers generalizing chosen after with
  | nil =>
    cases ran
    exact ⟨rfl, rfl⟩
  | cons h rest ih =>
    obtain ⟨first, others⟩ := List.forall_mem_cons.mp passive
    obtain ⟨v, middle, judged, ran⟩ := Eval.runOn_bind_inv ran
    obtain ⟨later, last, later', ran⟩ := Eval.runOn_bind_inv ran
    obtain rfl := Tree.eq_of_passive first judged
    have value : h.1.trigger.holds prior middle = v.truthy := by rw [Tree.holds, judged]
    obtain ⟨rfl, rfl⟩ := ih others later'
    cases ran
    rw [List.filter_cons, value]
    exact ⟨rfl, rfl⟩

end Store

/-! ### Handlers stay where they are -/

theorem Store.commit_handlers (s : Store σ) (patch : Patch) : (s.commit patch).2.handlers = s.handlers := by
  unfold commit
  split
  · rfl
  · split <;> rfl

namespace App

variable {app after : App σ}

theorem restore_handlers (app : App σ) (history : History) :
    (app.restore history).2.store.handlers = app.store.handlers := by
  unfold restore
  cases app.store.toState.restore history <;> rfl

theorem listen_handlers (app : App σ) (trigger : String) (props : List String) (listener : Payload → Script σ) :
    app.store.handlers <+: (app.listen trigger props listener).2.store.handlers := by
  unfold listen
  cases ran : app.store.listen trigger props listener with
  | error e => exact List.prefix_rfl
  | ok store =>
    obtain ⟨tree, _, rfl⟩ := Store.listen_ok ran
    exact List.prefix_append ..

/-- An accepted handler stands behind those that were there, with the tree of its trigger. -/
theorem listen_registers {trigger : String} {props : List String} {listener : Payload → Script σ}
    (accepted : (app.listen trigger props listener).1 = .ok ()) :
    ∃ t, app.store.trigger trigger = .ok t ∧
      (app.listen trigger props listener).2.store.handlers = app.store.handlers ++ [⟨t, props, listener⟩] := by
  unfold listen at accepted ⊢
  cases ran : app.store.listen trigger props listener with
  | error e =>
    rw [ran] at accepted
    cases accepted
  | ok store =>
    obtain ⟨t, compiled, rfl⟩ := Store.listen_ok ran
    exact ⟨t, compiled, rfl⟩

theorem Call.handlers (call : app.Call after) : app.store.handlers <+: after.store.handlers := by
  cases call with
  | none | remember => exact List.prefix_rfl
  | set name v => exact (app.set_frame name v).1 ▸ List.prefix_rfl
  | listen trigger props listener => exact app.listen_handlers trigger props listener
  | restore history => exact app.restore_handlers history ▸ List.prefix_rfl
  | commit patch => exact app.store.commit_handlers patch ▸ List.prefix_rfl

/-- The handlers still stand at the front of those of the store, and the store is consistent. -/
structure Keeps (handlers : List (Handler σ)) (declared : List String) (app : App σ) : Prop where
  kept : handlers <+: app.store.handlers
  consistent : app.store.Consistent declared

namespace Keeps

variable {handlers : List (Handler σ)} {declared : List String}

theorem call (keeps : app.Keeps handlers declared) (call : app.Call after) : after.Keeps handlers declared :=
  ⟨keeps.kept.trans call.handlers, call.consistent keeps.consistent⟩

theorem run {depth : Nat} {script : Script σ} (keeps : app.Keeps handlers declared)
    (ran : app.run depth script = some after) : after.Keeps handlers declared := by
  have step : ∀ p q : Point σ, p.app.Keeps handlers declared → p.step? = some q → q.app.Keeps handlers declared :=
    fun _ _ keeps stepped => keeps.call (Point.call_of_step stepped)
  exact (App.run_ends_iff.mp ⟨depth, ran⟩).keeps step keeps

end Keeps

/-- Handlers ask for declared fields only. -/
theorem Reachable.props_declared {c : Config} (reachable : app.Reachable c) :
    ∀ h ∈ app.store.handlers, ∀ prop ∈ h.props, prop ∈ c.data.names := by
  induction reachable with
  | built memory built => exact fun _ none => (nomatch none)
  | remember memory _ ih => exact ih
  | @set app name v _ ih => exact (app.set_frame name v).1 ▸ ih
  | @restore app history _ ih => exact app.restore_handlers history ▸ ih
  | @commit app patch _ ih => exact app.store.commit_handlers patch ▸ ih
  | @listen app trigger props listener reachable ih =>
    unfold App.listen
    cases ran : app.store.listen trigger props listener with
    | error e => exact ih
    | ok store =>
      have asked := Store.props_of_listen ran
      obtain ⟨tree, _, rfl⟩ := Store.listen_ok ran
      intro h member
      rcases List.mem_append.mp member with old | new
      · exact ih h old
      · obtain rfl := List.mem_singleton.mp new
        exact fun prop member => reachable.consistent.live.mem_iff.mp (asked prop member)

end App

/-! ### What a listener is given -/

/-- A listener receives of the live fields what its handler asks for: all of them if it asks for none, the
value of the one field that it asks for, or a table of exactly the fields that it asks for, in the order in
which it does. A field that there is not would count as null. -/
inductive Receives (live : Fields) : List String → Payload → Prop
  | all : Receives live [] (.fields live)
  | one (prop : String) : Receives live [prop] (.value ((live.get? prop).getD .null))
  | several {props : List String} {fs : Fields} :
      2 ≤ props.length →
      fs.names = props.eraseDups →
      (∀ prop ∈ props, fs.get? prop = some ((live.get? prop).getD .null)) →
      Receives live props (.fields fs)

theorem receives_select (live : Fields) (props : List String) : Receives live props (.select live props) := by
  match props with
  | [] => exact .all
  | [prop] => exact .one prop
  | first :: second :: rest =>
    have names (props : List String) :
        (props.map fun prop => (prop, (live.get? prop).getD .null)).map Prod.fst = props := by
      simp [Function.comp_def]
    refine .several (by simp) ?_ fun prop asked => Table.get?_ofList_map (fun prop => (live.get? prop).getD .null) asked
    rw [Table.names_ofList, names]

/-- A turn of one of the handlers that were there before the update. It is still registered at its place, the
live fields are those declared, and its listener receives what it asks for of them. -/
structure App.Turn (handlers : List (Handler σ)) (declared : List String) (app : App σ) (h : Handler σ)
    (run : Run) : Prop where
  before : handlers[run.handler]? = some h
  registered : app.store.handlers[run.handler]? = some h
  fields : app.store.live.names.Perm declared
  payload : Receives app.store.live h.props run.payload

theorem App.Keeps.turn {handlers : List (Handler σ)} {declared : List String} {app : App σ} {h : Handler σ}
    {place : Nat} (keeps : app.Keeps handlers declared) (before : handlers[place]? = some h) :
    app.Turn handlers declared h ⟨place, .select app.store.live h.props⟩ := by
  obtain ⟨within, stored⟩ := List.getElem?_eq_some_iff.mp before
  have registered : app.store.handlers[place]? = some h := by
    rw [List.prefix_iff_getElem?.mp keeps.kept place within, stored]
  exact ⟨before, registered, keeps.consistent.live, receives_select app.store.live h.props⟩

/-! ### Turns -/

/-- Listeners run one after the other, each in a turn of its handler. -/
inductive Turns (handlers : List (Handler σ)) (declared : List String) (nested : Updater σ) :
    App σ → List Run → App σ → Prop
  | ended (app : App σ) : Turns handlers declared nested app [] app
  | turn {app middle after : App σ} {h : Handler σ} {run : Run} {runs : List Run} :
      app.Turn handlers declared h run →
      (h.listener run.payload).run nested app = some middle →
      Turns handlers declared nested middle runs after →
      Turns handlers declared nested app (run :: runs) after

theorem places_of_dispatch {nested : Updater σ} {waiting : List (Handler σ × Nat)} {app after : App σ}
    {runs : List Run} (ran : App.dispatch nested waiting app = some (runs, after)) :
    runs.map Run.handler = waiting.map Prod.snd := by
  induction waiting generalizing app runs with
  | nil =>
    cases ran
    rfl
  | cons h rest ih =>
    obtain ⟨middle, _, ran⟩ := Option.bind_eq_some_iff.mp ran
    obtain ⟨⟨later, last⟩, dispatched, same⟩ := Option.bind_eq_some_iff.mp ran
    cases same
    exact congrArg (h.2 :: ·) (ih dispatched)

theorem turns_of_dispatch {handlers : List (Handler σ)} {declared : List String} {depth : Nat}
    {waiting : List (Handler σ × Nat)} {app after : App σ} {runs : List Run}
    (placed : ∀ h ∈ waiting, handlers[h.2]? = some h.1) (keeps : app.Keeps handlers declared)
    (ran : App.dispatch (App.update depth) waiting app = some (runs, after)) :
    Turns handlers declared (App.update depth) app runs after := by
  induction waiting generalizing app runs with
  | nil =>
    cases ran
    exact .ended _
  | cons h rest ih =>
    obtain ⟨first, others⟩ := List.forall_mem_cons.mp placed
    obtain ⟨middle, listened, ran⟩ := Option.bind_eq_some_iff.mp ran
    obtain ⟨⟨later, last⟩, dispatched, same⟩ := Option.bind_eq_some_iff.mp ran
    cases same
    -- The listener may have registered handlers, but only behind those that were there.
    exact .turn (keeps.turn first) listened (ih others (keeps.run listened) dispatched)

/-! ### Updates -/

/-- The application behind the first phase of an update, when its listeners are about to run. -/
def App.committed (app : App σ) (settled : Fields) : App σ :=
  { app with store := { app.store with live := settled, history := app.store.history ++ [settled] } }

namespace App

variable {app : App σ} {c : Config}

theorem withHandlers_self (app : App σ) : app.withHandlers app.store.handlers = app := rfl

theorem due_of_filter (prior live : Fields) (handlers : List (Handler σ)) :
    (handlers.zipIdx.filter fun h => h.1.trigger.holds prior live).map Prod.snd =
      due prior live (handlers.map Handler.trigger) := by
  rw [due, List.zipIdx_map, List.filter_map, List.map_map]
  rfl

/-- An accepted update with triggers that have no effects. Its listeners wait in the order of their
registration, and it does not matter what they are. -/
theorem Reachable.commit_due (reachable : app.Reachable c)
    (passive : ∀ h ∈ app.store.handlers, h.trigger.passive = true) {patch : Patch}
    (known : ∀ p ∈ patch, p.1 ∈ c.data.names) :
    ∃ settled, (Store.runRules app.store.live app.store.rules).runOn (app.store.live.insertAll patch) =
        (.ok (), settled) ∧
      ∀ others : List (Handler σ), others.map Handler.trigger = app.store.handlers.map Handler.trigger →
        ((app.withHandlers others).committed settled).store.Consistent c.data.names ∧
        ∃ waiting : List (Handler σ × Nat), (∀ h ∈ waiting, others[h.2]? = some h.1) ∧
          waiting.map Prod.snd = due app.store.live settled (app.store.handlers.map Handler.trigger) ∧
          (app.withHandlers others).store.commit patch =
            (.ok waiting, ((app.withHandlers others).committed settled).store) := by
  obtain ⟨settled, _, _, rules, _⟩ := reachable.consistent.commit_accepted known
  refine ⟨settled, rules, fun others same => ?_⟩
  -- The other handlers ask what the registered ones ask, and so their triggers are as good.
  have shared : ∀ h ∈ others, ∃ h' ∈ app.store.handlers, h'.trigger = h.trigger := by
    intro h member
    have member' := List.mem_map_of_mem (f := Handler.trigger) member
    rw [same] at member'
    exact List.mem_map.mp member'
  have consistent : (app.withHandlers others).store.Consistent c.data.names := by
    refine { reachable.consistent with triggers := fun h member => ?_ }
    obtain ⟨h', member', asks⟩ := shared h member
    exact asks ▸ reachable.consistent.triggers h' member'
  obtain ⟨settled', waiting, final, rules', triggers, _, _, accepted⟩ := consistent.commit_accepted known
  obtain rfl : settled = settled' := congrArg Prod.snd (rules.symm.trans rules')
  have passive' : ∀ h ∈ others.zipIdx, h.1.trigger.passive = true := by
    intro h member
    obtain ⟨h', member', asks⟩ := shared h.1 (List.fst_mem_of_mem_zipIdx member)
    exact asks ▸ passive h' member'
  obtain ⟨rfl, rfl⟩ := Store.fired_of_passive passive' triggers
  have behind := consistent.commit patch
  rw [accepted] at behind
  refine ⟨behind, _, fun h member => ?_, ?_, accepted⟩
  · exact List.mem_zipIdx_iff_getElem?.mp (List.mem_filter.mp member).1
  · rw [← same]
    exact due_of_filter _ _ _

end App

/-! ### The outermost update -/

/-- Of an update that was called last of all, the handlers that fired have had their turns or wait for them, in
this order, until it is over. -/
def Point.Outermost (fired : List (Handler σ × Nat)) (p : Point σ) : Prop :=
  (p.cycles = [] ∧ p.script = .done) ∨
    ∃ inner cycle, p.cycles = inner ++ [cycle] ∧ cycle.resume = (fun _ => .done) ∧
      ∃ begun, begun ++ cycle.waiting = fired ∧ cycle.runs.map Run.handler = begun.map Prod.snd

namespace Point.Outermost

variable {fired : List (Handler σ × Nat)} {p q : Point σ} {cycle : OpenCycle σ}

theorem turn {cycles : List (OpenCycle σ)} {app : App σ}
    (outermost : (Point.mk .done (cycle :: cycles) app).Outermost fired) :
    (cycle.turn cycles app).Outermost fired := by
  rcases outermost with ⟨none, _⟩ | ⟨inner, outer, same, resume, begun, whole, places⟩
  · cases none
  · unfold OpenCycle.turn
    cases inner with
    | nil =>
      obtain ⟨rfl, rfl⟩ := List.cons.inj same
      split
      · exact .inl ⟨rfl, congrFun resume _⟩
      · next h place rest waits =>
        refine .inr ⟨[], _, rfl, resume, begun ++ [(h, place)], ?_, ?_⟩
        · rw [List.append_assoc, List.singleton_append, ← waits, whole]
        · rw [List.map_append, List.map_append, places]
          rfl
    | cons first inner =>
      obtain ⟨rfl, rfl⟩ := List.cons.inj same
      split
      · exact .inr ⟨inner, outer, rfl, resume, begun, whole, places⟩
      · exact .inr ⟨_ :: inner, outer, rfl, resume, begun, whole, places⟩

theorem step (outermost : p.Outermost fired) (stepped : p.step? = some q) : q.Outermost fired := by
  obtain ⟨script, cycles, app⟩ := p
  have within (calls : script ≠ .done) : ∃ inner cycle, cycles = inner ++ [cycle] ∧
      cycle.resume = (fun _ => .done) ∧
        ∃ begun, begun ++ cycle.waiting = fired ∧ cycle.runs.map Run.handler = begun.map Prod.snd := by
    rcases outermost with ⟨_, ended⟩ | opened
    · exact (calls ended).elim
    · exact opened
  cases script with
  | done =>
    cases cycles with
    | nil => cases stepped
    | cons cycle cycles =>
      obtain rfl := Option.some.inj stepped
      exact outermost.turn
  | update patch next =>
    obtain rfl := Option.some.inj stepped
    obtain ⟨inner, cycle, rfl, resume, begun⟩ := within (by simp)
    unfold commit
    split
    · exact .inr ⟨inner, cycle, rfl, resume, begun⟩
    · exact .inr ⟨_ :: inner, cycle, rfl, resume, begun⟩
  | look | consult | remember | set | listen | restore =>
    obtain rfl := Option.some.inj stepped
    exact .inr (within (by simp))

theorem after {handlers : List (Handler σ)} {declared : List String} {n : Nat} (outermost : p.Outermost fired)
    (keeps : p.app.Keeps handlers declared) (ran : p.after n = some q) :
    q.Outermost fired ∧ q.app.Keeps handlers declared := by
  refine Point.after_keeps (P := fun p => p.Outermost fired ∧ p.app.Keeps handlers declared) ?_
    ⟨outermost, keeps⟩ ran
  rintro p q ⟨outermost, keeps⟩ stepped
  exact ⟨outermost.step stepped, keeps.call (Point.call_of_step stepped)⟩

theorem fired_eq {inner : List (OpenCycle σ)} (outermost : p.Outermost fired) (opened : p.cycles = inner ++ [cycle]) :
    ∃ begun, begun ++ cycle.waiting = fired ∧ cycle.runs.map Run.handler = begun.map Prod.snd := by
  rcases outermost with ⟨none, _⟩ | ⟨inner', cycle', same, _, turns⟩
  · simp [none] at opened
  · rw [opened] at same
    obtain ⟨_, one⟩ := List.append_inj' same rfl
    cases one
    exact turns

end Point.Outermost

/-- Where the script at work is done and no inner update is open, the next handler has its turn. -/
theorem Point.step_turn {p : Point σ} {cycle : OpenCycle σ} {h : Handler σ} {place : Nat}
    {rest : List (Handler σ × Nat)} (done : p.script = .done) (opened : p.cycles = [cycle])
    (waits : cycle.waiting = (h, place) :: rest) :
    p.step? = some ⟨h.listener (.select p.app.store.live h.props),
      [{ cycle with runs := cycle.runs ++ [⟨place, .select p.app.store.live h.props⟩], waiting := rest }], p.app⟩ := by
  obtain ⟨script, cycles, app⟩ := p
  obtain rfl : script = .done := done
  obtain rfl : cycles = [cycle] := opened
  simp only [step?, OpenCycle.turn, waits]

namespace App

variable {app : App σ} {c : Config}

/-- Handlers stand in the order of registration, and ask for declared fields only. The triggers of an update are
all judged before its first listener runs, over the fields as the rules settled them. Each handler whose trigger
holds has one turn, in their order, whatever the listeners do and whether the update comes to an end or not; no
other handler has one. In its turn it receives what it asks of the live fields of that moment. -/
theorem Reachable.listeners_take_turns (reachable : app.Reachable c)
    (passive : ∀ h ∈ app.store.handlers, h.trigger.passive = true) {patch : Patch}
    (known : ∀ p ∈ patch, p.1 ∈ c.data.names) :
    (∀ trigger props listener, (app.listen trigger props listener).1 = .ok () →
      ∃ t, app.store.trigger trigger = .ok t ∧
        (app.listen trigger props listener).2.store.handlers = app.store.handlers ++ [⟨t, props, listener⟩]) ∧
    (∀ h ∈ app.store.handlers, ∀ prop ∈ h.props, prop ∈ c.data.names) ∧
    ∃ settled, (Store.runRules app.store.live app.store.rules).runOn (app.store.live.insertAll patch) =
        (.ok (), settled) ∧
      let places := due app.store.live settled (app.store.handlers.map Handler.trigger)
      places.Pairwise (· < ·) ∧
      (∀ place, place ∈ places ↔
        ∃ h, app.store.handlers[place]? = some h ∧ h.trigger.holds app.store.live settled = true) ∧
      ∀ others : List (Handler σ), others.map Handler.trigger = app.store.handlers.map Handler.trigger →
        (∀ depth reply after, (app.withHandlers others).update (depth + 1) patch = some (reply, after) →
          ∃ runs, reply = .ok ⟨app.store.history.length, runs⟩ ∧ runs.map Run.handler = places ∧
            Turns others c.data.names (App.update depth) ((app.withHandlers others).committed settled) runs after) ∧
        ∀ n q inner cycle, (Point.start (.update patch fun _ => .done) (app.withHandlers others)).after n = some q →
          q.cycles = inner ++ [cycle] →
          cycle.runs.map Run.handler ++ cycle.waiting.map Prod.snd = places ∧
          ∀ h place rest, q.script = .done → inner = [] → cycle.waiting = (h, place) :: rest →
            ∃ run, run.handler = place ∧ q.app.Turn others c.data.names h run ∧
              q.step? = some ⟨h.listener run.payload,
                [{ cycle with runs := cycle.runs ++ [run], waiting := rest }], q.app⟩ := by
  obtain ⟨settled, rules, committed⟩ := reachable.commit_due passive known
  refine ⟨fun _ _ _ => listen_registers, reachable.props_declared, settled, rules, due_increasing ..,
    fun place => ?_, fun others same => ?_⟩
  · simp [mem_due]
  obtain ⟨consistent, waiting, placed, places, accepted⟩ := committed others same
  have keeps : ((app.withHandlers others).committed settled).Keeps others c.data.names :=
    ⟨List.prefix_rfl, consistent⟩
  refine ⟨?_, ?_⟩
  · intro depth reply after ran
    rw [App.update, updateWith, accepted] at ran
    obtain ⟨⟨runs, last⟩, dispatched, same⟩ := Option.bind_eq_some_iff.mp ran
    cases same
    have turns := turns_of_dispatch placed keeps dispatched
    exact ⟨runs, rfl, (places_of_dispatch dispatched).trans places, turns⟩
  · intro n q inner cycle ran opened
    cases n with
    | zero =>
      cases ran
      simp [Point.start] at opened
    | succ n =>
      -- The call is the first step. Behind it the update is the outermost one, and the other steps keep it so.
      have first : Point.commit patch (fun _ => .done) [] (app.withHandlers others) =
          ⟨.done, [⟨app.store.history.length, [], waiting, fun _ => .done⟩],
            (app.withHandlers others).committed settled⟩ := by
        rw [Point.commit, accepted]
        rfl
      have ran : (Point.commit patch (fun _ => .done) [] (app.withHandlers others)).after n = some q := ran
      rw [first] at ran
      have begins : (Point.mk .done [⟨app.store.history.length, [], waiting, fun _ => .done⟩]
          ((app.withHandlers others).committed settled)).Outermost waiting := .inr ⟨[], _, rfl, rfl, [], rfl, rfl⟩
      obtain ⟨outermost, keeps⟩ := begins.after keeps ran
      obtain ⟨begun, whole, ran⟩ := outermost.fired_eq opened
      refine ⟨by rw [ran, ← List.map_append, whole, places], ?_⟩
      rintro h place rest done rfl waits
      have fired : (h, place) ∈ waiting := by
        rw [← whole, waits]
        exact List.mem_append_right _ List.mem_cons_self
      exact ⟨_, rfl, keeps.turn (placed _ fired), Point.step_turn done opened waits⟩

end App

namespace Counter

/-- The counter with a listener that updates it, and one that registers a listener. -/
def watched : App Unit :=
  ((app.listen "x is 2" [] fun _ => .update [("x", .null)] fun _ => .done).2.listen "x has changed" ["x"] fun _ =>
    .listen "x has changed" [] (fun _ => .done) fun _ => .done).2

theorem watched_reachable : watched.Reachable config := (reachable.listen _ _ _).listen _ _ _

end Counter

/-- Both listeners have one turn in the outer update, though the second one also runs in the inner update. The
first is given all fields. The second asks for one field, and the inner update has changed it by then. -/
theorem watched_counter_takes_turns :
    ∃ runs after, Counter.watched.update 2 [("x", .number .one)] = some (.ok ⟨1, runs⟩, after) ∧
      runs.map Run.handler = [0, 1] ∧
      runs.map Run.payload = [.fields (.ofList [("x", .number Number.one.succ)]), .value .null] ∧
      ∃ settled,
        Turns Counter.watched.store.handlers ["x"] (App.update 1) (Counter.watched.committed settled) runs after := by
  have known : ∀ p ∈ [("x", Value.number .one)], p.1 ∈ Counter.config.data.names := by decide
  have passive : Counter.watched.store.handlers.all (fun h => h.trigger.passive) = true := by decide +kernel
  have ends : (Counter.watched.update 2 [("x", .number .one)]).map (fun r => r.1.toOption) =
      some (some ⟨1, [⟨0, .fields (.ofList [("x", .number Number.one.succ)])⟩, ⟨1, .value .null⟩]⟩) := by
    decide +kernel
  obtain ⟨_, _, settled, rules, _, _, turns⟩ :=
    Counter.watched_reachable.listeners_take_turns (List.all_eq_true.mp passive) known
  obtain ⟨⟨reply, after⟩, ran, answer⟩ := Option.map_eq_some_iff.mp ends
  have own := (turns Counter.watched.store.handlers rfl).1 1 reply after
  rw [App.withHandlers_self] at own
  obtain ⟨runs, rfl, order, turns⟩ := own ran
  have places : due Counter.watched.store.live
      ((Store.runRules Counter.watched.store.live Counter.watched.store.rules).runOn
        (Counter.watched.store.live.insertAll [("x", .number .one)])).2
      (Counter.watched.store.handlers.map Handler.trigger) = [0, 1] := by
    decide +kernel
  rw [rules] at places
  obtain ⟨version, given⟩ := Cycle.mk.inj (Option.some.inj answer)
  rw [version] at ran
  exact ⟨runs, after, ran, order.trans places, by rw [given]; rfl, settled, turns⟩

end Rulebook
