import Rulebook.Proofs.Store.Snapshot

/-!
# The history grows with the updates

Where no call puts another history in place, the history is a log: nothing in it changes, and it has one
snapshot more than there were accepted updates, outer and nested ones alike. `history_counts_updates` says
so of every point of a run.
-/

namespace Rulebook

variable {σ : Type}

/-- Whatever it is told, neither the script nor a listener that it registers puts another history in place. -/
def Script.Appending : Script σ → Prop
  | done => True
  | look next => ∀ s n, (next s n).Appending
  | consult next => ∀ memory, (next memory).Appending
  | remember _ next => next.Appending
  | set _ _ next => ∀ reply, (next reply).Appending
  | update _ next => ∀ reply, (next reply).Appending
  | listen _ _ listener next => (∀ payload, (listener payload).Appending) ∧ ∀ reply, (next reply).Appending
  | restore _ _ => False

def Handler.Appending (h : Handler σ) : Prop := ∀ payload, (h.listener payload).Appending

/-- Nothing that is at work, waiting or registered puts another history in place. -/
structure Point.Appending (p : Point σ) : Prop where
  script : p.script.Appending
  resumes : ∀ cycle ∈ p.cycles, ∀ reply, (cycle.resume reply).Appending
  waiting : ∀ cycle ∈ p.cycles, ∀ h ∈ cycle.waiting, h.1.Appending
  handlers : ∀ h ∈ p.app.store.handlers, h.Appending

/-- Whether an update is called whose patch has no undeclared name. -/
def Point.accepts (declared : List String) (p : Point σ) : Bool :=
  match p.script with
  | .update patch _ => patch.all fun entry => declared.contains entry.1
  | _ => false

theorem Point.accepts_update {declared : List String} {patch : Patch} {next : Except StoreError Cycle → Script σ}
    {cycles : List (OpenCycle σ)} {app : App σ} :
    (Point.mk (.update patch next) cycles app).accepts declared = true ↔ ∀ p ∈ patch, p.1 ∈ declared := by
  simp [accepts]

/-! ### Calls that leave the history alone -/

namespace App

theorem set_frame (app : App σ) (name : String) (v : Value) :
    (app.set name v).2.store.handlers = app.store.handlers ∧
      (app.set name v).2.store.history = app.store.history := by
  unfold set
  cases ran : app.store.toState.set name v with
  | error e => exact ⟨rfl, rfl⟩
  | ok s =>
    unfold State.set at ran
    split at ran
    · cases ran
      exact ⟨rfl, rfl⟩
    · cases ran

end App

/-! ### One step -/

namespace Point.Appending

variable {c : Config} {p q : Point σ}

/-- An update call: it opens a cycle of registered handlers with one more snapshot, or is refused. -/
theorem commit_cases {app : App σ} (reachable : app.Reachable c) (patch : Patch)
    (next : Except StoreError Cycle → Script σ) (cycles : List (OpenCycle σ)) :
    ((∀ p ∈ patch, p.1 ∈ c.data.names) ∧ ∃ settled waiting final, (∀ h ∈ waiting, h.1 ∈ app.store.handlers) ∧
        Point.commit patch next cycles app =
          ⟨.done, ⟨app.store.history.length, [], waiting, next⟩ :: cycles,
            { app with store := { app.store with
              live := final, history := app.store.history ++ [settled] } }⟩) ∨
      ((∃ p ∈ patch, p.1 ∉ c.data.names) ∧ ∃ e, Point.commit patch next cycles app = ⟨next (.error e), cycles, app⟩) := by
  by_cases known : ∀ p ∈ patch, p.1 ∈ c.data.names
  · left
    obtain ⟨settled, waiting, final, _, triggers, _, _, accepted⟩ := reachable.consistent.commit_accepted known
    refine ⟨known, settled, waiting, final, ?_, by rw [Point.commit, accepted]⟩
    intro h member
    exact List.fst_mem_of_mem_zipIdx ((Store.fired_sublist triggers).subset member)
  · right
    have strange : ∃ p ∈ patch, p.1 ∉ c.data.names := by simpa using known
    obtain ⟨name, refused⟩ := reachable.consistent.exists_undeclared strange
    exact ⟨strange, _, by rw [Point.commit, Store.commit_refused refused]⟩

theorem step (appending : p.Appending) (reachable : p.app.Reachable c) (stepped : p.step? = some q) :
    q.Appending := by
  obtain ⟨script, cycles, app⟩ := p
  obtain ⟨goesOn, resumes, waiting, handlers⟩ := appending
  cases script with
  | done =>
    cases cycles with
    | nil => cases stepped
    | cons cycle cycles =>
      obtain rfl := Option.some.inj stepped
      have resume := resumes cycle List.mem_cons_self
      have turns := waiting cycle List.mem_cons_self
      have resumes' : ∀ outer ∈ cycles, _ := fun outer member => resumes outer (List.mem_cons_of_mem _ member)
      have waiting' : ∀ outer ∈ cycles, _ := fun outer member => waiting outer (List.mem_cons_of_mem _ member)
      unfold OpenCycle.turn
      split
      · exact ⟨resume _, resumes', waiting', handlers⟩
      · next h i rest same =>
        rw [same] at turns
        obtain ⟨turn, turns⟩ := List.forall_mem_cons.mp turns
        exact ⟨turn _, List.forall_mem_cons.mpr ⟨resume, resumes'⟩, List.forall_mem_cons.mpr ⟨turns, waiting'⟩, handlers⟩
  | look next =>
    obtain rfl := Option.some.inj stepped
    exact ⟨goesOn _ _, resumes, waiting, handlers⟩
  | consult next =>
    obtain rfl := Option.some.inj stepped
    exact ⟨goesOn _, resumes, waiting, handlers⟩
  | remember memory next =>
    obtain rfl := Option.some.inj stepped
    exact ⟨goesOn, resumes, waiting, handlers⟩
  | set name v next =>
    obtain rfl := Option.some.inj stepped
    refine ⟨goesOn _, resumes, waiting, ?_⟩
    rw [(app.set_frame name v).1]
    exact handlers
  | update patch next =>
    obtain rfl := Option.some.inj stepped
    rcases commit_cases reachable patch next cycles with ⟨_, settled, fired, final, registered, same⟩ | ⟨_, e, same⟩
    · rw [same]
      have turns : ∀ h ∈ fired, h.1.Appending := fun h member => handlers h.1 (registered h member)
      exact ⟨trivial, List.forall_mem_cons.mpr ⟨goesOn, resumes⟩, List.forall_mem_cons.mpr ⟨turns, waiting⟩, handlers⟩
    · rw [same]
      exact ⟨goesOn _, resumes, waiting, handlers⟩
  | listen trigger props listener next =>
    obtain rfl := Option.some.inj stepped
    obtain ⟨listens, goesOn⟩ := goesOn
    refine ⟨goesOn _, resumes, waiting, fun h member => ?_⟩
    rcases App.listener_of_mem_listen member with old | new
    · exact handlers h old
    · rw [Handler.Appending, new]
      exact listens
  | restore history next => exact goesOn.elim

/-- A step adds one snapshot if it accepts an update, and else none. -/
theorem grows (appending : p.Appending) (reachable : p.app.Reachable c) (stepped : p.step? = some q) :
    ∃ added, q.app.store.history = p.app.store.history ++ added ∧
      added.length = if p.accepts c.data.names then 1 else 0 := by
  have still (idle : p.accepts c.data.names = false) (same : q.app.store.history = p.app.store.history) :
      ∃ added, q.app.store.history = p.app.store.history ++ added ∧
        added.length = if p.accepts c.data.names then 1 else 0 :=
    ⟨[], by rw [same, List.append_nil], by rw [idle]; rfl⟩
  obtain ⟨script, cycles, app⟩ := p
  cases script with
  | done =>
    cases cycles with
    | nil => cases stepped
    | cons cycle cycles =>
      obtain rfl := Option.some.inj stepped
      exact still rfl (by rw [OpenCycle.app_turn])
  | update patch next =>
    obtain rfl := Option.some.inj stepped
    rcases commit_cases reachable patch next cycles with ⟨known, settled, _, _, _, same⟩ | ⟨strange, e, same⟩
    · refine ⟨[settled], by rw [same], ?_⟩
      rw [if_pos (accepts_update.mpr known)]
      rfl
    · refine still ?_ (by rw [same])
      rw [← Bool.not_eq_true, accepts_update]
      simpa using strange
  | look | consult | remember =>
    obtain rfl := Option.some.inj stepped
    exact still rfl rfl
  | set name v next =>
    obtain rfl := Option.some.inj stepped
    exact still rfl (app.set_frame name v).2
  | listen trigger props listener next =>
    obtain rfl := Option.some.inj stepped
    exact still rfl (app.listen_frame trigger props listener).2
  | restore history next => exact appending.script.elim

/-! ### Whole runs -/

theorem point (appending : p.Appending) (reachable : p.app.Reachable c) {n : Nat} (ran : p.after n = some q) :
    q.Appending ∧ q.app.Reachable c :=
  Point.after_keeps (P := fun p => p.Appending ∧ p.app.Reachable c)
    (fun _ _ ⟨appending, reachable⟩ stepped =>
      ⟨appending.step reachable stepped, reachable.call (call_of_step stepped)⟩) ⟨appending, reachable⟩ ran

theorem grows_after (appending : p.Appending) (reachable : p.app.Reachable c) {n : Nat} (ran : p.after n = some q) :
    ∃ added, q.app.store.history = p.app.store.history ++ added ∧
      added.length = (p.passed n).countP (accepts c.data.names) := by
  induction n generalizing p with
  | zero =>
    cases ran
    exact ⟨[], (List.append_nil _).symm, rfl⟩
  | succ n ih =>
    obtain ⟨next, stepped, ran⟩ := Option.bind_eq_some_iff.mp ran
    obtain ⟨first, same, one⟩ := appending.grows reachable stepped
    obtain ⟨rest, same', count⟩ :=
      ih (appending.step reachable stepped) (reachable.call (call_of_step stepped)) ran
    refine ⟨first ++ rest, by rw [same', same, List.append_assoc], ?_⟩
    have passed : p.passed (n + 1) = p :: next.passed n := by rw [Point.passed, stepped]; rfl
    rw [passed, List.countP_cons, List.length_append, one, count, Nat.add_comm]

end Point.Appending

/-- Through whole runs the history only gets longer: at every point it begins with the history of each
earlier point, and holds one snapshot more than there were accepted updates. A run comes to an end exactly
if its points do. -/
theorem history_counts_updates {c : Config} {s : State} (built : State.build c = .ok s) (memory : σ)
    {script : Script σ} (appending : script.Appending) :
    let start := Point.start script ⟨{ toState := s }, memory⟩
    (∀ final, (∃ depth, start.app.run depth script = some final) ↔
      ∃ n, start.after n = some (.start .done final)) ∧
    ∀ n q, start.after n = some q →
      q.app.store.history.length = 1 + (start.passed n).countP (Point.accepts c.data.names) ∧
      ∀ m p, m ≤ n → start.after m = some p → p.app.store.history <+: q.app.store.history := by
  intro start
  have reachable : start.app.Reachable c := .built memory built
  have begins : start.Appending :=
    ⟨appending, fun _ none => (nomatch none), fun _ none => (nomatch none), fun _ none => (nomatch none)⟩
  refine ⟨fun final => App.run_ends_iff, fun n q ran => ⟨?_, fun m p earlier passed => ?_⟩⟩
  · obtain ⟨added, same, count⟩ := begins.grows_after reachable ran
    have first : start.app.store.history.length = 1 := by
      change s.history.length = 1
      rw [(State.build_ok built).2.1]
      rfl
    rw [same, List.length_append, count, first]
  · obtain ⟨k, rfl⟩ := Nat.exists_eq_add_of_le earlier
    rw [Point.after_add, passed, Option.bind_some] at ran
    obtain ⟨appending', reachable'⟩ := begins.point reachable passed
    obtain ⟨added, same, _⟩ := appending'.grows_after reachable' ran
    exact ⟨added, same.symm⟩

namespace Counter

/-- An update inside an update, and one that is refused. -/
def echo : Script Unit :=
  .listen "x is 2" [] (fun _ => .update [("x", .null)] fun _ => .update [("y", .null)] fun _ => .done)
    fun _ => .update [("x", .number .one)] fun _ => .done

end Counter

/-- Of three updates two are accepted, one of them inside the other. -/
theorem echo_adds_two_snapshots :
    let start := Point.start Counter.echo ⟨{ toState := Counter.state }, ()⟩
    ∃ q, start.after 7 = some q ∧ q.step?.isNone = true ∧ q.app.store.history.length = 3 := by
  intro start
  have ends : (start.after 7).map (fun q => q.step?.isNone) = some true := by decide +kernel
  have accepted : (start.passed 7).countP (Point.accepts Counter.config.data.names) = 2 := by decide +kernel
  have appending : Counter.echo.Appending := ⟨fun _ _ _ => trivial, fun _ _ => trivial⟩
  obtain ⟨q, ran, ended⟩ := Option.map_eq_some_iff.mp ends
  have count := ((history_counts_updates Counter.built () appending).2 7 q ran).1
  exact ⟨q, ran, ended, by rw [count, accepted]⟩

end Rulebook
