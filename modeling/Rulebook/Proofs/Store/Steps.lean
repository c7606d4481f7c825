import Rulebook.Store.Cycle

/-!
# Runs in single steps

A run of scripts, one call at a time. A point of a run shows the script at work, the updates whose
listeners have not all had their turn, and the application. `run_ends_iff`: a script comes to an end
exactly if its steps do, and they end with the same application. Steps also tell of runs that never end.
-/

namespace Rulebook

variable {σ : Type}

/-! ### Points of a run -/

/-- An accepted update whose listeners are at work. -/
structure OpenCycle (σ : Type) where
  version : Nat
  /-- The turns that have begun. -/
  runs : List Run
  /-- The handlers that fired and wait for their turn. -/
  waiting : List (Handler σ × Nat)
  /-- What goes on after the update. -/
  resume : Except StoreError Cycle → Script σ

/-- A point of a run: the script at work, the updates that it is nested in with the innermost first, and
the application. -/
structure Point (σ : Type) where
  script : Script σ
  cycles : List (OpenCycle σ)
  app : App σ

/-- Gives the next listener its turn. After the last one, the update is over. -/
def OpenCycle.turn (cycle : OpenCycle σ) (cycles : List (OpenCycle σ)) (app : App σ) : Point σ :=
  match cycle.waiting with
  | [] => ⟨cycle.resume (.ok ⟨cycle.version, cycle.runs⟩), cycles, app⟩
  | (h, i) :: waiting =>
    let payload := Payload.select app.store.live h.props
    ⟨h.listener payload, { cycle with runs := cycle.runs ++ [⟨i, payload⟩], waiting } :: cycles, app⟩

namespace Point

def start (script : Script σ) (app : App σ) : Point σ := ⟨script, [], app⟩

/-- The point behind a call of an update. -/
def commit (patch : Patch) (next : Except StoreError Cycle → Script σ) (cycles : List (OpenCycle σ))
    (app : App σ) : Point σ :=
  match app.store.commit patch with
  | (.error e, store) => ⟨next (.error e), cycles, { app with store }⟩
  | (.ok waiting, store) => ⟨.done, ⟨app.store.history.length, [], waiting, next⟩ :: cycles, { app with store }⟩

/-- One call or the start of one turn. At the end of a run there is none. -/
def step? (p : Point σ) : Option (Point σ) :=
  match p.script with
  | .done =>
    match p.cycles with
    | [] => none
    | cycle :: cycles => some (cycle.turn cycles p.app)
  | .look next => some { p with script := next p.app.store.toState p.app.store.handlers.length }
  | .consult next => some { p with script := next p.app.memory }
  | .remember memory next => some { p with script := next, app := { p.app with memory } }
  | .set name v next => some { p with script := next (p.app.set name v).1, app := (p.app.set name v).2 }
  | .update patch next => some (commit patch next p.cycles p.app)
  | .listen trigger props listener next =>
    some { p with
      script := next (p.app.listen trigger props listener).1
      app := (p.app.listen trigger props listener).2 }
  | .restore history next =>
    some { p with script := next (p.app.restore history).1, app := (p.app.restore history).2 }

/-- The point after `n` steps, if there are as many. -/
def after : Nat → Point σ → Option (Point σ)
  | 0, p => some p
  | n + 1, p => p.step?.bind (after n)

/-- The points at which the first `n` steps begin. -/
def passed : Nat → Point σ → List (Point σ)
  | 0, _ => []
  | n + 1, p => p :: (p.step?.map (passed n)).getD []

def Leads (p q : Point σ) : Prop := ∃ n, p.after n = some q

variable {p q r : Point σ}

theorem after_add (m n : Nat) (p : Point σ) : p.after (m + n) = (p.after m).bind (after n) := by
  induction m generalizing p with
  | zero => rw [Nat.zero_add, after, Option.bind_some]
  | succ m ih =>
    rw [Nat.add_right_comm, after, after]
    cases p.step? with
    | none => rfl
    | some q => exact ih q

/-- What every step keeps, a run keeps. -/
theorem after_keeps {P : Point σ → Prop} (step : ∀ p q, P p → p.step? = some q → P q) {n : Nat} (start : P p)
    (ran : p.after n = some q) : P q := by
  induction n generalizing p with
  | zero =>
    cases ran
    exact start
  | succ n ih =>
    obtain ⟨next, stepped, ran⟩ := Option.bind_eq_some_iff.mp ran
    exact ih (step p next start stepped) ran

theorem Leads.keeps {P : Point σ → Prop} (step : ∀ p q, P p → p.step? = some q → P q) (leads : p.Leads q)
    (start : P p) : P q := by
  obtain ⟨n, ran⟩ := leads
  exact after_keeps step start ran

theorem Leads.refl (p : Point σ) : p.Leads p := ⟨0, rfl⟩

theorem Leads.step (stepped : p.step? = some q) (leads : q.Leads r) : p.Leads r := by
  obtain ⟨n, ran⟩ := leads
  exact ⟨n + 1, by rw [after, stepped, Option.bind_some, ran]⟩

theorem Leads.trans (first : p.Leads q) (second : q.Leads r) : p.Leads r := by
  obtain ⟨m, ran⟩ := first
  obtain ⟨n, ran'⟩ := second
  exact ⟨m + n, by rw [after_add, ran, Option.bind_some, ran']⟩

end Point

/-! ### What a step does to the application -/

/-- A step makes at most one call. -/
inductive App.Call : App σ → App σ → Prop
  | none (app : App σ) : Call app app
  | remember (app : App σ) (memory : σ) : Call app { app with memory }
  | set (app : App σ) (name : String) (v : Value) : Call app (app.set name v).2
  | listen (app : App σ) (trigger : String) (props : List String) (listener : Payload → Script σ) :
      Call app (app.listen trigger props listener).2
  | restore (app : App σ) (history : History) : Call app (app.restore history).2
  | commit (app : App σ) (patch : Patch) : Call app { app with store := (app.store.commit patch).2 }

theorem OpenCycle.app_turn (cycle : OpenCycle σ) (cycles : List (OpenCycle σ)) (app : App σ) :
    (cycle.turn cycles app).app = app := by
  unfold turn
  split <;> rfl

theorem Point.app_commit (patch : Patch) (next : Except StoreError Cycle → Script σ)
    (cycles : List (OpenCycle σ)) (app : App σ) :
    (commit patch next cycles app).app = { app with store := (app.store.commit patch).2 } := by
  unfold commit
  split <;> next committed => rw [committed]

theorem Point.call_of_step {p q : Point σ} (stepped : p.step? = some q) : p.app.Call q.app := by
  obtain ⟨script, cycles, app⟩ := p
  cases script with
  | done =>
    cases cycles with
    | nil => cases stepped
    | cons cycle cycles =>
      obtain rfl := Option.some.inj stepped
      rw [OpenCycle.app_turn]
      exact .none app
  | update patch next =>
    obtain rfl := Option.some.inj stepped
    rw [app_commit]
    exact .commit app patch
  | look next | consult next =>
    obtain rfl := Option.some.inj stepped
    exact .none app
  | remember memory next =>
    obtain rfl := Option.some.inj stepped
    exact .remember app memory
  | set name v next =>
    obtain rfl := Option.some.inj stepped
    exact .set app name v
  | listen trigger props listener next =>
    obtain rfl := Option.some.inj stepped
    exact .listen app trigger props listener
  | restore history next =>
    obtain rfl := Option.some.inj stepped
    exact .restore app history

/-! ### A script that ends is a run of steps -/

/-- The updates of listeners are runs of steps. -/
def Stepwise (nested : Updater σ) : Prop :=
  ∀ patch app reply after, nested patch app = some (reply, after) → ∀ next cycles,
    (Point.mk (.update patch next) cycles app).Leads ⟨next reply, cycles, after⟩

theorem Stepwise.script {nested : Updater σ} (stepwise : Stepwise nested) {script : Script σ} {app after : App σ}
    (ran : script.run nested app = some after) (cycles : List (OpenCycle σ)) :
    (Point.mk script cycles app).Leads ⟨.done, cycles, after⟩ := by
  induction script generalizing app with
  | done =>
    cases ran
    exact .refl _
  | look next ih => exact .step rfl (ih _ _ ran)
  | consult next ih => exact .step rfl (ih _ ran)
  | remember memory next ih => exact .step rfl (ih ran)
  | set name v next ih => exact .step rfl (ih _ ran)
  | update patch next ih =>
    rw [Script.run] at ran
    split at ran
    · cases ran
    · next reply middle updated => exact (stepwise _ _ _ _ updated next cycles).trans (ih reply ran)
  | listen trigger props listener next _ ih => exact .step rfl (ih _ ran)
  | restore history next ih => exact .step rfl (ih _ ran)

theorem Stepwise.dispatch {nested : Updater σ} (stepwise : Stepwise nested) {waiting : List (Handler σ × Nat)}
    {app after : App σ} {runs : List Run} (ran : App.dispatch nested waiting app = some (runs, after))
    (version : Nat) (begun : List Run) (resume : Except StoreError Cycle → Script σ)
    (cycles : List (OpenCycle σ)) :
    (Point.mk .done (⟨version, begun, waiting, resume⟩ :: cycles) app).Leads
      ⟨resume (.ok ⟨version, begun ++ runs⟩), cycles, after⟩ := by
  induction waiting generalizing app begun runs with
  | nil =>
    cases ran
    rw [List.append_nil]
    exact .step rfl (.refl _)
  | cons h rest ih =>
    obtain ⟨middle, listened, ran⟩ := Option.bind_eq_some_iff.mp ran
    obtain ⟨⟨later, last⟩, dispatched, same⟩ := Option.bind_eq_some_iff.mp ran
    cases same
    have others := ih dispatched (begun ++ [⟨h.2, .select app.store.live h.1.props⟩])
    rw [List.append_assoc, List.singleton_append] at others
    exact .step rfl ((stepwise.script listened _).trans others)

theorem Stepwise.updateWith {nested : Updater σ} (stepwise : Stepwise nested) :
    Stepwise (App.updateWith nested) := by
  intro patch app reply after ran next cycles
  refine .step rfl ?_
  rw [App.updateWith] at ran
  rw [Point.commit]
  split at ran
  · next committed =>
    cases ran
    rw [committed]
    exact .refl _
  · next waiting store committed =>
    obtain ⟨⟨runs, last⟩, dispatched, same⟩ := Option.bind_eq_some_iff.mp ran
    cases same
    rw [committed]
    exact stepwise.dispatch dispatched _ [] next cycles

theorem stepwise_update (depth : Nat) : Stepwise (App.update depth : Updater σ) := by
  induction depth with
  | zero => exact fun _ _ _ _ ran => nomatch ran
  | succ depth ih => exact ih.updateWith

/-! ### Deeper nesting -/

/-- Whatever updates through `nested` come to, updates through `other` come to. -/
def Updater.Below (nested other : Updater σ) : Prop :=
  ∀ patch app result, nested patch app = some result → other patch app = some result

namespace Updater.Below

variable {nested other : Updater σ} {app : App σ}

theorem script (below : nested.Below other) {script : Script σ} {after : App σ}
    (ran : script.run nested app = some after) : script.run other app = some after := by
  induction script generalizing app with
  | done => exact ran
  | look next ih => exact ih _ _ ran
  | consult next ih => exact ih _ ran
  | remember memory next ih => exact ih ran
  | set name v next ih => exact ih _ ran
  | update patch next ih =>
    rw [Script.run] at ran ⊢
    split at ran
    · cases ran
    · next reply middle updated =>
      rw [below _ _ _ updated]
      exact ih reply ran
  | listen trigger props listener next _ ih => exact ih _ ran
  | restore history next ih => exact ih _ ran

theorem dispatch (below : nested.Below other) {waiting : List (Handler σ × Nat)} {result : List Run × App σ}
    (ran : App.dispatch nested waiting app = some result) : App.dispatch other waiting app = some result := by
  induction waiting generalizing app result with
  | nil => exact ran
  | cons h rest ih =>
    obtain ⟨middle, listened, ran⟩ := Option.bind_eq_some_iff.mp ran
    obtain ⟨later, dispatched, same⟩ := Option.bind_eq_some_iff.mp ran
    refine Option.bind_eq_some_iff.mpr ⟨middle, below.script listened, ?_⟩
    exact Option.bind_eq_some_iff.mpr ⟨later, ih dispatched, same⟩

theorem updateWith (below : nested.Below other) : (App.updateWith nested).Below (App.updateWith other) := by
  intro patch app result ran
  rw [App.updateWith] at ran ⊢
  split at ran
  · exact ran
  · obtain ⟨later, dispatched, same⟩ := Option.bind_eq_some_iff.mp ran
    exact Option.bind_eq_some_iff.mpr ⟨later, below.dispatch dispatched, same⟩

end Updater.Below

theorem App.update_below {depth deeper : Nat} (le : depth ≤ deeper) :
    (App.update depth : Updater σ).Below (App.update deeper) := by
  induction depth generalizing deeper with
  | zero => exact fun _ _ _ ran => nomatch ran
  | succ depth ih =>
    obtain ⟨deeper, rfl⟩ : ∃ n, deeper = n + 1 := ⟨deeper - 1, by omega⟩
    exact (ih (Nat.le_of_succ_le_succ le)).updateWith

/-! ### Steps that end are a run of the script -/

/-- A run of fewer than `n` steps that ends with `final` begins with the whole of its first script. -/
def Unfolds (n : Nat) (final : App σ) : Prop :=
  ∀ m < n, ∀ script cycles app, (Point.mk script cycles app).after m = some ⟨.done, [], final⟩ →
    ∃ depth middle k, k ≤ m ∧ script.run (App.update depth) app = some middle ∧
      (Point.mk .done cycles middle).after k = some ⟨.done, [], final⟩

namespace Unfolds

variable {n m : Nat} {final app : App σ} {cycles : List (OpenCycle σ)}

/-- A call that is no update is one step in both. -/
theorem call {script script' : Script σ} {app' : App σ} (unfolds : Unfolds n final) (within : m < n)
    (stepped : (Point.mk script cycles app).step? = some ⟨script', cycles, app'⟩)
    (same : ∀ nested, script.run nested app = script'.run nested app')
    (ran : (Point.mk script cycles app).after (m + 1) = some ⟨.done, [], final⟩) :
    ∃ depth middle k, k ≤ m + 1 ∧ script.run (App.update depth) app = some middle ∧
      (Point.mk .done cycles middle).after k = some ⟨.done, [], final⟩ := by
  rw [Point.after, stepped] at ran
  obtain ⟨depth, middle, k, less, finished, rest⟩ := unfolds m within _ _ _ ran
  exact ⟨depth, middle, k, Nat.le_succ_of_le less, (same _).trans finished, rest⟩

/-- The steps of an open update go through all its turns. -/
theorem dispatch (unfolds : Unfolds n final) (within : m ≤ n) {version : Nat} {begun : List Run}
    {waiting : List (Handler σ × Nat)} {resume : Except StoreError Cycle → Script σ}
    (ran : (Point.mk .done (⟨version, begun, waiting, resume⟩ :: cycles) app).after m = some ⟨.done, [], final⟩) :
    ∃ depth runs middle k, k < m ∧ App.dispatch (App.update depth) waiting app = some (runs, middle) ∧
      (Point.mk (resume (.ok ⟨version, begun ++ runs⟩)) cycles middle).after k = some ⟨.done, [], final⟩ := by
  induction waiting generalizing m begun app with
  | nil =>
    cases m with
    | zero => cases ran
    | succ m =>
      refine ⟨0, [], app, m, Nat.lt_succ_self m, rfl, ?_⟩
      rw [List.append_nil]
      exact ran
  | cons h rest ih =>
    cases m with
    | zero => cases ran
    | succ m =>
      obtain ⟨first, middle, k, less, listened, ran⟩ := unfolds m within _ _ _ ran
      obtain ⟨second, runs, last, k', less', dispatched, ran⟩ := ih (by omega) ran
      -- The turn and the later ones may nest differently deep. The greater depth serves for both.
      refine ⟨max first second, ⟨h.2, .select app.store.live h.1.props⟩ :: runs, last, k', by omega, ?_, ?_⟩
      · have turn := (App.update_below (Nat.le_max_left first second)).script listened
        have turns := (App.update_below (Nat.le_max_right first second)).dispatch dispatched
        exact Option.bind_eq_some_iff.mpr ⟨middle, turn, Option.bind_eq_some_iff.mpr ⟨_, turns, rfl⟩⟩
      · rwa [List.append_assoc, List.singleton_append] at ran

theorem update {patch : Patch} {next : Except StoreError Cycle → Script σ} (unfolds : Unfolds n final)
    (within : m < n)
    (ran : (Point.mk (.update patch next) cycles app).after (m + 1) = some ⟨.done, [], final⟩) :
    ∃ depth middle k, k ≤ m + 1 ∧ (Script.update patch next).run (App.update depth) app = some middle ∧
      (Point.mk .done cycles middle).after k = some ⟨.done, [], final⟩ := by
  have begins : (Point.commit patch next cycles app).after m = some ⟨.done, [], final⟩ := ran
  rcases committed : app.store.commit patch with ⟨e | waiting, store⟩
  · rw [Point.commit, committed] at begins
    obtain ⟨depth, middle, k, less, finished, rest⟩ := unfolds m within _ _ _ begins
    refine ⟨depth + 1, middle, k, Nat.le_succ_of_le less, ?_, rest⟩
    rw [Script.run, App.update, App.updateWith, committed]
    exact (App.update_below (Nat.le_succ depth)).script finished
  · rw [Point.commit, committed] at begins
    obtain ⟨first, runs, after, k, less, dispatched, begins⟩ := unfolds.dispatch (Nat.le_of_lt within) begins
    obtain ⟨second, middle, k', less', finished, rest⟩ := unfolds k (by omega) _ _ _ begins
    have turns := (App.update_below (Nat.le_max_left first second)).dispatch dispatched
    have deeper : second ≤ max first second + 1 := by omega
    refine ⟨max first second + 1, middle, k', by omega, ?_, rest⟩
    rw [Script.run, App.update, App.updateWith, committed]
    simp only [turns, Option.bind_eq_bind, Option.bind_some]
    exact (App.update_below deeper).script finished

end Unfolds

theorem unfolds (n : Nat) (final : App σ) : Unfolds n final := by
  -- The turns of an update are scripts whose runs have fewer steps, so the induction is on their number.
  induction n with
  | zero => exact fun _ none => nomatch none
  | succ n ih =>
    intro m less script cycles app ran
    cases m with
    | zero =>
      cases ran
      exact ⟨0, final, 0, Nat.le_refl 0, rfl, rfl⟩
    | succ m =>
      have within := Nat.lt_of_succ_lt_succ less
      cases script with
      | done => exact ⟨0, app, m + 1, Nat.le_refl _, rfl, ran⟩
      | update patch next => exact ih.update within ran
      | look | consult | remember | set | listen | restore => exact ih.call within rfl (fun _ => rfl) ran

/-- A script ends with an application exactly if its steps lead there. -/
theorem App.run_ends_iff {script : Script σ} {app final : App σ} :
    (∃ depth, app.run depth script = some final) ↔ (Point.start script app).Leads (.start .done final) := by
  constructor
  · rintro ⟨depth, ran⟩
    exact (stepwise_update depth).script ran []
  · rintro ⟨n, ran⟩
    obtain ⟨depth, middle, k, _, finished, rest⟩ := unfolds (n + 1) final n (Nat.lt_succ_self n) _ _ _ ran
    cases k with
    | zero =>
      cases rest
      exact ⟨depth, finished⟩
    | succ k => cases rest

end Rulebook
