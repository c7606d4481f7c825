import Rulebook.Proofs.Store.Turns
import Rulebook.Proofs.Tree.Locality

/-!
# Rules in another order

Two neighbouring rules, of which neither writes a field of the other, can change places: `independent_rules_commute`.
Both orders leave the same fields after every patch, and without handlers an update shows nothing else of its rules.
-/

namespace Rulebook

variable {σ : Type} {declared : List String}

namespace Store

variable {s : Store σ} {before after rules : List Tree} {t u : Tree} {prior : Fields}

/-! ### Rules that change places -/

theorem runRules_cons {live middle : Fields} {v : Value} (ran : (t.eval prior .current).runOn live = (.ok v, middle)) :
    (runRules prior (t :: rules)).runOn live = (runRules prior rules).runOn middle := by
  have dropped : (discard (t.eval prior .current)).runOn live = (.ok (), middle) := Eval.runOn_bind_ok ran
  exact Eval.runOn_bind_ok dropped

/-- Over all fields with the declared names, both lists of rules have the same outcome and leave the same fields. -/
def Interchangeable (declared : List String) (rules rules' : List Tree) : Prop :=
  ∀ prior live : Fields, declared ⊆ live.names →
    (runRules prior rules).runOn live = (runRules prior rules').runOn live

theorem interchangeable_swap (wellFormed : ∀ rule ∈ before ++ t :: u :: after, rule.WellFormed declared)
    (apart : t.Independent u) : Interchangeable declared (before ++ t :: u :: after) (before ++ u :: t :: after) := by
  intro prior live covers
  -- The rules before the two lead to the same fields, and those behind them start from the same.
  induction before generalizing live with
  | nil =>
    obtain ⟨v, middle, first, same⟩ := (wellFormed t (by simp)).safe prior .current live covers
    obtain ⟨w, middle', second, same'⟩ := (wellFormed u (by simp)).safe prior .current live covers
    obtain ⟨last, later, later'⟩ := (t.eval_touches prior .current).swap (u.eval_touches prior .current)
      apart.left apart.right first second
    calc (runRules prior (t :: u :: after)).runOn live
      _ = (runRules prior (u :: after)).runOn middle := runRules_cons first
      _ = (runRules prior after).runOn last := runRules_cons later
      _ = (runRules prior (t :: after)).runOn middle' := (runRules_cons later').symm
      _ = (runRules prior (u :: t :: after)).runOn live := (runRules_cons second).symm
  | cons rule before ih =>
    obtain ⟨v, middle, first, same⟩ := (wellFormed rule List.mem_cons_self).safe prior .current live covers
    calc (runRules prior (rule :: (before ++ t :: u :: after))).runOn live
      _ = (runRules prior (before ++ t :: u :: after)).runOn middle := runRules_cons first
      _ = (runRules prior (before ++ u :: t :: after)).runOn middle :=
        ih (fun other member => wellFormed other (List.mem_cons_of_mem _ member)) middle (same ▸ covers)
      _ = (runRules prior (rule :: (before ++ u :: t :: after))).runOn live := (runRules_cons first).symm

/-! ### Updates under other rules -/

def withRules (s : Store σ) (rules : List Tree) : Store σ := { s with rules }

theorem commit_withRules (consistent : s.Consistent declared) (same : Interchangeable declared s.rules rules)
    (patch : Patch) : (s.withRules rules).commit patch = ((s.commit patch).1, (s.commit patch).2.withRules rules) := by
  cases refused : s.undeclared? patch with
  | some name =>
    have refused' : (s.withRules rules).undeclared? patch = some name := refused
    rw [commit_refused refused, commit_refused refused']
  | none =>
    have accepted : (s.withRules rules).undeclared? patch = none := refused
    have known := consistent.undeclared?_eq_none.mp refused
    have merged : (s.live.insertAll patch).names = s.live.names :=
      Table.names_insertAll fun p member => consistent.covers (known p member)
    have settled : (runRules (s.withRules rules).live (s.withRules rules).rules).runOn
        ((s.withRules rules).live.insertAll patch) = (runRules s.live s.rules).runOn (s.live.insertAll patch) :=
      (same _ _ (merged ▸ consistent.covers)).symm
    rw [commit, commit, accepted, refused]
    simp only [settled]
    rcases (runRules s.live s.rules).runOn (s.live.insertAll patch) with ⟨e | ⟨⟩, live⟩
    · rfl
    · rfl

theorem commit_rules (s : Store σ) (patch : Patch) : (s.commit patch).2.rules = s.rules := by
  unfold commit
  split
  · rfl
  · split <;> rfl

theorem commit_no_handlers (none : s.handlers = []) {patch : Patch} {waiting : List (Handler σ × Nat)}
    (committed : (s.commit patch).1 = .ok waiting) : waiting = [] := by
  unfold commit at committed
  split at committed
  · cases committed
  · split at committed
    · cases committed
    · rw [none] at committed
      cases committed
      rfl

end Store

namespace App

variable {app : App σ} {rules : List Tree}

def withRules (app : App σ) (rules : List Tree) : App σ := { app with store := app.store.withRules rules }

theorem update_no_handlers (none : app.store.handlers = []) (depth : Nat) (patch : Patch) :
    app.update (depth + 1) patch = some ((app.store.commit patch).1.map fun _ => ⟨app.store.history.length, []⟩,
      { app with store := (app.store.commit patch).2 }) := by
  rw [update, updateWith]
  rcases committed : app.store.commit patch with ⟨e | waiting, store⟩
  · rfl
  · obtain rfl := Store.commit_no_handlers none (congrArg Prod.fst committed)
    rfl

/-- A consistent application without handlers, whose rules could be exchanged for the others. -/
structure Indifferent (declared : List String) (rules : List Tree) (app : App σ) : Prop where
  quiet : app.store.handlers = []
  consistent : app.store.Consistent declared
  same : Store.Interchangeable declared app.store.rules rules

theorem Indifferent.update (indifferent : app.Indifferent declared rules) (depth : Nat) (patch : Patch) :
    ∃ reply after, app.update (depth + 1) patch = some (reply, after) ∧
      (app.withRules rules).update (depth + 1) patch = some (reply, after.withRules rules) ∧
      after.Indifferent declared rules := by
  obtain ⟨quiet, consistent, same⟩ := indifferent
  have committed : (app.withRules rules).store.commit patch = _ := app.store.commit_withRules consistent same patch
  have ran' := (app.withRules rules).update_no_handlers quiet depth patch
  rw [committed] at ran'
  refine ⟨_, _, app.update_no_handlers quiet depth patch, ran', ?_⟩
  exact {
    quiet := (app.store.commit_handlers patch).trans quiet
    consistent := consistent.commit patch
    same := (app.store.commit_rules patch).symm ▸ same }

theorem Indifferent.replies (indifferent : app.Indifferent declared rules) (depth : Nat) (patches : List Patch) :
    ∃ answers after, app.replies (depth + 1) patches = some (answers, after) ∧
      (app.withRules rules).replies (depth + 1) patches = some (answers, after.withRules rules) := by
  induction patches generalizing app with
  | nil => exact ⟨[], app, rfl, rfl⟩
  | cons patch patches ih =>
    obtain ⟨reply, middle, ran, ran', kept⟩ := indifferent.update depth patch
    obtain ⟨answers, after, rest, rest'⟩ := ih kept
    refine ⟨reply :: answers, after, ?_, ?_⟩
    · exact Option.bind_eq_some_iff.mpr ⟨_, ran, Option.bind_eq_some_iff.mpr ⟨_, rest, rfl⟩⟩
    · exact Option.bind_eq_some_iff.mpr ⟨_, ran', Option.bind_eq_some_iff.mpr ⟨_, rest', rfl⟩⟩

end App

/-! ### Configurations with two rules that change places -/

namespace State

/-- Where two neighbouring rules change places, their trees do. -/
theorem build_swap {c : Config} {s : State} {before after : List String} {first second : String}
    (rules : c.rules = before ++ first :: second :: after) (built : State.build c = .ok s) :
    ∃ front t u back, s.rules = front ++ t :: u :: back ∧ s.compile first = .ok t ∧ s.compile second = .ok u ∧
      State.build { c with rules := before ++ second :: first :: after } =
        .ok { s with rules := front ++ u :: t :: back } := by
  obtain ⟨v, declared, built⟩ := bind_ok built
  obtain ⟨w, compiled, built⟩ := bind_ok built
  obtain ⟨trees, made, built⟩ := bind_ok built
  cases built
  rw [rules] at made
  obtain ⟨front, t, u, back, rfl, left, right, swapped⟩ := mapM_swap made
  refine ⟨front, t, u, back, rfl, left, right, ?_⟩
  show (c.data.names.foldlM Vocabulary.declareField {} >>= _) = _
  rw [declared]
  show (c.expressions.entries.foldlM (fun v p => v.declareExpression p.1 p.2) v >>= _) = _
  rw [compiled]
  show ((before ++ second :: first :: after).mapM w.compiled >>= _) = _
  rw [swapped]
  rfl

end State

/-- Two neighbouring rules, of which neither writes a field that the other reads or writes, can change places. The
configuration is accepted in either order, and without handlers every row of updates gets the same answers and leaves
the same fields and the same history. -/
theorem independent_rules_commute {c : Config} {s : State} {before after : List String} {first second : String}
    {t u : Tree} (rules : c.rules = before ++ first :: second :: after) (built : State.build c = .ok s)
    (left : s.compile first = .ok t) (right : s.compile second = .ok u) (apart : t.Independent u) :
    ∃ s', State.build { c with rules := before ++ second :: first :: after } = .ok s' ∧
      ∀ (σ : Type) (memory : σ) (depth : Nat) (patches : List Patch), ∃ answers final final',
        App.replies (depth + 1) patches ⟨{ toState := s }, memory⟩ = some (answers, final) ∧
        App.replies (depth + 1) patches ⟨{ toState := s' }, memory⟩ = some (answers, final') ∧
        final'.store.history = final.store.history ∧ final'.store.live = final.store.live := by
  obtain ⟨front, t', u', back, trees, left', right', swapped⟩ := State.build_swap rules built
  cases left.symm.trans left'
  cases right.symm.trans right'
  refine ⟨_, swapped, fun σ memory depth patches => ?_⟩
  have consistent := State.build_consistent built
  have same : Store.Interchangeable c.data.names s.rules (front ++ u :: t :: back) := by
    rw [trees]
    exact Store.interchangeable_swap (trees ▸ consistent.rules) apart
  have indifferent : App.Indifferent c.data.names (front ++ u :: t :: back) ⟨{ toState := s }, memory⟩ :=
    ⟨rfl, { consistent with triggers := fun _ member => nomatch member }, same⟩
  obtain ⟨answers, ended, ran, ran'⟩ := indifferent.replies depth patches
  exact ⟨answers, ended, _, ran, ran', rfl, rfl⟩

namespace Clocks

/-- One clock goes on once it was set going, the other one steps when it was at zero. -/
def config : Config where
  data := .ofList [("x", .number .zero), ("y", .number .zero)]
  rules := ["if x is not 0 then inc x", "if y was 0 then inc y"]

def first : Tree :=
  .when (.compare .differ (.field "x") (.value (.number .zero))) (.increment (.field "x") .placeholder)

def second : Tree := .when (.was .equal (.field "y") (.value (.number .zero))) (.increment (.field "y") .placeholder)

def state : State where
  live := config.data
  history := [config.data]
  vocabulary := { fields := .ofList [("x", "x"), ("y", "y")] }
  rules := [first, second]

theorem built : State.build config = .ok state := by decide +kernel

end Clocks

/-- Of three updates one is refused, and both orders count alike. -/
theorem clocks_commute :
    ∃ s', State.build { Clocks.config with rules := ["if y was 0 then inc y", "if x is not 0 then inc x"] } = .ok s' ∧
      ∃ answers final final',
        App.replies 1 [[("x", .number .one)], [("z", .null)], []] ⟨{ toState := Clocks.state }, ()⟩ =
          some (answers, final) ∧
        App.replies 1 [[("x", .number .one)], [("z", .null)], []] ⟨{ toState := s' }, ()⟩ = some (answers, final') ∧
        final'.store.history = final.store.history ∧ final'.store.live = final.store.live ∧
        answers.map Except.isOk = [true, false, true] ∧
        final.store.live = .ofList [("x", .number Number.one.succ.succ), ("y", .number Number.one)] := by
  have apart : Clocks.first.Independent Clocks.second := ⟨by decide, by decide⟩
  obtain ⟨s', swapped, commute⟩ := @independent_rules_commute Clocks.config Clocks.state [] [] _ _ _ _ rfl Clocks.built
    (by decide +kernel) (by decide +kernel) apart
  obtain ⟨answers, final, final', ran, ran', history, live⟩ :=
    commute Unit () 0 [[("x", .number .one)], [("z", .null)], []]
  have ends : (App.replies 1 [[("x", .number .one)], [("z", .null)], []] ⟨{ toState := Clocks.state }, ()⟩).map
      (fun r => (r.1.map Except.isOk, r.2.store.live)) =
        some ([true, false, true], .ofList [("x", .number Number.one.succ.succ), ("y", .number Number.one)]) := by
    decide
  rw [ran] at ends
  obtain ⟨accepted, last⟩ := Prod.mk.inj (Option.some.inj ends)
  exact ⟨s', swapped, answers, final, final', ran, ran', history, live, accepted, last⟩

end Rulebook
