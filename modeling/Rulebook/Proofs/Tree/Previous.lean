import Rulebook.Proofs.Tree.Evaluation

/-!
# The previous view

Through the previous view, a tree without effects has the value that it would have now if the fields were what they
were before. In that view nothing changes: `previous_view_is_time_travel`.
-/

namespace Rulebook

namespace Eval

variable {α β : Type} {live other : Fields}

/-- Over `live` and over `other`, the computations have the same outcome, and leave these fields as they are. -/
def Alike (live other : Fields) (e f : Eval α) : Prop :=
  ∃ r, e.runOn live = (r, live) ∧ f.runOn other = (r, other)

theorem Alike.pure (a : α) : Alike live other (Pure.pure a : Eval α) (Pure.pure a) := ⟨.ok a, rfl, rfl⟩

theorem Alike.throw (x : StoreError) :
    Alike live other (MonadExcept.throw x : Eval α) (MonadExcept.throw x) := ⟨.error x, rfl, rfl⟩

theorem Alike.bind {e e' : Eval α} {f f' : α → Eval β} (first : Alike live other e e')
    (second : ∀ a, Alike live other (f a) (f' a)) : Alike live other (e >>= f) (e' >>= f') := by
  obtain ⟨r, left, right⟩ := first
  cases r with
  | error x => exact ⟨.error x, runOn_bind_error left, runOn_bind_error right⟩
  | ok a =>
    obtain ⟨r, left', right'⟩ := second a
    exact ⟨r, (runOn_bind_ok left).trans left', (runOn_bind_ok right).trans right'⟩

/-- Over the fields before, both views show the fields before. -/
theorem Alike.read (prior live : Fields) (view : View) (name : String) :
    Alike live prior (read prior .previous name) (read prior view name) := by
  refine ⟨_, runOn_read prior .previous name live, ?_⟩
  rw [runOn_read]
  cases view <;> rfl

/-- A computation that leaves the fields alone has one answer, however often it is run. -/
theorem runOn_twice {e : Eval α} {f : α → α → Eval β} {r : Except StoreError α} {b : β} {after : Fields}
    (idle : e.runOn live = (r, live)) (ran : (e >>= fun a => e >>= f a).runOn live = (.ok b, after)) :
    ∃ a, (f a a).runOn live = (.ok b, after) := by
  obtain ⟨a, middle, first, rest⟩ := runOn_bind_inv ran
  obtain ⟨a', middle', second, last⟩ := runOn_bind_inv rest
  obtain ⟨rfl, rfl⟩ := Prod.mk.inj (idle.symm.trans first)
  obtain ⟨same, rfl⟩ := Prod.mk.inj (idle.symm.trans second)
  cases same
  exact ⟨a, last⟩

end Eval

namespace Tree

variable {s t l r : Tree} {prior live after : Fields} {v : Value}

/-- A tree without effects does not tell the previous view from any view over the fields before. -/
theorem eval_alike (passive : t.passive = true) (prior live : Fields) (view : View) :
    Eval.Alike live prior (t.eval prior .previous) (t.eval prior view) := by
  -- Questions about change look through the previous view themselves, so the view on the right varies.
  induction t generalizing view with
  | value v => exact .pure v
  | field name => exact .read prior live view name
  | placeholder => exact .throw _
  | compare c l r left right =>
    obtain ⟨first, second⟩ := Bool.and_eq_true_iff.mp passive
    exact (left first view).bind fun _ => (right second view).bind fun _ => .pure _
  | both l r left right =>
    obtain ⟨first, second⟩ := Bool.and_eq_true_iff.mp passive
    rw [eval, eval]
    by_cases effect : l.isEffect = true
    · simp only [effect, if_true]
      exact (left first view).bind fun _ => (right second view).bind fun _ => .pure _
    · simp only [effect]
      refine (left first view).bind fun a => ?_
      cases a.truthy with
      | true => exact (right second view).bind fun _ => .pure _
      | false => exact .pure _
  | was c l r left right =>
    obtain ⟨first, second⟩ := Bool.and_eq_true_iff.mp passive
    exact (left first .previous).bind fun _ => (right second view).bind fun _ => .pure _
  | becomes l r left right =>
    obtain ⟨first, second⟩ := Bool.and_eq_true_iff.mp passive
    exact (left first .previous).bind fun _ => (left first view).bind fun _ =>
      (right second view).bind fun _ => .pure _
  | ceases l r left right =>
    obtain ⟨first, second⟩ := Bool.and_eq_true_iff.mp passive
    exact (left first .previous).bind fun _ => (left first view).bind fun _ =>
      (right second view).bind fun _ => .pure _
  | changed l r left _ =>
    obtain ⟨first, _⟩ := Bool.and_eq_true_iff.mp passive
    exact (left first .previous).bind fun _ => (left first view).bind fun _ => .pure _
  | unchanged l r left _ =>
    obtain ⟨first, _⟩ := Bool.and_eq_true_iff.mp passive
    exact (left first .previous).bind fun _ => (left first view).bind fun _ => .pure _
  | assign => cases passive
  | increment => cases passive
  | «when» l r left right =>
    obtain ⟨first, second⟩ := Bool.and_eq_true_iff.mp passive
    refine (left first view).bind fun a => ?_
    cases a.truthy with
    | true => exact right second view
    | false => exact .pure _

theorem eval_previous (passive : t.passive = true) (prior live : Fields) :
    (t.eval prior .previous).runOn live = (((t.eval prior .current).runOn prior).1, live) := by
  obtain ⟨r, before, now⟩ := eval_alike passive prior live .current
  rw [before, now]

/-! ### Nothing changes in the previous view -/

theorem not_changed_previous (passive : l.passive = true)
    (ran : ((changed l r).eval prior .previous).runOn live = (.ok v, after)) : v = .bool false := by
  obtain ⟨a, same⟩ := Eval.runOn_twice (eval_previous passive prior live) ran
  cases same
  simp

theorem unchanged_previous (passive : l.passive = true)
    (ran : ((unchanged l r).eval prior .previous).runOn live = (.ok v, after)) : v = .bool true := by
  obtain ⟨a, same⟩ := Eval.runOn_twice (eval_previous passive prior live) ran
  cases same
  simp

theorem not_becomes_previous (passive : l.passive = true)
    (ran : ((becomes l r).eval prior .previous).runOn live = (.ok v, after)) : v = .bool false := by
  obtain ⟨a, same⟩ := Eval.runOn_twice (eval_previous passive prior live) ran
  obtain ⟨b, middle, _, last⟩ := Eval.runOn_bind_inv same
  cases last
  simp

theorem not_ceases_previous (passive : l.passive = true)
    (ran : ((ceases l r).eval prior .previous).runOn live = (.ok v, after)) : v = .bool false := by
  obtain ⟨a, same⟩ := Eval.runOn_twice (eval_previous passive prior live) ran
  obtain ⟨b, middle, _, last⟩ := Eval.runOn_bind_inv same
  cases last
  simp

/-! ### Trees inside a tree -/

def operands : Tree → List Tree
  | value _ | field _ | placeholder => []
  | compare _ l r | both l r | was _ l r | becomes l r | ceases l r | changed l r | unchanged l r | assign l r
  | increment l r | when l r => [l, r]

/-- The tree is a part of the other one, or that tree itself. -/
inductive Inside (s : Tree) : Tree → Prop
  | self : Inside s s
  | operand {t u : Tree} : u ∈ t.operands → Inside s u → Inside s t

theorem passive_of_mem_operands (passive : t.passive = true) (member : s ∈ t.operands) : s.passive = true := by
  cases t with
  | value | field | placeholder => cases member
  | assign | increment => cases passive
  | compare _ l r | both l r | was _ l r | becomes l r | ceases l r | changed l r | unchanged l r | «when» l r =>
    obtain ⟨first, second⟩ := Bool.and_eq_true_iff.mp passive
    rcases List.mem_pair.mp member with rfl | rfl
    · exact first
    · exact second

theorem Inside.passive (inside : s.Inside t) (passive : t.passive = true) : s.passive = true := by
  induction inside with
  | self => exact passive
  | operand member _ ih => exact ih (passive_of_mem_operands passive member)

/-- Through the previous view, a tree without effects is what it would be now over the fields before, whatever the
live fields are, and these stay as they are. No part of it finds a change there. -/
theorem previous_view_is_time_travel (passive : t.passive = true) (prior live : Fields) :
    (t.eval prior .previous).runOn live = (((t.eval prior .current).runOn prior).1, live) ∧
      (∀ other, ((t.eval prior .previous).runOn other).1 = ((t.eval prior .previous).runOn live).1) ∧
      ∀ s, Inside s t → ∀ v, ((s.eval prior .previous).runOn live).1 = .ok v →
        (s.keyword? = some .hasChanged ∨ s.keyword? = some .isNow ∨ s.keyword? = some .isNotNow →
          v = .bool false) ∧
        (s.keyword? = some .hasNotChanged → v = .bool true) := by
  refine ⟨eval_previous passive prior live, fun other => ?_, fun s inside v value => ?_⟩
  · rw [eval_previous passive prior other, eval_previous passive prior live]
  · have ran : (s.eval prior .previous).runOn live = (.ok v, ((s.eval prior .previous).runOn live).2) := by
      rw [← value]
    have pure := inside.passive passive
    cases s with
    | changed l r =>
      have left := passive_of_mem_operands pure (List.mem_pair.mpr (.inl rfl))
      exact ⟨fun _ => not_changed_previous left ran, fun other => nomatch other⟩
    | becomes l r =>
      have left := passive_of_mem_operands pure (List.mem_pair.mpr (.inl rfl))
      exact ⟨fun _ => not_becomes_previous left ran, fun other => nomatch other⟩
    | ceases l r =>
      have left := passive_of_mem_operands pure (List.mem_pair.mpr (.inl rfl))
      exact ⟨fun _ => not_ceases_previous left ran, fun other => nomatch other⟩
    | unchanged l r =>
      have left := passive_of_mem_operands pure (List.mem_pair.mpr (.inl rfl))
      exact ⟨fun other => by simp [keyword?] at other, fun _ => unchanged_previous left ran⟩
    | compare c l r => cases c <;> simp [keyword?]
    | was c l r => cases c <;> simp [keyword?]
    | _ => simp [keyword?]

/-- That a field has changed is news now, and was none before. -/
theorem news_of_change_travels :
    let prior : Fields := .ofList [("x", .number .zero)]
    let live : Fields := .ofList [("x", .number .one)]
    let t : Tree := .becomes (.changed (.field "x") .placeholder) (.value (.bool true))
    t.passive = true ∧ ((t.eval prior .current).runOn live).1 = .ok (.bool true) ∧
      (t.eval prior .previous).runOn live = (((t.eval prior .current).runOn prior).1, live) ∧
      ((t.eval prior .previous).runOn live).1 = .ok (.bool false) ∧
      ∀ (s : Tree) (v : Value), s.Inside t → ((s.eval prior .previous).runOn live).1 = .ok v →
        s.keyword? = some .hasChanged → v = .bool false := by
  intro prior live t
  obtain ⟨travels, _, still⟩ := previous_view_is_time_travel (show t.passive = true from rfl) prior live
  refine ⟨rfl, by decide, travels, by decide, fun s v inside value changed => ?_⟩
  exact (still s inside v value).1 (.inl changed)

end Tree

end Rulebook
