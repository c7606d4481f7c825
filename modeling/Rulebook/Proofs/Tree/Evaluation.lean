import Rulebook.Proofs.Table
import Rulebook.Proofs.Tree.Basic
import Rulebook.Tree.Eval

/-!
# Evaluation of well-formed trees

A well-formed tree always has a value. Any tree leaves the names of the live fields alone, and the values
of all fields but those that it writes.
-/

namespace Rulebook

namespace Eval

variable {α β : Type} {declared : List String}

/-! ### Running -/

theorem runOn_bind_ok {e : Eval α} {f : α → Eval β} {live after : Fields} {a : α}
    (first : e.runOn live = (.ok a, after)) : (e >>= f).runOn live = (f a).runOn after := by
  simp only [runOn, ExceptT.run_bind, StateT.run_bind] at first ⊢
  rw [first]
  rfl

theorem runOn_bind_error {e : Eval α} {f : α → Eval β} {live after : Fields} {x : StoreError}
    (first : e.runOn live = (.error x, after)) : (e >>= f).runOn live = (.error x, after) := by
  simp only [runOn, ExceptT.run_bind, StateT.run_bind] at first ⊢
  rw [first]
  rfl

theorem runOn_bind_inv {e : Eval α} {f : α → Eval β} {live after : Fields} {b : β}
    (ran : (e >>= f).runOn live = (.ok b, after)) :
    ∃ a middle, e.runOn live = (.ok a, middle) ∧ (f a).runOn middle = (.ok b, after) := by
  rcases first : e.runOn live with ⟨x | a, middle⟩
  · cases (runOn_bind_error first).symm.trans ran
  · exact ⟨a, middle, rfl, (runOn_bind_ok first).symm.trans ran⟩

theorem runOn_read (prior : Fields) (view : View) (name : String) (live : Fields) :
    (read prior view name).runOn live = (.ok (((view.shown live prior).get? name).getD .null), live) := rfl

theorem runOn_write {name : String} {live : Fields} (v : Value) (present : name ∈ live.names) :
    (write name v).runOn live = (.ok (), live.insert name v) := by
  have got : (get : Eval Fields).runOn live = (.ok live, live) := rfl
  rw [write, runOn_bind_ok got, Table.replace?_of_mem v present]
  rfl

theorem runOn_write_error {name : String} {live : Fields} (v : Value) (missing : name ∉ live.names) :
    (write name v).runOn live = (.error (.unknownField name), live) := by
  have got : (get : Eval Fields).runOn live = (.ok live, live) := rfl
  rw [write, runOn_bind_ok got, Table.replace?_eq_none.mpr missing]
  rfl

/-! ### Computations that succeed -/

/-- Over all live fields with the declared names, the computation has a result, and keeps the names. -/
def Safe (declared : List String) (e : Eval α) : Prop :=
  ∀ live : Fields, declared ⊆ live.names →
    ∃ a after, e.runOn live = (.ok a, after) ∧ after.names = live.names

theorem Safe.pure (a : α) : Safe declared (Pure.pure a : Eval α) := fun live _ => ⟨a, live, rfl, rfl⟩

theorem Safe.bind {e : Eval α} {f : α → Eval β} (first : Safe declared e)
    (second : ∀ a, Safe declared (f a)) : Safe declared (e >>= f) := by
  intro live covers
  obtain ⟨a, middle, run, same⟩ := first live covers
  obtain ⟨b, after, rest, later⟩ := second a middle (same ▸ covers)
  exact ⟨b, after, (runOn_bind_ok run).trans rest, later.trans same⟩

theorem Safe.read (prior : Fields) (view : View) (name : String) : Safe declared (read prior view name) :=
  fun live _ => ⟨_, live, runOn_read prior view name live, rfl⟩

theorem Safe.write {name : String} (v : Value) (member : name ∈ declared) : Safe declared (write name v) :=
  fun _ covers => ⟨(), _, runOn_write v (covers member), Table.names_insert_of_mem v (covers member)⟩

/-! ### Properties that steps keep -/

/-- Steps in turn keep the property, and so does breaking off. -/
structure Closed (P : {α : Type} → Eval α → Prop) : Prop where
  pure {α : Type} (a : α) : P (Pure.pure a : Eval α)
  throw {α : Type} (x : StoreError) : P (MonadExcept.throw x : Eval α)
  bind {α β : Type} {e : Eval α} {f : α → Eval β} : P e → (∀ a, P (f a)) → P (e >>= f)

/-- The reads of some fields and the writes of some fields have the property. -/
structure Allows (P : {α : Type} → Eval α → Prop) (prior : Fields) (reads writes : List String) : Prop where
  read : ∀ view, ∀ name ∈ reads, P (Eval.read prior view name)
  write : ∀ v, ∀ name ∈ writes, P (Eval.write name v)

section

variable {P : {α : Type} → Eval α → Prop} {prior : Fields} {reads reads' writes writes' : List String}

theorem Allows.left (allows : Allows P prior (reads ++ reads') (writes ++ writes')) :
    Allows P prior reads writes where
  read view name member := allows.read view name (List.mem_append_left _ member)
  write v name member := allows.write v name (List.mem_append_left _ member)

theorem Allows.right (allows : Allows P prior (reads ++ reads') (writes ++ writes')) :
    Allows P prior reads' writes' where
  read view name member := allows.read view name (List.mem_append_right _ member)
  write v name member := allows.write v name (List.mem_append_right _ member)

end

/-! ### Computations that write few fields -/

/-- Whatever its outcome, the computation leaves the names of the live fields alone, and the values of all
but the written ones. -/
def Frames (written : List String) (e : Eval α) : Prop :=
  ∀ live, (e.runOn live).2.names = live.names ∧
    ∀ name ∉ written, (e.runOn live).2.get? name = live.get? name

variable {written : List String}

theorem Frames.pure (a : α) : Frames written (Pure.pure a : Eval α) := fun _ => ⟨rfl, fun _ _ => rfl⟩

theorem Frames.throw (x : StoreError) : Frames written (MonadExcept.throw x : Eval α) :=
  fun _ => ⟨rfl, fun _ _ => rfl⟩

theorem Frames.bind {e : Eval α} {f : α → Eval β} (first : Frames written e)
    (second : ∀ a, Frames written (f a)) : Frames written (e >>= f) := by
  intro live
  have start := first live
  rcases run : e.runOn live with ⟨x | a, middle⟩
  · rw [run] at start
    rw [runOn_bind_error run]
    exact start
  · rw [run] at start
    rw [runOn_bind_ok run]
    obtain ⟨names, values⟩ := second a middle
    exact ⟨names.trans start.1, fun name other => (values name other).trans (start.2 name other)⟩

theorem Frames.read (prior : Fields) (view : View) (name : String) : Frames written (read prior view name) :=
  fun _ => ⟨rfl, fun _ _ => rfl⟩

theorem Frames.write {name : String} (v : Value) (member : name ∈ written) :
    Frames written (write name v) := by
  intro live
  by_cases present : name ∈ live.names
  · rw [runOn_write v present]
    refine ⟨Table.names_insert_of_mem v present, fun other fresh => ?_⟩
    have different : name ≠ other := fun same => fresh (same ▸ member)
    exact (live.get?_insert name other v).trans (if_neg different)
  · rw [runOn_write_error v present]
    exact ⟨rfl, fun _ _ => rfl⟩

theorem Frames.closed (written : List String) : Closed (Frames written) := ⟨.pure, .throw, .bind⟩

theorem Frames.mono {more : List String} {e : Eval α} (frames : Frames written e) (sub : written ⊆ more) :
    Frames more e :=
  fun live => ⟨(frames live).1, fun name other => (frames live).2 name fun member => other (sub member)⟩

theorem Frames.left {e : Eval α} (frames : Frames written e) (more : List String) :
    Frames (written ++ more) e := frames.mono (List.subset_append_left ..)

theorem Frames.right {e : Eval α} (frames : Frames written e) (more : List String) :
    Frames (more ++ written) e := frames.mono (List.subset_append_right ..)

/-- A computation that writes no field leaves the live fields as they are. -/
theorem Frames.idle {e : Eval α} (frames : Frames [] e) (live : Fields) : (e.runOn live).2 = live :=
  Table.ext_get? (frames live).1 fun name => (frames live).2 name List.not_mem_nil

end Eval

namespace Tree

variable {declared : List String}

/-- A well-formed tree has a value over any fields with the declared names. -/
theorem WellFormed.safe {t : Tree} (wellFormed : t.WellFormed declared) (prior : Fields) (view : View) :
    (t.eval prior view).Safe declared := by
  induction t generalizing view with
  | value v => exact .pure v
  | field name => exact .read prior view name
  | placeholder => exact wellFormed.elim
  | compare c l r left right =>
    exact (left wellFormed.1 view).bind fun _ => (right wellFormed.2 view).bind fun _ => .pure _
  | both l r left right =>
    unfold eval
    split
    · exact (left wellFormed.1 view).bind fun _ => (right wellFormed.2 view).bind fun _ => .pure _
    · refine (left wellFormed.1 view).bind fun a => ?_
      split
      · exact (right wellFormed.2 view).bind fun _ => .pure _
      · exact .pure _
  | was c l r left right =>
    exact (left wellFormed.1 .previous).bind fun _ => (right wellFormed.2 view).bind fun _ => .pure _
  | becomes l r left right =>
    exact (left wellFormed.1 .previous).bind fun _ => (left wellFormed.1 view).bind fun _ =>
      (right wellFormed.2 view).bind fun _ => .pure _
  | ceases l r left right =>
    exact (left wellFormed.1 .previous).bind fun _ => (left wellFormed.1 view).bind fun _ =>
      (right wellFormed.2 view).bind fun _ => .pure _
  | changed l r left _ =>
    exact (left wellFormed.1 .previous).bind fun _ => (left wellFormed.1 view).bind fun _ => .pure _
  | unchanged l r left _ =>
    exact (left wellFormed.1 .previous).bind fun _ => (left wellFormed.1 view).bind fun _ => .pure _
  | assign l r _ right =>
    obtain ⟨⟨name, member, rfl⟩, wellFormed⟩ := wellFormed
    change Eval.Safe declared (r.eval prior view >>= fun v => Eval.write name v >>= fun _ => pure v)
    exact (right wellFormed view).bind fun v => (Eval.Safe.write v member).bind fun _ => .pure v
  | increment l r _ _ =>
    obtain ⟨⟨name, member, rfl⟩, _⟩ := wellFormed
    change Eval.Safe declared (Eval.read prior view name >>= fun v =>
      Eval.write name v.incremented >>= fun _ => pure v.incremented)
    exact (Eval.Safe.read prior view name).bind fun v =>
      (Eval.Safe.write v.incremented member).bind fun _ => .pure v.incremented
  | when l r left right =>
    refine (left wellFormed.1 view).bind fun a => ?_
    split
    · exact right wellFormed.2 view
    · exact .pure _

/-- The fields on the left of the effects in the tree. -/
def written : Tree → List String
  | value _ | field _ | placeholder => []
  | compare _ l r | both l r | was _ l r | becomes l r | ceases l r | changed l r | unchanged l r | when l r =>
    l.written ++ r.written
  | assign (field name) r | increment (field name) r => name :: r.written
  | assign l r | increment l r => l.written ++ r.written

/-- Evaluation has every property that steps keep and that the reads of the leaves and the writes of the effects
have. -/
theorem eval_closed {P : {α : Type} → Eval α → Prop} (closed : Eval.Closed P) {prior : Fields} {t : Tree}
    (allows : Eval.Allows P prior t.fields t.written) (view : View) : P (t.eval prior view) := by
  -- Questions about change evaluate their left operand in both views.
  induction t generalizing view with
  | value v => exact closed.pure v
  | field name => exact allows.read view name List.mem_cons_self
  | placeholder => exact closed.throw _
  | compare c l r left right =>
    exact closed.bind (left allows.left view) fun _ => closed.bind (right allows.right view) fun _ => closed.pure _
  | both l r left right =>
    unfold eval
    split
    · exact closed.bind (left allows.left view) fun _ => closed.bind (right allows.right view) fun _ => closed.pure _
    · refine closed.bind (left allows.left view) fun a => ?_
      split
      · exact closed.bind (right allows.right view) fun _ => closed.pure _
      · exact closed.pure _
  | was c l r left right =>
    exact closed.bind (left allows.left .previous) fun _ => closed.bind (right allows.right view) fun _ => closed.pure _
  | becomes l r left right =>
    exact closed.bind (left allows.left .previous) fun _ => closed.bind (left allows.left view) fun _ =>
      closed.bind (right allows.right view) fun _ => closed.pure _
  | ceases l r left right =>
    exact closed.bind (left allows.left .previous) fun _ => closed.bind (left allows.left view) fun _ =>
      closed.bind (right allows.right view) fun _ => closed.pure _
  | changed l r left _ =>
    exact closed.bind (left allows.left .previous) fun _ => closed.bind (left allows.left view) fun _ => closed.pure _
  | unchanged l r left _ =>
    exact closed.bind (left allows.left .previous) fun _ => closed.bind (left allows.left view) fun _ => closed.pure _
  | assign l r _ right =>
    cases l with
    | field name =>
      have both : Eval.Allows P prior ([name] ++ r.fields) ([name] ++ r.written) := allows
      change P (r.eval prior view >>= fun v => Eval.write name v >>= fun _ => pure v)
      refine closed.bind (right both.right view) fun v => ?_
      exact closed.bind (allows.write v name List.mem_cons_self) fun _ => closed.pure v
    | _ => exact closed.throw _
  | increment l r _ _ =>
    cases l with
    | field name =>
      change P (Eval.read prior view name >>= fun v => Eval.write name v.incremented >>= fun _ => pure v.incremented)
      refine closed.bind (allows.read view name List.mem_cons_self) fun v => ?_
      exact closed.bind (allows.write v.incremented name List.mem_cons_self) fun _ => closed.pure _
    | _ => exact closed.throw _
  | when l r left right =>
    refine closed.bind (left allows.left view) fun a => ?_
    split
    · exact right allows.right view
    · exact closed.pure _

/-- Evaluation leaves all but the written fields as they are. -/
theorem eval_frames (t : Tree) (prior : Fields) (view : View) : (t.eval prior view).Frames t.written :=
  eval_closed (Eval.Frames.closed _)
    ⟨fun view name _ => .read prior view name, fun v _ member => .write v member⟩ view

/-- Whether the tree has no effect anywhere in it. -/
def passive : Tree → Bool
  | value _ | field _ | placeholder => true
  | compare _ l r | both l r | was _ l r | becomes l r | ceases l r | changed l r | unchanged l r | when l r =>
    l.passive && r.passive
  | assign _ _ | increment _ _ => false

theorem written_of_passive {t : Tree} (passive : t.passive = true) : t.written = [] := by
  induction t with
  | value | field | placeholder => rfl
  | assign | increment => cases passive
  | compare _ l r left right | both l r left right | was _ l r left right | becomes l r left right
  | ceases l r left right | changed l r left right | unchanged l r left right | when l r left right =>
    obtain ⟨first, second⟩ := Bool.and_eq_true_iff.mp passive
    rw [written, left first, right second]
    rfl

/-- A tree without effects leaves the live fields as they are. -/
theorem eq_of_passive {t : Tree} {prior live after : Fields} {view : View} {outcome : Except StoreError Value}
    (passive : t.passive = true) (ran : (t.eval prior view).runOn live = (outcome, after)) : after = live := by
  have frames := t.eval_frames prior view
  rw [written_of_passive passive] at frames
  have idle := frames.idle live
  rwa [ran] at idle

end Tree

end Rulebook
