import Rulebook.Proofs.Tree.Previous

/-!
# What a tree touches

Evaluation writes no field but the targets of the effects in the tree, `evaluation_keeps_the_rest`, and depends on no
field but those on its leaves. So two trees, of which neither writes a field of the other, can be evaluated in either
order: `Eval.Touches.swap`.
-/

namespace Rulebook

/-- Both tables hold the same values under the names. -/
def Table.AgreeOn {α : Type} (names : List String) (t u : Table α) : Prop :=
  ∀ name ∈ names, t.get? name = u.get? name

namespace Eval

variable {α β : Type} {reads writes : List String}

/-! ### Computations that depend on few fields -/

/-- Over fields that agree on the names, the computation has one outcome, and leaves fields that agree on them. -/
def Local (reads : List String) (e : Eval α) : Prop :=
  ∀ live other, Table.AgreeOn reads live other →
    (e.runOn live).1 = (e.runOn other).1 ∧ Table.AgreeOn reads (e.runOn live).2 (e.runOn other).2

theorem Local.pure (a : α) : Local reads (Pure.pure a : Eval α) := fun _ _ agree => ⟨rfl, agree⟩

theorem Local.throw (x : StoreError) : Local reads (MonadExcept.throw x : Eval α) := fun _ _ agree => ⟨rfl, agree⟩

theorem Local.bind {e : Eval α} {f : α → Eval β} (first : Local reads e) (second : ∀ a, Local reads (f a)) :
    Local reads (e >>= f) := by
  intro live other agree
  obtain ⟨same, later⟩ := first live other agree
  rcases ran : e.runOn live with ⟨x | a, middle⟩
  · rcases ran' : e.runOn other with ⟨y | b, middle'⟩
    · rw [ran, ran'] at same later
      rw [runOn_bind_error ran, runOn_bind_error ran']
      exact ⟨by cases same; rfl, later⟩
    · rw [ran, ran'] at same
      cases same
  · rcases ran' : e.runOn other with ⟨y | b, middle'⟩
    · rw [ran, ran'] at same
      cases same
    · rw [ran, ran'] at same later
      cases same
      rw [runOn_bind_ok ran, runOn_bind_ok ran']
      exact second a middle middle' later

theorem Local.closed (reads : List String) : Closed (Local reads) := ⟨.pure, .throw, .bind⟩

theorem Local.read {name : String} (prior : Fields) (view : View) (member : name ∈ reads) :
    Local reads (read prior view name) := by
  intro live other agree
  rw [runOn_read, runOn_read]
  cases view with
  | current => exact ⟨by rw [View.shown, View.shown, agree name member], agree⟩
  | previous => exact ⟨rfl, agree⟩

theorem Local.write {name : String} (v : Value) (member : name ∈ reads) : Local reads (write name v) := by
  intro live other agree
  have present : name ∈ live.names ↔ name ∈ other.names := by
    rw [← Table.contains_iff, ← Table.contains_iff, Table.contains, Table.contains, agree name member]
  by_cases here : name ∈ live.names
  · rw [runOn_write v here, runOn_write v (present.mp here)]
    refine ⟨rfl, fun key among => ?_⟩
    rw [Table.get?_insert, Table.get?_insert, agree key among]
  · rw [runOn_write_error v here, runOn_write_error v (mt present.mpr here)]
    exact ⟨rfl, agree⟩

/-! ### Computations in either order -/

/-- The computation depends on no fields but `reads`, and writes no fields but `writes`, which are among them. -/
structure Touches (reads writes : List String) (e : Eval α) : Prop where
  depends : Local reads e
  frames : Frames writes e
  within : writes ⊆ reads

/-- Two computations, of which neither writes what the other depends on, lead to the same fields in either order. -/
theorem Touches.swap {reads' writes' : List String} {e : Eval α} {f : Eval β} (first : Touches reads writes e)
    (second : Touches reads' writes' f) (apart : ∀ name ∈ writes, name ∉ reads')
    (apart' : ∀ name ∈ writes', name ∉ reads) {live middle middle' : Fields} {a : α} {b : β}
    (ran : e.runOn live = (.ok a, middle)) (ran' : f.runOn live = (.ok b, middle')) :
    ∃ after, f.runOn middle = (.ok b, after) ∧ e.runOn middle' = (.ok a, after) := by
  have frame := first.frames live
  have frame' := second.frames live
  rw [ran] at frame
  rw [ran'] at frame'
  -- Each of the two finds what it depends on as it was.
  have unseen : Table.AgreeOn reads' middle live := fun name member => frame.2 name fun among => apart name among member
  have unseen' : Table.AgreeOn reads middle' live := fun name member =>
    frame'.2 name fun among => apart' name among member
  obtain ⟨outcome, agree⟩ := second.depends middle live unseen
  obtain ⟨outcome', agree'⟩ := first.depends middle' live unseen'
  have later := second.frames middle
  have later' := first.frames middle'
  rw [ran'] at outcome agree
  rw [ran] at outcome' agree'
  refine ⟨(f.runOn middle).2, Prod.ext outcome rfl, Prod.ext outcome' (Table.ext_get? ?_ fun name => ?_)⟩
  · rw [later.1, later'.1, frame.1, frame'.1]
  · by_cases wrote : name ∈ writes
    · rw [agree' name (first.within wrote), later.2 name fun among => apart' name among (first.within wrote)]
    · rw [later'.2 name wrote]
      by_cases wrote' : name ∈ writes'
      · rw [agree name (second.within wrote')]
      · rw [frame'.2 name wrote', later.2 name wrote', frame.2 name wrote]

end Eval

namespace Tree

variable {s t u : Tree} {name : String}

/-! ### The effects in a tree -/

/-- Some effect in the tree has the field on its left. -/
def Assigns (name : String) (t : Tree) : Prop :=
  ∃ r, (assign (field name) r).Inside t ∨ (increment (field name) r).Inside t

theorem Assigns.operand (member : u ∈ t.operands) (assigns : u.Assigns name) : t.Assigns name := by
  obtain ⟨r, inside⟩ := assigns
  exact ⟨r, inside.imp (.operand member) (.operand member)⟩

theorem assigns_of_operands {l r : Tree} (operands : t.operands = [l, r]) (left : name ∈ l.written → l.Assigns name)
    (right : name ∈ r.written → r.Assigns name) (member : name ∈ l.written ++ r.written) : t.Assigns name := by
  rcases List.mem_append.mp member with first | second
  · exact (left first).operand (operands ▸ List.mem_pair.mpr (.inl rfl))
  · exact (right second).operand (operands ▸ List.mem_pair.mpr (.inr rfl))

theorem assigns_of_mem_written (member : name ∈ t.written) : t.Assigns name := by
  induction t with
  | value | field | placeholder => cases member
  | assign l r left right =>
    cases l with
    | field other =>
      rcases List.mem_cons.mp member with rfl | second
      · exact ⟨r, .inl .self⟩
      · exact (right second).operand (List.mem_pair.mpr (.inr rfl))
    | _ => exact assigns_of_operands rfl left right member
  | increment l r left right =>
    cases l with
    | field other =>
      rcases List.mem_cons.mp member with rfl | second
      · exact ⟨r, .inr .self⟩
      · exact (right second).operand (List.mem_pair.mpr (.inr rfl))
    | _ => exact assigns_of_operands rfl left right member
  | compare _ l r left right | both l r left right | was _ l r left right | becomes l r left right
  | ceases l r left right | changed l r left right | unchanged l r left right | «when» l r left right =>
    exact assigns_of_operands rfl left right member

theorem written_subset_of_mem_operands (member : u ∈ t.operands) : u.written ⊆ t.written := by
  cases t with
  | value | field | placeholder => cases member
  | assign l r | increment l r =>
    cases l with
    | field name =>
      rcases List.mem_pair.mp member with rfl | rfl
      · exact List.nil_subset _
      · exact List.subset_cons_self ..
    | _ =>
      rcases List.mem_pair.mp member with rfl | rfl
      · exact List.subset_append_left ..
      · exact List.subset_append_right ..
  | compare _ l r | both l r | was _ l r | becomes l r | ceases l r | changed l r | unchanged l r | «when» l r =>
    rcases List.mem_pair.mp member with rfl | rfl
    · exact List.subset_append_left ..
    · exact List.subset_append_right ..

theorem Inside.written_subset (inside : s.Inside t) : s.written ⊆ t.written := by
  induction inside with
  | self => exact List.Subset.refl _
  | operand member _ ih => exact List.Subset.trans ih (written_subset_of_mem_operands member)

theorem mem_written_iff : name ∈ t.written ↔ t.Assigns name := by
  refine ⟨assigns_of_mem_written, ?_⟩
  rintro ⟨r, inside | inside⟩
  · exact inside.written_subset List.mem_cons_self
  · exact inside.written_subset List.mem_cons_self

instance (name : String) (t : Tree) : Decidable (t.Assigns name) := decidable_of_iff _ mem_written_iff

/-- Whatever evaluation comes to, it leaves the names of the live fields and their order alone, and the value of every
field that no effect in the tree has on its left. -/
theorem evaluation_keeps_the_rest {prior live after : Fields} {view : View} {outcome : Except StoreError Value}
    (ran : (t.eval prior view).runOn live = (outcome, after)) :
    after.names = live.names ∧ ∀ name, ¬ t.Assigns name → after.get? name = live.get? name := by
  obtain ⟨names, values⟩ := t.eval_frames prior view live
  rw [ran] at names values
  exact ⟨names, fun name free => values name (mt mem_written_iff.mp free)⟩

/-- The first effect has stepped `x` up from what it was before when the second one fails. -/
theorem failed_chain_keeps_y :
    let prior : Fields := .ofList [("x", .number .one), ("y", .null)]
    let live : Fields := .ofList [("y", .bool true), ("x", .null)]
    let t : Tree := .both (.increment (.field "x") .placeholder)
      (.assign (.field "z") (.changed (.field "y") .placeholder))
    ∃ after, (t.eval prior .previous).runOn live = (.error (.unknownField "z"), after) ∧
      after.get? "x" = some (.number Number.one.succ) ∧ after.names = ["y", "x"] ∧
        after.get? "y" = some (.bool true) := by
  intro prior live t
  have ran : (t.eval prior .previous).runOn live =
      (.error (.unknownField "z"), .ofList [("y", .bool true), ("x", .number Number.one.succ)]) := by
    decide
  obtain ⟨names, values⟩ := evaluation_keeps_the_rest ran
  exact ⟨_, ran, by decide, names, values "y" (by decide)⟩

/-! ### Trees in either order -/

theorem written_subset_fields (t : Tree) : t.written ⊆ t.fields := by
  have both {l r : Tree} (left : l.written ⊆ l.fields) (right : r.written ⊆ r.fields) :
      l.written ++ r.written ⊆ l.fields ++ r.fields := by
    apply List.append_subset.mpr
    exact ⟨List.subset_append_of_subset_left _ left, List.subset_append_of_subset_right _ right⟩
  induction t with
  | value | field | placeholder => exact List.nil_subset _
  | assign l r left right | increment l r left right =>
    cases l with
    | field name => exact List.cons_subset_cons name right
    | _ => exact both left right
  | compare _ l r left right | both l r left right | was _ l r left right | becomes l r left right
  | ceases l r left right | changed l r left right | unchanged l r left right | «when» l r left right =>
    exact both left right

/-- Of the fields, a tree depends on those on its leaves, and writes those on the left of its effects. -/
theorem eval_touches (t : Tree) (prior : Fields) (view : View) : (t.eval prior view).Touches t.fields t.written where
  depends := by
    have allows : Eval.Allows (Eval.Local t.fields) prior t.fields t.written := {
      read := fun view name member => .read prior view member
      write := fun v name member => .write v (t.written_subset_fields member) }
    exact eval_closed (Eval.Local.closed _) allows view
  frames := t.eval_frames prior view
  within := t.written_subset_fields

/-- Neither tree writes a field that is on a leaf of the other. -/
structure Independent (t u : Tree) : Prop where
  left : ∀ name ∈ t.written, name ∉ u.fields
  right : ∀ name ∈ u.written, name ∉ t.fields

end Tree

end Rulebook
