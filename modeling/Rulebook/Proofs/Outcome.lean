import Mathlib.Data.List.Basic

/-!
# Outcomes

What is known of the steps of a computation that was not refused.
-/

namespace Rulebook

variable {ε δ α β γ σ : Type}

theorem bind_ok {x : Except ε α} {f : α → Except ε β} {b : β} (h : x >>= f = .ok b) :
    ∃ a, x = .ok a ∧ f a = .ok b := by
  cases x with
  | error e => cases h
  | ok a => exact ⟨a, rfl, h⟩

theorem map_ok {x : Except ε α} {f : α → β} {b : β} : x.map f = .ok b ↔ ∃ a, x = .ok a ∧ f a = b := by
  cases x <;> simp [Except.map]

theorem mapError_ok {x : Except ε α} {f : ε → δ} {a : α} : x.mapError f = .ok a ↔ x = .ok a := by
  cases x <;> simp [Except.mapError]

theorem mapError_error {x : Except ε α} {f : ε → δ} {e : δ} :
    x.mapError f = .error e ↔ ∃ cause, x = .error cause ∧ f cause = e := by
  cases x <;> simp [Except.mapError]

theorem bind_error {x : Except ε α} {f : α → Except ε β} {e : ε} (h : x >>= f = .error e) :
    x = .error e ∨ ∃ a, x = .ok a ∧ f a = .error e := by
  cases x with
  | error cause =>
    cases h
    exact .inl rfl
  | ok a => exact .inr ⟨a, rfl, h⟩

theorem mapM_error {f : α → Except ε β} {l : List α} {e : ε} (h : l.mapM f = .error e) :
    ∃ a ∈ l, f a = .error e := by
  induction l with
  | nil => cases h
  | cons a l ih =>
    rw [List.mapM_cons] at h
    rcases bind_error h with refused | ⟨_, _, h⟩
    · exact ⟨a, List.mem_cons_self, refused⟩
    · rcases bind_error h with later | ⟨_, _, made⟩
      · obtain ⟨b, member, refused⟩ := ih later
        exact ⟨b, List.mem_cons_of_mem _ member, refused⟩
      · cases made

theorem mapM_cons_ok {f : α → Except ε β} {a : α} {l : List α} {bs : List β} (h : (a :: l).mapM f = .ok bs) :
    ∃ b rest, bs = b :: rest ∧ f a = .ok b ∧ l.mapM f = .ok rest := by
  rw [List.mapM_cons] at h
  obtain ⟨b, first, h⟩ := bind_ok h
  obtain ⟨rest, later, h⟩ := bind_ok h
  cases h
  exact ⟨b, rest, rfl, first, later⟩

theorem mapM_ok {f : α → Except ε β} {l : List α} {bs : List β} (h : l.mapM f = .ok bs) :
    ∀ b ∈ bs, ∃ a ∈ l, f a = .ok b := by
  induction l generalizing bs with
  | nil =>
    cases h
    exact fun _ member => nomatch member
  | cons a l ih =>
    obtain ⟨first, rest, rfl, ran, later⟩ := mapM_cons_ok h
    intro b member
    rcases List.mem_cons.mp member with rfl | member
    · exact ⟨a, List.mem_cons_self, ran⟩
    · obtain ⟨c, present, made⟩ := ih later b member
      exact ⟨c, List.mem_cons_of_mem _ present, made⟩

theorem mapM_append_ok {f : α → Except ε β} {before after : List α} {bs : List β}
    (h : (before ++ after).mapM f = .ok bs) :
    ∃ front back, bs = front ++ back ∧ before.mapM f = .ok front ∧ after.mapM f = .ok back := by
  rw [List.mapM_append] at h
  obtain ⟨front, first, h⟩ := bind_ok h
  obtain ⟨back, second, h⟩ := bind_ok h
  cases h
  exact ⟨front, back, rfl, first, second⟩

/-- Two neighbours that change places have their results change places. -/
theorem mapM_swap {f : α → Except ε β} {before after : List α} {a b : α} {results : List β}
    (h : (before ++ a :: b :: after).mapM f = .ok results) :
    ∃ front x y back, results = front ++ x :: y :: back ∧ f a = .ok x ∧ f b = .ok y ∧
      (before ++ b :: a :: after).mapM f = .ok (front ++ y :: x :: back) := by
  obtain ⟨front, _, rfl, made, h⟩ := mapM_append_ok h
  obtain ⟨x, _, rfl, first, h⟩ := mapM_cons_ok h
  obtain ⟨y, back, rfl, second, later⟩ := mapM_cons_ok h
  refine ⟨front, x, y, back, rfl, first, second, ?_⟩
  rw [List.mapM_append, List.mapM_cons, List.mapM_cons, made, first, second, later]
  rfl

/-- What every step of a fold keeps, the fold keeps. -/
theorem foldlM_keeps {P : β → Prop} {f : β → α → Except ε β} (step : ∀ a b c, P b → f b a = .ok c → P c)
    {l : List α} {b c : β} (start : P b) (h : l.foldlM f b = .ok c) : P c := by
  induction l generalizing b with
  | nil =>
    cases h
    exact start
  | cons a l ih =>
    rw [List.foldlM_cons] at h
    obtain ⟨middle, ran, h⟩ := bind_ok h
    exact ih (step a b middle start ran) h

/-- What two folds over the same elements keep of each other at every step, they keep. -/
theorem foldlM_related {R : β → γ → Prop} {f : β → α → Except ε β} {g : γ → α → Except ε γ} {l : List α}
    (step : ∀ a ∈ l, ∀ b c b' c', R b c → f b a = .ok b' → g c a = .ok c' → R b' c') {b b' : β} {c c' : γ}
    (start : R b c) (left : l.foldlM f b = .ok b') (right : l.foldlM g c = .ok c') : R b' c' := by
  induction l generalizing b c with
  | nil =>
    cases left
    cases right
    exact start
  | cons a l ih =>
    rw [List.foldlM_cons] at left right
    obtain ⟨middle, ran, left⟩ := bind_ok left
    obtain ⟨middle', ran', right⟩ := bind_ok right
    have next := step a List.mem_cons_self b c middle middle' start ran ran'
    exact ih (fun other member => step other (List.mem_cons_of_mem _ member)) next left right

theorem foldlM_append_ok {f : β → α → Except ε β} {before after : List α} {b c : β}
    (h : (before ++ after).foldlM f b = .ok c) : ∃ a, before.foldlM f b = .ok a ∧ after.foldlM f a = .ok c := by
  rw [List.foldlM_append] at h
  exact bind_ok h

/-- A fold that is refused is refused at one of the elements, after those before it. -/
theorem foldlM_error {f : β → α → Except ε β} {l : List α} {b : β} {e : ε} (h : l.foldlM f b = .error e) :
    ∃ before a after c, l = before ++ a :: after ∧ before.foldlM f b = .ok c ∧ f c a = .error e := by
  induction l generalizing b with
  | nil => cases h
  | cons a l ih =>
    rw [List.foldlM_cons] at h
    rcases bind_error h with refused | ⟨middle, ran, h⟩
    · exact ⟨[], a, l, b, rfl, rfl, refused⟩
    · obtain ⟨before, last, after, c, rfl, later, refused⟩ := ih h
      refine ⟨a :: before, last, after, c, rfl, ?_, refused⟩
      rw [List.foldlM_cons, ran]
      exact later

/-- What a step leaves at its element, and later steps keep, holds at every element after the fold. -/
theorem foldlM_marks {P : α → β → Prop} {f : β → α → Except ε β} (made : ∀ a b c, f b a = .ok c → P a c)
    (kept : ∀ a other b c, P a b → f b other = .ok c → P a c) {l : List α} {b c : β}
    (h : l.foldlM f b = .ok c) : ∀ a ∈ l, P a c := by
  induction l generalizing b with
  | nil => exact fun _ member => nomatch member
  | cons first l ih =>
    rw [List.foldlM_cons] at h
    obtain ⟨middle, ran, rest⟩ := bind_ok h
    intro a member
    rcases List.mem_cons.mp member with rfl | later
    · exact foldlM_keeps (fun other b c => kept a other b c) (made a b middle ran) rest
    · exact ih rest a later

/-! ### Steps with answers -/

/-- Steps taken in turn, each with its answer. -/
def inTurn (step : σ → α → β × σ) (s : σ) : List α → List β × σ
  | [] => ([], s)
  | a :: as => ((step s a).1 :: (inTurn step (step s a).2 as).1, (inTurn step (step s a).2 as).2)

theorem inTurn_append (step : σ → α → β × σ) (s : σ) (before after : List α) :
    inTurn step s (before ++ after) =
      ((inTurn step s before).1 ++ (inTurn step (inTurn step s before).2 after).1,
        (inTurn step (inTurn step s before).2 after).2) := by
  induction before generalizing s with
  | nil => rfl
  | cons a before ih => simp [inTurn, ih]

theorem inTurn_keeps {P : σ → Prop} {step : σ → α → β × σ} (kept : ∀ s a, P s → P (step s a).2) {s : σ}
    (start : P s) (l : List α) : P (inTurn step s l).2 := by
  induction l generalizing s with
  | nil => exact start
  | cons a l ih => exact ih (kept s a start)

end Rulebook
