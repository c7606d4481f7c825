import Rulebook.Value

/-!
# The order of values

`less` and `greater` are each other's converse, and no value is less than itself. But text has an order of its own
beside that of the numbers it spells, and between the two `less` goes round in a circle: `less_goes_round`. It leads on
among values whose text is in step with its numbers, `less_orders_values_in_step`.
-/

namespace Rulebook

namespace Value

variable {a b c : Value}

/-- Whether both values are text, so that they are compared as text. -/
def texts : Value → Value → Bool
  | text _, text _ => true
  | _, _ => false

theorem exists_of_texts (both : texts a b = true) : ∃ s t, a = text s ∧ b = text t := by
  cases a with
  | text s =>
    cases b with
    | text t => exact ⟨s, t, rfl, rfl⟩
    | _ => cases both
  | _ => cases both

theorem order?_of_not_texts (other : texts a b = false) :
    a.order? b = a.number?.bind fun m => b.number?.map fun n => compare m.val n.val := by
  unfold order?
  split
  · cases other
  · rfl

theorem texts_comm (a b : Value) : texts a b = texts b a := by
  cases a <;> cases b <;> rfl

theorem order?_swap (a b : Value) : b.order? a = (a.order? b).map Ordering.swap := by
  cases both : texts a b with
  | true =>
    obtain ⟨s, t, rfl, rfl⟩ := exists_of_texts both
    exact congrArg some Std.OrientedOrd.eq_swap
  | false =>
    rw [order?_of_not_texts both, order?_of_not_texts ((texts_comm b a).trans both)]
    cases a.number? with
    | none => cases b.number? <;> rfl
    | some m =>
      cases b.number? with
      | none => rfl
      | some n => exact congrArg some Std.OrientedOrd.eq_swap

/-- Two texts of which both or neither spell a number, and the lesser number is also less as text. -/
structure InStep (s t : String) : Prop where
  spelled : (text s).number?.isSome = (text t).number?.isSome
  order : ∀ m n, (text s).number? = some m → (text t).number? = some n → m.val < n.val → s < t

instance (s t : String) : Decidable (InStep s t) :=
  decidable_of_iff ((text s).number?.isSome = (text t).number?.isSome ∧
      ∀ m ∈ (text s).number?, ∀ n ∈ (text t).number?, m.val < n.val → s < t)
    ⟨fun ⟨spelled, order⟩ => ⟨spelled, fun m n reads reads' => order m reads n reads'⟩,
      fun step => ⟨step.spelled, fun m reads n reads' => step.order m n reads reads'⟩⟩

end Value

namespace Comparison

open Value

variable {a b c : Value} {m n : Number}

theorem less_texts_iff {s t : String} : less.holds (text s) (text t) = true ↔ s < t := by
  simp only [holds, order?, decide_eq_true_eq, Option.some.injEq]
  exact compareOfLessAndEq_eq_lt

theorem less_numbers_iff (other : texts a b = false) :
    less.holds a b = true ↔ ∃ m n, a.number? = some m ∧ b.number? = some n ∧ m.val < n.val := by
  simp [holds, order?_of_not_texts other, Option.bind_eq_some_iff, Int.compare_eq_lt]

theorem less_eq_greater (a b : Value) : less.holds a b = greater.holds b a := by
  simp only [holds, order?_swap a b]
  cases a.order? b with
  | none => rfl
  | some order => cases order <;> rfl

theorem not_less_both (a b : Value) : ¬ (less.holds a b = true ∧ less.holds b a = true) := by
  rintro ⟨first, second⟩
  simp only [holds, order?_swap a b, decide_eq_true_eq] at first second
  rw [first] at second
  cases second

theorem not_less_self (a : Value) : less.holds a a = false := by
  cases less : less.holds a a with
  | false => rfl
  | true => exact (not_less_both a a ⟨less, less⟩).elim

/-! ### Values in step -/

theorem less_trans_of_texts {r s t : String} (first : less.holds (text r) (text s) = true)
    (second : less.holds (text s) (text t) = true) : less.holds (text r) (text t) = true :=
  less_texts_iff.mpr (String.lt_trans (less_texts_iff.mp first) (less_texts_iff.mp second))

theorem less_of_numbers (step : ∀ s t, a = text s → b = text t → InStep s t) (reads : a.number? = some m)
    (reads' : b.number? = some n) (lt : m.val < n.val) : less.holds a b = true := by
  cases both : texts a b with
  | true =>
    obtain ⟨s, t, rfl, rfl⟩ := exists_of_texts both
    exact less_texts_iff.mpr ((step s t rfl rfl).order m n reads reads' lt)
  | false => exact (less_numbers_iff both).mpr ⟨m, n, reads, reads', lt⟩

/-- Of two values in step, of which one is a number, both are, and in the same order. -/
theorem numbers_of_less (step : ∀ s t, a = text s → b = text t → InStep s t ∧ InStep t s)
    (number : a.number?.isSome = true ∨ b.number?.isSome = true) (less : less.holds a b = true) :
    ∃ m n, a.number? = some m ∧ b.number? = some n ∧ m.val ≤ n.val := by
  cases both : texts a b with
  | true =>
    obtain ⟨s, t, rfl, rfl⟩ := exists_of_texts both
    obtain ⟨forth, back⟩ := step s t rfl rfl
    obtain ⟨m, reads⟩ := Option.isSome_iff_exists.mp (number.elim id forth.spelled.trans)
    obtain ⟨n, reads'⟩ := Option.isSome_iff_exists.mp (number.elim back.spelled.trans id)
    refine ⟨m, n, reads, reads', Int.not_lt.mp fun greater => ?_⟩
    exact String.lt_asymm (less_texts_iff.mp less) (back.order n m reads' reads greater)
  | false =>
    obtain ⟨m, n, reads, reads', lt⟩ := (less_numbers_iff both).mp less
    exact ⟨m, n, reads, reads', Int.le_of_lt lt⟩

theorem less_trans_of_inStep (step : ∀ s t, text s ∈ [a, b, c] → text t ∈ [a, b, c] → InStep s t)
    (apart : texts a b = false ∨ texts b c = false) (first : less.holds a b = true)
    (second : less.holds b c = true) : less.holds a c = true := by
  have among {x y : Value} (left : x ∈ [a, b, c]) (right : y ∈ [a, b, c]) (s t : String) (same : x = text s)
      (same' : y = text t) : InStep s t ∧ InStep t s := by
    rw [same] at left
    rw [same'] at right
    exact ⟨step s t left right, step t s right left⟩
  have across (s t : String) (same : a = text s) (same' : c = text t) : InStep s t :=
    (among (by simp) (by simp) s t same same').1
  -- A pair that is not compared as text makes `b` a number, and so the other two.
  rcases apart with apart | apart
  · obtain ⟨k, m, reads, reads', lt⟩ := (less_numbers_iff apart).mp first
    have number : b.number?.isSome = true := Option.isSome_of_eq_some reads'
    obtain ⟨m', n, again, reads'', le⟩ := numbers_of_less (among (by simp) (by simp)) (.inl number) second
    cases reads'.symm.trans again
    exact less_of_numbers across reads reads'' (Int.lt_of_lt_of_le lt le)
  · obtain ⟨m, n, reads', reads'', lt⟩ := (less_numbers_iff apart).mp second
    have number : b.number?.isSome = true := Option.isSome_of_eq_some reads'
    obtain ⟨k, m', reads, again, le⟩ := numbers_of_less (among (by simp) (by simp)) (.inr number) first
    cases reads'.symm.trans again
    exact less_of_numbers across reads reads'' (Int.lt_of_le_of_lt le lt)

/-- Where the greater number comes first as text, the next number above the lesser one is behind one of them only. -/
theorem less_breaks_off {s t : String} (reads : (text s).number? = some m) (reads' : (text t).number? = some n)
    (lt : m.val < n.val) (behind : t < s) :
    ∃ k, less.holds (text t) (text s) = true ∧ less.holds (text s) (number k) = true ∧
      less.holds (text t) (number k) = false := by
  have inside := n.le_greatest
  have least := m.least_le
  refine ⟨⟨m.val + 1, by omega, by omega⟩, less_texts_iff.mpr behind, ?_, ?_⟩
  · exact (less_numbers_iff rfl).mpr ⟨m, _, reads, rfl, Int.lt_succ m.val⟩
  · rw [← Bool.not_eq_true, less_numbers_iff rfl]
    rintro ⟨n', k, again, last, below⟩
    cases reads'.symm.trans again
    cases last
    exact Int.not_lt.mpr (Int.lt_add_one_iff.mp below) lt

/-- `less` is strict, with `greater` for its converse. It leads on from text to text, and among values whose texts are in
step; but two numbers in the other order as text keep it from leading on beside some third. -/
theorem less_orders_values_in_step :
    (∀ a, less.holds a a = false) ∧ (∀ a b, less.holds a b = greater.holds b a) ∧
      (∀ a b, ¬ (less.holds a b = true ∧ less.holds b a = true)) ∧
      (∀ a b c, ((∃ r s t, a = text r ∧ b = text s ∧ c = text t) ∨
          ∀ s t, text s ∈ [a, b, c] → text t ∈ [a, b, c] → InStep s t) →
        less.holds a b = true → less.holds b c = true → less.holds a c = true) ∧
      ∀ s t m n, (text s).number? = some m → (text t).number? = some n → m.val < n.val → t < s →
        ∃ k, less.holds (text t) (text s) = true ∧ less.holds (text s) (number k) = true ∧
          less.holds (text t) (number k) = false := by
  refine ⟨not_less_self, less_eq_greater, not_less_both, ?_, fun s t m n => less_breaks_off⟩
  rintro a b c (⟨r, s, t, rfl, rfl, rfl⟩ | step) first second
  · exact less_trans_of_texts first second
  · cases left : texts a b with
    | false => exact less_trans_of_inStep step (.inl left) first second
    | true =>
      cases right : texts b c with
      | false => exact less_trans_of_inStep step (.inr right) first second
      | true =>
        obtain ⟨r, s, rfl, rfl⟩ := exists_of_texts left
        obtain ⟨_, t, _, rfl⟩ := exists_of_texts right
        exact less_trans_of_texts first second

/-- Blanks around the digits leave the two texts in step. -/
theorem less_leads_from_two_to_four :
    let three : Number := ⟨3, by decide, by decide⟩
    less.holds (text " 2") (number three) = true ∧ less.holds (number three) (text "4") = true ∧
      less.holds (text " 2") (text "4") = true := by
  intro three
  have first : less.holds (text " 2") (number three) = true := by decide
  have second : less.holds (number three) (text "4") = true := by decide
  obtain ⟨_, _, _, leads, _⟩ := less_orders_values_in_step
  refine ⟨first, second, leads _ _ _ (.inr ?_) first second⟩
  intro s t left right
  simp only [List.mem_cons, text.injEq, List.not_mem_nil, or_false, reduceCtorEq, false_or] at left right
  rcases left with rfl | rfl <;> rcases right with rfl | rfl <;> decide

/-- Text with text, the digit `1` comes first; beside a number, the whole of the digits counts. -/
theorem less_goes_round :
    let three : Number := ⟨3, by decide, by decide⟩
    less.holds (text "2") (number three) = true ∧ less.holds (number three) (text "10") = true ∧
      less.holds (text "2") (text "10") = false ∧ less.holds (text "10") (text "2") = true := by
  decide

end Comparison

end Rulebook
