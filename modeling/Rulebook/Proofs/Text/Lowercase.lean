import Mathlib.Data.List.Chain
import Rulebook.Text.Alphanumeric
import Rulebook.Text.Basic
import Rulebook.Text.Lowercase

/-!
# Small letters stay small

The small form of a letter is a letter that has no other small form. The exception is the capital I with a
dot, whose small form has a character that is no letter.
-/

namespace Rulebook.Text

/-! ### Letters -/

/-- A range and one that lies wholly above it. -/
def Below (r s : Nat × Nat) : Prop := r.1 ≤ r.2 ∧ r.2 < s.1

instance (r s : Nat × Nat) : Decidable (Below r s) := inferInstanceAs (Decidable (_ ∧ _))

instance : Trans Below Below Below where
  trans := fun ⟨first, low⟩ ⟨second, high⟩ => ⟨first, by omega⟩

theorem inRanges_of_mem {n : Nat} {ranges : List (Nat × Nat)} {r : Nat × Nat} (ascending : ranges.Pairwise Below)
    (member : r ∈ ranges) (least : r.1 ≤ n) (greatest : n ≤ r.2) : inRanges n ranges = true := by
  induction ranges with
  | nil => cases member
  | cons s rest ih =>
    obtain ⟨below, later⟩ := List.pairwise_cons.mp ascending
    rcases List.mem_cons.mp member with rfl | behind
    · rw [inRanges, if_neg (Nat.not_lt.mpr least), if_pos greatest]
    · obtain ⟨first, last⟩ := below r behind
      rw [inRanges, if_neg (by omega), if_neg (by omega)]
      exact ih later behind

/-- Whether every range of the list lies below the next one. -/
def ascending : List (Nat × Nat) → Bool
  | r :: s :: rest => Nat.ble r.1 r.2 && Nat.blt r.2 s.1 && ascending (s :: rest)
  | _ => true

theorem pairwise_of_ascending {ranges : List (Nat × Nat)} (ascends : ascending ranges = true) :
    ranges.Pairwise Below := by
  refine List.isChain_iff_pairwise.mp ?_
  induction ranges with
  | nil => exact .nil
  | cons r rest ih =>
    cases rest with
    | nil => exact .singleton r
    | cons s rest =>
      rw [ascending, Bool.and_eq_true, Bool.and_eq_true, Nat.ble_eq, Nat.blt_eq] at ascends
      exact .cons_cons ascends.1 (ih ascends.2)

theorem alphanumericRanges_ascend : alphanumericRanges.Pairwise Below :=
  pairwise_of_ascending (by decide +kernel)

theorem toNat_ofNat_of_alphanumeric {n : Nat} (letter : inRanges n alphanumericRanges = true) :
    (Char.ofNat n).toNat = n := by
  have valid : ∀ r ∈ alphanumericRanges, r.2 < 0xD800 ∨ 0xDFFF < r.1 ∧ r.2 < 0x110000 := by decide +kernel
  obtain ⟨r, member, least, greatest⟩ := exists_mem_of_inRanges letter
  have within : n.isValidChar := by
    rcases valid r member with low | ⟨above, high⟩
    · exact .inl (by omega)
    · exact .inr ⟨by omega, by omega⟩
  rw [Char.ofNat, dif_pos within]
  rfl

/-- Whether the ascending ranges leave out all from `least` to `greatest`. -/
def avoids (least greatest : Nat) : List (Nat × Nat) → Bool
  | [] => true
  | r :: rest => Nat.blt greatest r.1 || (Nat.blt r.2 least && avoids least greatest rest)

theorem inRanges_of_avoids {least greatest n : Nat} {ranges : List (Nat × Nat)}
    (avoided : avoids least greatest ranges = true) (inside : least ≤ n ∧ n ≤ greatest) :
    inRanges n ranges = false := by
  induction ranges with
  | nil => rfl
  | cons r rest ih =>
    rw [avoids, Bool.or_eq_true, Bool.and_eq_true, Nat.blt_eq, Nat.blt_eq] at avoided
    rw [inRanges]
    split
    · rfl
    · rcases avoided with above | ⟨below, later⟩
      · omega
      · rw [if_neg (by omega)]
        exact ih later

/-- The ranges of blanks. -/
def blankRanges : List (Nat × Nat) :=
  [(9, 13), (32, 32), (0x85, 0x85), (0xA0, 0xA0), (0x1680, 0x1680), (0x2000, 0x200A), (0x2028, 0x2029),
    (0x202F, 0x202F), (0x205F, 0x205F), (0x3000, 0x3000)]

theorem isAlphanumeric_eq_false {c : Char} (blank : isBlank c = true) : isAlphanumeric c = false := by
  have avoided : ∀ r ∈ blankRanges, avoids r.1 r.2 alphanumericRanges = true := by decide +kernel
  have within : ∃ r ∈ blankRanges, r.1 ≤ c.toNat ∧ c.toNat ≤ r.2 := by
    simp only [isBlank, Bool.or_eq_true, Bool.and_eq_true, decide_eq_true_eq] at blank
    simp only [blankRanges, List.exists_mem_cons_iff, List.not_mem_nil, false_and, exists_false, or_false]
    omega
  obtain ⟨r, member, inside⟩ := within
  exact inRanges_of_avoids (avoided r member) inside

/-! ### Runs of capital letters -/

namespace CaseRun

/-- The code point of the last small letter. -/
def smallLast (run : CaseRun) : Nat := run.small + (run.last - run.first)

/-- Whether the small letters of the run lie in one range of letters. -/
def isLettered (run : CaseRun) : Bool :=
  alphanumericRanges.any fun r => Nat.ble run.smallLast r.2 && Nat.ble r.1 run.small

/-- Whether the small letters of the run stand between the capital letters of the other. -/
def alternates (run other : CaseRun) : Bool :=
  (Nat.beq run.step 2 || Nat.beq run.first run.last) && Nat.beq other.step 2 &&
    Nat.beq ((run.small + other.first) % 2) 1

/-- Whether no small letter of the run is a capital one of the others, which ascend. -/
def clears (run : CaseRun) : List CaseRun → Bool
  | [] => true
  | other :: rest =>
    Nat.blt run.smallLast other.first ||
      ((Nat.blt other.last run.small || run.alternates other) && run.clears rest)

end CaseRun

theorem caseRuns_isLettered : ∀ run ∈ caseRuns, run.isLettered = true := by decide +kernel

theorem caseRuns_clears : ∀ run ∈ caseRuns, run.clears caseRuns = true := by decide +kernel

/-- A code point is its own small form, or that of a place in a run. -/
theorem smallIn_cases (n : Nat) (runs : List CaseRun) :
    smallIn n runs = n ∨
      ∃ run ∈ runs, ∃ k, k ≤ run.last - run.first ∧ k % run.step = 0 ∧ smallIn n runs = run.small + k := by
  induction runs with
  | nil => exact .inl rfl
  | cons run rest ih =>
    rw [smallIn]
    split
    · exact .inl rfl
    · split
      · split
        · next stride => exact .inr ⟨run, List.mem_cons_self, n - run.first, by omega, stride, rfl⟩
        · exact .inl rfl
      · rcases ih with same | ⟨other, member, rest⟩
        · exact .inl same
        · exact .inr ⟨other, List.mem_cons_of_mem _ member, rest⟩

theorem smallIn_of_clears {run : CaseRun} {runs : List CaseRun} (clears : run.clears runs = true) {k : Nat}
    (within : k ≤ run.last - run.first) (stride : k % run.step = 0) : smallIn (run.small + k) runs = run.small + k := by
  induction runs with
  | nil => rfl
  | cons other rest ih =>
    rw [CaseRun.clears, Bool.or_eq_true, Bool.and_eq_true, Bool.or_eq_true, Nat.blt_eq, Nat.blt_eq,
      CaseRun.smallLast] at clears
    rw [smallIn]
    split
    · rfl
    · next behind =>
      obtain ⟨apart, later⟩ := clears.resolve_left (by omega)
      split
      · next within' =>
        rcases apart with below | alternate
        · omega
        · simp only [CaseRun.alternates, Bool.and_eq_true, Bool.or_eq_true, Nat.beq_eq] at alternate
          obtain ⟨⟨single, two⟩, parity⟩ := alternate
          have even : k % 2 = 0 := by
            rcases single with step | one
            · rwa [step] at stride
            · omega
          rw [if_neg]
          rw [two]
          omega
      · exact ih later

/-- Small letters have no other small form. -/
theorem smallIn_smallIn (n : Nat) : smallIn (smallIn n caseRuns) caseRuns = smallIn n caseRuns := by
  rcases smallIn_cases n caseRuns with same | ⟨run, member, k, within, stride, small⟩
  · rw [same, same]
  · rw [small]
    exact smallIn_of_clears (caseRuns_clears run member) within stride

theorem smallIn_alphanumeric {n : Nat} (letter : inRanges n alphanumericRanges = true) :
    inRanges (smallIn n caseRuns) alphanumericRanges = true := by
  rcases smallIn_cases n caseRuns with same | ⟨run, member, k, within, _, small⟩
  · rwa [same]
  · obtain ⟨r, range, inside⟩ := List.any_eq_true.mp (caseRuns_isLettered run member)
    rw [Bool.and_eq_true, Nat.ble_eq, Nat.ble_eq, CaseRun.smallLast] at inside
    rw [small]
    exact inRanges_of_mem alphanumericRanges_ascend range (by omega) (by omega)

theorem smallIn_ne_dotted {n : Nat} (other : n ≠ 0x130) : smallIn n caseRuns ≠ 0x130 := by
  have apart : ∀ run ∈ caseRuns, run.smallLast < 0x130 ∨ 0x130 < run.small := by decide +kernel
  rcases smallIn_cases n caseRuns with same | ⟨run, member, k, within, _, small⟩
  · rwa [same]
  · have outside := apart run member
    rw [CaseRun.smallLast] at outside
    omega

/-! ### Characters -/

/-- The small form of a letter is a letter that stays as it is. -/
theorem lowercase_of_alphanumeric {c : Char} (letter : isAlphanumeric c = true) (other : c ≠ 'İ') :
    ∃ d, lowercase c = [d] ∧ isAlphanumeric d = true ∧ lowercase d = [d] := by
  have small := smallIn_alphanumeric letter
  have code := toNat_ofNat_of_alphanumeric small
  have undotted : smallIn c.toNat caseRuns ≠ 0x130 :=
    smallIn_ne_dotted fun same => other (Char.toNat_inj.mp same)
  refine ⟨Char.ofNat (smallIn c.toNat caseRuns), if_neg other, ?_, ?_⟩
  · rwa [isAlphanumeric, code]
  · rw [lowercase, if_neg, code, smallIn_smallIn]
    intro same
    exact undotted (code.symm.trans (congrArg Char.toNat same))

end Rulebook.Text
