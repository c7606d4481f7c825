/-!
# Characters and blanks

A property of characters is given by the ascending list of the ranges of code points that have it:
`inRanges` looks a code point up, and stops at the first range beyond it. Blanks are the characters with
the Unicode property `White_Space`, and matter in two ways: `chunks` splits a text at them and `trim`
drops them at both ends.
-/

namespace Rulebook.Text

/-! ### Ranges of code points -/

/-- Whether `n` lies in one of the ranges, which must ascend. -/
def inRanges (n : Nat) : List (Nat × Nat) → Bool
  | [] => false
  | (first, last) :: rest =>
    if n < first then false else if n ≤ last then true else inRanges n rest

theorem exists_mem_of_inRanges {n : Nat} {ranges : List (Nat × Nat)}
    (h : inRanges n ranges = true) : ∃ r ∈ ranges, r.1 ≤ n ∧ n ≤ r.2 := by
  induction ranges with
  | nil => simp [inRanges] at h
  | cons s rest ih =>
    simp only [inRanges] at h
    split at h
    · cases h
    · next hlo =>
      split at h
      · next hhi => exact ⟨s, by simp, Nat.not_lt.1 hlo, hhi⟩
      · obtain ⟨r, hr, hb⟩ := ih h
        exact ⟨r, by simp [hr], hb⟩

/-! ### Blanks -/

def isBlank (c : Char) : Bool :=
  let n := c.toNat
  (9 ≤ n && n ≤ 13) || n = 32 || n = 0x85 || n = 0xA0 || n = 0x1680 ||
    (0x2000 ≤ n && n ≤ 0x200A) || n = 0x2028 || n = 0x2029 || n = 0x202F || n = 0x205F || n = 0x3000

/-- The maximal runs without a blank, in order. `run` is the run that is being read. -/
def chunksAfter (run : List Char) : List Char → List (List Char)
  | [] => if run.isEmpty then [] else [run]
  | c :: cs =>
    if isBlank c then
      if run.isEmpty then chunksAfter [] cs else run :: chunksAfter [] cs
    else chunksAfter (run ++ [c]) cs

/-- The maximal runs without a blank, in order. -/
def chunks (cs : List Char) : List (List Char) := chunksAfter [] cs

def trimStart (cs : List Char) : List Char := cs.dropWhile isBlank

def trim (cs : List Char) : List Char := (trimStart (trimStart cs).reverse).reverse

end Rulebook.Text
