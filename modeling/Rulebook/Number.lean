/-!
# Whole numbers

`Number` is a whole number that fits 64 bits with a sign. Reading refuses what does not fit, and
`succ` stays at the greatest number.
-/

namespace Rulebook

/-- A whole number from `-2^63` to `2^63 - 1`. -/
structure Number where
  val : Int
  least_le : -9223372036854775808 ≤ val
  le_greatest : val ≤ 9223372036854775807
deriving DecidableEq

namespace Number

def ofInt? (i : Int) : Option Number :=
  if h : -9223372036854775808 ≤ i ∧ i ≤ 9223372036854775807 then some ⟨i, h.1, h.2⟩ else none

def zero : Number := ⟨0, by decide, by decide⟩

def one : Number := ⟨1, by decide, by decide⟩

/-- The next number; the greatest number is its own successor. -/
def succ (n : Number) : Number where
  val := min (n.val + 1) 9223372036854775807
  least_le := by have := n.least_le; omega
  le_greatest := by omega

/-- The decimal digits, after a minus sign if the number is negative. -/
def digits (n : Number) : List Char :=
  if n.val < 0 then '-' :: Nat.toDigits 10 n.val.natAbs else Nat.toDigits 10 n.val.natAbs

def render (n : Number) : String := String.ofList n.digits

/-- The value of a run of decimal digits, which must not be empty. -/
def natOfDigits? (cs : List Char) : Option Nat :=
  if cs ≠ [] ∧ cs.all Char.isDigit then some (Nat.ofDigitChars 10 cs 0) else none

/-- Reads digits without a sign. -/
def ofDigits? (cs : List Char) : Option Number :=
  (natOfDigits? cs).bind fun n => ofInt? n

/-- Reads digits, which may follow one sign. -/
def read? : List Char → Option Number
  | '-' :: cs => (natOfDigits? cs).bind fun n => ofInt? (-n)
  | '+' :: cs => ofDigits? cs
  | cs => ofDigits? cs

/-! ### Reading and writing -/

theorem ofInt?_val (n : Number) : ofInt? n.val = some n := by
  simp [ofInt?, n.least_le, n.le_greatest]

theorem natOfDigits?_toDigits (n : Nat) : natOfDigits? (Nat.toDigits 10 n) = some n := by
  have hd : (Nat.toDigits 10 n).all Char.isDigit = true :=
    List.all_eq_true.2 fun c hc => Nat.isDigit_of_mem_toDigits (by decide) (by decide) hc
  have hne : Nat.toDigits 10 n ≠ [] := Nat.toDigits_ne_nil
  simp [natOfDigits?, hd, hne, Nat.ofDigitChars_ten_toDigits]

theorem read?_of_isDigit {c : Char} {cs : List Char} (h : c.isDigit = true) :
    read? (c :: cs) = ofDigits? (c :: cs) := by
  unfold read?
  split
  · next heq => cases heq; simp at h
  · next heq => cases heq; simp at h
  · rfl

/-- A written number reads back. -/
theorem read?_digits (n : Number) : read? n.digits = some n := by
  unfold digits
  split
  · next h =>
    simp only [read?, natOfDigits?_toDigits, Option.bind_some]
    rw [show -(n.val.natAbs : Int) = n.val by omega, ofInt?_val]
  · next h =>
    have hd := natOfDigits?_toDigits n.val.natAbs
    obtain ⟨c, cs, hcs⟩ := List.exists_cons_of_ne_nil (Nat.toDigits_ne_nil (n := n.val.natAbs) (b := 10))
    have hc : c.isDigit = true :=
      Nat.isDigit_of_mem_toDigits (b := 10) (n := n.val.natAbs) (by decide) (by decide) (by simp [hcs])
    rw [hcs] at hd ⊢
    rw [read?_of_isDigit hc, ofDigits?, hd, Option.bind_some,
      show (n.val.natAbs : Int) = n.val by omega, ofInt?_val]

end Number

end Rulebook
