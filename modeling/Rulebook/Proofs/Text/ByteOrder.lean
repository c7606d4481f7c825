import Mathlib.Data.List.Basic

/-!
# The order of bytes

Texts stand in the order of their code points. That is the order of their bytes in UTF-8 too, since the bytes of
a character that comes first are the smaller ones at the first place where those of two characters differ.
-/

namespace Rulebook.Text

/-- The bytes of a text in UTF-8. -/
def bytes (s : String) : List UInt8 := s.toUTF8.data.toList

theorem bytes_eq (s : String) : bytes s = s.toList.flatMap String.utf8EncodeChar := by
  rw [bytes, String.toUTF8_eq_toByteArray, ← String.utf8Encode_toList, List.utf8Encode, List.toList_data_toByteArray]

/-- The lists differ, and at the first place where they do the first has the smaller byte. -/
def Precedes : List UInt8 → List UInt8 → Prop
  | a :: l, b :: m => a < b ∨ a = b ∧ Precedes l m
  | _, _ => False

theorem Precedes.lt_append {l m : List UInt8} (precedes : Precedes l m) (rest other : List UInt8) :
    l ++ rest < m ++ other := by
  induction l generalizing m with
  | nil => exact precedes.elim
  | cons a l ih =>
    cases m with
    | nil => exact precedes.elim
    | cons b m =>
      rw [List.cons_append, List.cons_append, List.cons_lt_cons_iff]
      exact precedes.imp_right fun ⟨same, later⟩ => ⟨same, ih later⟩

theorem code_lt {c : Char} : c.toNat < 0x110000 := by
  have valid : c.toNat.isValidChar := c.valid
  rcases valid with low | high <;> omega

theorem not_precedes_nil (m : List UInt8) : ¬ Precedes [] m := id

theorem precedes_cons {a b : Nat} (low : a < 256) (high : b < 256) (l m : List UInt8) :
    Precedes (UInt8.ofNat a :: l) (UInt8.ofNat b :: m) ↔ a < b ∨ a = b ∧ Precedes l m := by
  rw [Precedes, UInt8.lt_iff_toNat_lt, ← UInt8.toNat_inj, UInt8.toNat_ofNat', UInt8.toNat_ofNat', Nat.mod_eq_of_lt low,
    Nat.mod_eq_of_lt high]

/-- More bytes begin with a greater one, and as many bytes are the digits of the code point in base 64. -/
theorem precedes_of_lt {c d : Char} (less : c < d) : Precedes (String.utf8EncodeChar c) (String.utf8EncodeChar d) := by
  have codes : c.val.toNat < d.val.toNat := less
  have high : d.val.toNat < 0x110000 := code_lt
  unfold String.utf8EncodeChar
  generalize c.val.toNat = v at *
  generalize d.val.toNat = w at *
  have digits : ∀ n < 0x110000, n / 64 / 64 = n / 4096 ∧ n / 4096 / 64 = n / 262144 ∧ n / 262144 % 8 = n / 262144 :=
    fun n bound => ⟨by omega, by omega, by omega⟩
  have left := digits v (by omega)
  have right := digits w high
  dsimp only
  -- one case for each two lengths
  repeat' split
  all_goals simp (disch := omega) only [precedes_cons, not_precedes_nil, and_false, or_false]
  all_goals omega

theorem flatMap_lt {l m : List Char} (less : l < m) :
    l.flatMap String.utf8EncodeChar < m.flatMap String.utf8EncodeChar := by
  induction l generalizing m with
  | nil =>
    cases m with
    | nil => exact absurd less (List.lt_irrefl _)
    | cons d m =>
      obtain ⟨b, bs, some⟩ := List.exists_cons_of_ne_nil (String.utf8EncodeChar_ne_nil (c := d))
      rw [List.flatMap_nil, List.flatMap_cons, some, List.cons_append]
      exact List.nil_lt_cons b _
  | cons c l ih =>
    cases m with
    | nil => exact absurd less (List.not_lt_nil _)
    | cons d m =>
      rw [List.flatMap_cons, List.flatMap_cons]
      rcases List.cons_lt_cons_iff.mp less with first | ⟨rfl, later⟩
      · exact (precedes_of_lt first).lt_append _ _
      · exact List.append_left_lt (ih later)

/-- Texts stand in the order of their bytes. -/
theorem bytes_lt_iff {s t : String} : bytes s < bytes t ↔ s < t := by
  have forth : ∀ {s t : String}, s < t → bytes s < bytes t := by
    intro s t less
    rw [bytes_eq, bytes_eq]
    exact flatMap_lt less
  refine ⟨fun less => Classical.byContradiction fun behind => ?_, forth⟩
  by_cases before : t < s
  · exact List.lt_asymm (forth before) less
  · have same := String.le_antisymm (String.not_lt.mp before) (String.not_lt.mp behind)
    exact List.lt_irrefl _ (same ▸ less)

end Rulebook.Text
