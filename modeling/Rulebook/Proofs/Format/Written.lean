import Mathlib.Data.List.Basic
import Mathlib.Data.Nat.Digits.Defs
import Rulebook.Format.Basic
import Rulebook.Number

/-!
# Reading what was written

What the written forms have in common: digits, runs of characters of a kind, and parts that stand on lines of
their own.
-/

namespace Rulebook

/-! ### Runs -/

/-- The text begins with a character of which `p` holds. -/
def Begins (p : Char → Prop) (cs : List Char) : Prop := ∃ c rest, cs = c :: rest ∧ p c

theorem Begins.append {p : Char → Prop} {cs : List Char} (begins : Begins p cs) (rest : List Char) :
    Begins p (cs ++ rest) := by
  obtain ⟨c, more, rfl, first⟩ := begins
  exact ⟨c, more ++ rest, rfl, first⟩

theorem takeWhile_run {p : Char → Bool} {run rest : List Char} (all : ∀ c ∈ run, p c = true)
    (stops : Begins (p · = false) rest) : (run ++ rest).takeWhile p = run := by
  obtain ⟨c, cs, rfl, other⟩ := stops
  rw [List.takeWhile_append_of_pos all, List.takeWhile_cons_of_neg (by simp [other]), List.append_nil]

theorem dropWhile_run {p : Char → Bool} {run rest : List Char} (all : ∀ c ∈ run, p c = true)
    (stops : Begins (p · = false) rest) : (run ++ rest).dropWhile p = rest := by
  obtain ⟨c, cs, rfl, other⟩ := stops
  rw [List.dropWhile_append_of_pos all, List.dropWhile_cons_of_neg (by simp [other])]

/-! ### Digits -/

namespace Hex

theorem digit?_digitChar {d : Nat} (small : d < 16) : digit? d.digitChar = some d := by
  have all : ∀ d < 16, digit? d.digitChar = some d := by decide
  exact all d small

theorem readOnto?_append (base acc : Nat) (cs ds : List Char) :
    readOnto? base acc (cs ++ ds) = (readOnto? base acc cs).bind fun n => readOnto? base n ds := by
  induction cs generalizing acc with
  | nil => rfl
  | cons c cs ih =>
    rw [List.cons_append, readOnto?, readOnto?]
    cases digit? c with
    | none => rfl
    | some d =>
      simp only
      split
      · exact ih _
      · rfl

theorem readOnto?_digitChar {base acc d : Nat} (within : d < base) (small : base ≤ 16) :
    readOnto? base acc [d.digitChar] = some (base * acc + d) := by
  rw [readOnto?, digit?_digitChar (Nat.lt_of_lt_of_le within small)]
  exact if_pos within

/-- Written digits read back. -/
theorem read?_toDigits {base : Nat} (two : 1 < base) (small : base ≤ 16) (n : Nat) :
    read? base (Nat.toDigits base n) = some n := by
  induction n using Nat.strongRecOn with
  | _ n ih =>
    by_cases single : n < base
    · rw [Nat.toDigits_of_lt_base single, read?, readOnto?_digitChar single small, Nat.mul_zero, Nat.zero_add]
    · have shorter : n / base < n := Nat.div_lt_self (by omega) two
      rw [Nat.toDigits_of_base_le two (Nat.le_of_not_lt single), read?, readOnto?_append, ← read?, ih _ shorter]
      refine (readOnto?_digitChar (Nat.mod_lt n (by omega)) small).trans ?_
      rw [Nat.div_add_mod]

theorem read?_zeros (base count : Nat) (positive : 0 < base) (cs : List Char) :
    read? base (List.replicate count '0' ++ cs) = read? base cs := by
  induction count with
  | zero => rfl
  | succ count ih =>
    have zero : digit? '0' = some 0 := by decide
    rw [List.replicate_succ, List.cons_append, read?, readOnto?, zero]
    simp only [positive, if_true, Nat.mul_zero, Nat.add_zero]
    exact ih

theorem digit?_of_readOnto? {base acc n : Nat} {cs : List Char} (read : readOnto? base acc cs = some n) :
    ∀ c ∈ cs, (digit? c).isSome = true := by
  induction cs generalizing acc with
  | nil => exact fun _ member => nomatch member
  | cons c cs ih =>
    rw [readOnto?] at read
    cases digit : digit? c with
    | none =>
      rw [digit] at read
      cases read
    | some d =>
      simp only [digit] at read
      split at read
      · exact List.forall_mem_cons.mpr ⟨digit ▸ rfl, ih read⟩
      · cases read

theorem char?_toNat (c : Char) : char? c.toNat = some c := by
  have valid : c.toNat.isValidChar := c.valid
  rw [char?, if_pos valid, Char.ofNat_toNat]

end Hex

theorem isDigit_of_mem_decimal {n : Nat} {c : Char} (member : c ∈ Nat.toDigits 10 n) : c.isDigit = true :=
  Nat.isDigit_of_mem_toDigits (by decide) (by decide) member

theorem exists_decimal (n : Nat) :
    ∃ d ds, Nat.toDigits 10 n = d :: ds ∧ d.isDigit = true ∧ ∀ c ∈ ds, c.isDigit = true := by
  obtain ⟨d, ds, same⟩ := List.exists_cons_of_ne_nil (Nat.toDigits_ne_nil (n := n) (b := 10))
  have digits : ∀ c ∈ d :: ds, c.isDigit = true := fun c member => isDigit_of_mem_decimal (same ▸ member)
  exact ⟨d, ds, same, digits d List.mem_cons_self, fun c member => digits c (List.mem_cons_of_mem _ member)⟩

/-- No number but zero begins with the digit zero. -/
theorem head?_decimal {n : Nat} (positive : n ≠ 0) : (Nat.toDigits 10 n).head? ≠ some '0' := by
  induction n using Nat.strongRecOn with
  | _ n ih =>
    by_cases single : n < 10
    · rw [Nat.toDigits_of_lt_base single]
      have all : ∀ d < 10, d ≠ 0 → [d.digitChar].head? ≠ some '0' := by decide
      exact all n single positive
    · have shorter : n / 10 < n := Nat.div_lt_self (by omega) (by decide)
      obtain ⟨d, ds, same, _⟩ := exists_decimal (n / 10)
      have first := ih (n / 10) shorter (by omega)
      rw [same] at first
      rw [Nat.toDigits_of_base_le (by decide) (Nat.le_of_not_lt single), same]
      exact first

theorem Number.digits_begin (n : Number) : Begins (fun c => c = '-' ∨ c.isDigit = true) n.digits := by
  unfold Number.digits
  split
  · exact ⟨'-', _, rfl, Or.inl rfl⟩
  · obtain ⟨d, ds, same, digit, _⟩ := exists_decimal n.val.natAbs
    exact ⟨d, ds, same, Or.inr digit⟩

theorem code_of_isDigit {c : Char} (digit : c.isDigit = true) : 48 ≤ c.toNat ∧ c.toNat ≤ 57 := by
  simp only [Char.isDigit, Bool.and_eq_true, decide_eq_true_eq] at digit
  exact ⟨digit.1, digit.2⟩

theorem ne_of_isDigit {c d : Char} (digit : c.isDigit = true) (other : d.isDigit = false) : c ≠ d := by
  rintro rfl
  rw [digit] at other
  cases other

theorem not_mem_of_isDigit {c : Char} {signs : List Char} (digit : c.isDigit = true)
    (others : signs.all (fun d => !d.isDigit) = true) : c ∉ signs := by
  intro member
  have other := List.all_eq_true.mp others c member
  rw [digit] at other
  cases other

/-! ### Parts -/

/-- Whether a part may begin with the character: it is no blank in any notation, and no sign that would end the
list of the parts or begin a comment. -/
def Visible (c : Char) : Prop := 33 ≤ c.toNat ∧ c.toNat < 127 ∧ c ∉ [',', '/', ')', ']', '\x7d']

instance (c : Char) : Decidable (Visible c) := inferInstanceAs (Decidable (_ ∧ _ ∧ _))

theorem visible_of_isDigit {c : Char} (digit : c.isDigit = true) : Visible c := by
  obtain ⟨least, greatest⟩ := code_of_isDigit digit
  exact ⟨by omega, by omega, not_mem_of_isDigit digit (by decide)⟩

theorem decimal_visible (n : Nat) : Begins Visible (Nat.toDigits 10 n) := by
  obtain ⟨d, ds, same, digit, _⟩ := exists_decimal n
  exact ⟨d, ds, same, visible_of_isDigit digit⟩

theorem Number.digits_visible (n : Number) : Begins Visible n.digits := by
  obtain ⟨c, cs, same, rfl | digit⟩ := n.digits_begin
  · exact ⟨'-', cs, same, by decide⟩
  · exact ⟨c, cs, same, visible_of_isDigit digit⟩

variable {α : Type}

/-- A part that the reader takes back as `a` and no further, if what follows is as `ends` says. -/
structure Readable (ends : List Char → Prop) (read : List Char → Option (α × List Char)) (part : List Char)
    (a : α) : Prop where
  visible : Begins Visible part
  reads : ∀ rest, ends rest → read (part ++ rest) = some (a, rest)

namespace Layout

theorem lines_cons (l : Layout) (depth : Nat) (part : List Char) {rest : List (List Char)} (more : rest ≠ []) :
    l.lines depth (part :: rest) = l.newline depth ++ part ++ [','] ++ l.lines depth rest := by
  cases rest with
  | nil => exact (more rfl).elim
  | cons => rfl

theorem bracket_begins (l : Layout) (depth : Nat) {opening close : Char} (parts : List (List Char))
    {p : Char → Prop} (first : p opening) : Begins p (l.bracket depth opening close parts) := by
  unfold bracket
  split
  · exact ⟨opening, _, rfl, first⟩
  · exact ⟨opening, _, rfl, first⟩

theorem length_le_lines (l : Layout) (depth : Nat) (parts : List (List Char)) :
    parts.length ≤ (l.lines depth parts).length := by
  induction parts with
  | nil => exact Nat.zero_le _
  | cons part parts ih =>
    by_cases more : parts = []
    · subst more
      simp [lines, newline]
    · rw [lines_cons l depth part more]
      simp only [List.length_append, List.length_cons]
      omega

end Layout

theorem length_le_intercalate (parts : List (List Char)) :
    parts.length ≤ ([','].intercalate parts).length + 1 := by
  induction parts with
  | nil => exact Nat.zero_le _
  | cons part parts ih =>
    cases parts with
    | nil => rw [List.length_singleton]; omega
    | cons next parts =>
      rw [List.intercalate_cons_cons, List.length_cons, List.length_append, List.length_append, List.length_singleton]
      omega

end Rulebook
