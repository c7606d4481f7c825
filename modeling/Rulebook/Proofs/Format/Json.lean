import Rulebook.Format.Json.Document
import Rulebook.Proofs.Format.Written
import Rulebook.Proofs.Table

/-!
# JSON reads back

Values, the fields of a snapshot, and brackets on several lines are read as they were written.
-/

namespace Rulebook.Json

variable {α : Type}

/-- A part of a bracket ends before a comma or at the end of its line. -/
def Ends (rest : List Char) : Prop := Begins (fun c => c = ',' ∨ c = '\n') rest

/-! ### Text -/

theorem unit_hex4 {n : Nat} (small : n < 65536) (rest : List Char) : unit (hex4 n ++ rest) = some (n, rest) := by
  have short : (Nat.toDigits 16 n).length ≤ 4 := (Nat.length_toDigits_le_iff (by decide) (by decide)).mpr small
  have four : (hex4 n).length = 4 := by
    simp only [hex4, List.length_append, List.length_replicate]
    omega
  have value : Hex.read? 16 (hex4 n) = some n :=
    (Hex.read?_zeros 16 _ (by decide) _).trans (Hex.read?_toDigits (by decide) (by decide) n)
  match digits : hex4 n, four with
  | [a, b, c, d], _ =>
    rw [digits] at value
    simp [unit, value]

theorem spelled_hex4 {c : Char} (small : c.toNat < 32) (rest : List Char) :
    spelled (hex4 c.toNat ++ rest) = some (c, rest) := by
  have plain : ¬ (0xD800 ≤ c.toNat ∧ c.toNat < 0xDC00) := by omega
  have read := unit_hex4 (n := c.toNat) (by omega) rest
  simp [spelled, read, plain, Hex.char?_toNat]

theorem quoted_escaped {cs rest : List Char} {c : Char} (read : unescape cs = some (c, rest)) :
    quoted ('\\' :: cs) = (quoted rest).map fun p => (c :: p.1, p.2) := by
  rw [quoted]
  split
  · next found =>
    cases found.symm.trans read
    rfl
  · next none => cases none.symm.trans read

theorem quoted_escape (c : Char) (rest : List Char) :
    quoted (escape c ++ rest) = (quoted rest).map fun p => (c :: p.1, p.2) := by
  unfold escape
  split
  · exact quoted_escaped rfl
  · exact quoted_escaped rfl
  · exact quoted_escaped rfl
  · exact quoted_escaped rfl
  · exact quoted_escaped rfl
  · exact quoted_escaped rfl
  · exact quoted_escaped rfl
  · next quote backslash _ _ _ _ _ =>
    by_cases control : c.toNat < 32
    · rw [if_pos control]
      exact quoted_escaped (spelled_hex4 control rest)
    · rw [if_neg control, List.singleton_append, quoted]
      · rw [if_neg control]
      · exact quote
      · exact backslash

theorem quoted_quote (s rest : List Char) :
    quoted (s.flatMap escape ++ '"' :: rest) = some (s, rest) := by
  induction s with
  | nil => rw [List.flatMap_nil, List.nil_append, quoted]
  | cons c s ih =>
    rw [List.flatMap_cons, List.append_assoc, quoted_escape, ih]
    rfl

theorem text_quote (s : String) (rest : List Char) : text (quote s.toList ++ rest) = some (s, rest) := by
  have read := quoted_quote s.toList rest
  simp [text, quote, read]

/-! ### Blanks -/

theorem isBlank_of_visible {c : Char} (visible : Visible c) : isBlank c = false := by
  have above : ∀ d : Char, d.toNat < 33 → c ≠ d := by
    rintro d small rfl
    have least := visible.1
    omega
  simp only [isBlank, Bool.or_eq_false_iff, decide_eq_false_iff_not]
  exact ⟨⟨⟨above ' ' (by decide), above '\t' (by decide)⟩, above '\n' (by decide)⟩, above '\r' (by decide)⟩

theorem skipBlanks_of_begins {cs : List Char} (begins : Begins (isBlank · = false) cs) : skipBlanks cs = cs := by
  obtain ⟨c, rest, rfl, stops⟩ := begins
  exact List.dropWhile_cons_of_neg (by simp [stops])

theorem skipBlanks_visible {cs : List Char} (visible : Begins Visible cs) (rest : List Char) :
    skipBlanks (cs ++ rest) = cs ++ rest := by
  obtain ⟨c, more, rfl, seen⟩ := visible
  exact skipBlanks_of_begins ⟨c, more ++ rest, rfl, isBlank_of_visible seen⟩

theorem skipBlanks_newline (l : Layout) (depth : Nat) (cs : List Char) :
    skipBlanks (l.newline depth ++ cs) = skipBlanks cs := by
  have blanks : ∀ c ∈ l.newline depth, isBlank c = true := by
    intro c member
    rcases List.mem_cons.mp member with rfl | space
    · rfl
    · rw [List.eq_of_mem_replicate space]
      rfl
  exact List.dropWhile_append_of_pos blanks

/-! ### Brackets -/

variable {item : List Char → Option (α × List Char)} {write : α → List Char} {close : Char}

theorem elements_lines {l : List α} (readable : ∀ a ∈ l, Readable Ends item (write a) a) (some : l ≠ [])
    (closes : isBlank close = false ∧ close ≠ ',') {fuel : Nat} (enough : l.length ≤ fuel) (depth outer : Nat)
    (rest : List Char) :
    elements item close fuel (layout.lines depth (l.map write) ++ (layout.newline outer ++ close :: rest)) =
      .some (l, rest) := by
  have closed : skipBlanks (layout.newline outer ++ close :: rest) = close :: rest := by
    rw [skipBlanks_newline, skipBlanks_of_begins ⟨close, rest, rfl, closes.1⟩]
  induction l generalizing fuel with
  | nil => exact (some rfl).elim
  | cons a l ih =>
    obtain ⟨part, parts⟩ := List.forall_mem_cons.mp readable
    obtain ⟨fuel, rfl⟩ : ∃ n, fuel = n + 1 := ⟨fuel - 1, by simp at enough; omega⟩
    -- Only the last part has no comma behind it.
    by_cases last : l = []
    · subst last
      have line : layout.lines depth ([a].map write) = layout.newline depth ++ write a := by
        simp [Layout.lines, layout]
      have read := part.reads (layout.newline outer ++ close :: rest) ⟨'\n', _, rfl, Or.inr rfl⟩
      rw [line, List.append_assoc, elements, skipBlanks_newline, skipBlanks_visible part.visible, read]
      simp [closed, closes.2]
    · have line : layout.lines depth ((a :: l).map write) =
          layout.newline depth ++ write a ++ [','] ++ layout.lines depth (l.map write) :=
        Layout.lines_cons layout depth _ (by simpa using last)
      have read := part.reads
        (',' :: (layout.lines depth (l.map write) ++ (layout.newline outer ++ close :: rest)))
        ⟨',', _, rfl, Or.inl rfl⟩
      have later := ih parts last (Nat.le_of_succ_le_succ enough)
      have comma : ∀ cs, skipBlanks (',' :: cs) = ',' :: cs := fun cs => skipBlanks_of_begins ⟨',', cs, rfl, rfl⟩
      rw [line, List.append_assoc, List.append_assoc, List.append_assoc, elements, skipBlanks_newline,
        List.singleton_append, skipBlanks_visible part.visible, read]
      simp [comma, later]

/-- The first part that stands in a bracket is not taken for its end. -/
theorem lines_begin {l : List α} (readable : ∀ a ∈ l, Readable Ends item (write a) a) (some : l ≠ [])
    (hidden : ¬ Visible close) (depth : Nat) (behind : List Char) :
    Begins (· ≠ close) (skipBlanks (layout.lines depth (l.map write) ++ behind)) := by
  obtain ⟨a, tail, rfl⟩ := List.exists_cons_of_ne_nil some
  have visible := (readable a List.mem_cons_self).visible
  obtain ⟨cs, line⟩ : ∃ cs, layout.lines depth ((a :: tail).map write) = layout.newline depth ++ write a ++ cs := by
    cases tail with
    | nil => exact ⟨_, rfl⟩
    | cons b tail =>
      refine ⟨[','] ++ layout.lines depth ((b :: tail).map write), ?_⟩
      simp [Layout.lines]
  rw [line, List.append_assoc, List.append_assoc, skipBlanks_newline, skipBlanks_visible visible]
  obtain ⟨d, more, written, seen⟩ := visible
  refine ⟨d, more ++ (cs ++ behind), ?_, fun same => hidden (same ▸ seen)⟩
  rw [written]
  rfl

theorem bracketed_bracket {opening : Char} {l : List α} (readable : ∀ a ∈ l, Readable Ends item (write a) a)
    (closes : isBlank close = false ∧ close ≠ ',' ∧ ¬ Visible close) (depth : Nat) (rest : List Char) :
    bracketed opening close item (layout.bracket depth opening close (l.map write) ++ rest) = some (l, rest) := by
  obtain ⟨blank, comma, hidden⟩ := closes
  by_cases none : l = []
  · subst none
    have closed : skipBlanks (close :: rest) = close :: rest := skipBlanks_of_begins ⟨close, rest, rfl, blank⟩
    simp [Layout.bracket, bracketed, closed]
  · have open' : layout.bracket depth opening close (l.map write) ++ rest =
        opening :: (layout.lines (depth + 1) (l.map write) ++ (layout.newline depth ++ close :: rest)) := by
      simp [Layout.bracket, none]
    have lines := layout.length_le_lines (depth + 1) (l.map write)
    rw [List.length_map] at lines
    obtain ⟨d, cs, begins, other⟩ := lines_begin readable none hidden (depth + 1) (layout.newline depth ++ close :: rest)
    rw [open', bracketed, if_pos rfl, begins]
    simp only [other, if_false]
    refine elements_lines readable none ⟨blank, comma⟩ ?_ (depth + 1) depth rest
    rw [List.length_append]
    omega

theorem entry_readable {value : String → List Char → Option (α × List Char)} {name : String} {part : List Char}
    {a : α} (readable : Readable Ends (value name) part a) :
    Readable Ends (entry value) (quote name.toList ++ [':', ' '] ++ part) (name, a) where
  visible := ⟨'"', _, rfl, by decide⟩
  reads := by
    intro rest ends
    have colon : ∀ cs, skipBlanks (':' :: cs) = ':' :: cs := fun cs => skipBlanks_of_begins ⟨':', cs, rfl, rfl⟩
    have space : ∀ cs, skipBlanks (' ' :: cs) = skipBlanks cs := fun _ => rfl
    have read := readable.reads rest ends
    simp [entry, text_quote, colon, space, skipBlanks_visible readable.visible, read]

/-! ### Numbers -/

theorem natural_decimal (n : Nat) {rest : List Char} (stops : Begins (Char.isDigit · = false) rest) :
    natural (Nat.toDigits 10 n ++ rest) = some (n, rest) := by
  have digits : ∀ c ∈ Nat.toDigits 10 n, c.isDigit = true := fun _ => isDigit_of_mem_decimal
  have proper : ((Nat.toDigits 10 n).isEmpty ||
      decide ((Nat.toDigits 10 n).head? = some '0') && decide ((Nat.toDigits 10 n).length ≠ 1)) = false := by
    by_cases zero : n = 0
    · rw [zero, Nat.toDigits_zero]
      rfl
    · simp [Nat.toDigits_ne_nil, head?_decimal zero]
  unfold natural
  rw [takeWhile_run digits stops, dropWhile_run digits stops]
  simp only [proper, Bool.false_eq_true, if_false]
  rw [Nat.ofDigitChars_toDigits (by decide) (by decide)]

theorem Ends.stops {rest : List Char} (ends : Ends rest) : Begins (Char.isDigit · = false) rest := by
  obtain ⟨c, cs, rfl, rfl | rfl⟩ := ends
  · exact ⟨',', cs, rfl, rfl⟩
  · exact ⟨'\n', cs, rfl, rfl⟩

theorem Ends.hasFraction {rest : List Char} (ends : Ends rest) : hasFraction rest = false := by
  obtain ⟨c, cs, rfl, rfl | rfl⟩ := ends <;> rfl

theorem integer_decimal (n : Nat) {rest : List Char} (ends : Ends rest) :
    integer (Nat.toDigits 10 n ++ rest) = some ((n : Int), rest) := by
  have read := natural_decimal n ends.stops
  obtain ⟨d, ds, same, digit, _⟩ := exists_decimal n
  rw [same, List.cons_append] at read ⊢
  unfold integer
  split
  · next sign =>
    obtain ⟨rfl, _⟩ := List.cons.inj sign
    cases digit
  · simp [read, ends.hasFraction]

theorem integer_negative {n : Nat} (positive : n ≠ 0) {rest : List Char} (ends : Ends rest) :
    integer ('-' :: (Nat.toDigits 10 n ++ rest)) = some (-(n : Int), rest) := by
  have read := natural_decimal n ends.stops
  simp [integer, read, positive, ends.hasFraction]

theorem integer_digits (n : Number) {rest : List Char} (ends : Ends rest) :
    integer (n.digits ++ rest) = some (n.val, rest) := by
  unfold Number.digits
  split
  · next negative =>
    have read := integer_negative (n := n.val.natAbs) (by omega) ends
    rw [show -(n.val.natAbs : Int) = n.val by omega] at read
    exact read
  · have read := integer_decimal n.val.natAbs ends
    rwa [show (n.val.natAbs : Int) = n.val by omega] at read

/-! ### Values -/

theorem value_of_integer {cs : List Char} (begins : Begins (fun c => c = '-' ∨ c.isDigit = true) cs) :
    value cs = (integer cs).bind fun p => (Number.ofInt? p.1).map fun n => (.number n, p.2) := by
  obtain ⟨c, rest, rfl, first⟩ := begins
  have other : c ∉ ['n', 't', 'f', '"'] := by
    rcases first with rfl | digit
    · decide
    · exact not_mem_of_isDigit digit (by decide)
  simp only [List.mem_cons, not_or] at other
  obtain ⟨null, true', false', quote, _⟩ := other
  unfold value
  split
  · next same => exact (null (List.cons.inj same).1).elim
  · next same => exact (true' (List.cons.inj same).1).elim
  · next same => exact (false' (List.cons.inj same).1).elim
  · next same => exact (quote (List.cons.inj same).1).elim
  · cases integer (c :: rest) with
    | none => rfl
    | some p =>
      cases read : Number.ofInt? p.1 <;> simp [read]

theorem value_readable (v : Value) : Readable Ends value (ofValue v) v := by
  cases v with
  | null => exact ⟨⟨'n', _, rfl, by decide⟩, fun _ _ => rfl⟩
  | bool b =>
    cases b with
    | false => exact ⟨⟨'f', _, rfl, by decide⟩, fun _ _ => rfl⟩
    | true => exact ⟨⟨'t', _, rfl, by decide⟩, fun _ _ => rfl⟩
  | number n =>
    refine ⟨n.digits_visible, fun rest ends => ?_⟩
    have number : ofValue (.number n) = n.digits := rfl
    rw [number, value_of_integer (n.digits_begin.append rest), integer_digits n ends]
    simp [Number.ofInt?_val]
  | text s =>
    refine ⟨⟨'"', _, rfl, by decide⟩, fun rest _ => ?_⟩
    change (text (quote s.toList ++ rest)).map _ = _
    rw [text_quote]
    rfl

/-! ### Snapshots -/

theorem fields_read (depth : Nat) (fs : Fields) (rest : List Char) :
    fields (ofFields depth fs ++ rest) = some (fs, rest) := by
  have entries : ∀ p ∈ fs.entries, Readable Ends (entry fun _ => value)
      (quote p.1.toList ++ [':', ' '] ++ ofValue p.2) p := fun p _ => entry_readable (value_readable p.2)
  have read : map value (ofFields depth fs ++ rest) = some (fs.entries, rest) :=
    bracketed_bracket entries ⟨rfl, by decide, by decide⟩ depth rest
  rw [fields, read, Option.map_some, Table.ofList_entries]

theorem snapshots_read (depth : Nat) (h : History) (rest : List Char) :
    list fields (layout.bracket depth '[' ']' (h.map (ofFields (depth + 1))) ++ rest) = some (h, rest) := by
  have snapshots : ∀ fs ∈ h, Readable Ends fields (ofFields (depth + 1) fs) fs := fun fs _ =>
    ⟨layout.bracket_begins _ _ (by decide), fun rest _ => fields_read _ fs rest⟩
  exact bracketed_bracket snapshots ⟨rfl, by decide, by decide⟩ depth rest

/-! ### Documents -/

theorem record_bracket {field : String → List Char → Option (α × List Char)} {write : String × α → List Char}
    {l : List (String × α)} (readable : ∀ p ∈ l, Readable Ends (entry field) (write p) p) (names : List String)
    (depth : Nat) (rest : List Char) :
    record names field (layout.bracket depth '\x7b' '\x7d' (l.map write) ++ rest) = some (l, rest) := by
  have read : bracketed '\x7b' '\x7d' (entry field) (layout.bracket depth '\x7b' '\x7d' (l.map write) ++ rest) =
      some (l, rest) :=
    bracketed_bracket readable ⟨rfl, by decide, by decide⟩ depth rest
  obtain ⟨c, cs, same, rfl⟩ : Begins (· = '\x7b') (layout.bracket depth '\x7b' '\x7d' (l.map write) ++ rest) :=
    (layout.bracket_begins depth _ (p := (· = '\x7b')) rfl).append rest
  rw [same] at read ⊢
  exact read

theorem document_of_read {read : List Char → Option (α × List Char)} {s : String} {a : α}
    (begins : Begins Visible s.toList) (whole : read s.toList = some (a, [])) : document read s = some a := by
  have begun := skipBlanks_visible begins []
  rw [List.append_nil] at begun
  have ended : skipBlanks [] = [] := rfl
  simp [document, begun, whole, ended]

end Rulebook.Json
