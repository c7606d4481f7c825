import Rulebook.Format.Ron.Document
import Rulebook.Format.Ron.Value
import Rulebook.Proofs.Format.Written
import Rulebook.Proofs.Table

/-!
# Object notation reads back

Values, the fields of a snapshot, and brackets on one line or on several are read as they were written.
-/

namespace Rulebook.Ron

variable {α β : Type}

/-- A comma or the end of the bracket follows every part of it. -/
def Ends (rest : List Char) : Prop := Begins (· ∈ [',', ')', ']', '\x7d']) rest

/-- What can be said of a comma and of every closing bracket can be said of the character that follows. -/
theorem Ends.begins {p : Char → Prop} [DecidablePred p] {rest : List Char} (ends : Ends rest)
    (signs : [',', ')', ']', '\x7d'].all p = true) : Begins p rest := by
  obtain ⟨c, cs, rfl, sign⟩ := ends
  exact ⟨c, cs, rfl, of_decide_eq_true (List.all_eq_true.mp signs c sign)⟩

/-! ### Text -/

theorem codePoint_digits (c : Char) (rest : List Char) :
    codePoint (Nat.toDigits 16 c.toNat ++ '\x7d' :: rest) = some (c, rest) := by
  have read : Hex.read? 16 (Nat.toDigits 16 c.toNat) = some c.toNat :=
    Hex.read?_toDigits (by decide) (by decide) c.toNat
  have digits : ∀ d ∈ Nat.toDigits 16 c.toNat, decide (d ≠ '\x7d') = true := by
    intro d member
    have known := Hex.digit?_of_readOnto? read d member
    rw [decide_eq_true_eq]
    rintro rfl
    cases known
  have stops : Begins (fun d => decide (d ≠ '\x7d') = false) ('\x7d' :: rest) := ⟨'\x7d', rest, rfl, rfl⟩
  have some : 1 ≤ (Nat.toDigits 16 c.toNat).length := List.length_pos_iff.mpr Nat.toDigits_ne_nil
  have short : (Nat.toDigits 16 c.toNat).length ≤ 6 := by
    rw [Nat.length_toDigits_le_iff (by decide) (by decide)]
    have valid : c.toNat.isValidChar := c.valid
    rcases valid with low | high <;> omega
  simp only [codePoint]
  rw [takeWhile_run digits stops, dropWhile_run digits stops]
  simp [some, short, read, Hex.char?_toNat]

theorem quoted_escaped {cs rest : List Char} {c : Char} (read : unescape cs = some (c, rest))
    (joins : cs.head? ≠ some '\n' ∧ cs.head? ≠ some '\r') :
    quoted .chars ('\\' :: cs) = (quoted .chars rest).map fun p => (c :: p.1, p.2) := by
  have read' : Spelling.chars.escape cs = some (c, rest) := read
  rw [quoted]
  · split
    · next found =>
      cases found.symm.trans read'
      rfl
    · next none => cases none.symm.trans read'
  -- A backslash at the end of a line joins it to the next one instead.
  · rintro rest rfl
    exact joins.1 rfl
  · rintro rest rfl
    exact joins.2 rfl

theorem quoted_escape (c : Char) (rest : List Char) :
    quoted .chars (escape c ++ rest) = (quoted .chars rest).map fun p => (c :: p.1, p.2) := by
  unfold escape
  split
  · exact quoted_escaped rfl (by simp)
  · exact quoted_escaped rfl (by simp)
  · exact quoted_escaped rfl (by simp)
  · exact quoted_escaped rfl (by simp)
  · exact quoted_escaped rfl (by simp)
  · exact quoted_escaped rfl (by simp)
  · exact quoted_escaped rfl (by simp)
  · next quote backslash =>
    split
    · have read : unescape ('u' :: '\x7b' :: (Nat.toDigits 16 c.toNat ++ '\x7d' :: rest)) = some (c, rest) :=
        codePoint_digits c rest
      have whole := quoted_escaped read (by simp)
      simpa using whole
    · rw [List.singleton_append, quoted]
      · rfl
      · exact quote
      · exact fun _ same _ => backslash same
      · exact fun _ same _ => backslash same
      · exact backslash

theorem quoted_quote (s rest : List Char) :
    quoted .chars (s.flatMap escape ++ '"' :: rest) = some (s, rest) := by
  induction s with
  | nil => rw [List.flatMap_nil, List.nil_append, quoted]
  | cons c s ih =>
    rw [List.flatMap_cons, List.append_assoc, quoted_escape, ih]
    rfl

theorem text_quote (s : String) (rest : List Char) : text (quote s.toList ++ rest) = some (s, rest) := by
  have read := quoted_quote s.toList rest
  simp [text, quote, read]

/-! ### Blanks -/

theorem dropGap_cons {c : Char} (slash : c ≠ '/') (cs : List Char) :
    dropGap .open (c :: cs) = if isBlank c then dropGap .open cs else some (c :: cs) := by
  rw [dropGap]
  · exact fun _ same _ => slash same
  · exact fun _ same _ => slash same
  · exact slash

theorem skipBlanks_run {run : List Char} (blanks : ∀ c ∈ run, isBlank c = true) (cs : List Char) :
    skipBlanks (run ++ cs) = skipBlanks cs := by
  induction run with
  | nil => rfl
  | cons c run ih =>
    obtain ⟨first, later⟩ := List.forall_mem_cons.mp blanks
    have slash : c ≠ '/' := by
      rintro rfl
      cases first
    rw [List.cons_append, skipBlanks, dropGap_cons slash, if_pos first]
    exact ih later

theorem skipBlanks_newline (l : Layout) (depth : Nat) (cs : List Char) :
    skipBlanks (l.newline depth ++ cs) = skipBlanks cs := by
  apply skipBlanks_run
  intro c member
  rcases List.mem_cons.mp member with rfl | space
  · rfl
  · rw [List.eq_of_mem_replicate space]
    rfl

theorem skipBlanks_cons {c : Char} (stops : isBlank c = false) (slash : c ≠ '/') (cs : List Char) :
    skipBlanks (c :: cs) = some (c :: cs) := by
  rw [skipBlanks, dropGap_cons slash, stops]
  rfl

theorem isBlank_of_visible {c : Char} (visible : Visible c) : isBlank c = false := by
  obtain ⟨least, greatest, _⟩ := visible
  simp only [isBlank, Bool.or_eq_false_iff, Bool.and_eq_false_iff, decide_eq_false_iff_not]
  omega

theorem skipBlanks_visible {cs : List Char} (visible : Begins Visible cs) (rest : List Char) :
    skipBlanks (cs ++ rest) = some (cs ++ rest) := by
  obtain ⟨c, more, rfl, seen⟩ := visible
  refine skipBlanks_cons (isBlank_of_visible seen) ?_ (more ++ rest)
  rintro rfl
  exact seen.2.2 (by decide)

/-! ### Brackets -/

variable {item : List Char → Option (α × List Char)} {write : α → List Char} {close : Char}

theorem lines_cons (depth : Nat) (part : List Char) (parts : List (List Char)) :
    layout.lines depth (part :: parts) = layout.newline depth ++ part ++ [','] ++ layout.lines depth parts := by
  cases parts with
  | nil => simp [Layout.lines, layout]
  | cons => rfl

/-- What a closing bracket is: it stands between tokens, but is no part of what is closed. -/
structure Closes (close : Char) : Prop where
  stops : isBlank close = false
  slash : close ≠ '/'
  comma : close ≠ ','
  hidden : ¬ Visible close

theorem closes_of_bracket {close : Char} (bracket : close ∈ [')', ']', '\x7d']) : Closes close := by
  simp only [List.mem_cons, List.not_mem_nil, or_false] at bracket
  rcases bracket with rfl | rfl | rfl <;> exact ⟨rfl, by decide, by decide, by decide⟩

/-- A part is read, and what stands behind it decides how to go on. -/
theorem elements_part {part : List Char} {a : α} (readable : Readable Ends item part a) (closes : Closes close)
    (fuel : Nat) {c : Char} {cs : List Char} (ends : Ends (c :: cs)) (stops : isBlank c = false) (slash : c ≠ '/') :
    elements item close (fuel + 1) (part ++ c :: cs) =
      if c = ',' then (elements item close fuel cs).map fun p => (a :: p.1, p.2)
      else if c = close then some ([a], cs) else none := by
  obtain ⟨d, more, rfl, seen⟩ := readable.visible
  -- The reader looks for the end before each part, since a comma may stand behind the last one too.
  have other : d ≠ close := fun same => closes.hidden (same ▸ seen)
  have begins := skipBlanks_visible readable.visible (c :: cs)
  have read := readable.reads (c :: cs) ends
  rw [List.cons_append] at begins read
  rw [List.cons_append, elements, begins]
  simp only [bind, Option.bind, other, if_false, read, skipBlanks_cons stops slash]
  cases elements item close fuel cs <;> rfl

theorem elements_comma {part : List Char} {a : α} (readable : Readable Ends item part a) (closes : Closes close)
    (fuel : Nat) (cs : List Char) :
    elements item close (fuel + 1) (part ++ ',' :: cs) =
      (elements item close fuel cs).map fun p => (a :: p.1, p.2) := by
  rw [elements_part readable closes fuel ⟨',', cs, rfl, by decide⟩ rfl (by decide), if_pos rfl]

theorem elements_newline (depth fuel : Nat) (cs : List Char) :
    elements item close (fuel + 1) (layout.newline depth ++ cs) = elements item close (fuel + 1) cs := by
  rw [elements, elements, skipBlanks_newline]

theorem elements_lines {l : List α} (readable : ∀ a ∈ l, Readable Ends item (write a) a) (closes : Closes close)
    {fuel : Nat} (enough : l.length < fuel) (depth : Nat) {behind rest : List Char}
    (closed : skipBlanks behind = some (close :: rest)) :
    elements item close fuel (layout.lines depth (l.map write) ++ behind) = some (l, rest) := by
  obtain ⟨fuel, rfl⟩ : ∃ n, fuel = n + 1 := ⟨fuel - 1, by omega⟩
  induction l generalizing fuel with
  | nil =>
    rw [List.map_nil, Layout.lines, List.nil_append, elements, closed]
    simp
  | cons a l ih =>
    obtain ⟨part, parts⟩ := List.forall_mem_cons.mp readable
    rw [List.length_cons] at enough
    obtain ⟨fuel, rfl⟩ : ∃ n, fuel = n + 1 := ⟨fuel - 1, by omega⟩
    rw [List.map_cons, lines_cons, List.append_assoc, List.append_assoc, List.append_assoc, elements_newline,
      List.singleton_append, elements_comma part closes, ih parts fuel (by omega)]
    rfl

/-- On one line no comma stands behind the last part. -/
theorem elements_inline {l : List α} (readable : ∀ a ∈ l, Readable Ends item (write a) a)
    (bracket : close ∈ [')', ']', '\x7d']) {fuel : Nat} (enough : l.length < fuel) (rest : List Char) :
    elements item close fuel ([','].intercalate (l.map write) ++ close :: rest) = some (l, rest) := by
  have closes := closes_of_bracket bracket
  obtain ⟨fuel, rfl⟩ : ∃ n, fuel = n + 1 := ⟨fuel - 1, by omega⟩
  induction l generalizing fuel with
  | nil =>
    rw [List.map_nil, List.intercalate_nil, List.nil_append, elements, skipBlanks_cons closes.stops closes.slash]
    simp
  | cons a l ih =>
    obtain ⟨part, parts⟩ := List.forall_mem_cons.mp readable
    cases l with
    | nil =>
      have ends : Ends (close :: rest) := ⟨close, rest, rfl, List.mem_cons_of_mem _ bracket⟩
      rw [List.map_singleton, List.intercalate_singleton,
        elements_part part closes fuel ends closes.stops closes.slash, if_neg closes.comma, if_pos rfl]
    | cons b l =>
      rw [List.length_cons] at enough
      obtain ⟨fuel, rfl⟩ : ∃ n, fuel = n + 1 := ⟨fuel - 1, by omega⟩
      have later := ih parts fuel (by omega)
      rw [List.map_cons] at later
      rw [List.map_cons, List.map_cons, List.intercalate_cons_cons, List.append_assoc, List.append_assoc,
        List.singleton_append, elements_comma part closes, later]
      rfl

theorem bracketed_bracket {opening : Char} {l : List α} (readable : ∀ a ∈ l, Readable Ends item (write a) a)
    (closes : Closes close) (depth : Nat) (rest : List Char) :
    bracketed opening close item (layout.bracket depth opening close (l.map write) ++ rest) = some (l, rest) := by
  have close' := skipBlanks_cons closes.stops closes.slash rest
  by_cases none : l = []
  · subst none
    simp [Layout.bracket, bracketed, content, elements, close']
  · have open' : layout.bracket depth opening close (l.map write) ++ rest =
        opening :: (layout.lines (depth + 1) (l.map write) ++ (layout.newline depth ++ close :: rest)) := by
      simp [Layout.bracket, none]
    have lines := layout.length_le_lines (depth + 1) (l.map write)
    rw [List.length_map] at lines
    rw [open', bracketed, if_pos rfl, content]
    refine elements_lines readable closes ?_ (depth + 1) ?_
    · rw [List.length_append]
      omega
    · rw [skipBlanks_newline, close']

theorem bracketed_inline {opening : Char} {l : List α} (readable : ∀ a ∈ l, Readable Ends item (write a) a)
    (bracket : close ∈ [')', ']', '\x7d']) (rest : List Char) :
    bracketed opening close item (inlineBracket opening close (l.map write) ++ rest) = some (l, rest) := by
  have commas := length_le_intercalate (l.map write)
  rw [List.length_map] at commas
  rw [inlineBracket, List.cons_append, List.cons_append, List.append_assoc, List.singleton_append, bracketed,
    if_pos rfl, content]
  refine elements_inline readable bracket ?_ rest
  rw [List.length_append, List.length_cons]
  omega

theorem entry_readable {key : List Char → Option (β × List Char)} {value : β → List Char → Option (α × List Char)}
    {name : β} {written gap part : List Char} {a : α} (visible : Begins Visible written)
    (keyed : ∀ cs, key (written ++ ':' :: cs) = some (name, ':' :: cs)) (blanks : gap.all isBlank = true)
    (readable : Readable Ends (value name) part a) :
    Readable Ends (entry key value) (written ++ ':' :: gap ++ part) (name, a) where
  visible := (visible.append _).append part
  reads := by
    intro rest ends
    have colon : ∀ cs, skipBlanks (':' :: cs) = some (':' :: cs) := fun cs => skipBlanks_cons rfl (by decide) cs
    have read := readable.reads rest ends
    simp [entry, keyed, colon, skipBlanks_run (List.all_eq_true.mp blanks), skipBlanks_visible readable.visible, read]

/-! ### Words -/

/-- The words that make a literal of the quote or the sign behind them. -/
def openers : List (List Char) := [['r'], ['b'], ['b', 'r']]

/-- Whether the letters are read as one word, whatever stands behind them. -/
def isWord : List Char → Bool
  | [] => false
  | c :: cs => Text.isIdentifierStart c && cs.all Text.isIdentifierPart && !openers.contains (c :: cs)

theorem exists_word {word : List Char} (isWord : isWord word = true) :
    ∃ c cs, word = c :: cs ∧ Text.isIdentifierStart c = true ∧ (∀ d ∈ cs, Text.isIdentifierPart d = true) ∧
      c :: cs ∉ openers := by
  cases word with
  | nil => cases isWord
  | cons c cs =>
    simp only [Ron.isWord, Bool.and_eq_true, List.all_eq_true, Bool.not_eq_true', List.contains_eq_mem,
      decide_eq_false_iff_not] at isWord
    exact ⟨c, cs, rfl, isWord.1.1, isWord.1.2, isWord.2⟩

theorem exists_opener {cs : List Char} (literal : beginsLiteral cs = true) :
    ∃ c os sign rest, c :: os ∈ openers ∧ sign ∈ ['"', '#', '\''] ∧ cs = c :: (os ++ sign :: rest) := by
  unfold beginsLiteral at literal
  split at literal
  · exact ⟨'r', [], '"', _, by decide, by decide, rfl⟩
  · exact ⟨'r', [], '#', _, by decide, by decide, rfl⟩
  · exact ⟨'b', [], '"', _, by decide, by decide, rfl⟩
  · exact ⟨'b', [], '\'', _, by decide, by decide, rfl⟩
  · exact ⟨'b', ['r'], '"', _, by decide, by decide, rfl⟩
  · exact ⟨'b', ['r'], '#', _, by decide, by decide, rfl⟩
  · cases literal

theorem beginsLiteral_sign {c : Char} (start : Text.isIdentifierStart c = false) (cs : List Char) :
    beginsLiteral (c :: cs) = false := by
  have letters : openers.all (·.all Text.isIdentifierStart) = true := by decide
  refine Bool.eq_false_iff.mpr fun literal => ?_
  obtain ⟨d, os, sign, rest, opener, _, same⟩ := exists_opener literal
  have letter := List.all_eq_true.mp (List.all_eq_true.mp letters _ opener) d List.mem_cons_self
  rw [← (List.cons.inj same).1, start] at letter
  cases letter

theorem beginsLiteral_word {c : Char} {cs rest : List Char} (parts : ∀ d ∈ cs, Text.isIdentifierPart d = true)
    (other : c :: cs ∉ openers) (stops : Begins (Text.isIdentifierPart · = false) rest) :
    beginsLiteral (c :: (cs ++ rest)) = false := by
  have letters : openers.all (·.all Text.isIdentifierPart) = true := by decide
  have signs : ['"', '#', '\''].all (fun d => !Text.isIdentifierPart d) = true := by decide
  refine Bool.eq_false_iff.mpr fun literal => ?_
  obtain ⟨d, os, sign, more, opener, isSign, same⟩ := exists_opener literal
  obtain ⟨rfl, tails⟩ := List.cons.inj same
  have opens := List.all_eq_true.mp (List.all_eq_true.mp letters _ opener)
  have ends : Begins (Text.isIdentifierPart · = false) (sign :: more) :=
    ⟨sign, more, rfl, by simpa using List.all_eq_true.mp signs sign isSign⟩
  -- Both are the letters up to the first character that is no part of a word.
  have left := takeWhile_run parts stops
  have right := takeWhile_run (fun e member => opens e (List.mem_cons_of_mem _ member)) ends
  rw [tails, right] at left
  exact other (left ▸ opener)

theorem rawIdentifier_eq_none {cs : List Char} (plain : beginsLiteral cs = false) : rawIdentifier cs = none := by
  unfold rawIdentifier
  split
  · cases plain
  · rfl

/-- No word goes on with the character, and none is spoiled by it. -/
def Stops (rest : List Char) : Prop :=
  Begins (fun d => Text.isIdentifierPart d = false ∧ spoilsIdentifier d = false) rest

theorem identifiers_word {word rest : List Char} (isWord : isWord word = true) (stops : Stops rest) :
    rawIdentifier (word ++ rest) = none ∧ plainIdentifier (word ++ rest) = some (String.ofList word, rest) := by
  obtain ⟨c, cs, rfl, start, parts, other⟩ := exists_word isWord
  obtain ⟨d, more, rfl, part, spoils⟩ := stops
  have run : Begins (Text.isIdentifierPart · = false) (d :: more) := ⟨d, more, rfl, part⟩
  have plain := beginsLiteral_word parts other run
  refine ⟨rawIdentifier_eq_none plain, ?_⟩
  rw [List.cons_append, plainIdentifier, plain, start]
  simp [takeWhile_run parts run, dropWhile_run parts run, spoils]

theorem identifier_name {name : String} (isWord : isWord name.toList = true) (cs : List Char) :
    identifier (name.toList ++ ':' :: cs) = some (name, ':' :: cs) := by
  obtain ⟨raw, plain⟩ := identifiers_word isWord ⟨':', cs, rfl, by decide⟩
  rw [identifier, raw, plain, String.ofList_toList]
  rfl

theorem plainIdentifier_eq_none {cs : List Char} (begins : Begins (Text.isIdentifierStart · = false) cs) :
    plainIdentifier cs = none := by
  obtain ⟨c, rest, rfl, start⟩ := begins
  rw [plainIdentifier, start]
  split <;> rfl

theorem Ends.stops {rest : List Char} (ends : Ends rest) : Stops rest := ends.begins (by decide)

/-! ### Numbers -/

theorem base_decimal (n : Nat) {rest : List Char} (ends : Ends rest) :
    base (Nat.toDigits 10 n ++ rest) = (10, Nat.toDigits 10 n ++ rest) := by
  obtain ⟨d, ds, same, _, digits⟩ := exists_decimal n
  -- The second character is a digit or ends the part, and is no mark of a base.
  have second : Begins (fun c => c ≠ 'x' ∧ c ≠ 'o' ∧ c ≠ 'b') (ds ++ rest) := by
    cases ds with
    | nil => exact ends.begins (by decide)
    | cons e es =>
      have digit := digits e List.mem_cons_self
      exact ⟨e, es ++ rest, rfl, ne_of_isDigit digit rfl, ne_of_isDigit digit rfl, ne_of_isDigit digit rfl⟩
  obtain ⟨e, es, tail, hex, oct, bin⟩ := second
  rw [same, List.cons_append, tail]
  unfold base
  split
  · next same => exact (hex (List.cons.inj (List.cons.inj same).2).1).elim
  · next same => exact (oct (List.cons.inj (List.cons.inj same).2).1).elim
  · next same => exact (bin (List.cons.inj (List.cons.inj same).2).1).elim
  · rfl

theorem natural_decimal (n : Nat) {rest : List Char} (ends : Ends rest) :
    natural (Nat.toDigits 10 n ++ rest) = some (n, rest) := by
  have read : Hex.read? 10 (Nat.toDigits 10 n) = some n := Hex.read?_toDigits (by decide) (by decide) n
  have digits : ∀ c ∈ Nat.toDigits 10 n, isDigitOrGap c = true := by
    intro c member
    rw [isDigitOrGap, Hex.digit?_of_readOnto? read c member, Bool.or_true]
  have stops : Begins (isDigitOrGap · = false) rest := ends.begins (by decide)
  have gaps : (Nat.toDigits 10 n).filter (· ≠ '_') = Nat.toDigits 10 n := by
    refine List.filter_eq_self.mpr fun c member => ?_
    simpa using ne_of_isDigit (isDigit_of_mem_decimal member) rfl
  simp only [natural, base_decimal n ends]
  rw [takeWhile_run digits stops, dropWhile_run digits stops]
  split
  · next none => exact (Nat.toDigits_ne_nil none).elim
  · next gap =>
    have digit := isDigit_of_mem_decimal (gap ▸ List.mem_cons_self)
    cases digit
  · rw [gaps, read]
    rfl

theorem signed_decimal (n : Nat) {rest : List Char} (ends : Ends rest) :
    signed (Nat.toDigits 10 n ++ rest) = some ((n : Int), rest) := by
  have read := natural_decimal n ends
  obtain ⟨d, ds, same, digit, _⟩ := exists_decimal n
  rw [same, List.cons_append] at read ⊢
  unfold signed
  split
  · next sign =>
    obtain ⟨rfl, _⟩ := List.cons.inj sign
    cases digit
  · next sign =>
    obtain ⟨rfl, _⟩ := List.cons.inj sign
    cases digit
  · rw [read]
    rfl

theorem signed_digits (n : Number) {rest : List Char} (ends : Ends rest) :
    signed (n.digits ++ rest) = some (n.val, rest) := by
  unfold Number.digits
  split
  · have read := natural_decimal n.val.natAbs ends
    simp only [List.cons_append, signed, read, Option.map_some]
    rw [show -(n.val.natAbs : Int) = n.val by omega]
  · have read := signed_decimal n.val.natAbs ends
    rwa [show (n.val.natAbs : Int) = n.val by omega] at read

theorem whole_of_signed {cs rest : List Char} {i : Int} (read : signed cs = some (i, rest)) (ends : Ends rest)
    (fits : (Whole.mk i none).fits = true) : whole cs = some (⟨i, none⟩, rest) := by
  have word : splitWord rest = ("", rest) := by
    obtain ⟨d, more, rfl, part, _⟩ := ends.stops
    simp [splitWord, part]
  have bare : Kind.ofSuffix? "" = none := rfl
  simp [whole, read, word, bare, fits]

theorem whole_digits (n : Number) {rest : List Char} (ends : Ends rest) :
    whole (n.digits ++ rest) = some (⟨n.val, none⟩, rest) := by
  refine whole_of_signed (signed_digits n ends) ends ?_
  simp [Whole.fits, Kind.holds, Kind.least, Kind.greatest, n.least_le, n.le_greatest]

/-- A number without a sign is read as one of a kind that holds it. -/
theorem ofKind_decimal {k : Kind} {n : Nat} (held : k.holds n = true) (bound : n < 18446744073709551616)
    {rest : List Char} (ends : Ends rest) : ofKind k (Nat.toDigits 10 n ++ rest) = some ((n : Int), rest) := by
  have wide : Kind.u64.holds n = true := by
    simp [Kind.holds, Kind.least, Kind.greatest]
    omega
  have fits : (Whole.mk n none).fits = true := by simp [Whole.fits, wide]
  have read := whole_of_signed (signed_decimal n ends) ends fits
  simp [ofKind, read, held]

/-! ### Values -/

theorem value_of_word {word rest : List Char} {v : Value} (ends : Ends rest) (isWord : isWord word = true)
    (named : valueOfName? (String.ofList word) = some v) : value (word ++ rest) = some (v, rest) := by
  obtain ⟨raw, plain⟩ := identifiers_word isWord ends.stops
  have read : namedValue (word ++ rest) = some (v, rest) := by
    simp [namedValue, raw, plain, named]
  obtain ⟨c, cs, rfl, start, _⟩ := exists_word isWord
  have mute : Text.isIdentifierStart '(' = false ∧ Text.isIdentifierStart '.' = false := by decide
  unfold value
  split
  · next same => cases start.symm.trans ((List.cons.inj same).1 ▸ mute.1)
  · next same => cases start.symm.trans ((List.cons.inj same).1 ▸ mute.2)
  · rw [read]
    rfl

/-- What begins with no letter is no word and no text behind a letter. -/
theorem value_of_sign {c : Char} {cs : List Char} (start : Text.isIdentifierStart c = false)
    (punctuation : c ≠ '(' ∧ c ≠ '.') :
    value (c :: cs) = (textValue (c :: cs)).or (numberValue (c :: cs)) := by
  have raw : rawIdentifier (c :: cs) = none := rawIdentifier_eq_none (beginsLiteral_sign start cs)
  have plain : plainIdentifier (c :: cs) = none := plainIdentifier_eq_none ⟨c, cs, rfl, start⟩
  have unnamed : namedValue (c :: cs) = none := by
    simp [namedValue, raw, plain]
  unfold value
  split
  · next same => exact (punctuation.1 (List.cons.inj same).1).elim
  · next same => exact (punctuation.2 (List.cons.inj same).1).elim
  · rw [unnamed]
    rfl

theorem isIdentifierStart_of_isDigit {c : Char} (digit : c.isDigit = true) : Text.isIdentifierStart c = false := by
  obtain ⟨_, greatest⟩ := code_of_isDigit digit
  have below : c.toNat < 0x41 := by omega
  rw [Text.isIdentifierStart, decide_eq_false (ne_of_isDigit digit rfl), Bool.false_or, Text.identifierStartRanges,
    Text.inRanges, if_pos below]

theorem value_digits (n : Number) {rest : List Char} (ends : Ends rest) :
    value (n.digits ++ rest) = some (.number n, rest) := by
  have read := whole_digits n ends
  obtain ⟨c, cs, same, first⟩ := n.digits_begin
  rw [same, List.cons_append] at read ⊢
  have start : Text.isIdentifierStart c = false := by
    rcases first with rfl | digit
    · decide
    · exact isIdentifierStart_of_isDigit digit
  have other : c ∉ ['(', '.', '"', 'r', 'b'] := by
    rcases first with rfl | digit
    · decide
    · exact not_mem_of_isDigit digit (by decide)
  simp only [List.mem_cons, not_or] at other
  obtain ⟨parenthesis, point, quote, r, b, _⟩ := other
  have untexted : text (c :: (cs ++ rest)) = none := by
    unfold text
    split
    · next same => exact (quote (List.cons.inj same).1).elim
    · next same => exact (r (List.cons.inj same).1).elim
    · rfl
  have unspelled : bytes (c :: (cs ++ rest)) = none := by
    unfold bytes
    split
    · next same => exact (b (List.cons.inj same).1).elim
    · next same => exact (b (List.cons.inj same).1).elim
    · rfl
  have unquoted : byteChar (c :: (cs ++ rest)) = none := by
    unfold byteChar
    split
    · next same => exact (b (List.cons.inj same).1).elim
    · next same => exact (b (List.cons.inj same).1).elim
    · rfl
  rw [value_of_sign start ⟨parenthesis, point⟩]
  simp [textValue, untexted, unspelled, numberValue, unquoted, read, Number.ofInt?_val]

theorem value_quote (s : String) (rest : List Char) : value (quote s.toList ++ rest) = some (.text s, rest) := by
  have read := text_quote s rest
  have whole : quote s.toList ++ rest = '"' :: (s.toList.flatMap escape ++ ['"'] ++ rest) := rfl
  rw [whole] at read ⊢
  rw [value_of_sign (by decide) (by decide), textValue, read]
  rfl

theorem value_readable (v : Value) : Readable Ends value (ofValue v) v := by
  cases v with
  | null => exact ⟨⟨'(', _, rfl, by decide⟩, fun _ _ => rfl⟩
  | bool b =>
    cases b with
    | false =>
      refine ⟨⟨'f', ['a', 'l', 's', 'e'], rfl, by decide⟩, fun rest ends => ?_⟩
      exact value_of_word ends (by decide) rfl
    | true =>
      refine ⟨⟨'t', ['r', 'u', 'e'], rfl, by decide⟩, fun rest ends => ?_⟩
      exact value_of_word ends (by decide) rfl
  | number n => exact ⟨n.digits_visible, fun rest ends => value_digits n ends⟩
  | text s => exact ⟨⟨'"', _, rfl, by decide⟩, fun rest _ => value_quote s rest⟩

/-! ### Snapshots -/

theorem fields_read (depth : Nat) (fs : Fields) (rest : List Char) :
    fields (ofFields depth fs ++ rest) = some (fs, rest) := by
  have entries : ∀ p ∈ fs.entries, Readable Ends (entry text fun _ => value)
      (quote p.1.toList ++ [':', ' '] ++ ofValue p.2) p := fun p _ =>
    entry_readable ⟨'"', _, rfl, by decide⟩ (fun cs => text_quote p.1 (':' :: cs)) (by decide) (value_readable p.2)
  have read : map value (ofFields depth fs ++ rest) = some (fs.entries, rest) :=
    bracketed_bracket entries (closes_of_bracket (by decide)) depth rest
  rw [fields, read, Option.map_some, Table.ofList_entries]

theorem snapshots_read (depth : Nat) (h : History) (rest : List Char) :
    list fields (layout.bracket depth '[' ']' (h.map (ofFields (depth + 1))) ++ rest) = some (h, rest) := by
  have snapshots : ∀ fs ∈ h, Readable Ends fields (ofFields (depth + 1) fs) fs := fun fs _ =>
    ⟨layout.bracket_begins _ _ (by decide), fun rest _ => fields_read _ fs rest⟩
  exact bracketed_bracket snapshots (closes_of_bracket (by decide)) depth rest

/-! ### Documents -/

/-- A record without its name is a bracket of fields. -/
theorem record_of_bracketed {field : String → List Char → Option (α × List Char)} {name : String} {cs rest : List Char}
    {l : List (String × α)} (begins : Begins (· = '(') cs)
    (read : bracketed '(' ')' (entry identifier field) cs = some (l, rest)) :
    record false name field cs = some (l, rest) := by
  obtain ⟨c, cs, rfl, rfl⟩ := begins
  exact read

theorem record_bracket {field : String → List Char → Option (α × List Char)} {write : String × α → List Char}
    {l : List (String × α)} (readable : ∀ p ∈ l, Readable Ends (entry identifier field) (write p) p) (name : String)
    (depth : Nat) (rest : List Char) :
    record false name field (layout.bracket depth '(' ')' (l.map write) ++ rest) = some (l, rest) := by
  refine record_of_bracketed (Begins.append ?_ rest) ?_
  · exact layout.bracket_begins depth _ rfl
  · exact bracketed_bracket readable (closes_of_bracket (by decide)) depth rest

/-- A document that begins with a parenthesis has no header. -/
theorem document_of_read {read : Extensions → List Char → Option (α × List Char)} {s : String} {a : α}
    (begins : Begins (· = '(') s.toList) (whole : read {} s.toList = some (a, [])) : document read s = some a := by
  obtain ⟨c, cs, same, rfl⟩ := begins
  have begun : skipBlanks ('(' :: cs) = some ('(' :: cs) := skipBlanks_cons rfl (by decide) cs
  have unheaded : header {} (s.length + 1) ('(' :: cs) = some ({}, '(' :: cs) := by
    rw [header, begun]
    rfl
  have ended : skipBlanks [] = some [] := rfl
  rw [same] at whole
  simp [document, same, unheaded, whole, ended]

end Rulebook.Ron
