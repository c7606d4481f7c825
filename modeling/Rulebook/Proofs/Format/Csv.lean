import Mathlib.Data.List.Basic
import Rulebook.History.Listing

/-!
# Reading comma-separated values

A reader of comma-separated values, and what it finds in written records. Every cell comes back as it was, wherever
commas, quotes and line feeds stand in it, but for one: a carriage return at the end of a record is taken for a part of
the line end if no quotes keep them apart. `read_records` says so of any number of records.
-/

namespace Rulebook.Csv

/-- Where a reader stands. -/
inductive Place where
  | edge
  | bare
  | quoted
  /-- Behind a quote inside of quotes, which closes the cell unless another one follows. -/
  | closed
deriving DecidableEq

/-- The records of a text, where `row` and `cell` are what was read of the first one. Outside of quotes a comma ends the
cell, and a line feed ends the record, together with a carriage return right before it. -/
def readOn (place : Place) (row : List (List Char)) (cell : List Char) :
    List Char → Option (List (List (List Char)))
  | [] =>
    if place = .quoted then none
    else if place = .edge ∧ row = [] then some []
    else some [row ++ [cell]]
  | c :: cs =>
    if place = .quoted then
      if c = '"' then readOn .closed row cell cs else readOn .quoted row (cell ++ [c]) cs
    else if c = '"' ∧ place = .edge then readOn .quoted row cell cs
    else if c = '"' ∧ place = .closed then readOn .quoted row (cell ++ [c]) cs
    else if c = ',' then readOn .edge (row ++ [cell]) [] cs
    else if c = '\n' then (readOn .edge [] [] cs).map ((row ++ [cell]) :: ·)
    else if c = '\r' ∧ cs.head? = some '\n' then readOn place row cell cs
    else if place = .closed then none
    else readOn .bare row (cell ++ [c]) cs

/-- The records of a text. A quote that is not closed, or that closes a cell which goes on behind it, makes it
unreadable. -/
def read (text : String) : Option (List (List (List Char))) := readOn .edge [] [] text.toList

variable {place : Place} {row : List (List Char)} {got text rest : List Char}

/-! ### Ends -/

theorem readOn_comma (outside : place ≠ .quoted) :
    readOn place row got (',' :: rest) = readOn .edge (row ++ [got]) [] rest := by
  simp [readOn, outside]

theorem readOn_line (outside : place ≠ .quoted) :
    readOn place row got ('\n' :: rest) = (readOn .edge [] [] rest).map ((row ++ [got]) :: ·) := by
  simp [readOn, outside]

theorem readOn_return (outside : place ≠ .quoted) :
    readOn place row got ('\r' :: '\n' :: rest) = readOn place row got ('\n' :: rest) := by
  rw [readOn, if_neg outside]
  simp

/-! ### Cells -/

theorem readOn_quoted :
    readOn .quoted row got ((text.flatMap fun c => if c = '"' then ['"', '"'] else [c]) ++ '"' :: rest) =
      readOn .closed row (got ++ text) rest := by
  induction text generalizing got with
  | nil => simp [readOn]
  | cons c text ih =>
    have further := @ih (got ++ [c])
    rw [List.append_assoc] at further
    by_cases quote : c = '"'
    · subst quote
      simpa [readOn] using further
    · simpa [readOn, quote] using further

theorem readOn_char {c : Char} (inside : place = .edge ∨ place = .bare) (plain : needsQuotes c = false)
    (apart : ¬ (c = '\r' ∧ rest.head? = some '\n')) :
    readOn place row got (c :: rest) = readOn .bare row (got ++ [c]) rest := by
  simp only [needsQuotes, Bool.or_eq_false_iff, decide_eq_false_iff_not] at plain
  obtain ⟨⟨comma, quote⟩, line⟩ := plain
  rcases inside with rfl | rfl <;>
    rw [readOn, if_neg (by decide), if_neg (by simp [quote]), if_neg (by simp [quote]), if_neg comma, if_neg line,
      if_neg apart, if_neg (by decide)]

theorem readOn_bare (inside : place = .edge ∨ place = .bare) (plain : text.any needsQuotes = false)
    (apart : ¬ (text.getLast? = some '\r' ∧ rest.head? = some '\n')) :
    ∃ behind, behind ≠ .quoted ∧ readOn place row got (text ++ rest) = readOn behind row (got ++ text) rest := by
  induction text generalizing place got with
  | nil =>
    refine ⟨place, ?_, by rw [List.append_nil, List.nil_append]⟩
    rcases inside with rfl | rfl <;> decide
  | cons c text ih =>
    rw [List.any_cons, Bool.or_eq_false_iff] at plain
    obtain ⟨first, later⟩ := plain
    have here : ¬ (c = '\r' ∧ (text ++ rest).head? = some '\n') := by
      rintro ⟨rfl, next⟩
      cases text with
      | nil => exact apart ⟨rfl, next⟩
      | cons d text =>
        cases next
        simp [needsQuotes] at later
    have there : ¬ (text.getLast? = some '\r' ∧ rest.head? = some '\n') := by
      rintro ⟨last, next⟩
      cases text with
      | nil => cases last
      | cons d text => exact apart ⟨last, next⟩
    obtain ⟨behind, outside, same⟩ := @ih .bare (got ++ [c]) (.inr rfl) later there
    rw [List.append_assoc] at same
    exact ⟨behind, outside, (readOn_char inside first here).trans same⟩

/-- A cell that is written without quotes, though its last character is a carriage return. -/
def BareReturn (text : List Char) : Prop := text.any needsQuotes = false ∧ text.getLast? = some '\r'

instance : DecidablePred BareReturn := fun _ => inferInstanceAs (Decidable (_ ∧ _))

/-- A written cell is read to its end, unless a line feed behind it turns its carriage return into a line end. -/
theorem readOn_cell (apart : ¬ (BareReturn text ∧ rest.head? = some '\n')) :
    ∃ behind, behind ≠ .quoted ∧ readOn .edge row [] (cell text ++ rest) = readOn behind row text rest := by
  cases quotes : text.any needsQuotes with
  | true =>
    refine ⟨.closed, by decide, ?_⟩
    rw [cell, if_pos quotes, List.append_assoc, List.cons_append, List.singleton_append]
    exact readOn_quoted
  | false =>
    rw [cell, if_neg (by simp [quotes])]
    exact readOn_bare (.inl rfl) quotes fun ⟨last, next⟩ => apart ⟨⟨quotes, last⟩, next⟩

/-- A cell as it is read at the end of its record. -/
def clip (text : List Char) : List Char := if BareReturn text then text.dropLast else text

theorem readOn_last :
    readOn .edge row [] (cell text ++ '\n' :: rest) = (readOn .edge [] [] rest).map ((row ++ [clip text]) :: ·) := by
  by_cases bare : BareReturn text
  · obtain ⟨front, rfl⟩ := List.getLast?_eq_some_iff.mp bare.2
    have plain := bare.1
    have written : cell (front ++ ['\r']) = front ++ ['\r'] := if_neg (by simp [plain])
    have clipped : clip (front ++ ['\r']) = front := (if_pos bare).trans List.dropLast_concat
    rw [List.any_append, Bool.or_eq_false_iff] at plain
    have apart : ¬ (front.getLast? = some '\r' ∧ ('\r' :: '\n' :: rest).head? = some '\n') :=
      fun ⟨_, next⟩ => nomatch next
    obtain ⟨behind, outside, same⟩ := @readOn_bare .edge row [] front _ (.inl rfl) plain.1 apart
    rw [written, clipped, List.append_assoc]
    exact same.trans ((readOn_return outside).trans (readOn_line outside))
  · obtain ⟨behind, outside, same⟩ := @readOn_cell row text ('\n' :: rest) fun both => bare both.1
    rw [same, readOn_line outside, clip, if_neg bare]

/-! ### Records -/

/-- A record as it is read. -/
def clipLast : List (List Char) → List (List Char)
  | [] => []
  | [text] => [clip text]
  | text :: next :: cells => text :: clipLast (next :: cells)

theorem length_clipLast (cells : List (List Char)) : (clipLast cells).length = cells.length := by
  fun_induction clipLast cells with
  | case1 => rfl
  | case2 => rfl
  | case3 text next cells ih => exact congrArg (· + 1) ih

theorem clip_eq_iff : clip text = text ↔ ¬ BareReturn text := by
  by_cases bare : BareReturn text
  · obtain ⟨front, rfl⟩ := List.getLast?_eq_some_iff.mp bare.2
    simp [clip, bare]
  · simp [clip, bare]

theorem clipLast_eq_iff {cells : List (List Char)} :
    clipLast cells = cells ↔ ∀ text, cells.getLast? = some text → ¬ BareReturn text := by
  fun_induction clipLast cells with
  | case1 => simp
  | case2 text => simp [clip_eq_iff]
  | case3 text next cells ih => simpa using ih

theorem readOn_record {cells : List (List Char)} (kept : cells ≠ []) :
    readOn .edge row [] (record (cells.map cell) ++ rest) =
      (readOn .edge [] [] rest).map ((row ++ clipLast cells) :: ·) := by
  fun_induction clipLast cells generalizing row with
  | case1 => exact absurd rfl kept
  | case2 text =>
    simp only [record, List.map_cons, List.map_nil, List.intercalate_singleton, List.append_assoc]
    exact readOn_last
  | case3 text next cells ih =>
    have first : record ((text :: next :: cells).map cell) ++ rest =
        cell text ++ ',' :: (record ((next :: cells).map cell) ++ rest) := by
      simp [record, List.intercalate_cons_cons]
    obtain ⟨behind, outside, same⟩ :=
      @readOn_cell row text (',' :: (record ((next :: cells).map cell) ++ rest)) fun both => nomatch both.2
    rw [first, same, readOn_comma outside, ih (List.cons_ne_nil _ _), List.append_assoc]
    rfl

/-- Written records are read one by one, each with the last cell clipped. -/
theorem read_records {records : List (List (List Char))} (kept : ∀ cells ∈ records, cells ≠ []) :
    read (String.ofList (records.map fun cells => record (cells.map cell)).flatten) =
      some (records.map clipLast) := by
  rw [read, String.toList_ofList]
  induction records with
  | nil => rfl
  | cons cells records ih =>
    obtain ⟨first, later⟩ := List.forall_mem_cons.mp kept
    rw [List.map_cons, List.flatten_cons, readOn_record first, ih later]
    rfl

end Rulebook.Csv
