import Mathlib.Data.String.Basic
import Rulebook.Sentence.Chunk

/-!
# Words and phrases

A phrase is cut back into its words at the spaces, since no word has a space in it.
-/

namespace Rulebook

/-! ### Cutting at spaces -/

open String in
theorem splitOnAux_space (l m r : List Char) (acc : List String) :
    splitOnAux (ofList (l ++ m ++ r)) " " ⟨utf8Len l⟩ ⟨utf8Len l + utf8Len m⟩ 0 acc =
      acc.reverse ++ (r.splitOnPPrepend (· == ' ') m.reverse).map ofList := by
  -- `l` is done with, `m` is the piece that is being read, and `r` is still to come.
  induction r generalizing l m acc with
  | nil =>
    have ended := (atEnd_of_valid (l ++ m) []).mpr rfl
    rw [utf8Len_append] at ended
    unfold splitOnAux
    rw [if_pos ended, extract_of_valid]
    simp
  | cons c r ih =>
    have within : ¬ (_ = true) := mt (atEnd_of_valid (l ++ m) (c :: r)).mp (List.cons_ne_nil c r)
    have read := get_of_valid (l ++ m) (c :: r)
    have past := next_of_valid (l ++ m) c r
    have piece := extract_of_valid l m (c :: r)
    rw [utf8Len_append] at within read past
    have mark : Pos.Raw.get " " 0 = ' ' ∧ Pos.Raw.next " " 0 = ⟨1⟩ ∧ Pos.Raw.atEnd " " ⟨1⟩ = true := by decide
    unfold splitOnAux
    rw [if_neg within]
    simp only [read, past, mark, List.headD_cons, if_true]
    by_cases space : c = ' '
    · subst space
      have size : (' ' : Char).utf8Size = 1 := by decide
      have back : Pos.Raw.unoffsetBy ⟨utf8Len l + utf8Len m + 1⟩ ⟨1⟩ = ⟨utf8Len l + utf8Len m⟩ := by
        simp [Pos.Raw.unoffsetBy]
      have next := ih (l ++ m ++ [' ']) [] (ofList m :: acc)
      simp only [utf8Len_append, utf8Len_cons, utf8Len_nil, size, List.append_assoc, List.singleton_append,
        Nat.add_zero, Nat.zero_add, ← Nat.add_assoc] at next
      have cut : (' ' :: r).splitOnPPrepend (· == ' ') m.reverse =
          m.reverse.reverse :: r.splitOnPPrepend (· == ' ') [] := List.splitOnPPrepend_cons_pos (by rfl)
      rw [if_pos (beq_self_eq_true _), size, back, piece, List.append_assoc, next, cut]
      simp
    · have here : Pos.Raw.unoffsetBy ⟨utf8Len l + utf8Len m⟩ 0 = ⟨utf8Len l + utf8Len m⟩ := by
        simp [Pos.Raw.unoffsetBy]
      have next := ih l (m ++ [c]) acc
      simp only [utf8Len_append, utf8Len_cons, utf8Len_nil, List.append_assoc, List.singleton_append,
        Nat.zero_add, ← Nat.add_assoc] at next
      rw [if_neg (by simpa using space), here, past, List.append_assoc, next,
        List.splitOnPPrepend_cons_neg (by simpa using space)]
      simp

theorem splitOn_space (s : String) : s.splitOn " " = (s.toList.splitOn ' ').map String.ofList := by
  have whole := splitOnAux_space [] [] s.toList []
  rw [List.nil_append, List.nil_append, String.ofList_toList] at whole
  rw [List.splitOn_eq_splitOnP, List.splitOnP_eq_splitOnPPrepend]
  exact whole

/-- Whether the words have no space in them. -/
def Spaceless (ws : List String) : Prop := ∀ w ∈ ws, ' ' ∉ w.toList

theorem Spaceless.concat {ws : List String} {w : String} (spaceless : Spaceless ws) (clean : ' ' ∉ w.toList) :
    Spaceless (ws ++ [w]) := by
  intro u member
  rcases List.mem_append.mp member with inside | last
  · exact spaceless u inside
  · rwa [List.mem_singleton.mp last]

theorem splitOn_phraseOf {ws : List String} (spaceless : Spaceless ws) (some : ws ≠ []) :
    (phraseOf ws).splitOn " " = ws := by
  have pieces : ∀ l ∈ ws.map String.toList, ' ' ∉ l := by simpa [Spaceless] using spaceless
  have spelled : (phraseOf ws).toList = [' '].intercalate (ws.map String.toList) := String.toList_intercalate
  rw [splitOn_space, spelled, List.splitOn_intercalate _ pieces (by simpa using some)]
  simp

/-- Words without spaces can be told from their phrase, if there are any. -/
theorem phraseOf_inj {ws us : List String} (left : Spaceless ws) (right : Spaceless us) (some : ws ≠ [])
    (some' : us ≠ []) (same : phraseOf ws = phraseOf us) : ws = us := by
  rw [← splitOn_phraseOf left some, same, splitOn_phraseOf right some']

/-! ### Words of a text -/

theorem smallIn_ne_space {n : Nat} {runs : List Text.CaseRun} (above : ∀ run ∈ runs, 32 < run.small)
    (other : n ≠ 32) : Text.smallIn n runs ≠ 32 := by
  induction runs with
  | nil => exact other
  | cons run runs ih =>
    obtain ⟨first, rest⟩ := List.forall_mem_cons.mp above
    unfold Text.smallIn
    split
    · exact other
    · split
      · split <;> omega
      · exact ih rest

theorem code_of_ofNat (n : Nat) : (Char.ofNat n).toNat = n ∨ (Char.ofNat n).toNat = 0 := by
  by_cases valid : n.isValidChar
  · rw [Char.ofNat, dif_pos valid]
    exact Or.inl rfl
  · rw [Char.ofNat, dif_neg valid]
    exact Or.inr rfl

theorem space_not_mem_lowercase {c : Char} (other : c ≠ ' ') : ' ' ∉ Text.lowercase c := by
  unfold Text.lowercase
  split
  · decide
  · rw [List.mem_singleton]
    intro same
    have above : ∀ run ∈ Text.caseRuns, 32 < run.small := by decide +kernel
    have small := smallIn_ne_space above (mt (fun blank => Char.toNat_inj.mp blank) other)
    rcases code_of_ofNat (Text.smallIn c.toNat Text.caseRuns) with code | code
    · exact small (code.symm.trans (congrArg Char.toNat same.symm))
    · cases code.symm.trans (congrArg Char.toNat same.symm)

theorem spaceless_words (text : String) : Spaceless (words text) := by
  intro w member
  obtain ⟨word, kept, rfl⟩ := List.mem_map.mp member
  obtain ⟨piece, _, rfl⟩ := List.mem_map.mp (List.mem_of_mem_filter kept)
  rw [String.toList_ofList, foldWord, List.mem_flatMap]
  rintro ⟨c, letter, inside⟩
  have blank : isWordChar ' ' = false := by decide
  have other : c ≠ ' ' := by
    rintro rfl
    rw [List.mem_filter, blank] at letter
    cases letter.2
  exact space_not_mem_lowercase other inside

theorem chunksAfter_append (run l r : List Char) :
    Text.chunksAfter run (l ++ ' ' :: r) = Text.chunksAfter run l ++ Text.chunks r := by
  induction l generalizing run with
  | nil =>
    have blank : Text.isBlank ' ' = true := rfl
    simp only [List.nil_append, Text.chunksAfter, blank, if_true]
    split <;> rfl
  | cons c l ih =>
    rw [List.cons_append, Text.chunksAfter, Text.chunksAfter, ih, ih]
    split
    · split <;> rfl
    · rfl

/-- A space between two texts ends a word and joins none. -/
theorem words_append (text more : String) : words (text ++ " " ++ more) = words text ++ words more := by
  have cut : Text.chunks (text ++ " " ++ more).toList = Text.chunks text.toList ++ Text.chunks more.toList := by
    rw [String.toList_append, String.toList_append, List.append_assoc]
    exact chunksAfter_append [] text.toList more.toList
  simp only [words, cut, List.map_append, List.filter_append]

theorem sentenceWords_append (text more : String) :
    sentenceWords (text ++ " " ++ more) = sentenceWords text ++ sentenceWords more := by
  rw [sentenceWords, words_append, List.filter_append]
  rfl

theorem ne_empty_of_mem_words {text w : String} (member : w ∈ words text) : w ≠ "" := by
  obtain ⟨word, kept, rfl⟩ := List.mem_map.mp member
  have some := (List.mem_filter.mp kept).2
  rintro empty
  obtain rfl : word = [] := by simpa using congrArg String.toList empty
  cases some

end Rulebook
