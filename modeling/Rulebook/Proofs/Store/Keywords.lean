import Rulebook.Proofs.Sentence.Operators
import Rulebook.Proofs.Store.Names

/-!
# Keywords beside declared names

No declared name is a keyword, but it can be some of the words of one: then the keyword is cut where the name
begins in it. `State.keywords_usable_iff` says which names are in the way of which keywords.
-/

namespace Rulebook

/-- The name is a run of words in the phrase of the operator, behind the first of them. -/
def Keyword.SplitBy (k : Keyword) (name : String) : Prop :=
  words name ≠ [] ∧ words name <:+: (words k.phrase).tail

instance (k : Keyword) (name : String) : Decidable (k.SplitBy name) :=
  inferInstanceAs (Decidable (_ ∧ _))

theorem Keyword.words_not_inside (j k : Keyword) : ¬ words j.phrase <:+: (words k.phrase).tail := by
  have all : ∀ j ∈ byStrength, ∀ k ∈ byStrength, ¬ words j.phrase <:+: (words k.phrase).tail := by decide +kernel
  exact all j j.mem_byStrength k k.mem_byStrength

theorem sentenceWords_phrase (k : Keyword) : sentenceWords k.phrase = words k.phrase := by
  cases k <;> decide

theorem foldName_eq_phraseOf_iff {name : String} {ws : List String} (spaceless : Spaceless ws) (some : ws ≠ [])
    (visible : ws ≠ [""]) : foldName name = phraseOf ws ↔ words name = ws := by
  constructor
  · intro same
    by_cases none : words name = []
    · -- A name without words folds to the empty phrase, which is that of one empty word.
      have blank : phraseOf ws = phraseOf [""] := by
        rw [← same, foldName, none]
        rfl
      exact (visible (phraseOf_inj spaceless (by simp [Spaceless]) some (List.cons_ne_nil _ _) blank)).elim
    · exact phraseOf_inj (spaceless_words name) spaceless none some same
  · rintro rfl
    rfl

namespace State

open Vocabulary

variable {c : Config} {s : State}

/-- The vocabulary of a state holds the declared names, folded. -/
theorem build_names (built : State.build c = .ok s) :
    s.vocabulary.fields.names = c.data.names.map foldName ∧
      s.vocabulary.expressions.names = c.expressions.names.map foldName := by
  obtain ⟨v, declared, built⟩ := bind_ok built
  obtain ⟨w, compiled, built⟩ := bind_ok built
  obtain ⟨rules, _, built⟩ := bind_ok built
  cases built
  obtain ⟨fields, expressions⟩ := names_foldlM_declareExpression compiled
  obtain ⟨_, none⟩ := foldlM_declareField_ok declared
  refine ⟨?_, ?_⟩
  · rw [fields, names_foldlM_declareField declared]
    rfl
  · have each : c.expressions.names.map foldName = c.expressions.entries.map fun p => foldName p.1 :=
      List.map_map
    rw [expressions, none, each]
    rfl

/-- Words have a meaning together if they are those of a keyword or of a declared name. -/
theorem find?_phraseOf_eq_none_iff (built : State.build c = .ok s) {ws : List String} (spaceless : Spaceless ws)
    (some : ws ≠ []) (visible : ws ≠ [""]) : s.vocabulary.find? (phraseOf ws) = none ↔
      (∀ k : Keyword, words k.phrase ≠ ws) ∧ ∀ name ∈ c.names, words name ≠ ws := by
  obtain ⟨fields, expressions⟩ := build_names built
  have keyword : Keyword.ofPhrase? (phraseOf ws) = none ↔ ∀ k : Keyword, words k.phrase ≠ ws := by
    constructor
    · rintro free k rfl
      cases (Keyword.ofPhrase?_phrase k).symm.trans (phraseOf_words_phrase k ▸ free)
    · intro other
      cases read : Keyword.ofPhrase? (phraseOf ws) with
      | none => rfl
      | some k =>
        have same := (Keyword.phrase_of_ofPhrase? read).symm
        rw [← phraseOf_words_phrase k] at same
        exact (other k (phraseOf_inj (spaceless_words _) spaceless (words_phrase_ne_nil k) some same.symm)).elim
  have name : (phraseOf ws ∉ c.data.names.map foldName ∧ phraseOf ws ∉ c.expressions.names.map foldName) ↔
      ∀ name ∈ c.names, words name ≠ ws := by
    rw [← not_or, ← List.mem_append, ← List.map_append, List.mem_map]
    constructor
    · exact fun fresh name member same =>
        fresh ⟨name, member, (foldName_eq_phraseOf_iff spaceless some visible).mpr same⟩
    · rintro other ⟨name, member, same⟩
      exact other name member ((foldName_eq_phraseOf_iff spaceless some visible).mp same)
  rw [find?_eq_none_iff, fields, expressions, keyword, name]

/-- A keyword is found as a whole if no declared name is a run of its words behind the first. -/
theorem whole_phrase_iff (built : State.build c = .ok s) (k : Keyword) :
    s.vocabulary.Whole (words k.phrase) ↔ ∀ name ∈ c.names, ¬ k.SplitBy name := by
  have part : ∀ {run w}, run <:+: (words k.phrase).tail → w ∈ run → w ∈ words k.phrase := fun inside member =>
    List.mem_of_mem_tail (inside.subset member)
  have known : ∀ {run}, run <:+: (words k.phrase).tail → run ≠ [] → (s.vocabulary.find? (phraseOf run) = none ↔
      (∀ j : Keyword, words j.phrase ≠ run) ∧ ∀ name ∈ c.names, words name ≠ run) := fun inside some =>
    find?_phraseOf_eq_none_iff built (fun w member => spaceless_words _ w (part inside member)) some
      fun empty => ne_empty_of_mem_words (part inside (empty ▸ List.mem_singleton_self "")) rfl
  constructor
  · rintro whole name member ⟨some, inside⟩
    exact ((known inside some).mp (whole _ inside some)).2 name member rfl
  · intro free run inside some
    refine (known inside some).mpr ⟨?_, ?_⟩
    · rintro j rfl
      exact j.words_not_inside k inside
    · rintro name member rfl
      exact free name member ⟨some, inside⟩

theorem unheard_word (built : State.build c = .ok s) {w : String} (visible : w ≠ "")
    (keyword : ∀ k : Keyword, w ∉ words k.phrase) (name : ∀ d ∈ c.names, w ∉ words d) :
    s.vocabulary.Unheard w := by
  intro run spaceless member
  have one : run ≠ [""] := by
    rintro rfl
    exact visible (List.mem_singleton.mp member)
  refine (find?_phraseOf_eq_none_iff built spaceless (List.ne_nil_of_mem member) one).mpr ⟨?_, ?_⟩
  · rintro k rfl
    exact keyword k member
  · rintro d declared rfl
    exact name d declared member

/-- A sentence that begins with a name and a phrase compiles to its operator over the field only if it keeps the
name, and the phrase is found as a whole. -/
theorem spoken_and_whole (built : State.build c = .ok s) {x text : String} {k : Keyword} {r : Tree}
    {rest : List String} (pure : k.assigns = false) (some : words x ≠ [])
    (reads : sentenceWords text = sentenceWords x ++ (words k.phrase ++ rest))
    (compiled : s.compile text = .ok (.join k (.field x) r)) :
    Spoken x ∧ ∀ name ∈ c.names, ¬ k.SplitBy name := by
  obtain ⟨filed, _⟩ := build_filed built
  have made : s.vocabulary.compile text = .ok (.join k (.field x) r) := mapError_ok.mp compiled
  have spoken : Spoken x := by
    have member : x ∈ s.vocabulary.fields.values.filter Spoken :=
      Tree.wellFormed_left pure (filed.wellFormed_of_compile made)
    simpa using (List.mem_filter.mp member).2
  refine ⟨spoken, (whole_phrase_iff built k).mp ?_⟩
  have clean := reads ▸ spaceless_sentenceWords text
  rw [Vocabulary.compile, reads] at made
  rw [spoken.sentenceWords] at clean made
  exact whole_of_parse_join clean some pure made

/-- A field with a name of one word, an operator and a word that is in no phrase compile to the operator over the
field and the word, and the question whether the field has changed compiles to that question, exactly if a sentence
keeps the name of the field, and no declared name is a run of words in the operator behind the first. -/
theorem keywords_usable_iff (built : State.build c = .ok s) {x : String} (declared : x ∈ c.data.names)
    (single : (words x).length = 1) :
    (∀ (k : Keyword) (w : String), k.form = .between ∨ k.form = .chain → sentenceWords w = [w] →
      (∀ j : Keyword, w ∉ words j.phrase) → (∀ name ∈ c.names, w ∉ words name) →
      (s.compile (x ++ " " ++ k.phrase ++ " " ++ w) = .ok (.join k (.field x) (.value (.ofWord w))) ↔
        Spoken x ∧ ∀ name ∈ c.names, ¬ k.SplitBy name)) ∧
    ∀ k : Keyword, k.form = .behind →
      (s.compile (x ++ " " ++ k.phrase) = .ok (.join k (.field x) .placeholder) ↔
        Spoken x ∧ ∀ name ∈ c.names, ¬ k.SplitBy name) := by
  have some : words x ≠ [] := List.ne_nil_of_length_eq_add_one single
  obtain ⟨only, one⟩ := List.length_eq_one_iff.mp single
  have whole : s.vocabulary.Whole (words x) := one ▸ whole_singleton only
  obtain ⟨_, _, fields, _⟩ := build_ok built
  obtain ⟨m, means, names⟩ := (build_filed built).1.denotes_field (fields ▸ declared)
  refine ⟨fun k w form itself keyword name => ?_, fun k form => ?_⟩
  · have reads : sentenceWords (x ++ " " ++ k.phrase ++ " " ++ w) = sentenceWords x ++ (words k.phrase ++ [w]) := by
      rw [sentenceWords_append, sentenceWords_append, sentenceWords_phrase, itself, List.append_assoc]
    have pure : k.assigns = false := Keyword.not_assigns_iff.mpr (or_assoc.mp (.inl form))
    refine ⟨spoken_and_whole built pure some reads, fun ⟨spoken, free⟩ => ?_⟩
    have inside : w ∈ sentenceWords w := itself ▸ List.mem_singleton_self w
    have visible : w ≠ "" := ne_empty_of_mem_words (List.mem_of_mem_filter inside)
    have clean : ' ' ∉ w.toList := spaceless_sentenceWords w w inside
    refine mapError_ok.mpr ?_
    rw [Vocabulary.compile, reads, spoken.sentenceWords]
    exact parse_between form whole some means names rfl ((whole_phrase_iff built k).mpr free) clean
      (unheard_word built visible keyword name)
  · have reads : sentenceWords (x ++ " " ++ k.phrase) = sentenceWords x ++ (words k.phrase ++ []) := by
      rw [sentenceWords_append, sentenceWords_phrase, List.append_nil]
    have pure : k.assigns = false := Keyword.not_assigns_iff.mpr (.inr (.inr form))
    refine ⟨spoken_and_whole built pure some reads, fun ⟨spoken, free⟩ => ?_⟩
    refine mapError_ok.mpr ?_
    rw [Vocabulary.compile, reads, spoken.sentenceWords, List.append_nil]
    exact parse_behind form whole some means names rfl ((whole_phrase_iff built k).mpr free)

end State

namespace Negated

/-- A field with a name of one word, and one whose name is a word of keywords. -/
def config : Config where
  data := .ofList [("x", .number .zero), ("Not", .bool true)]

/-- What it is compiled to. -/
def state : State where
  live := config.data
  history := [config.data]
  vocabulary := { fields := .ofList [("x", "x"), ("not", "Not")] }
  rules := []

theorem ready_in_no_phrase (k : Keyword) : "ready" ∉ words k.phrase := by
  cases k <;> decide

end Negated

/-- The keyword `is` can be used beside this field. -/
theorem State.negated_state_compares :
    State.build Negated.config = .ok Negated.state ∧
      Negated.state.compile "x is ready" = .ok (.compare .equal (.field "x") (.value (.ofWord "ready"))) ∧
      Negated.state.compile "x has changed" = .ok (.changed (.field "x") .placeholder) := by
  have built : State.build Negated.config = .ok Negated.state := by decide
  obtain ⟨between, behind⟩ := State.keywords_usable_iff built (x := "x") (by decide) (by decide)
  refine ⟨built, ?_, ?_⟩
  · exact (between .is "ready" (.inl rfl) (by decide) Negated.ready_in_no_phrase (by decide)).mpr
      (by decide)
  · exact (behind .hasChanged rfl).mpr (by decide)

/-- The keyword `is not` cannot. It is cut where the name of the field begins in it. -/
theorem State.negated_state_stuck :
    State.build Negated.config = .ok Negated.state ∧ words "x" = ["x"] ∧ sentenceWords "ready" = ["ready"] ∧
      (∀ k : Keyword, "ready" ∉ words k.phrase) ∧ (∀ name ∈ Negated.config.names, "ready" ∉ words name) ∧
      Negated.state.compile "x is not ready" =
        .error (.compile "x is not ready" (.unresolved [.operator .is, .value] 100)) := by
  exact ⟨by decide, by decide, by decide, Negated.ready_in_no_phrase, by decide,
    by decide +kernel⟩

end Rulebook
