import Rulebook.Proofs.Store.Keywords
import Rulebook.Proofs.Text.Lowercase

/-!
# Folding a name twice

A folded name is folded once more when it is used to address what is filed under it. That leaves it as it is,
unless the name has a capital I with a dot: the dot that its small form leaves over the `i` is no letter, and is
lost the second time.
-/

namespace Rulebook

/-- The combining dot that the capital I with a dot leaves over its small form. -/
def dot : Char := '\u0307'

/-- The text without its combining dots. -/
def undotted (s : String) : String := String.ofList (s.toList.filter (· ≠ dot))

variable {s : String} {c : Char} {piece : List Char}

theorem undotted_append (s t : String) : undotted (s ++ t) = undotted s ++ undotted t := by
  rw [undotted, String.toList_append, List.filter_append, String.ofList_append]
  rfl

theorem undotted_eq_self : undotted s = s ↔ dot ∉ s.toList := by
  rw [← String.toList_inj, undotted, String.toList_ofList, List.filter_eq_self]
  constructor
  · exact fun none member => absurd rfl (of_decide_eq_true (none dot member))
  · exact fun none d member => decide_eq_true fun same => none (same ▸ member)

/-! ### Words -/

theorem isWordChar_dot : isWordChar dot = false := by decide

theorem isBlank_of_isWordChar (letter : isWordChar c = true) : Text.isBlank c = false := by
  rw [isWordChar, Bool.or_eq_true, decide_eq_true_eq] at letter
  rcases letter with rfl | letter
  · rfl
  · by_contra blank
    have none := Text.isAlphanumeric_eq_false (Bool.not_eq_false _ ▸ blank)
    exact absurd letter (none ▸ Bool.false_ne_true)

theorem lowercase_of_isWordChar (letter : isWordChar c = true) (other : c ≠ 'İ') :
    ∃ d, Text.lowercase c = [d] ∧ isWordChar d = true ∧ Text.lowercase d = [d] := by
  rw [isWordChar, Bool.or_eq_true, decide_eq_true_eq] at letter
  rcases letter with rfl | letter
  · exact ⟨'_', by decide, rfl, by decide⟩
  · obtain ⟨d, small, letter, settled⟩ := Text.lowercase_of_alphanumeric letter other
    exact ⟨d, small, by rw [isWordChar, letter, Bool.or_true], settled⟩

theorem foldWord_append (l r : List Char) : foldWord (l ++ r) = foldWord l ++ foldWord r := by
  rw [foldWord, List.filter_append, List.flatMap_append]
  rfl

/-- What folding makes of one character: nothing, a letter that it keeps, or the dotted i. -/
theorem foldWord_singleton (c : Char) :
    foldWord [c] = [] ∧ c ≠ 'İ' ∨
      (∃ d, foldWord [c] = [d] ∧ isWordChar d = true ∧ Text.lowercase d = [d] ∧ c ≠ 'İ') ∨
      foldWord [c] = ['i', dot] ∧ c = 'İ' := by
  by_cases dotted : c = 'İ'
  · subst dotted
    exact .inr (.inr ⟨by decide, rfl⟩)
  · cases letter : isWordChar c with
    | false => exact .inl ⟨by simp [foldWord, letter], dotted⟩
    | true =>
      obtain ⟨d, small, settled⟩ := lowercase_of_isWordChar letter dotted
      exact .inr (.inl ⟨d, by simp [foldWord, letter, small], settled.1, settled.2, dotted⟩)

theorem foldWord_foldWord (piece : List Char) : foldWord (foldWord piece) = (foldWord piece).filter (· ≠ dot) := by
  induction piece with
  | nil => rfl
  | cons c piece ih =>
    have first : foldWord (foldWord [c]) = (foldWord [c]).filter (· ≠ dot) := by
      rcases foldWord_singleton c with ⟨none, _⟩ | ⟨d, one, letter, settled, _⟩ | ⟨two, _⟩
      · rw [none]
        rfl
      · have other : d ≠ dot := fun same => Bool.false_ne_true (isWordChar_dot.symm.trans (same ▸ letter))
        rw [one]
        simp [foldWord, letter, settled, other]
      · rw [two]
        decide
    rw [← List.singleton_append, foldWord_append, foldWord_append, List.filter_append, first, ih]

theorem dot_mem_foldWord : dot ∈ foldWord piece ↔ 'İ' ∈ piece := by
  induction piece with
  | nil => simp [foldWord]
  | cons c piece ih =>
    have first : dot ∈ foldWord [c] ↔ 'İ' = c := by
      rcases foldWord_singleton c with ⟨none, other⟩ | ⟨d, one, letter, _, other⟩ | ⟨two, rfl⟩
      · simpa [none] using Ne.symm other
      · have undotted : d ≠ dot := fun same => Bool.false_ne_true (isWordChar_dot.symm.trans (same ▸ letter))
        simp [one, Ne.symm undotted, Ne.symm other]
      · simp [two]
    rw [← List.singleton_append, foldWord_append, List.mem_append, List.mem_append, List.mem_singleton, first, ih]

/-- The dot stands behind its i, so a word is never lost with it. -/
theorem filter_foldWord_ne_nil (some : foldWord piece ≠ []) : (foldWord piece).filter (· ≠ dot) ≠ [] := by
  induction piece with
  | nil => exact (some rfl).elim
  | cons c piece ih =>
    rw [← List.singleton_append, foldWord_append] at some ⊢
    rw [List.filter_append]
    rcases foldWord_singleton c with ⟨none, _⟩ | ⟨d, one, letter, _, _⟩ | ⟨two, _⟩
    · rw [none, List.nil_append] at some
      rw [none, List.filter_nil, List.nil_append]
      exact ih some
    · have other : d ≠ dot := fun same => Bool.false_ne_true (isWordChar_dot.symm.trans (same ▸ letter))
      simp [one, other]
    · simp [two, dot]

theorem unblank_of_mem_foldWord (member : c ∈ foldWord piece) : Text.isBlank c = false := by
  obtain ⟨letter, kept, small⟩ := List.mem_flatMap.mp member
  have word := (List.mem_filter.mp kept).2
  by_cases dotted : letter = 'İ'
  · subst dotted
    rw [show Text.lowercase 'İ' = ['i', dot] from rfl] at small
    rcases List.mem_pair.mp small with rfl | rfl <;> rfl
  · obtain ⟨d, one, settled, _⟩ := lowercase_of_isWordChar word dotted
    rw [one, List.mem_singleton] at small
    exact small ▸ isBlank_of_isWordChar settled

/-! ### Names -/

theorem chunksAfter_of_unblank {run cs : List Char} (unblank : ∀ c ∈ cs, Text.isBlank c = false) :
    Text.chunksAfter run cs = if (run ++ cs).isEmpty then [] else [run ++ cs] := by
  induction cs generalizing run with
  | nil => rw [Text.chunksAfter, List.append_nil]
  | cons c cs ih =>
    obtain ⟨first, later⟩ := List.forall_mem_cons.mp unblank
    rw [Text.chunksAfter, first, if_neg Bool.false_ne_true, ih later, List.append_assoc]
    rfl

theorem flatten_chunksAfter (run cs : List Char) :
    (Text.chunksAfter run cs).flatten = run ++ cs.filter fun c => !Text.isBlank c := by
  induction cs generalizing run with
  | nil =>
    rw [Text.chunksAfter]
    split
    · next none => rw [List.isEmpty_iff.mp none]; rfl
    · simp
  | cons c cs ih =>
    cases blank : Text.isBlank c with
    | true =>
      rw [Text.chunksAfter, if_pos blank]
      split
      · next none => simp [ih, blank, List.isEmpty_iff.mp none]
      · simp [ih, blank]
    | false =>
      rw [Text.chunksAfter, if_neg (blank ▸ Bool.false_ne_true), ih]
      simp [blank]

/-- The words of a text are the pieces of it that are not lost when they are folded. -/
theorem mem_words {w : String} :
    w ∈ words s ↔ ∃ piece ∈ Text.chunks s.toList, foldWord piece ≠ [] ∧ w = String.ofList (foldWord piece) := by
  simp only [words, List.mem_map, List.mem_filter, Bool.not_eq_true', List.isEmpty_eq_false_iff]
  constructor
  · rintro ⟨_, ⟨⟨piece, present, rfl⟩, some⟩, rfl⟩
    exact ⟨piece, present, some, rfl⟩
  · rintro ⟨piece, present, some, rfl⟩
    exact ⟨_, ⟨⟨piece, present, rfl⟩, some⟩, rfl⟩

theorem words_of_mem_words {w : String} (member : w ∈ words s) : words w = [undotted w] := by
  obtain ⟨piece, _, some, rfl⟩ := mem_words.mp member
  have one : Text.chunks (foldWord piece) = [foldWord piece] := by
    rw [Text.chunks, chunksAfter_of_unblank fun _ => unblank_of_mem_foldWord, List.nil_append,
      if_neg (by simpa using some)]
  have kept : ((foldWord piece).filter (· ≠ dot)).isEmpty = false :=
    List.isEmpty_eq_false_iff.mpr (filter_foldWord_ne_nil some)
  rw [words, undotted, String.toList_ofList, one, List.map_singleton, foldWord_foldWord,
    List.filter_cons_of_pos (by rw [kept]; rfl)]
  rfl

theorem words_intercalate (ws : List String) : words (" ".intercalate ws) = ws.flatMap words := by
  induction ws with
  | nil => rfl
  | cons w ws ih =>
    cases ws with
    | nil => rw [String.intercalate_singleton, List.flatMap_singleton]
    | cons u us =>
      rw [String.intercalate_cons_cons, words_append, ih]
      rfl

theorem undotted_intercalate (ws : List String) :
    undotted (" ".intercalate ws) = " ".intercalate (ws.map undotted) := by
  induction ws with
  | nil => rfl
  | cons w ws ih =>
    cases ws with
    | nil => rw [String.intercalate_singleton, List.map_singleton, String.intercalate_singleton]
    | cons u us =>
      have space : undotted " " = " " := by decide
      rw [String.intercalate_cons_cons, undotted_append, undotted_append, space, ih, List.map_cons, List.map_cons,
        List.map_cons, String.intercalate_cons_cons]

/-- Folding a folded name takes its combining dots away, and nothing else. -/
theorem foldName_foldName (name : String) : foldName (foldName name) = undotted (foldName name) := by
  have again : words (foldName name) = (words name).map undotted := by
    rw [foldName, words_intercalate, List.map_eq_flatMap]
    exact List.flatMap_congr fun w member => words_of_mem_words member
  rw [foldName, again, ← undotted_intercalate]
  rfl

theorem mem_intercalate (other : c ≠ ' ') (ws : List String) :
    c ∈ (" ".intercalate ws).toList ↔ ∃ w ∈ ws, c ∈ w.toList := by
  induction ws with
  | nil => simp
  | cons w ws ih =>
    cases ws with
    | nil => simp
    | cons u us =>
      rw [String.intercalate_cons_cons, String.toList_append, String.toList_append, List.mem_append,
        List.mem_append, ih]
      simp [other]

theorem dot_mem_foldName (name : String) : dot ∈ (foldName name).toList ↔ 'İ' ∈ name.toList := by
  have letters : 'İ' ∈ name.toList ↔ 'İ' ∈ (Text.chunks name.toList).flatten := by
    rw [Text.chunks, flatten_chunksAfter, List.nil_append, List.mem_filter]
    exact (and_iff_left rfl).symm
  rw [foldName, mem_intercalate (by decide), letters, List.mem_flatten]
  constructor
  · rintro ⟨w, member, inside⟩
    obtain ⟨piece, present, _, rfl⟩ := mem_words.mp member
    rw [String.toList_ofList] at inside
    exact ⟨piece, present, dot_mem_foldWord.mp inside⟩
  · rintro ⟨piece, present, inside⟩
    have dotted := dot_mem_foldWord.mpr inside
    refine ⟨String.ofList (foldWord piece), mem_words.mpr ⟨piece, present, List.ne_nil_of_mem dotted, rfl⟩, ?_⟩
    rwa [String.toList_ofList]

theorem foldName_settled_iff (name : String) : foldName (foldName name) = foldName name ↔ 'İ' ∉ name.toList := by
  rw [foldName_foldName, undotted_eq_self, dot_mem_foldName]

/-! ### What a folded name addresses -/

theorem State.trigger_settled {state : State} {name : String} (named : state.vocabulary.names (foldName name) = true)
    (settled : foldName (foldName name) = foldName name) (t : Tree) :
    state.trigger (foldName name) = .ok t ↔ state.trigger name = .ok t := by
  have again : state.vocabulary.names (foldName (foldName name)) = true := settled.symm ▸ named
  rw [trigger_of_names again, trigger_of_names named, settled, mapError_ok, mapError_ok]

namespace App

variable {σ : Type} {app : App σ} {config : Config}

/-- What a registration does depends on the tree of the trigger only; its text is in the error. -/
theorem listen_congr {text other : String}
    (same : ∀ t, app.store.trigger text = .ok t ↔ app.store.trigger other = .ok t) (props : List String)
    (listener : Payload → Script σ) :
    (app.listen text props listener).2 = (app.listen other props listener).2 ∧
      ((app.listen text props listener).1 = .ok () ↔ (app.listen other props listener).1 = .ok ()) := by
  unfold App.listen Store.listen
  cases props.find? fun prop => !app.store.live.contains prop with
  | some prop => exact ⟨rfl, Iff.rfl⟩
  | none =>
    cases left : app.store.trigger text with
    | ok t =>
      rw [(same t).mp left]
      exact ⟨rfl, Iff.rfl⟩
    | error e =>
      cases right : app.store.trigger other with
      | ok t => cases left.symm.trans ((same t).mpr right)
      | error e => exact ⟨rfl, nofun, nofun⟩

theorem Reachable.names_iff (reachable : app.Reachable config) (phrase : String) :
    (app.store.vocabulary.expressions.contains phrase = true ↔ ∃ e ∈ config.expressions.names, foldName e = phrase) ∧
      (app.store.vocabulary.names phrase = true ↔ ∃ d ∈ config.names, foldName d = phrase) := by
  obtain ⟨state, built, vocabulary, _⟩ := reachable.exists_built
  obtain ⟨fields, expressions⟩ := State.build_names built
  rw [vocabulary, Vocabulary.names, Bool.or_eq_true, Table.contains_iff, Table.contains_iff, fields, expressions,
    List.mem_map, List.mem_map, Config.names]
  simp only [List.mem_append, or_and_right, exists_or, and_self]

/-- A name that is folded twice is the folded name without its combining dots, and so the folded name itself
exactly if the name has no capital I with a dot. In every store such a name and its folded form address one
expression, and listen to one thing. The folded form of any other name addresses an expression or is taken for
a name only if another declared name folds to it without its dots. -/
theorem Reachable.folded_name_addresses_iff (reachable : app.Reachable config) :
    (∀ name : String, foldName (foldName name) = undotted (foldName name) ∧
      (foldName (foldName name) = foldName name ↔ 'İ' ∉ name.toList)) ∧
    (∀ e ∈ config.expressions.names, ∃ t, app.store.expression? e = some t ∧
      ('İ' ∉ e.toList → app.store.expression? (foldName e) = some t) ∧
      ('İ' ∈ e.toList → ∀ u, app.store.expression? (foldName e) = some u →
        ∃ other ∈ config.expressions.names, other ≠ e ∧ foldName other = undotted (foldName e))) ∧
    ∀ d ∈ config.names,
      ('İ' ∉ d.toList → ∀ props (listener : Payload → Script σ),
        (app.listen (foldName d) props listener).2 = (app.listen d props listener).2 ∧
          ((app.listen (foldName d) props listener).1 = .ok () ↔ (app.listen d props listener).1 = .ok ())) ∧
      ('İ' ∈ d.toList → app.store.vocabulary.names (foldName (foldName d)) = true →
        ∃ other ∈ config.names, other ≠ d ∧ foldName other = undotted (foldName d)) := by
  have moved : ∀ {name : String}, 'İ' ∈ name.toList → ∀ other, foldName other = foldName (foldName name) →
      other ≠ name ∧ foldName other = undotted (foldName name) := fun dotted other same =>
    ⟨fun one => (foldName_settled_iff _).mp (one ▸ same).symm dotted, same.trans (foldName_foldName _)⟩
  obtain ⟨state, built, vocabulary, _⟩ := reachable.exists_built
  refine ⟨fun name => ⟨foldName_foldName name, foldName_settled_iff name⟩, fun e declared => ?_, fun d declared => ?_⟩
  · obtain ⟨t, stored⟩ := (State.build_filed built).2 e declared
    have read : app.store.expression? e = some t := by rwa [State.expression?, vocabulary]
    refine ⟨t, read, fun plain => ?_, fun dotted u found => ?_⟩
    · rwa [State.expression?, (foldName_settled_iff e).mpr plain]
    · have present : app.store.vocabulary.expressions.contains (foldName (foldName e)) = true :=
        Option.isSome_of_eq_some found
      obtain ⟨other, member, same⟩ := (reachable.names_iff _).1.mp present
      exact ⟨other, member, moved dotted other same⟩
  · have named : app.store.vocabulary.names (foldName d) = true := (reachable.names_iff _).2.mpr ⟨d, declared, rfl⟩
    refine ⟨fun plain => listen_congr (State.trigger_settled named ((foldName_settled_iff d).mpr plain)),
      fun dotted taken => ?_⟩
    obtain ⟨other, member, same⟩ := (reachable.names_iff _).2.mp taken
    exact ⟨other, member, moved dotted other same⟩

end App

namespace Starter

/-- An expression whose name has capitals and punctuation. -/
def config : Config where
  data := .ofList [("lap", .number .zero)]
  expressions := .ofList [("Ready, Go!", "lap greater than 0")]

def ready : Tree := .compare .greater (.field "lap") (.value (.number .zero))

/-- What it is compiled to. -/
def state : State where
  live := config.data
  history := [config.data]
  vocabulary := { fields := .ofList [("lap", "lap")], expressions := .ofList [("ready go", ready)] }
  rules := []

theorem built : State.build config = .ok state := by decide +kernel

def app : App Unit := ⟨{ toState := state }, ()⟩

end Starter

/-- The expression is found under its folded name, and a handler is registered by either name with one result. -/
theorem punctuated_name_found :
    foldName "Ready, Go!" = "ready go" ∧ Starter.app.store.expression? "ready go" = some Starter.ready ∧
      (Starter.app.listen "ready go" [] fun _ => .done).2 = (Starter.app.listen "Ready, Go!" [] fun _ => .done).2 := by
  have folded : foldName "Ready, Go!" = "ready go" := by decide
  have reachable : Starter.app.Reachable Starter.config := .built () Starter.built
  obtain ⟨_, expressions, triggers⟩ := reachable.folded_name_addresses_iff
  obtain ⟨t, read, again, _⟩ := expressions "Ready, Go!" (by decide)
  have ready : Starter.app.store.expression? "Ready, Go!" = some Starter.ready := by decide
  obtain rfl := Option.some.inj (read.symm.trans ready)
  have same := ((triggers "Ready, Go!" (by decide)).1 (by decide) [] fun _ => .done).1
  rw [folded] at again same
  exact ⟨folded, again (by decide), same⟩

namespace Dotted

/-- An expression whose name has a second small form. -/
def config : Config where
  data := .ofList [("x", .bool true)]
  expressions := .ofList [("İ", "x is true")]

/-- What it is compiled to. -/
def state : State where
  live := config.data
  history := [config.data]
  vocabulary :=
    { fields := .ofList [("x", "x")]
      expressions := .ofList [("i\u0307", .compare .equal (.field "x") (.value (.bool true)))] }
  rules := []

end Dotted

/-- An accepted expression is not found under the name that it is filed under. -/
theorem dotted_name_lost :
    State.build Dotted.config = .ok Dotted.state ∧
      Dotted.state.vocabulary.expressions.names = [foldName "İ"] ∧ foldName (foldName "İ") ≠ foldName "İ" ∧
      Dotted.state.expression? "İ" = some (.compare .equal (.field "x") (.value (.bool true))) ∧
      Dotted.state.expression? (foldName "İ") = none := by decide +kernel

end Rulebook
