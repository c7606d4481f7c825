import Rulebook.Proofs.Sentence.Naming
import Rulebook.Proofs.Store.Update

/-!
# Declared names

Whether a declared name can be used to ask for its value, or to listen for its changes. That is decided by the
phrases inside the name: a scan from its last word must not meet another one before it is through.
-/

namespace Rulebook

/-- A sentence keeps all words of the name. -/
def Spoken (name : String) : Prop := ∀ w ∈ words name, w ∉ fillers

instance (name : String) : Decidable (Spoken name) :=
  inferInstanceAs (Decidable (∀ w ∈ words name, w ∉ fillers))

theorem Spoken.sentenceWords {name : String} (spoken : Spoken name) : sentenceWords name = words name := by
  apply List.filter_eq_self.mpr
  intro w member
  have kept := spoken w member
  simpa using kept

theorem spaceless_sentenceWords (sentence : String) : Spaceless (sentenceWords sentence) := fun w member =>
  spaceless_words sentence w (List.mem_of_mem_filter member)

theorem not_filler_of_mem {sentence w : String} (member : w ∈ sentenceWords sentence) : w ∉ fillers := by
  have kept := (List.mem_filter.mp member).2
  simpa using kept

/-- A folded name goes back into words, of which there is always one. -/
theorem exists_folded (name : String) :
    ∃ ws, (foldName name).splitOn " " = ws ∧ ws ≠ [] ∧ Spaceless ws ∧ phraseOf ws = foldName name ∧
      ∀ v : Vocabulary, v.Whole ws ↔ v.Whole (words name) := by
  by_cases some : words name = []
  · have blank : foldName name = "" := by rw [foldName, some]; rfl
    have one : "".splitOn " " = [""] := by rw [splitOn_space]; rfl
    rw [blank, some, one]
    exact ⟨[""], rfl, List.cons_ne_nil _ _, by simp [Spaceless], rfl, fun _ => Iff.rfl⟩
  · exact ⟨words name, splitOn_phraseOf (spaceless_words name) some, some, spaceless_words name, rfl, fun _ => Iff.rfl⟩

namespace Vocabulary

/-! ### How names are filed -/

/-- Names are filed under their folded forms, keywords, fields and expressions apart. Expressions use no field
that sentences cannot spell. -/
structure Filed (v : Vocabulary) : Prop where
  field : ∀ {phrase d}, v.fields.get? phrase = some d → phrase = foldName d ∧ Keyword.ofPhrase? phrase = none
  expression : ∀ {phrase t}, v.expressions.get? phrase = some t →
    Keyword.ofPhrase? phrase = none ∧ v.fields.get? phrase = none
  spoken : ∀ t ∈ v.expressions.values, t.WellFormed (v.fields.values.filter Spoken)

variable {v w : Vocabulary} {name sentence phrase : String} {t : Tree} {m : Meaning}

/-- What the name stands for, as a tree. -/
def Denotes (v : Vocabulary) (name : String) (t : Tree) : Prop :=
  ∃ m, v.find? (foldName name) = some m ∧ m.tree? = some t

theorem Filed.find?_of_field (filed : v.Filed) {d : String} (read : v.fields.get? phrase = some d) :
    v.find? phrase = some (.field d) := by
  rw [find?, (filed.field read).2, read]

theorem Filed.find?_of_expression (filed : v.Filed) (read : v.expressions.get? phrase = some t) :
    v.find? phrase = some (.expression t) := by
  obtain ⟨notKeyword, notField⟩ := filed.expression read
  rw [find?, notKeyword, notField, read]
  rfl

theorem Filed.denotes_field (filed : v.Filed) {d : String} (declared : d ∈ v.fields.values) :
    v.Denotes d (.field d) := by
  obtain ⟨phrase, read⟩ := Table.exists_get?_of_mem_values declared
  obtain ⟨rfl, _⟩ := filed.field read
  exact ⟨.field d, filed.find?_of_field read, rfl⟩

theorem Filed.denotes_expression (filed : v.Filed) (read : v.expressions.get? (foldName name) = some t) :
    v.Denotes name t :=
  ⟨.expression t, filed.find?_of_expression read, rfl⟩

theorem names_of_find? (found : v.find? phrase = some m) (named : m.tree? = some t) : v.names phrase = true := by
  unfold find? at found
  rw [names, Bool.or_eq_true, Table.contains, Table.contains]
  split at found
  · cases found
    cases named
  · split at found
    · next read => exact Or.inl (read ▸ rfl)
    · next read =>
      obtain ⟨u, stored, _⟩ := Option.map_eq_some_iff.mp found
      exact Or.inr (stored ▸ rfl)

/-- The field that a phrase of some words stands for has these words for its name. -/
theorem Filed.spoken_of_find? (filed : v.Filed) {ws : List String} {d : String} (some : ws ≠ [])
    (spaceless : Spaceless ws) (free : ∀ w ∈ ws, w ∉ fillers) (found : v.find? (phraseOf ws) = .some (.field d)) :
    Spoken d ∧ (words d ≠ [] → words d = ws) := by
  have read : v.fields.get? (phraseOf ws) = .some d := by
    unfold find? at found
    split at found
    · cases found
    · split at found
      · next read =>
        cases found
        exact read
      · obtain ⟨_, _, other⟩ := Option.map_eq_some_iff.mp found
        cases other
  have same := (filed.field read).1
  have back : words d ≠ [] → words d = ws := fun some' =>
    (phraseOf_inj spaceless (spaceless_words d) some some' same).symm
  refine ⟨fun w member => ?_, back⟩
  exact free w (back (List.ne_nil_of_mem member) ▸ member)

theorem Filed.sound_items (filed : v.Filed) {ws : List String} (spaceless : Spaceless ws)
    (free : ∀ w ∈ ws, w ∉ fillers) : Item.Sound (v.fields.values.filter Spoken) (v.items ws) := by
  intro t member
  obtain ⟨chunk, present, same⟩ := List.mem_map.mp member
  have sub := words_subset_of_mem_chunks present
  have fits := fits_chunks present
  unfold Item.ofChunk at same
  split at same
  · cases same
  · next d means =>
    cases same
    have found := fits.means.trans means
    obtain ⟨spoken, _⟩ := filed.spoken_of_find? fits.some (fun w inside => spaceless w (sub inside))
      (fun w inside => free w (sub inside)) found
    exact List.mem_filter.mpr ⟨find?_field found, by simpa using spoken⟩
  · next means =>
    cases same
    exact filed.spoken t (find?_expression (fits.means.trans means))
  · cases same
    trivial

theorem Filed.wellFormed_of_compile (filed : v.Filed) (compiled : v.compile sentence = .ok t) :
    t.WellFormed (v.fields.values.filter Spoken) :=
  Item.Phrase.wellFormed (parse_ok_iff.mp compiled)
    (filed.sound_items (spaceless_sentenceWords sentence) fun _ => not_filler_of_mem)

/-! ### Declaring -/

theorem Filed.declareField (filed : v.Filed) (none : v.expressions = ∅) (ran : v.declareField name = .ok w) :
    w.Filed ∧ w.expressions = ∅ := by
  obtain ⟨free, _, rfl⟩ := declareField_ok ran
  refine ⟨⟨?_, ?_, ?_⟩, none⟩
  · intro phrase d read
    rw [addField, Table.get?_insert] at read
    split at read
    · next same =>
      cases read
      exact ⟨same.symm, same ▸ free⟩
    · exact filed.field read
  · intro phrase t read
    cases (congrArg (Table.get? · phrase) none).symm.trans read
  · intro t member
    have empty : (v.addField name).expressions.values = [] := congrArg Table.values none
    rw [empty] at member
    cases member

theorem Filed.declareExpression (filed : v.Filed) (ran : v.declareExpression name sentence = .ok w) :
    w.Filed := by
  obtain ⟨free, fresh, t, compiled, rfl⟩ := declareExpression_ok ran
  rw [names, Bool.or_eq_false_iff] at fresh
  refine ⟨filed.field, ?_, ?_⟩
  · intro phrase u read
    rw [addExpression, Table.get?_insert] at read
    split at read
    · next same =>
      subst same
      exact ⟨free, Option.not_isSome_iff_eq_none.mp (Bool.not_eq_true _ ▸ fresh.1)⟩
    · exact filed.expression read
  · intro u member
    rcases Table.mem_values_insert member with rfl | old
    · exact filed.wellFormed_of_compile (mapError_ok.mp compiled)
    · exact filed.spoken u old

theorem filed_of_fields {names : List String} (h : names.foldlM Vocabulary.declareField {} = .ok w) :
    w.Filed := by
  have start : ({} : Vocabulary).Filed := ⟨nofun, nofun, nofun⟩
  have kept : w.Filed ∧ w.expressions = ∅ :=
    foldlM_keeps (P := fun u => u.Filed ∧ u.expressions = ∅)
      (fun _ _ _ held ran => held.1.declareField held.2 ran) ⟨start, rfl⟩ h
  exact kept.1

theorem Filed.of_expressions {entries : List (String × String)} (filed : v.Filed)
    (h : entries.foldlM (fun v p => v.declareExpression p.1 p.2) v = .ok w) : w.Filed :=
  foldlM_keeps (P := Filed) (fun _ _ _ held ran => held.declareExpression ran) filed h

/-- An expression stays under its name, since later ones have other names. -/
theorem stored_of_expressions {entries : List (String × String)}
    (h : entries.foldlM (fun v p => v.declareExpression p.1 p.2) v = .ok w) :
    ∀ p ∈ entries, ∃ t, w.expressions.get? (foldName p.1) = some t := by
  refine foldlM_marks (P := fun p u => ∃ t, u.expressions.get? (foldName p.1) = some t) ?_ ?_ h
  · intro p u x ran
    obtain ⟨_, _, t, _, rfl⟩ := declareExpression_ok ran
    exact ⟨t, (Table.get?_insert ..).trans (if_pos rfl)⟩
  · intro p q u x ⟨t, read⟩ ran
    obtain ⟨_, _, t', _, rfl⟩ := declareExpression_ok ran
    rw [addExpression, Table.get?_insert]
    split
    · exact ⟨t', rfl⟩
    · exact ⟨t, read⟩

/-! ### What a name compiles to -/

theorem Denotes.compile (denotes : v.Denotes name t) (some : words name ≠ []) (spoken : Spoken name)
    (whole : v.Whole (words name)) : v.compile name = .ok t := by
  obtain ⟨m, found, named⟩ := denotes
  rw [Vocabulary.compile, spoken.sentenceWords]
  exact parse_of_whole whole some found named

/-- The name of a field compiles to the field in no other way. -/
theorem Filed.compile_field_iff (filed : v.Filed) {d : String} (declared : d ∈ v.fields.values) :
    v.compile d = .ok (.field d) ↔ words d ≠ [] ∧ Spoken d ∧ v.Whole (words d) := by
  constructor
  · intro compiled
    obtain ⟨some, whole, m, found, named⟩ := chunk_of_parse_field compiled
    have spoken : Spoken d := by
      have member := filed.wellFormed_of_compile compiled
      simpa using (List.mem_filter.mp member).2
    rw [spoken.sentenceWords] at some whole
    exact ⟨some, spoken, whole⟩
  · rintro ⟨some, spoken, whole⟩
    exact (filed.denotes_field declared).compile some spoken whole

end Vocabulary

namespace State

open Vocabulary

variable {s : State} {name : String} {t : Tree}

theorem trigger_of_names (named : s.vocabulary.names (foldName name) = true) :
    s.trigger name = (s.vocabulary.parse ((foldName name).splitOn " " ++ ["has", "changed"])).mapError
      (.compile name) := if_pos named

theorem trigger_of_denotes (denotes : s.vocabulary.Denotes name t) (whole : s.vocabulary.Whole (words name))
    (free : s.vocabulary.find? "changed" = none) :
    s.trigger name = if Item.Writes t then .error (.compile name (.misplacedPlaceholder .hasChanged))
      else .ok (.changed t .placeholder) := by
  obtain ⟨m, found, named⟩ := denotes
  obtain ⟨ws, folded, some, _, phrase, same⟩ := exists_folded name
  rw [trigger_of_names (names_of_find? found named), folded]
  rw [← phrase] at found
  rw [parse_changed ((same _).mpr whole) some found named free]
  split <;> rfl

theorem trigger_field_iff (filed : s.vocabulary.Filed) {d : String} (declared : d ∈ s.fieldNames) :
    s.trigger d = .ok (.changed (.field d) .placeholder) ↔
      s.vocabulary.Whole (words d) ∧ s.vocabulary.find? "changed" = none := by
  have denotes := filed.denotes_field declared
  constructor
  · intro triggered
    obtain ⟨m, found, named⟩ := denotes
    obtain ⟨ws, folded, some, spaceless, _, same⟩ := exists_folded d
    rw [trigger_of_names (names_of_find? found named), folded] at triggered
    obtain ⟨whole, free⟩ := whole_of_parse_changed spaceless some (mapError_ok.mp triggered)
    exact ⟨(same _).mp whole, free⟩
  · rintro ⟨whole, free⟩
    exact trigger_of_denotes denotes whole free

theorem build_filed {c : Config} (built : State.build c = .ok s) :
    s.vocabulary.Filed ∧ ∀ e ∈ c.expressions.names, ∃ t, s.expression? e = some t := by
  obtain ⟨v, declared, built⟩ := bind_ok built
  obtain ⟨w, compiled, built⟩ := bind_ok built
  obtain ⟨rules, _, built⟩ := bind_ok built
  cases built
  refine ⟨(filed_of_fields declared).of_expressions compiled, fun e member => ?_⟩
  obtain ⟨p, present, rfl⟩ := List.mem_map.mp member
  exact stored_of_expressions compiled p present

end State

namespace App

variable {σ : Type} {c : Config} {app : App σ}

theorem listen_eq {props : List String} (known : ∀ prop ∈ props, app.store.live.contains prop = true)
    (trigger : String) (listener : Payload → Script σ) :
    app.listen trigger props listener =
      match app.store.trigger trigger with
      | .ok t => (.ok (), app.withHandlers (app.store.handlers ++ [⟨t, props, listener⟩]))
      | .error e => (.error e, app) := by
  have all : (props.find? fun prop => !app.store.live.contains prop) = none :=
    List.find?_eq_none.mpr fun prop member => by simp [known prop member]
  unfold listen Store.listen
  rw [all]
  cases app.store.trigger trigger <;> rfl

theorem listen_registers_iff {props : List String} (known : ∀ prop ∈ props, app.store.live.contains prop = true)
    {trigger : String} {t : Tree} {listener : Payload → Script σ} :
    app.listen trigger props listener =
        (.ok (), app.withHandlers (app.store.handlers ++ [⟨t, props, listener⟩])) ↔
      app.store.trigger trigger = .ok t := by
  rw [listen_eq known]
  constructor
  · intro registered
    cases triggered : app.store.trigger trigger with
    | error e =>
      rw [triggered] at registered
      cases congrArg Prod.fst registered
    | ok u =>
      rw [triggered] at registered
      have handlers := congrArg (fun r => r.2.store.handlers) registered
      have last := List.append_cancel_left handlers
      rw [(Handler.mk.inj (List.singleton_inj.mp last)).1]
  · intro triggered
    rw [triggered]

/-- A declared field can be named in a sentence exactly if its name has words, none of them is dropped from
sentences, and no phrase begins behind the first one. It can be listened to exactly if no phrase begins behind
the first of its words, and none is the last word of the question that is put to it. The names of expressions
can be used under the same conditions, but an expression that is an effect cannot be listened to. -/
theorem Reachable.names_usable_iff (reachable : app.Reachable c) :
    (∀ d ∈ c.data.names,
      (app.store.compile d = .ok (.field d) ↔
        words d ≠ [] ∧ Spoken d ∧ app.store.vocabulary.Whole (words d)) ∧
      ∀ props (listener : Payload → Script σ), (∀ prop ∈ props, prop ∈ c.data.names) →
        (app.listen d props listener =
            (.ok (), app.withHandlers (app.store.handlers ++ [⟨.changed (.field d) .placeholder, props, listener⟩])) ↔
          app.store.vocabulary.Whole (words d) ∧ app.store.vocabulary.find? "changed" = none)) ∧
    ∀ e ∈ c.expressions.names, ∃ t, app.store.expression? e = some t ∧
      (words e ≠ [] → Spoken e → app.store.vocabulary.Whole (words e) → app.store.compile e = .ok t) ∧
      (app.store.vocabulary.Whole (words e) → app.store.vocabulary.find? "changed" = none →
        ∀ props (listener : Payload → Script σ), (∀ prop ∈ props, prop ∈ c.data.names) →
          app.listen e props listener =
            if Item.Writes t then (.error (.compile e (.misplacedPlaceholder .hasChanged)), app)
            else (.ok (), app.withHandlers (app.store.handlers ++ [⟨.changed t .placeholder, props, listener⟩]))) := by
  have consistent := reachable.consistent
  have fields : app.store.vocabulary.fields.values = c.data.names := consistent.fields
  have present : ∀ {props : List String}, (∀ prop ∈ props, prop ∈ c.data.names) →
      ∀ prop ∈ props, app.store.live.contains prop = true := fun known prop member =>
    consistent.contains_iff.mpr (known prop member)
  obtain ⟨s, built, vocabulary, _⟩ := reachable.exists_built
  obtain ⟨filed, expressions⟩ := State.build_filed built
  rw [← vocabulary] at filed
  refine ⟨fun d declared => ⟨?_, fun props listener known => ?_⟩, fun e declared => ?_⟩
  · exact mapError_ok.trans (filed.compile_field_iff (fields ▸ declared))
  · exact (listen_registers_iff (present known)).trans (State.trigger_field_iff filed (consistent.fields ▸ declared))
  · obtain ⟨t, stored⟩ := expressions e declared
    have read : app.store.expression? e = some t := by
      rwa [State.expression?, vocabulary]
    have denotes := filed.denotes_expression read
    refine ⟨t, read, fun some spoken whole => ?_, fun whole free props listener known => ?_⟩
    · exact mapError_ok.mpr (denotes.compile some spoken whole)
    · rw [listen_eq (present known), State.trigger_of_denotes denotes whole free]
      by_cases effect : Item.Writes t
      · rw [if_pos effect, if_pos effect]
      · rw [if_neg effect, if_neg effect]

/-- The counter has two names that can be used. -/
theorem Reachable.counter_names_usable :
    Counter.app.store.compile "x" = .ok (.field "x") ∧
      (Counter.app.listen "started" [] fun _ => .done).1 = .ok () := by
  obtain ⟨fields, expressions⟩ := Counter.reachable.names_usable_iff
  have free : Counter.app.store.vocabulary.find? "changed" = none := by decide
  have one : words "x" = ["x"] ∧ words "started" = ["started"] := by decide
  refine ⟨(fields "x" (by decide)).1.mpr ⟨?_, by decide, ?_⟩, ?_⟩
  · rw [one.1]
    exact List.cons_ne_nil _ _
  · rw [one.1]
    exact Vocabulary.whole_singleton _
  · obtain ⟨t, read, _, listens⟩ := expressions "started" (by decide)
    have whole : Counter.app.store.vocabulary.Whole (words "started") := one.2 ▸ Vocabulary.whole_singleton _
    have started : Counter.app.store.expression? "started" = some Counter.started := by decide
    obtain rfl := Option.some.inj (read.symm.trans started)
    rw [listens whole free [] _ (fun _ member => nomatch member), if_neg (by decide)]

end App

namespace Nested

/-- An expression whose name has the name of a field in it. -/
def config : Config where
  data := .ofList [("Foo", .bool true)]
  expressions := .ofList [("Is Foo", "foo is true")]

/-- What it is compiled to. -/
def state : State where
  live := config.data
  history := [config.data]
  vocabulary :=
    { fields := .ofList [("foo", "Foo")]
      expressions := .ofList [("is foo", .compare .equal (.field "Foo") (.value (.bool true)))] }
  rules := []

end Nested

/-- The name of an accepted expression is cut where the name of a field begins in it, and cannot be used. -/
theorem nested_name_unusable :
    State.build Nested.config = .ok Nested.state ∧
      Nested.state.expression? "Is Foo" = some (.compare .equal (.field "Foo") (.value (.bool true))) ∧
      Nested.state.compile "Is Foo" = .error (.compile "Is Foo" (.missingOperand .is)) ∧
      Nested.state.trigger "Is Foo" = .error (.compile "Is Foo" (.missingOperand .is)) := by
  have folded : (foldName "Is Foo").splitOn " " = words "Is Foo" :=
    splitOn_phraseOf (spaceless_words "Is Foo") (by decide)
  refine ⟨by decide +kernel, by decide, by decide, ?_⟩
  rw [State.trigger_of_names (by decide), folded]
  decide

end Rulebook
