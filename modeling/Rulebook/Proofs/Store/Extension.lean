import Mathlib.Data.List.Infix
import Rulebook.Proofs.Sentence.Chunks
import Rulebook.Proofs.Store.Build

/-!
# One more name

What a further field or expression changes: `extension_conservative`. A sentence reads only the phrases that it
mentions, and the tree of an expression is fixed when it is declared, so that a name reaches a sentence itself or
through the expressions that the sentence mentions.
-/

namespace Rulebook

/-- Some of the words, in a row, are the phrase. -/
def Mentions (phrase : String) (ws : List String) : Prop := ∃ run, run <:+: ws ∧ run ≠ [] ∧ phraseOf run = phrase

instance (phrase : String) (ws : List String) : Decidable (Mentions phrase ws) :=
  decidable_of_iff (∃ back ∈ ws.tails, ∃ run ∈ back.inits, run ≠ [] ∧ phraseOf run = phrase) <| by
    simp only [List.mem_tails, List.mem_inits, Mentions, List.infix_iff_prefix_suffix]
    constructor
    · rintro ⟨back, ending, run, front, read⟩
      exact ⟨run, ⟨back, front, ending⟩, read⟩
    · rintro ⟨run, ⟨back, front, ending⟩, read⟩
      exact ⟨back, ending, run, front, read⟩

namespace Vocabulary

variable {v w : Vocabulary} {ws : List String} {phrase name n : String}

/-! ### What a sentence reads -/

theorem parse_congr (same : ∀ phrase, Mentions phrase ws → v.find? phrase = w.find? phrase) :
    v.parse ws = w.parse ws := by
  have chunks : v.chunks ws = w.chunks ws := by
    have reread := chunks_reread (v := v) (w := w) (f := id) fun run inside some => by
      rw [Option.map_id]
      exact same _ ⟨run, inside, some, rfl⟩
    have kept : Chunk.reread id = id := by
      funext chunk
      simp [Chunk.reread]
    rw [reread, kept, List.map_id]
  rw [parse, parse, chunks]

theorem find?_fields_insert (other : n ≠ phrase) (d : String) :
    { v with fields := v.fields.insert n d }.find? phrase = v.find? phrase := by
  simp only [find?, Table.get?_insert, if_neg other]

theorem find?_expressions_insert (other : n ≠ phrase) (t : Tree) :
    { v with expressions := v.expressions.insert n t }.find? phrase = v.find? phrase := by
  simp only [find?, Table.get?_insert, if_neg other]

theorem parse_fields_insert (unsaid : ¬ Mentions n ws) (d : String) :
    { v with fields := v.fields.insert n d }.parse ws = v.parse ws := by
  apply parse_congr
  intro phrase said
  have other : n ≠ phrase := fun same => unsaid (same ▸ said)
  exact find?_fields_insert other d

theorem parse_expressions_insert (unsaid : ¬ Mentions n ws) (t : Tree) :
    { v with expressions := v.expressions.insert n t }.parse ws = v.parse ws := by
  apply parse_congr
  intro phrase said
  have other : n ≠ phrase := fun same => unsaid (same ▸ said)
  exact find?_expressions_insert other t

theorem find?_addField (free : Keyword.ofPhrase? (foldName name) = none) :
    (v.addField name).find? (foldName name) = some (.field name) := by
  simp [find?, addField, Table.get?_insert, free]

theorem find?_addExpression {t : Tree} (free : Keyword.ofPhrase? (foldName name) = none)
    (fresh : v.names (foldName name) = false) :
    (v.addExpression name t).find? (foldName name) = some (.expression t) := by
  rw [names, Bool.or_eq_false_iff, Table.contains_eq_false] at fresh
  have bare : v.fields.get? (foldName name) = none :=
    Option.not_isSome_iff_eq_none.mp fun found => fresh.1 (Table.contains_iff.mp found)
  simp [find?, addExpression, Table.get?_insert, free, bare]

/-! ### Declarations in step -/

/-- Two vocabularies that differ on some phrases only. -/
def Alike (differs : String → Prop) (v w : Vocabulary) : Prop :=
  ∀ phrase, ¬ differs phrase → v.find? phrase = w.find? phrase

variable {differs : String → Prop} {v' w' : Vocabulary} {sentence : String}

theorem Alike.compiled (alike : Alike differs v w)
    (unsaid : ∀ phrase, differs phrase → ¬ Mentions phrase (sentenceWords sentence)) :
    v.compiled sentence = w.compiled sentence := by
  have parsed : v.compile sentence = w.compile sentence :=
    parse_congr fun phrase said => alike phrase fun differ => unsaid phrase differ said
  rw [Vocabulary.compiled, Vocabulary.compiled, parsed]

theorem alike_declareField (declared : v.declareField name = .ok w) (own : differs (foldName name)) :
    Alike differs v w := by
  obtain ⟨_, _, rfl⟩ := declareField_ok declared
  intro phrase unlike
  have other : foldName name ≠ phrase := fun same => unlike (same ▸ own)
  exact (find?_fields_insert other name).symm

theorem alike_declareExpression (declared : v.declareExpression name sentence = .ok w)
    (own : differs (foldName name)) : Alike differs v w := by
  obtain ⟨_, _, t, _, rfl⟩ := declareExpression_ok declared
  intro phrase unlike
  have other : foldName name ≠ phrase := fun same => unlike (same ▸ own)
  exact (find?_expressions_insert other t).symm

theorem Alike.declareField (alike : Alike differs v w) (left : v.declareField name = .ok v')
    (right : w.declareField name = .ok w') : Alike differs v' w' := by
  obtain ⟨free, _, rfl⟩ := declareField_ok left
  obtain ⟨_, _, rfl⟩ := declareField_ok right
  intro phrase unlike
  by_cases here : foldName name = phrase
  · rw [← here, find?_addField free, find?_addField free]
  · calc (v.addField name).find? phrase
      _ = v.find? phrase := find?_fields_insert here name
      _ = w.find? phrase := alike phrase unlike
      _ = (w.addField name).find? phrase := (find?_fields_insert here name).symm

theorem Alike.declareExpression (alike : Alike differs v w) (left : v.declareExpression name sentence = .ok v')
    (right : w.declareExpression name sentence = .ok w')
    (unsaid : ¬ differs (foldName name) → ∀ phrase, differs phrase → ¬ Mentions phrase (sentenceWords sentence)) :
    Alike differs v' w' := by
  obtain ⟨free, fresh, t, made, rfl⟩ := declareExpression_ok left
  obtain ⟨_, fresh', u, made', rfl⟩ := declareExpression_ok right
  intro phrase unlike
  by_cases here : foldName name = phrase
  · subst here
    have same : t = u := Except.ok.inj (made.symm.trans ((alike.compiled (unsaid unlike)).trans made'))
    rw [find?_addExpression free fresh, find?_addExpression free fresh', same]
  · calc (v.addExpression name t).find? phrase
      _ = v.find? phrase := find?_expressions_insert here t
      _ = w.find? phrase := alike phrase unlike
      _ = (w.addExpression name u).find? phrase := (find?_expressions_insert here u).symm

end Vocabulary

/-! ### One more declaration -/

/-- The phrases that bring a name into a sentence: its own, and the name of every later expression whose sentence
mentions such a phrase. -/
inductive Carries (later : List (String × String)) (name : String) : String → Prop
  | itself : Carries later name name
  | through {p : String × String} {phrase : String} : p ∈ later → Carries later name phrase →
      Mentions phrase (sentenceWords p.2) → Carries later name (foldName p.1)

/-- The second configuration declares one name more than the first, and `later` are the expressions behind it. -/
inductive Config.Adds (c c' : Config) (name : String) : List (String × String) → Prop
  | field {before after : List String} : c.data.names = before ++ after → c'.data.names = before ++ name :: after →
      c'.expressions = c.expressions → Adds c c' name c.expressions.entries
  | expression {sentence : String} {before later : List (String × String)} : c'.data.names = c.data.names →
      c.expressions.entries = before ++ later → c'.expressions.entries = before ++ (name, sentence) :: later →
      Adds c c' name later

/-- An expression that is declared in both vocabularies differs at most if it carries the name. -/
theorem Vocabulary.Alike.declareExpressions {v w v' w' : Vocabulary} {name : String} {later : List (String × String)}
    (alike : Alike (Carries later name) v w)
    (left : later.foldlM (fun v p => v.declareExpression p.1 p.2) v = .ok v')
    (right : later.foldlM (fun v p => v.declareExpression p.1 p.2) w = .ok w') : Alike (Carries later name) v' w' := by
  refine foldlM_related (fun p member _ _ _ _ alike ran ran' => ?_) alike left right
  exact alike.declareExpression ran ran' fun free phrase carries said => free (.through member carries said)

namespace State

open Vocabulary

variable {c c' : Config} {s s' : State} {name : String} {later : List (String × String)}

/-- The vocabularies of both states differ only on the phrases that carry the name. -/
theorem alike_of_adds (adds : c.Adds c' name later) (built : State.build c = .ok s)
    (built' : State.build c' = .ok s') : Alike (Carries later (foldName name)) s.vocabulary s'.vocabulary := by
  obtain ⟨v, fields, built⟩ := bind_ok built
  obtain ⟨w, expressions, built⟩ := bind_ok built
  obtain ⟨_, _, made⟩ := bind_ok built
  cases made
  obtain ⟨v', fields', built'⟩ := bind_ok built'
  obtain ⟨w', expressions', built'⟩ := bind_ok built'
  obtain ⟨_, _, made⟩ := bind_ok built'
  cases made
  -- Behind the new name both configurations go on alike.
  cases adds with
  | field names names' same =>
    rw [names] at fields
    rw [names'] at fields'
    obtain ⟨x, first, fields⟩ := foldlM_append_ok fields
    obtain ⟨x', first', fields'⟩ := foldlM_append_ok fields'
    cases first.symm.trans first'
    obtain ⟨x', added, fields'⟩ := bind_ok fields'
    have start : Alike (Carries c.expressions.entries (foldName name)) x x' := alike_declareField added .itself
    have alike := foldlM_related (fun _ _ _ _ _ _ alike ran ran' => alike.declareField ran ran') start fields fields'
    rw [same] at expressions'
    exact alike.declareExpressions expressions expressions'
  | expression same entries entries' =>
    rw [same] at fields'
    cases fields.symm.trans fields'
    rw [entries] at expressions
    rw [entries'] at expressions'
    obtain ⟨x, first, expressions⟩ := foldlM_append_ok expressions
    obtain ⟨x', first', expressions'⟩ := foldlM_append_ok expressions'
    cases first.symm.trans first'
    obtain ⟨x', added, expressions'⟩ := bind_ok expressions'
    have start : Alike (Carries later (foldName name)) x x' := alike_declareExpression added .itself
    exact start.declareExpressions expressions expressions'

end State

/-- A name that a sentence does not mention can be added to the tables. A further declaration leaves every sentence
alone that mentions its name neither itself nor through the expressions that it reuses. -/
theorem extension_conservative :
    (∀ (v : Vocabulary) (ws : List String) (n : String), ¬ Mentions n ws →
      (∀ d, { v with fields := v.fields.insert n d }.parse ws = v.parse ws) ∧
        ∀ t, { v with expressions := v.expressions.insert n t }.parse ws = v.parse ws) ∧
      ∀ (c c' : Config) (s s' : State) (name : String) (later : List (String × String)), c.Adds c' name later →
        State.build c = .ok s → State.build c' = .ok s' →
        ∀ sentence, (∀ phrase, Carries later (foldName name) phrase → ¬ Mentions phrase (sentenceWords sentence)) →
          s'.compile sentence = s.compile sentence := by
  refine ⟨fun v ws n unsaid => ⟨?_, ?_⟩, fun c c' s s' name later adds built built' sentence unsaid => ?_⟩
  · exact Vocabulary.parse_fields_insert unsaid
  · exact Vocabulary.parse_expressions_insert unsaid
  · exact ((State.alike_of_adds adds built built').compiled unsaid).symm

namespace Foo

/-- One expression has the word `foo` in its sentence, the other has not. -/
def config : Config where
  data := .ofList [("x", .number .zero)]
  expressions := .ofList [("ready", "x is foo"), ("calm", "x is bar")]

/-- The same with a field of that name. -/
def extended : Config := { config with data := .ofList [("x", .number .zero), ("foo", .bool true)] }

theorem adds : config.Adds extended "foo" config.expressions.entries :=
  @Config.Adds.field config extended "foo" ["x"] [] rfl rfl rfl

/-- What both are compiled to, with the field or the word on the right of `ready`. -/
def state (c : Config) (fields : Table String) (foo : Tree) : State where
  live := c.data
  history := [c.data]
  vocabulary := {
    fields
    expressions := .ofList [("ready", .compare .equal (.field "x") foo),
      ("calm", .compare .equal (.field "x") (.value (.ofWord "bar")))] }
  rules := []

def before : State := state config (.ofList [("x", "x")]) (.value (.ofWord "foo"))

def behind : State := state extended (.ofList [("x", "x"), ("foo", "foo")]) (.field "foo")

theorem build_config : State.build config = .ok before := by decide +kernel

theorem build_extended : State.build extended = .ok behind := by decide +kernel

theorem carried {phrase : String} (carries : Carries config.expressions.entries (foldName "foo") phrase) :
    phrase = "foo" ∨ phrase = "ready" := by
  induction carries with
  | itself => exact .inl (by decide)
  | @through p phrase member _ said ih =>
    have entries : config.expressions.entries = [("ready", "x is foo"), ("calm", "x is bar")] := rfl
    simp only [entries, List.mem_cons, List.not_mem_nil, or_false] at member
    rcases member with rfl | rfl
    · exact .inr (by decide)
    · rcases ih with rfl | rfl
      · exact absurd said (by decide)
      · exact absurd said (by decide)

end Foo

/-- The new field is in no phrase of these sentences, nor in an expression that they reuse. -/
theorem extension_spares_bar :
    { Foo.before.vocabulary with fields := Foo.before.vocabulary.fields.insert "foo" "foo" }.parse ["x", "is", "bar"] =
        Foo.before.vocabulary.parse ["x", "is", "bar"] ∧
      Foo.behind.compile "calm" = Foo.before.compile "calm" := by
  obtain ⟨tables, declarations⟩ := extension_conservative
  constructor
  · exact (tables Foo.before.vocabulary ["x", "is", "bar"] "foo" (by decide)).1 "foo"
  · apply declarations _ _ _ _ "foo" _ Foo.adds Foo.build_config Foo.build_extended
    intro phrase carries
    rcases Foo.carried carries with rfl | rfl
    · decide
    · decide

/-- The field changes what `ready` compiles to, and `ready` does not mention it. -/
theorem extension_reaches_ready :
    Foo.config.Adds Foo.extended "foo" Foo.config.expressions.entries ∧
      State.build Foo.config = .ok Foo.before ∧ State.build Foo.extended = .ok Foo.behind ∧
      ¬ Mentions (foldName "foo") (sentenceWords "ready") ∧
      Foo.before.compile "ready" = .ok (.compare .equal (.field "x") (.value (.ofWord "foo"))) ∧
      Foo.behind.compile "ready" = .ok (.compare .equal (.field "x") (.field "foo")) := by
  refine ⟨Foo.adds, Foo.build_config, Foo.build_extended, ?_⟩
  decide

end Rulebook
