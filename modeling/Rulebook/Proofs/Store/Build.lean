import Rulebook.Proofs.Sentence.WellFormed
import Rulebook.Store.State

/-!
# Building a store

What an accepted configuration is compiled to: the fields as declared, and well-formed trees only.
-/

namespace Rulebook

theorem reserve_ok {name folded : String} (h : reserve name = .ok folded) :
    folded = foldName name ∧ Keyword.ofPhrase? (foldName name) = none := by
  change (if (Keyword.ofPhrase? (foldName name)).isSome then Except.error (StoreError.reservedName name)
    else .ok (foldName name)) = .ok folded at h
  split at h
  · cases h
  · next free =>
    cases h
    exact ⟨rfl, Option.not_isSome_iff_eq_none.mp free⟩

namespace Vocabulary

variable {v w : Vocabulary} {name sentence : String}

theorem declareField_ok (h : v.declareField name = .ok w) :
    Keyword.ofPhrase? (foldName name) = none ∧ v.fields.contains (foldName name) = false ∧
      w = v.addField name := by
  obtain ⟨folded, reserved, h⟩ := bind_ok h
  obtain ⟨rfl, free⟩ := reserve_ok reserved
  cases taken : v.fields.contains (foldName name) with
  | true =>
    rw [taken] at h
    cases h
  | false =>
    rw [taken] at h
    cases h
    exact ⟨free, rfl, rfl⟩

theorem declareExpression_ok (h : v.declareExpression name sentence = .ok w) :
    Keyword.ofPhrase? (foldName name) = none ∧ v.names (foldName name) = false ∧
      ∃ t, v.compiled sentence = .ok t ∧ w = v.addExpression name t := by
  obtain ⟨folded, reserved, h⟩ := bind_ok h
  obtain ⟨rfl, free⟩ := reserve_ok reserved
  cases taken : v.names (foldName name) with
  | true =>
    rw [taken] at h
    cases h
  | false =>
    rw [taken] at h
    obtain ⟨t, made, h⟩ := bind_ok h
    cases h
    exact ⟨free, rfl, t, made, rfl⟩

theorem wellFormed_of_compiled {t : Tree} (wellFormed : v.WellFormed) (h : v.compiled sentence = .ok t) :
    t.WellFormed v.fields.values := wellFormed_of_parse wellFormed (mapError_ok.mp h)

theorem foldlM_declareField_ok {names : List String} (h : names.foldlM declareField v = .ok w) :
    w.fields.values = v.fields.values ++ names ∧ w.expressions = v.expressions := by
  induction names generalizing v with
  | nil =>
    cases h
    exact ⟨(List.append_nil _).symm, rfl⟩
  | cons name names ih =>
    rw [List.foldlM_cons] at h
    obtain ⟨middle, declared, h⟩ := bind_ok h
    obtain ⟨_, fresh, rfl⟩ := declareField_ok declared
    obtain ⟨values, same⟩ := ih h
    refine ⟨?_, same⟩
    rw [values, addField, Table.values_insert name fresh, List.append_assoc]
    rfl

theorem names_foldlM_declareField {names : List String} (h : names.foldlM declareField v = .ok w) :
    w.fields.names = v.fields.names ++ names.map foldName := by
  induction names generalizing v with
  | nil =>
    cases h
    exact (List.append_nil _).symm
  | cons name names ih =>
    rw [List.foldlM_cons] at h
    obtain ⟨middle, declared, h⟩ := bind_ok h
    obtain ⟨_, fresh, rfl⟩ := declareField_ok declared
    have added : (v.addField name).fields.names = v.fields.names ++ [foldName name] :=
      (Table.names_insert ..).trans (if_neg (Table.contains_eq_false.mp fresh))
    rw [ih h, added, List.map_cons, List.append_assoc]
    rfl

theorem names_foldlM_declareExpression {entries : List (String × String)}
    (h : entries.foldlM (fun v p => v.declareExpression p.1 p.2) v = .ok w) :
    w.fields = v.fields ∧
      w.expressions.names = v.expressions.names ++ entries.map fun p => foldName p.1 := by
  induction entries generalizing v with
  | nil =>
    cases h
    exact ⟨rfl, (List.append_nil _).symm⟩
  | cons p entries ih =>
    rw [List.foldlM_cons] at h
    obtain ⟨middle, declared, h⟩ := bind_ok h
    obtain ⟨_, fresh, t, _, rfl⟩ := declareExpression_ok declared
    rw [names, Bool.or_eq_false_iff] at fresh
    have added : (v.addExpression p.1 t).expressions.names = v.expressions.names ++ [foldName p.1] :=
      (Table.names_insert ..).trans (if_neg (Table.contains_eq_false.mp fresh.2))
    obtain ⟨fields, later⟩ := ih h
    refine ⟨fields, ?_⟩
    rw [later, added, List.map_cons, List.append_assoc]
    rfl

theorem WellFormed.declareExpression (wellFormed : v.WellFormed)
    (h : v.declareExpression name sentence = .ok w) : w.fields = v.fields ∧ w.WellFormed := by
  obtain ⟨_, _, t, compiled, rfl⟩ := declareExpression_ok h
  have made := wellFormed_of_compiled wellFormed compiled
  refine ⟨rfl, fun u member => ?_⟩
  rcases Table.mem_values_insert member with rfl | old
  · exact made
  · exact wellFormed u old

/-! ### Refusals -/

theorem reserve_error {e : StoreError} (h : reserve name = .error e) :
    e = .reservedName name ∧ (Keyword.ofPhrase? (foldName name)).isSome = true := by
  change (if (Keyword.ofPhrase? (foldName name)).isSome then Except.error (StoreError.reservedName name)
    else .ok (foldName name)) = .error e at h
  split at h
  · next taken =>
    cases h
    exact ⟨rfl, taken⟩
  · cases h

theorem declareField_error {e : StoreError} (h : v.declareField name = .error e)
    (fresh : foldName name ∉ v.fields.names) :
    e = .reservedName name ∧ (Keyword.ofPhrase? (foldName name)).isSome = true := by
  rcases bind_error h with reserved | ⟨folded, reserved, h⟩
  · exact reserve_error reserved
  · obtain ⟨rfl, _⟩ := reserve_ok reserved
    rw [Table.contains_eq_false.mpr fresh] at h
    cases h

theorem declareExpression_error {e : StoreError} (h : v.declareExpression name sentence = .error e)
    (field : foldName name ∉ v.fields.names) (expression : foldName name ∉ v.expressions.names) :
    (e = .reservedName name ∧ (Keyword.ofPhrase? (foldName name)).isSome = true) ∨
      ∃ cause, e = .compile sentence cause := by
  rcases bind_error h with reserved | ⟨folded, reserved, h⟩
  · exact .inl (reserve_error reserved)
  · obtain ⟨rfl, _⟩ := reserve_ok reserved
    rw [names, Table.contains_eq_false.mpr field, Table.contains_eq_false.mpr expression] at h
    rcases bind_error h with refused | ⟨t, _, h⟩
    · obtain ⟨cause, _, rfl⟩ := mapError_error.mp refused
      exact .inr ⟨cause, rfl⟩
    · cases h

end Vocabulary

namespace State

/-- An accepted configuration gives the declared fields, their first snapshot, and well-formed trees. -/
theorem build_ok {c : Config} {s : State} (h : State.build c = .ok s) :
    s.live = c.data ∧ s.history = [c.data] ∧ s.fieldNames = c.data.names ∧ s.vocabulary.WellFormed ∧
      ∀ t ∈ s.rules, t.WellFormed s.fieldNames := by
  obtain ⟨v, declared, h⟩ := bind_ok h
  obtain ⟨w, compiled, h⟩ := bind_ok h
  obtain ⟨rules, made, h⟩ := bind_ok h
  cases h
  obtain ⟨values, none⟩ := Vocabulary.foldlM_declareField_ok declared
  have empty : v.WellFormed := by
    intro t member
    rw [none] at member
    cases member
  have kept : w.fields = v.fields ∧ w.WellFormed := by
    refine foldlM_keeps (P := fun u => u.fields = v.fields ∧ u.WellFormed) ?_ ⟨rfl, empty⟩ compiled
    intro p u x ⟨same, wellFormed⟩ ran
    obtain ⟨frame, later⟩ := wellFormed.declareExpression ran
    exact ⟨frame.trans same, later⟩
  refine ⟨rfl, rfl, ?_, kept.2, ?_⟩
  · change w.fields.values = c.data.names
    rw [kept.1, values]
    rfl
  · intro t member
    obtain ⟨sentence, _, ran⟩ := mapM_ok made t member
    exact Vocabulary.wellFormed_of_compiled kept.2 ran

/-- If the folded names are distinct, a state is refused for a keyword among the names, or for a sentence. -/
theorem build_error {c : Config} {e : StoreError} (distinct : (c.names.map foldName).Nodup)
    (refused : State.build c = .error e) :
    (∃ name ∈ c.names, e = .reservedName name ∧ (Keyword.ofPhrase? (foldName name)).isSome = true) ∨
      ∃ sentence ∈ c.expressions.values ++ c.rules, ∃ cause, e = .compile sentence cause := by
  rw [Config.names, List.map_append, List.nodup_append] at distinct
  obtain ⟨fields, expressions, apart⟩ := distinct
  rcases bind_error refused with undeclared | ⟨v, declared, refused⟩
  · obtain ⟨before, name, after, v, names, declared, undeclared⟩ := foldlM_error undeclared
    have present : name ∈ c.data.names := by rw [names]; simp
    refine .inl ⟨name, List.mem_append_left _ present, Vocabulary.declareField_error undeclared ?_⟩
    rw [Vocabulary.names_foldlM_declareField declared]
    rw [names, List.map_append, List.nodup_append] at fields
    exact fun member => fields.2.2 _ member _ List.mem_cons_self rfl
  rcases bind_error refused with undeclared | ⟨w, _, refused⟩
  · obtain ⟨before, ⟨name, sentence⟩, after, w, entries, compiled, undeclared⟩ := foldlM_error undeclared
    have present : (name, sentence) ∈ c.expressions.entries := by rw [entries]; simp
    have named : name ∈ c.expressions.names := List.mem_map_of_mem present
    obtain ⟨same, known⟩ := Vocabulary.names_foldlM_declareExpression compiled
    obtain ⟨_, none⟩ := Vocabulary.foldlM_declareField_ok declared
    refine (Vocabulary.declareExpression_error undeclared ?_ ?_).imp ?_ ?_
    · rw [same, Vocabulary.names_foldlM_declareField declared]
      exact fun member => apart _ member _ (List.mem_map_of_mem named) rfl
    · rw [known, none]
      rw [Table.names, entries, List.map_map, List.map_append, List.nodup_append] at expressions
      exact fun member => expressions.2.2 _ member _ List.mem_cons_self rfl
    · exact fun reserved => ⟨name, List.mem_append_right _ named, reserved⟩
    · exact fun compile => ⟨sentence, List.mem_append_left _ (List.mem_map_of_mem present), compile⟩
  rcases bind_error refused with undone | ⟨_, _, made⟩
  · obtain ⟨sentence, present, undone⟩ := mapM_error undone
    obtain ⟨cause, _, rfl⟩ := mapError_error.mp undone
    exact .inr ⟨sentence, List.mem_append_right _ present, cause, rfl⟩
  · cases made

end State

end Rulebook
