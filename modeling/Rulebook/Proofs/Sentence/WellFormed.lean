import Rulebook.Proofs.Sentence.Parse
import Rulebook.Proofs.Tree.Basic

/-!
# Sentences compile to well-formed trees

If the expressions of a vocabulary are well formed, so is every tree that a sentence compiles to.
-/

namespace Rulebook

namespace Tree

variable {declared : List String} {k : Keyword} {l r : Tree}

theorem wellFormed_join (form : k.form = .between ∨ k.form = .chain) :
    (join k l r).WellFormed declared ↔ l.WellFormed declared ∧ r.WellFormed declared := by
  cases k with
  | set | inc | hasChanged | hasNotChanged => rcases form with form | form <;> cases form
  | _ => exact Iff.rfl

theorem wellFormed_join_behind (form : k.form = .behind) :
    (join k l r).WellFormed declared ↔ l.WellFormed declared ∧ r = placeholder := by
  cases k with
  | hasChanged | hasNotChanged => exact Iff.rfl
  | _ => cases form

theorem wellFormed_join_step (form : k.form = .step) :
    (join k l r).WellFormed declared ↔ (∃ name ∈ declared, l = field name) ∧ r = placeholder := by
  obtain rfl := Keyword.form_step.mp form
  exact Iff.rfl

theorem wellFormed_join_write (form : k.form = .write) :
    (join k l r).WellFormed declared ↔ (∃ name ∈ declared, l = field name) ∧ r.WellFormed declared := by
  obtain rfl := Keyword.form_write.mp form
  exact Iff.rfl

theorem wellFormed_left (pure : k.assigns = false) (wellFormed : (join k l r).WellFormed declared) :
    l.WellFormed declared := by
  rcases Keyword.not_assigns_iff.mp pure with between | chain | behind
  · exact ((wellFormed_join (Or.inl between)).mp wellFormed).1
  · exact ((wellFormed_join (Or.inr chain)).mp wellFormed).1
  · exact ((wellFormed_join_behind behind).mp wellFormed).1

end Tree

namespace Item

/-- All finished trees among the items are well formed. -/
def Sound (declared : List String) (items : List Item) : Prop :=
  ∀ t, operand t ∈ items → t.WellFormed declared

variable {declared : List String}

theorem sound_append {front back : List Item} :
    Sound declared (front ++ back) ↔ Sound declared front ∧ Sound declared back := by
  simp only [Sound, List.mem_append, or_imp, forall_and]

theorem sound_pending {k : Keyword} {items : List Item} :
    Sound declared (pending k :: items) ↔ Sound declared items := by
  simp [Sound]

theorem sound_operand {t : Tree} {items : List Item} :
    Sound declared (operand t :: items) ↔ t.WellFormed declared ∧ Sound declared items := by
  simp [Sound, or_imp, forall_and]

theorem Reused.wellFormed {k : Keyword} {run : List Item} {t : Tree} (reused : Reused k run t)
    (sound : Sound declared run) : t.WellFormed declared := by
  obtain ⟨rfl, _, _⟩ := reused
  exact (sound_operand.mp sound).1

theorem Clause.wellFormed {k : Keyword} {Tighter : List Item → Tree → Prop} {run : List Item} {t : Tree}
    (clause : Clause k Tighter run t) (sound : Sound declared run)
    (tighter : ∀ {run t}, Tighter run t → Sound declared run → t.WellFormed declared) :
    t.WellFormed declared := by
  induction clause with
  | tighter phrase => exact tighter phrase sound
  | reused reused => exact reused.wellFormed sound
  | between form first second =>
    obtain ⟨left, right⟩ := sound_append.mp sound
    rw [Tree.wellFormed_join (Or.inl form)]
    exact ⟨tighter first left, tighter second (sound_pending.mp right)⟩
  | chain form _ second ih =>
    obtain ⟨left, right⟩ := sound_append.mp sound
    rw [Tree.wellFormed_join (Or.inr form)]
    exact ⟨ih left, tighter second (sound_pending.mp right)⟩
  | behind form operand =>
    have left := (sound_append.mp sound).1
    rw [Tree.wellFormed_join_behind form]
    exact ⟨operand.elim (fun phrase => tighter phrase left) fun reused => reused.wellFormed left, rfl⟩
  | step form =>
    have target := (sound_operand.mp (sound_pending.mp sound)).1
    rw [Tree.wellFormed_join_step form]
    exact ⟨⟨_, target, rfl⟩, rfl⟩
  | write form phrase =>
    obtain ⟨target, right⟩ := sound_operand.mp (sound_pending.mp sound)
    rw [Tree.wellFormed_join_write form]
    exact ⟨⟨_, target, rfl⟩, tighter phrase right⟩

theorem Phrase.wellFormed {ks : List Keyword} {run : List Item} {t : Tree} (phrase : Phrase ks run t)
    (sound : Sound declared run) : t.WellFormed declared := by
  induction ks generalizing run t with
  | nil =>
    obtain ⟨rfl, _⟩ := phrase
    exact (sound_operand.mp sound).1
  | cons k ks ih => exact Clause.wellFormed phrase sound ih

end Item

namespace Vocabulary

/-- The expressions are well formed over the fields. -/
def WellFormed (v : Vocabulary) : Prop := ∀ t ∈ v.expressions.values, t.WellFormed v.fields.values

instance (v : Vocabulary) : Decidable v.WellFormed :=
  inferInstanceAs (Decidable (∀ t ∈ v.expressions.values, t.WellFormed v.fields.values))

theorem sound_items {v : Vocabulary} (wellFormed : v.WellFormed) (ws : List String) :
    Item.Sound v.fields.values (v.items ws) := by
  intro t member
  obtain ⟨chunk, present, same⟩ := List.mem_map.mp member
  unfold Item.ofChunk at same
  split at same
  · cases same
  · next means =>
    cases same
    obtain ⟨phrase, found⟩ := meaning_chunks present means
    exact find?_field found
  · next means =>
    cases same
    obtain ⟨phrase, found⟩ := meaning_chunks present means
    exact wellFormed t (find?_expression found)
  · cases same
    trivial

theorem wellFormed_of_parse {v : Vocabulary} {ws : List String} {t : Tree} (wellFormed : v.WellFormed)
    (parsed : v.parse ws = .ok t) : t.WellFormed v.fields.values :=
  Item.Phrase.wellFormed (parse_ok_iff.mp parsed) (sound_items wellFormed ws)

end Vocabulary

end Rulebook
