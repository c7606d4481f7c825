import Rulebook.Proofs.Sentence.Chunks
import Rulebook.Proofs.Tree.Basic

/-!
# Reused expressions

To use an expression in a sentence is to put its tree in place of a field: `reuse_is_substitution`. A reused
tree that is fenced and a field are items of different shapes, but at every level of the grammar they are
clauses on their own.
-/

namespace Rulebook

/-! ### Items with a tree in place of a field -/

namespace Item

variable {z : String} {u : Tree}

def subst (z : String) (u : Tree) : Item → Item
  | operand t => operand (t.subst z u)
  | built t => built (t.subst z u)
  | fenced t => fenced (t.subst z u)
  | pending k => pending k
  | placeholder => placeholder

/-- The field `z` stands in no operand, unless it is all of it. -/
def Fresh (z : String) (items : List Item) : Prop :=
  ∀ t, operand t ∈ items → t = .field z ∨ z ∉ t.fields

variable {items : List Item}

theorem fresh_append {front back : List Item} : Fresh z (front ++ back) ↔ Fresh z front ∧ Fresh z back := by
  simp only [Fresh, List.mem_append, or_imp, forall_and]

theorem Fresh.tail {item : Item} (fresh : Fresh z (item :: items)) : Fresh z items :=
  fun t member => fresh t (List.mem_cons_of_mem _ member)

/-- An operand is itself after the substitution, or was the field. -/
theorem Fresh.operand {item : Item} (fresh : Fresh z (item :: items)) {t : Tree}
    (same : item.subst z u = operand t) :
    (item = .operand (.field z) ∧ t = u) ∨ (item = .operand t ∧ t = t.subst z u) := by
  cases item with
  | operand s =>
    obtain rfl := Item.operand.inj same
    rcases fresh s List.mem_cons_self with rfl | absent
    · exact Or.inl ⟨rfl, Tree.subst_field_self⟩
    · have kept : s.subst z u = s := Tree.subst_of_not_mem absent
      rw [kept, kept]
      exact Or.inr ⟨rfl, rfl⟩
  | built | fenced | pending | placeholder => cases same

theorem Fresh.field {item : Item} (fresh : Fresh z (item :: items)) {f : String}
    (same : item.subst z u = .operand (.field f)) :
    ∃ g, item = .operand (.field g) ∧ .field f = (Tree.field g).subst z u := by
  rcases fresh.operand same with ⟨rfl, whole⟩ | ⟨rfl, kept⟩
  · exact ⟨z, rfl, whole.trans Tree.subst_field_self.symm⟩
  · exact ⟨f, rfl, kept⟩

theorem Fresh.single (fresh : Fresh z items) {t : Tree} (same : items.map (subst z u) = [.operand t]) :
    (items = [.operand (.field z)] ∧ t = u) ∨ (items = [.operand t] ∧ t = t.subst z u) := by
  obtain ⟨item, rfl, one⟩ := List.map_eq_singleton_iff.mp same
  rcases fresh.operand one with ⟨rfl, whole⟩ | ⟨rfl, kept⟩
  · exact Or.inl ⟨rfl, whole⟩
  · exact Or.inr ⟨rfl, kept⟩

/-- The operators stay in their places. -/
theorem Fresh.head (fresh : Fresh z items) {k : Keyword} {right : List Item}
    (same : items.map (subst z u) = pending k :: right) :
    ∃ back, items = pending k :: back ∧ back.map (subst z u) = right ∧ Fresh z back := by
  obtain ⟨item, back, rfl, op, later⟩ := List.map_eq_cons_iff.mp same
  cases item with
  | pending j =>
    obtain rfl := Item.pending.inj op
    exact ⟨back, rfl, later, fresh.tail⟩
  | operand | built | fenced | placeholder => cases op

theorem Fresh.split (fresh : Fresh z items) {k : Keyword} {left right : List Item}
    (same : items.map (subst z u) = left ++ pending k :: right) :
    ∃ front back, items = front ++ pending k :: back ∧ front.map (subst z u) = left ∧
      back.map (subst z u) = right ∧ Fresh z front ∧ Fresh z back := by
  obtain ⟨front, rest, rfl, first, later⟩ := List.map_eq_append_iff.mp same
  obtain ⟨before, behind⟩ := fresh_append.mp fresh
  obtain ⟨back, rfl, second, after⟩ := behind.head later
  exact ⟨front, back, rfl, first, second, before, after⟩

/-! ### Phrases -/

theorem Phrase.field (ks : List Keyword) (f : String) : Phrase ks [operand (.field f)] (.field f) := by
  induction ks with
  | nil => exact ⟨rfl, fun _ _ root => nomatch root⟩
  | cons k ks ih => exact .tighter ih

theorem Reused.of_subst {k : Keyword} {t : Tree} (reused : Reused k (items.map (subst z u)) t)
    (fresh : Fresh z items) (ks : List Keyword) :
    ∃ s, (Phrase ks items s ∨ Reused k items s) ∧ t = s.subst z u := by
  obtain ⟨same, bound, root⟩ := reused
  rcases fresh.single same with ⟨rfl, rfl⟩ | ⟨rfl, kept⟩
  · exact ⟨.field z, Or.inl (Phrase.field ks z), Tree.subst_field_self.symm⟩
  · exact ⟨t, Or.inr ⟨rfl, bound, root⟩, kept⟩

theorem Clause.of_subst {k : Keyword} {ks : List Keyword} {run : List Item} {t : Tree}
    (clause : Clause k (Phrase ks) run t)
    (tighter : ∀ {items t}, Fresh z items → Phrase ks (items.map (subst z u)) t →
      ∃ s, Phrase ks items s ∧ t = s.subst z u)
    (fresh : Fresh z items) (same : items.map (subst z u) = run) :
    ∃ s, Clause k (Phrase ks) items s ∧ t = s.subst z u := by
  -- By induction on the clause with `u`: its parts are images of parts of the items with the field.
  induction clause generalizing items with
  | tighter phrase =>
    subst same
    obtain ⟨s, read, rfl⟩ := tighter fresh phrase
    exact ⟨s, .tighter read, rfl⟩
  | reused reused =>
    subst same
    -- The field needs no fence where `u` needs one, and is then a tighter phrase.
    obtain ⟨s, read | read, rfl⟩ := reused.of_subst fresh ks
    · exact ⟨s, .tighter read, rfl⟩
    · exact ⟨s, .reused read, rfl⟩
  | between form first second =>
    obtain ⟨front, back, rfl, rfl, rfl, before, after⟩ := fresh.split same
    obtain ⟨l, left, rfl⟩ := tighter before first
    obtain ⟨r, right, rfl⟩ := tighter after second
    exact ⟨.join k l r, .between form left right, (Tree.subst_join k l r).symm⟩
  | chain form _ second ih =>
    obtain ⟨front, back, rfl, rfl, rfl, before, after⟩ := fresh.split same
    obtain ⟨l, left, rfl⟩ := ih before rfl
    obtain ⟨r, right, rfl⟩ := tighter after second
    exact ⟨.join k l r, .chain form left right, (Tree.subst_join k l r).symm⟩
  | @behind _ l form operand =>
    obtain ⟨front, back, rfl, rfl, none, before, _⟩ := fresh.split same
    obtain rfl := List.map_eq_nil_iff.mp none
    have earlier : ∃ s, (Phrase ks front s ∨ Reused k front s) ∧ l = s.subst z u := by
      rcases operand with phrase | reused
      · obtain ⟨s, read, eq⟩ := tighter before phrase
        exact ⟨s, Or.inl read, eq⟩
      · exact reused.of_subst before ks
    obtain ⟨s, read, rfl⟩ := earlier
    exact ⟨.join k s .placeholder, .behind form read, (Tree.subst_join k s .placeholder).symm⟩
  | step form =>
    obtain ⟨back, rfl, one, after⟩ := fresh.head same
    obtain ⟨item, rfl, target⟩ := List.map_eq_singleton_iff.mp one
    -- The target is a field on both sides, for `u` may itself be one.
    obtain ⟨g, rfl, named⟩ := after.field target
    rw [named]
    exact ⟨.join k (.field g) .placeholder, .step form, (Tree.subst_join k _ .placeholder).symm⟩
  | write form phrase =>
    obtain ⟨back, rfl, more, after⟩ := fresh.head same
    obtain ⟨item, right, rfl, target, rfl⟩ := List.map_eq_cons_iff.mp more
    obtain ⟨g, rfl, named⟩ := after.field target
    obtain ⟨r, read, rfl⟩ := tighter after.tail phrase
    rw [named]
    exact ⟨.join k (.field g) r, .write form read, (Tree.subst_join k _ r).symm⟩

theorem Phrase.of_subst {ks : List Keyword} {t : Tree} (fresh : Fresh z items)
    (phrase : Phrase ks (items.map (subst z u)) t) : ∃ s, Phrase ks items s ∧ t = s.subst z u := by
  induction ks generalizing items t with
  | nil =>
    obtain ⟨same, bare⟩ := phrase
    rcases fresh.single same with ⟨rfl, rfl⟩ | ⟨rfl, kept⟩
    · exact ⟨.field z, Phrase.field [] z, Tree.subst_field_self.symm⟩
    · exact ⟨t, ⟨rfl, bare⟩, kept⟩
  | cons k ks ih => exact Clause.of_subst phrase ih fresh rfl

end Item

/-! ### A field in place of an expression -/

def Meaning.expand (z : String) (u : Tree) : Meaning → Meaning
  | field name => if name = z then expression u else field name
  | m => m

namespace Vocabulary

variable {v : Vocabulary} {n z : String} {u : Tree}

/-- Files the field `z` under the name of an expression. -/
def standIn (v : Vocabulary) (n z : String) : Vocabulary where
  fields := v.fields.insert n z
  expressions := v.expressions.erase n

/-- The expression `n` has the tree `u`, and the name `z` is not in use. -/
structure Replaceable (v : Vocabulary) (n z : String) (u : Tree) : Prop where
  named : v.expressions.get? n = some u
  notKeyword : Keyword.ofPhrase? n = none
  notField : n ∉ v.fields.names
  undeclared : z ∉ v.fields.values
  absent : ∀ t ∈ v.expressions.values, z ∉ t.fields

namespace Replaceable

theorem find? (replaceable : v.Replaceable n z u) (phrase : String) :
    v.find? phrase = ((v.standIn n z).find? phrase).map (Meaning.expand z u) := by
  unfold Vocabulary.find?
  cases Keyword.ofPhrase? phrase with
  | some k => rfl
  | none =>
    simp only [standIn, Table.get?_insert, Table.get?_erase]
    by_cases here : n = phrase
    · subst here
      have bare : v.fields.get? n = none :=
        Option.not_isSome_iff_eq_none.mp fun found => replaceable.notField (Table.contains_iff.mp found)
      simp [bare, replaceable.named, Meaning.expand]
    · simp only [if_neg here]
      cases found : v.fields.get? phrase with
      | none => cases v.expressions.get? phrase <;> rfl
      | some name =>
        have other : name ≠ z := fun same =>
          replaceable.undeclared (same ▸ Table.mem_values_of_get? found)
        simp [Meaning.expand, other]

theorem absent_standIn (replaceable : v.Replaceable n z u) {t : Tree}
    (member : t ∈ (v.standIn n z).expressions.values) : z ∉ t.fields :=
  replaceable.absent t (Table.values_erase_subset _ n member)

theorem fresh_items (replaceable : v.Replaceable n z u) (ws : List String) :
    Item.Fresh z ((v.standIn n z).items ws) := by
  intro t member
  obtain ⟨chunk, present, same⟩ := List.mem_map.mp member
  unfold Item.ofChunk at same
  split at same
  · cases same
  · next name _ =>
    cases same
    by_cases here : name = z
    · exact Or.inl (congrArg Tree.field here)
    · exact Or.inr fun member => here (List.mem_singleton.mp member).symm
  · next means =>
    cases same
    obtain ⟨phrase, found⟩ := meaning_chunks present means
    exact Or.inr (replaceable.absent_standIn (find?_expression found))
  · cases same
    exact Or.inr List.not_mem_nil

theorem items (replaceable : v.Replaceable n z u) (ws : List String) :
    v.items ws = ((v.standIn n z).items ws).map (Item.subst z u) := by
  rw [Vocabulary.items, Vocabulary.items, chunks_reread fun run _ _ => replaceable.find? (phraseOf run),
    List.map_map, List.map_map]
  refine List.map_congr_left fun chunk present => ?_
  obtain ⟨words, meaning?⟩ := chunk
  cases meaning? with
  | none => rfl
  | some m =>
    cases m with
    | keyword k => rfl
    | field name =>
      by_cases here : name = z
      · simp [Chunk.reread, Meaning.expand, Item.ofChunk, Item.subst, here]
      · simp [Chunk.reread, Meaning.expand, Item.ofChunk, Item.subst, Tree.subst, here]
    | expression t =>
      obtain ⟨phrase, found⟩ := meaning_chunks present rfl
      have kept : t.subst z u = t :=
        Tree.subst_of_not_mem (replaceable.absent_standIn (find?_expression found))
      exact (congrArg Item.operand kept).symm

end Replaceable

/-- A sentence that uses an expression compiles to the tree that it has with a field in its place, and with the
tree of the expression for the field. -/
theorem reuse_is_substitution (replaceable : v.Replaceable n z u) {ws : List String} {t : Tree}
    (parsed : v.parse ws = .ok t) : ∃ s, (v.standIn n z).parse ws = .ok s ∧ t = s.subst z u := by
  have sentence := parse_ok_iff.mp parsed
  rw [replaceable.items] at sentence
  obtain ⟨s, sentence, same⟩ := Item.Phrase.of_subst (replaceable.fresh_items ws) sentence
  exact ⟨s, parse_ok_iff.mpr sentence, same⟩

/-- A reused question about change keeps its operand between its neighbours. -/
theorem reused_change_is_substituted :
    let moved : Tree := .changed (.field "x") .placeholder
    let v : Vocabulary := { fields := .ofList [("x", "x")], expressions := .ofList [("moved", moved)] }
    ∃ s, (v.standIn "moved" "new").parse ["x", "is", "null", "or", "moved", "then", "inc", "x"] = .ok s ∧
      .when (.compare .either (.compare .equal (.field "x") (.value .null)) moved)
        (.increment (.field "x") .placeholder) = s.subst "new" moved := by
  intro moved v
  have replaceable : v.Replaceable "moved" "new" moved :=
    ⟨by decide, by decide, by decide, by decide, by decide⟩
  exact reuse_is_substitution replaceable (by decide)

end Vocabulary

end Rulebook
