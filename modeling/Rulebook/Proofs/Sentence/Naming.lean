import Rulebook.Proofs.Sentence.Chunks
import Rulebook.Proofs.Sentence.Reuse
import Rulebook.Proofs.Words

/-!
# Names in a sentence

What the name of a field or an expression compiles to on its own, and with the question whether its value has
changed.
-/

namespace Rulebook

theorem Tree.join_inj {k : Keyword} {l r l' r' : Tree} (same : join k l r = join k l' r') : l = l' ∧ r = r' := by
  cases k with
  | thenDo | and | set | inc | isNow | isNotNow | hasChanged | hasNotChanged =>
    injection same with left right
    exact ⟨left, right⟩
  | or | was | wasNot | is | isNot | greaterThan | lessThan =>
    injection same with _ left right
    exact ⟨left, right⟩

namespace Item

/-! ### A name and its change -/

theorem Phrase.of_leaf {ks : List Keyword} {run : List Item} {t : Tree} (phrase : Phrase ks run t)
    (leaf : t.keyword? = none) : run = [operand t] := by
  induction ks generalizing run t with
  | nil => exact phrase.1
  | cons k ks ih =>
    cases phrase with
    | tighter phrase => exact ih phrase leaf
    | reused reused => exact reused.1
    | between | chain | behind | step | write => cases (Tree.keyword?_join k _ _).symm.trans leaf

/-- A tree with a leaf on the left of its operator comes of a reused tree, or the operator stands behind the leaf. -/
theorem Phrase.of_join {ks : List Keyword} {run : List Item} {k : Keyword} {l r : Tree}
    (phrase : Phrase ks run (.join k l r)) (leaf : l.keyword? = none) (pure : k.assigns = false) :
    run = [operand (.join k l r)] ∨
      ∃ rest, run = operand l :: pending k :: rest ∧ (k.form = .behind → rest = []) := by
  -- The tree is the same at every level, and only the level of `k` has a clause for it.
  generalize whole : Tree.join k l r = t at phrase
  have root : t.keyword? = some k := by rw [← whole, Tree.keyword?_join]
  induction ks generalizing run with
  | nil => exact .inl phrase.1
  | cons j ks ih =>
    cases phrase with
    | tighter phrase => exact ih phrase
    | reused reused => exact .inl reused.1
    | between form phrase =>
      obtain rfl := Option.some.inj ((Tree.keyword?_join j _ _).symm.trans root)
      obtain ⟨rfl, rfl⟩ := Tree.join_inj whole
      rw [Phrase.of_leaf phrase leaf]
      exact .inr ⟨_, rfl, fun behind => nomatch form.symm.trans behind⟩
    | chain form clause =>
      obtain rfl := Option.some.inj ((Tree.keyword?_join j _ _).symm.trans root)
      obtain ⟨rfl, rfl⟩ := Tree.join_inj whole
      have phrase : Phrase (j :: ks) _ l := clause
      rw [phrase.of_leaf leaf]
      exact .inr ⟨_, rfl, fun behind => nomatch form.symm.trans behind⟩
    | behind form phrase =>
      obtain rfl := Option.some.inj ((Tree.keyword?_join j _ _).symm.trans root)
      obtain ⟨rfl, _⟩ := Tree.join_inj whole
      rcases phrase with phrase | reused
      · rw [Phrase.of_leaf phrase leaf]
        exact .inr ⟨_, rfl, fun _ => rfl⟩
      · rw [reused.1]
        exact .inr ⟨_, rfl, fun _ => rfl⟩
    | step form =>
      obtain rfl := Option.some.inj ((Tree.keyword?_join j _ _).symm.trans root)
      cases pure.symm.trans (Keyword.assigns_iff.mpr (.inl form))
    | write form =>
      obtain rfl := Option.some.inj ((Tree.keyword?_join j _ _).symm.trans root)
      cases pure.symm.trans (Keyword.assigns_iff.mpr (.inr form))

theorem phrase_operand {ks : List Keyword} {t : Tree}
    (root : ∀ k, t.keyword? = some k → k ∈ Keyword.fencing → k ∈ ks) : Phrase ks [operand t] t := by
  induction ks with
  | nil => exact ⟨rfl, fun k fences known => nomatch root k known fences⟩
  | cons k ks ih =>
    by_cases here : k ∈ Keyword.fencing ∧ t.keyword? = some k
    · exact .reused ⟨rfl, here.1, here.2⟩
    · refine .tighter (ih fun j known fences => ?_)
      rcases List.mem_cons.mp (root j known fences) with rfl | later
      · exact (here ⟨fences, known⟩).elim
      · exact later

theorem sentence_operand (t : Tree) : Sentence [operand t] t :=
  phrase_operand fun k _ _ => k.mem_levels

/-- Whether the root of the tree is an effect. -/
def Writes (t : Tree) : Prop := t.keyword? = some .set ∨ t.keyword? = some .inc

instance (t : Tree) : Decidable (Writes t) := inferInstanceAs (Decidable (_ ∨ _))

theorem sentence_changed {t : Tree} (pure : ¬ Writes t) :
    Sentence [operand t, pending .hasChanged] (.changed t .placeholder) := by
  have operand : Phrase [.hasNotChanged, .greaterThan, .lessThan] [operand t] t ∨ Reused .hasChanged [operand t] t := by
    by_cases asks : t.keyword? = some .hasChanged
    · exact Or.inr ⟨rfl, by decide, asks⟩
    · refine Or.inl (phrase_operand fun k known fences => ?_)
      simp only [Keyword.fencing, List.mem_cons, List.not_mem_nil, or_false] at fences
      rcases fences with rfl | rfl | rfl | rfl
      · exact (pure (Or.inl known)).elim
      · exact (pure (Or.inr known)).elim
      · exact (asks known).elim
      · exact List.mem_cons_self
  have clause : Phrase [.hasChanged, .hasNotChanged, .greaterThan, .lessThan] [Item.operand t, pending .hasChanged]
      (.changed t .placeholder) := .behind rfl operand
  -- The weaker operators leave the phrase as it is.
  iterate 11 refine Clause.tighter ?_
  exact clause

theorem sweep_idle {k : Keyword} {items : List Item} (idle : ∀ item ∈ items, ¬ item.Awaits k)
    (done : List Item) : sweep k done items = .ok ((done.reverse ++ items).map settle) := by
  induction items generalizing done with
  | nil => rw [sweep_nil, List.append_nil]
  | cons item items ih =>
    obtain ⟨first, later⟩ := List.forall_mem_cons.mp idle
    rw [sweep_past item first, ih later, List.reverse_cons, List.append_assoc, List.singleton_append]

theorem assembleIn_idle {limit rounds : Nat} {k : Keyword} {ks : List Keyword} {items : List Item}
    (long : ¬ items.length ≤ 1) (settled : items.map settle = items) (idle : ∀ item ∈ items, ¬ item.Awaits k) :
    assembleIn limit (rounds + 1) (k :: ks) items = assembleIn limit rounds ks items := by
  rw [assembleIn_cons limit rounds k ks long, sweep_idle idle, List.reverse_nil, List.nil_append, settled]
  rfl

/-- An effect keeps its fence for too long: the question finds a placeholder on its left. -/
theorem assemble_effect_changed {t : Tree} (effect : Writes t) :
    assemble roundLimit (arrange [operand t, pending .hasChanged]) = .error (.misplacedPlaceholder .hasChanged) := by
  have bound : needsFence t = true := by
    rcases effect with root | root <;> simp [needsFence, root]
  have idle : ∀ k, k ≠ .set → k ≠ .inc → ¬ (fenced t).Awaits k := by
    intro k notSet notInc waits
    have root : t.keyword? = some k := waits
    rcases effect with other | other
    · exact notSet (Option.some.inj (root.symm.trans other))
    · exact notInc (Option.some.inj (root.symm.trans other))
  have arranged : arrange [operand t, pending .hasChanged] =
      [placeholder, fenced t, placeholder, pending .hasChanged, placeholder] := by
    simp [arrange, padChange, moveSet, moveInc, fence, bound]
  have tighter : ∀ k ∈ [Keyword.lessThan, .greaterThan, .hasNotChanged], ∀ item ∈
      [placeholder, fenced t, placeholder, pending .hasChanged, placeholder], ¬ item.Awaits k := by
    have fence := idle
    simp only [Awaits] at fence
    simp [Awaits, fence]
  have stuck : sweep .hasChanged [] [placeholder, fenced t, placeholder, pending .hasChanged, placeholder] =
      .error (.misplacedPlaceholder .hasChanged) := by
    rw [sweep_past placeholder id, sweep_past _ (idle _ (by decide) (by decide)), sweep_past placeholder id,
      sweep_join]
    rfl
  rw [arranged]
  change assembleIn roundLimit 100 (.lessThan :: .greaterThan :: .hasNotChanged :: .hasChanged :: _) _ = _
  rw [assembleIn_idle (by simp) rfl (tighter _ (by simp)), assembleIn_idle (by simp) rfl (tighter _ (by simp)),
    assembleIn_idle (by simp) rfl (tighter _ (by simp)), assembleIn_cons _ _ _ _ (by simp), stuck]
  rfl

end Item

/-- The tree that a phrase stands for, if it is no keyword. -/
def Meaning.tree? : Meaning → Option Tree
  | keyword _ => none
  | field name => some (.field name)
  | expression t => some t

namespace Vocabulary

variable {v : Vocabulary} {ws : List String} {m : Meaning} {t : Tree}

theorem find?_keyword (v : Vocabulary) (k : Keyword) : v.find? k.phrase = some (.keyword k) := by
  rw [find?, Keyword.ofPhrase?_phrase]

theorem keyword_of_find? {phrase : String} {k : Keyword} (found : v.find? phrase = some (.keyword k)) :
    k.phrase = phrase := by
  unfold find? at found
  split at found
  · next read =>
    cases found
    exact Keyword.phrase_of_ofPhrase? read
  · split at found
    · cases found
    · obtain ⟨_, _, other⟩ := Option.map_eq_some_iff.mp found
      cases other

theorem ofChunk_tree (names : m.tree? = some t) (ws : List String) : Item.ofChunk ⟨ws, some m⟩ = .operand t := by
  cases m with
  | keyword k => cases names
  | field name | expression u =>
    cases names
    rfl

theorem ofChunk_pending {chunk : Chunk} {k : Keyword} (pending : Item.ofChunk chunk = .pending k) :
    chunk.meaning? = some (.keyword k) := by
  unfold Item.ofChunk at pending
  split at pending
  · next means =>
    cases pending
    exact means
  · cases pending
  · cases pending
  · cases pending

/-! ### The name on its own -/

theorem parse_of_whole (whole : v.Whole ws) (some : ws ≠ []) (means : v.find? (phraseOf ws) = .some m)
    (names : m.tree? = .some t) : v.parse ws = .ok t := by
  have single : v.chunks ws = [⟨ws, .some m⟩] := by
    have fits : ∀ chunk ∈ [Chunk.mk ws (.some m)], chunk.Fits v ∧ chunk.meaning? ≠ none := by
      simpa using ⟨some, means, whole⟩
    simpa using chunks_of_fits fits
  rw [parse_ok_iff, items, single, List.map_singleton, ofChunk_tree names]
  exact Item.sentence_operand t

/-- A field comes of a sentence that is one chunk. -/
theorem chunk_of_parse_field {f : String} (parsed : v.parse ws = .ok (.field f)) :
    ws ≠ [] ∧ v.Whole ws ∧ ∃ m, v.find? (phraseOf ws) = some m ∧ m.tree? = some (.field f) := by
  have single := (parse_ok_iff.mp parsed).of_leaf rfl
  obtain ⟨chunk, chunks, read⟩ := List.map_eq_singleton_iff.mp single
  have fits : chunk.Fits v := fits_chunks (chunks ▸ List.mem_singleton_self chunk)
  have same : chunk.words = ws := by
    have all := words_chunks v ws
    rwa [chunks, List.flatMap_singleton] at all
  obtain ⟨some, means, whole⟩ := fits
  rw [same] at some means whole
  refine ⟨some, whole, ?_⟩
  unfold Item.ofChunk at read
  split at read
  · cases read
  · next name read' =>
    cases read
    exact ⟨.field f, means.trans read', rfl⟩
  · next u read' =>
    cases read
    exact ⟨.expression (.field f), means.trans read', rfl⟩
  · cases read

/-! ### The change of a name -/

theorem phraseOf_words_phrase (k : Keyword) : phraseOf (words k.phrase) = k.phrase := by
  cases k <;> decide

theorem words_phrase_ne_nil (k : Keyword) : words k.phrase ≠ [] := by
  cases k <;> decide

theorem words_hasChanged : words Keyword.hasChanged.phrase = ["has", "changed"] := by decide

theorem fits_keyword {k : Keyword} (whole : v.Whole (words k.phrase)) :
    Chunk.Fits v ⟨words k.phrase, some (.keyword k)⟩ := by
  refine ⟨words_phrase_ne_nil k, ?_, whole⟩
  rw [phraseOf_words_phrase, v.find?_keyword]

theorem whole_hasChanged_iff : v.Whole (words Keyword.hasChanged.phrase) ↔ v.find? "changed" = none := by
  rw [words_hasChanged]
  constructor
  · exact fun whole => whole ["changed"] List.infix_rfl (List.cons_ne_nil _ _)
  · intro free run inside some
    rcases List.infix_cons_iff.mp inside with front | nothing
    · rcases List.prefix_cons_iff.mp front with rfl | ⟨tail, rfl, last⟩
      · exact (some rfl).elim
      · rw [List.prefix_nil.mp last]
        exact free
    · exact (some (List.infix_nil.mp nothing)).elim

theorem items_behind {k : Keyword} (whole : v.Whole ws) (some : ws ≠ []) (means : v.find? (phraseOf ws) = .some m)
    (names : m.tree? = .some t) (operator : v.Whole (words k.phrase)) :
    v.items (ws ++ words k.phrase) = [.operand t, .pending k] := by
  have two : v.chunks (ws ++ words k.phrase) =
      [⟨ws, .some m⟩, ⟨words k.phrase, .some (.keyword k)⟩] := by
    have fits : ∀ chunk ∈ [Chunk.mk ws (.some m), ⟨words k.phrase, .some (.keyword k)⟩],
        chunk.Fits v ∧ chunk.meaning? ≠ none := by
      simpa using ⟨⟨some, means, whole⟩, fits_keyword operator⟩
    simpa using chunks_of_fits fits
  rw [items, two, List.map_cons, ofChunk_tree names]
  rfl

theorem parse_changed (whole : v.Whole ws) (some : ws ≠ []) (means : v.find? (phraseOf ws) = .some m)
    (names : m.tree? = .some t) (free : v.find? "changed" = none) :
    v.parse (ws ++ ["has", "changed"]) =
      if Item.Writes t then .error (.misplacedPlaceholder .hasChanged) else .ok (.changed t .placeholder) := by
  have read := items_behind whole some means names (whole_hasChanged_iff.mpr free)
  rw [words_hasChanged] at read
  split
  · next effect =>
    have long : ¬ (ws ++ ["has", "changed"]).isEmpty = true := by simp
    rw [parse, if_neg long]
    exact (congrArg (Item.assemble roundLimit ∘ Item.arrange) read).trans (Item.assemble_effect_changed effect)
  · next pure =>
    rw [parse_ok_iff, read]
    exact Item.sentence_changed pure

/-- If words with a phrase behind them compile to its operator over a field, the first two chunks are those words up
to the phrase, and the phrase. -/
theorem chunks_of_parse_join {k : Keyword} {f : String} {r : Tree} {rest : List String}
    (spaceless : Spaceless (ws ++ (words k.phrase ++ rest))) (some : ws ≠ []) (pure : k.assigns = false)
    (parsed : v.parse (ws ++ (words k.phrase ++ rest)) = .ok (.join k (.field f) r)) :
    ∃ first second others, v.chunks (ws ++ (words k.phrase ++ rest)) = first :: second :: others ∧
      second.words = words k.phrase ∧ (k.form = .behind → others = []) := by
  have fits : ∀ chunk ∈ v.chunks (ws ++ (words k.phrase ++ rest)), chunk.Fits v := fun _ => fits_chunks
  have all := words_chunks v (ws ++ (words k.phrase ++ rest))
  rcases (parse_ok_iff.mp parsed).of_join rfl pure with single | ⟨items, pair, last⟩
  · -- A single chunk would have the phrase inside it.
    obtain ⟨chunk, chunks, _⟩ := List.map_eq_singleton_iff.mp single
    rw [chunks, List.flatMap_singleton] at all
    obtain ⟨w, front, rfl⟩ := List.exists_cons_of_ne_nil some
    have whole : v.Silent (front ++ (words k.phrase ++ rest)) := by
      have inside := (fits chunk (chunks ▸ List.mem_singleton_self chunk)).whole
      rwa [Whole, all] at inside
    have unread := whole (words k.phrase) (List.infix_append' front _ rest) (words_phrase_ne_nil k)
    rw [phraseOf_words_phrase] at unread
    cases (v.find?_keyword k).symm.trans unread
  · obtain ⟨first, more, chunks, _, later⟩ := List.map_eq_cons_iff.mp pair
    obtain ⟨second, others, rfl, operator, none⟩ := List.map_eq_cons_iff.mp later
    refine ⟨first, second, others, chunks, ?_, fun behind => List.map_eq_nil_iff.mp (none.trans (last behind))⟩
    have member : second ∈ v.chunks (ws ++ (words k.phrase ++ rest)) := by simp [chunks]
    have fit : second.Fits v := fits second member
    have phrase := keyword_of_find? (fit.means.trans (ofChunk_pending operator))
    rw [← phraseOf_words_phrase] at phrase
    exact phraseOf_inj (fun w inside => spaceless w (words_subset_of_mem_chunks member inside)) (spaceless_words _)
      fit.some (words_phrase_ne_nil k) phrase.symm

/-- The question whether a field has changed comes of a name that is found as a whole, and of no name in the
question. -/
theorem whole_of_parse_changed {f : String} (spaceless : Spaceless ws) (some : ws ≠ [])
    (parsed : v.parse (ws ++ ["has", "changed"]) = .ok (.changed (.field f) .placeholder)) :
    v.Whole ws ∧ v.find? "changed" = none := by
  have clean : Spaceless (ws ++ (words Keyword.hasChanged.phrase ++ [])) := by
    intro w member
    rw [List.append_nil] at member
    exact (List.mem_append.mp member).elim (spaceless w) (spaceless_words _ w)
  rw [← words_hasChanged, ← List.append_nil (words _)] at parsed
  obtain ⟨first, second, others, chunks, words, none⟩ := chunks_of_parse_join clean some rfl parsed
  obtain rfl := none rfl
  have fits : ∀ chunk ∈ [first, second], chunk.Fits v := fun _ member => fits_chunks (chunks ▸ member)
  have all := words_chunks v (ws ++ (Rulebook.words Keyword.hasChanged.phrase ++ []))
  rw [chunks, List.flatMap_cons, List.flatMap_singleton, words, List.append_nil] at all
  have name : first.words = ws := (List.append_inj' all rfl).1
  refine ⟨name ▸ (fits first List.mem_cons_self).whole, whole_hasChanged_iff.mp ?_⟩
  exact words ▸ (fits second (List.mem_cons_of_mem _ List.mem_cons_self)).whole

end Vocabulary

end Rulebook
