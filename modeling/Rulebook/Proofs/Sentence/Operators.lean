import Rulebook.Proofs.Sentence.Naming

/-!
# Operators in a sentence

What a name compiles to with an operator behind it, and with a word behind the operator. Nothing can stand in the
way of such a sentence but a phrase inside the phrase of the operator.
-/

namespace Rulebook

namespace Item

variable {ks : List Keyword} {run : List Item} {k : Keyword} {l r t : Tree}

/-- A clause that needs no phrases but leaves is a phrase wherever its operator is among the operators. -/
theorem phrase_of_clause (member : k ∈ ks) (clause : ∀ tighter, Clause k (Phrase tighter) run t) :
    Phrase ks run t := by
  induction ks with
  | nil => cases member
  | cons j ks ih =>
    by_cases here : k = j
    · rw [← here]
      exact clause ks
    · exact .tighter (ih (List.mem_of_ne_of_mem here member))

theorem phrase_leaf (leaf : t.keyword? = none) : Phrase ks [operand t] t :=
  phrase_operand fun _ known => nomatch leaf.symm.trans known

theorem sentence_between (form : k.form = .between ∨ k.form = .chain) (left : l.keyword? = none)
    (right : r.keyword? = none) : Sentence [operand l, pending k, operand r] (.join k l r) := by
  apply phrase_of_clause k.mem_levels
  intro tighter
  show Clause k _ ([operand l] ++ pending k :: [operand r]) _
  rcases form with between | chain
  · exact .between between (phrase_leaf left) (phrase_leaf right)
  · exact .chain chain (.tighter (phrase_leaf left)) (phrase_leaf right)

theorem sentence_behind (form : k.form = .behind) (leaf : l.keyword? = none) :
    Sentence [operand l, pending k] (.join k l .placeholder) := by
  apply phrase_of_clause k.mem_levels
  intro tighter
  show Clause k _ ([operand l] ++ [pending k]) _
  exact .behind form (.inl (phrase_leaf leaf))

end Item

namespace Vocabulary

variable {v : Vocabulary} {ws : List String} {w : String} {k : Keyword} {m : Meaning} {t : Tree}

/-- No phrase has the word in it. -/
def Unheard (v : Vocabulary) (w : String) : Prop :=
  ∀ run, Spaceless run → w ∈ run → v.find? (phraseOf run) = none

theorem Unheard.silent (unheard : v.Unheard w) (spaceless : Spaceless ws) (clean : ' ' ∉ w.toList)
    (silent : v.Silent ws) : v.Silent (ws ++ [w]) := by
  intro run inside some
  rcases List.infix_concat_iff.mp inside with ending | within
  · rcases List.suffix_concat_iff.mp ending with rfl | ⟨front, rfl, _⟩
    · exact (some rfl).elim
    · exact unheard _ (fun u member => spaceless.concat clean u (inside.subset member)) (by simp)
  · exact silent run within some

/-- A name, an operator and a word that is in no phrase are read as these three. -/
theorem items_between (whole : v.Whole ws) (some : ws ≠ []) (means : v.find? (phraseOf ws) = .some m)
    (names : m.tree? = .some t) (operator : v.Whole (words k.phrase)) (clean : ' ' ∉ w.toList)
    (unheard : v.Unheard w) :
    v.items (ws ++ (words k.phrase ++ [w])) = [.operand t, .pending k, .operand (.value (.ofWord w))] := by
  have silent : v.Silent ((words k.phrase).tail ++ [w]) :=
    unheard.silent (fun u member => spaceless_words _ u (List.mem_of_mem_tail member)) clean operator
  have last : v.Silent ([w] ++ []) := silent.part (List.suffix_append _ _).isInfix
  have longer : ∀ front, front <+: [w] → front ≠ [] → v.find? (phraseOf (words k.phrase ++ front)) = none := by
    intro front inside some
    rcases List.prefix_cons_iff.mp inside with rfl | ⟨tail, rfl, nothing⟩
    · exact (some rfl).elim
    · rw [List.prefix_nil.mp nothing]
      exact unheard _ ((spaceless_words _).concat clean) (by simp)
  have phrase := (fits_keyword operator).means
  -- Backwards: the word is loose, the phrase takes it for a literal, and the name finds nothing loose behind it.
  have cut : (ws ++ (words k.phrase ++ [w])).foldr (Cut.extend v) {} =
      ⟨[], [⟨ws, .some m⟩, ⟨words k.phrase, .some (.keyword k)⟩, ⟨[w], none⟩]⟩ := by
    rw [List.foldr_append, List.foldr_append, last.cut, List.append_nil,
      cut_before silent (words_phrase_ne_nil k) phrase longer, whole.cut some means]
    rfl
  rw [items, chunks, cut]
  simp only [Chunk.literal, List.nil_append, List.map_cons, ofChunk_tree names]
  rfl

theorem parse_between (form : k.form = .between ∨ k.form = .chain) (whole : v.Whole ws) (some : ws ≠ [])
    (means : v.find? (phraseOf ws) = .some m) (names : m.tree? = .some t) (leaf : t.keyword? = none)
    (operator : v.Whole (words k.phrase)) (clean : ' ' ∉ w.toList) (unheard : v.Unheard w) :
    v.parse (ws ++ (words k.phrase ++ [w])) = .ok (.join k t (.value (.ofWord w))) := by
  rw [parse_ok_iff, items_between whole some means names operator clean unheard]
  exact Item.sentence_between form leaf rfl

theorem parse_behind (form : k.form = .behind) (whole : v.Whole ws) (some : ws ≠ [])
    (means : v.find? (phraseOf ws) = .some m) (names : m.tree? = .some t) (leaf : t.keyword? = none)
    (operator : v.Whole (words k.phrase)) : v.parse (ws ++ words k.phrase) = .ok (.join k t .placeholder) := by
  rw [parse_ok_iff, items_behind whole some means names operator]
  exact Item.sentence_behind form leaf

/-- An operator over a field comes of its phrase only if no phrase begins inside it. -/
theorem whole_of_parse_join {f : String} {r : Tree} {rest : List String}
    (spaceless : Spaceless (ws ++ (words k.phrase ++ rest))) (some : ws ≠ []) (pure : k.assigns = false)
    (parsed : v.parse (ws ++ (words k.phrase ++ rest)) = .ok (.join k (.field f) r)) :
    v.Whole (words k.phrase) := by
  obtain ⟨first, second, others, chunks, words, _⟩ := chunks_of_parse_join spaceless some pure parsed
  rw [← words]
  have member : second ∈ v.chunks (ws ++ (Rulebook.words k.phrase ++ rest)) := by simp [chunks]
  exact (fits_chunks member).whole

end Vocabulary

end Rulebook
