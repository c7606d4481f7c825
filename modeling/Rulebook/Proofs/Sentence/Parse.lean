import Rulebook.Proofs.Sentence.Precedence
import Rulebook.Proofs.Table

/-!
# Parsing

Where the meanings in a sentence come from, and which sentences compile to which trees.
-/

namespace Rulebook

namespace Vocabulary

/-! ### What a sentence can name -/

theorem longest?_found {v : Vocabulary} {ws : List String} {limit n : Nat} {m : Meaning}
    (found : v.longest? ws limit = some (n, m)) : ∃ phrase, v.find? phrase = some m := by
  induction limit with
  | zero => cases found
  | succ limit ih =>
    rw [longest?] at found
    split at found
    · next read =>
      cases found
      exact ⟨_, read⟩
    · exact ih found

theorem meaning_literal {ws : List String} {chunk : Chunk} (member : chunk ∈ Chunk.literal ws) :
    chunk.meaning? = none := by
  cases ws with
  | nil => cases member
  | cons w ws =>
    rw [List.mem_singleton.mp member]

theorem Cut.meaning_extend {v : Vocabulary} {word : String} {cut : Cut}
    (known : ∀ chunk ∈ cut.chunks, ∀ m, chunk.meaning? = some m → ∃ phrase, v.find? phrase = some m) :
    ∀ chunk ∈ (cut.extend v word).chunks, ∀ m, chunk.meaning? = some m → ∃ phrase, v.find? phrase = some m := by
  intro chunk member m means
  rw [extend] at member
  split at member
  · exact known chunk member m means
  · next n found longest =>
    rcases List.mem_cons.mp member with rfl | later
    · cases means
      exact longest?_found longest
    · rcases List.mem_append.mp later with literal | old
      · cases (meaning_literal literal).symm.trans means
      · exact known chunk old m means

/-- Every chunk with a meaning has it from the vocabulary. -/
theorem meaning_chunks {v : Vocabulary} {ws : List String} {chunk : Chunk} {m : Meaning}
    (member : chunk ∈ v.chunks ws) (means : chunk.meaning? = some m) : ∃ phrase, v.find? phrase = some m := by
  have known : ∀ chunk ∈ (ws.foldr (Cut.extend v) {}).chunks, ∀ m, chunk.meaning? = some m →
      ∃ phrase, v.find? phrase = some m := by
    clear member
    induction ws with
    | nil => exact fun _ member => nomatch member
    | cons w ws ih => exact Cut.meaning_extend ih
  rcases List.mem_append.mp member with literal | old
  · cases (meaning_literal literal).symm.trans means
  · exact known chunk old m means

theorem find?_field {v : Vocabulary} {phrase name : String} (found : v.find? phrase = some (.field name)) :
    name ∈ v.fields.values := by
  rw [find?] at found
  split at found
  · cases found
  · split at found
    · next read =>
      cases found
      exact Table.mem_values_of_get? read
    · cases read : v.expressions.get? phrase <;> simp [read] at found

theorem find?_expression {v : Vocabulary} {phrase : String} {t : Tree}
    (found : v.find? phrase = some (.expression t)) : t ∈ v.expressions.values := by
  rw [find?] at found
  split at found
  · cases found
  · split at found
    · cases found
    · obtain ⟨u, read, same⟩ := Option.map_eq_some_iff.mp found
      cases same
      exact Table.mem_values_of_get? read

/-! ### What it compiles to -/

/-- The items of a sentence that is given by its words. -/
def items (v : Vocabulary) (ws : List String) : List Item := (v.chunks ws).map Item.ofChunk

theorem plain_items (v : Vocabulary) (ws : List String) : Item.Plain (v.items ws) := by
  intro item member
  obtain ⟨chunk, _, rfl⟩ := List.mem_map.mp member
  unfold Item.ofChunk
  split
  · exact Or.inr ⟨_, rfl⟩
  · exact Or.inl ⟨_, rfl⟩
  · exact Or.inl ⟨_, rfl⟩
  · exact Or.inl ⟨_, rfl⟩

theorem items_ne_nil {v : Vocabulary} {ws : List String} (some : ws ≠ []) : v.items ws ≠ [] := by
  intro none
  have words := words_chunks v ws
  rw [List.map_eq_nil_iff.mp none] at words
  exact some words.symm

theorem parse_cons (v : Vocabulary) (w : String) (ws : List String) :
    v.parse (w :: ws) = Item.assemble roundLimit (Item.arrange (v.items (w :: ws))) := by
  unfold parse
  exact if_neg (by simp)

theorem parse_ok_iff {v : Vocabulary} {ws : List String} {t : Tree} :
    v.parse ws = .ok t ↔ Item.Sentence (v.items ws) t := by
  cases ws with
  | nil => exact ⟨fun h => (nomatch h), fun sentence => (sentence.ne_nil rfl).elim⟩
  | cons w ws =>
    rw [parse_cons]
    exact Item.assemble_arrange_ok_iff (by decide) (v.plain_items (w :: ws))

/-- Of all sentences, those of the grammar compile, each to the one tree that the grammar gives it. -/
theorem parses_exactly_the_grammar (v : Vocabulary) (ws : List String) :
    (∀ t, v.parse ws = .ok t ↔ Item.Sentence (v.items ws) t) ∧
      ((∃ e, v.parse ws = .error e) ↔ ¬ ∃ t, Item.Sentence (v.items ws) t) ∧
      ∀ t u, Item.Sentence (v.items ws) t → Item.Sentence (v.items ws) u → t = u := by
  refine ⟨fun t => parse_ok_iff, ?_, ?_⟩
  · constructor
    · rintro ⟨e, refused⟩ ⟨t, sentence⟩
      cases refused.symm.trans (parse_ok_iff.mpr sentence)
    · intro outside
      cases parsed : v.parse ws with
      | error e => exact ⟨e, rfl⟩
      | ok t => exact (outside ⟨t, parse_ok_iff.mp parsed⟩).elim
  · intro t u first second
    exact Except.ok.inj ((parse_ok_iff.mpr first).symm.trans (parse_ok_iff.mpr second))

/-- A chain of effects has one reading. -/
theorem chain_of_effects_parses :
    let v : Vocabulary := { fields := .ofList [("x", "x"), ("y", "y")] }
    let t : Tree := .both (.assign (.field "x") (.value .null)) (.increment (.field "y") .placeholder)
    Item.Sentence (v.items ["set", "x", "null", "and", "inc", "y"]) t ∧
      ∀ u, Item.Sentence (v.items ["set", "x", "null", "and", "inc", "y"]) u → u = t := by
  intro v t
  obtain ⟨reads, _, unique⟩ := parses_exactly_the_grammar v ["set", "x", "null", "and", "inc", "y"]
  have sentence := (reads t).mp (by decide)
  exact ⟨sentence, fun u other => unique u t other sentence⟩

end Vocabulary

end Rulebook
