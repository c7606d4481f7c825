import Rulebook.Sentence.Vocabulary

/-!
# Chunks

A sentence is cut into chunks from its last word backwards: a chunk is the longest phrase of the
vocabulary that starts at a word, and the words that are in no phrase are left as literals.
-/

namespace Rulebook

def phraseOf (ws : List String) : String := " ".intercalate ws

/-- A run of words of a sentence. One without a meaning is a literal. -/
structure Chunk where
  words : List String
  meaning? : Option Meaning
deriving DecidableEq

/-- The literal chunk of some words, if there are any. -/
def Chunk.literal : List String → List Chunk
  | [] => []
  | w :: ws => [⟨w :: ws, none⟩]

namespace Vocabulary

/-- The longest run of at most `n` of the first words that is a phrase, as its length and meaning. -/
def longest? (v : Vocabulary) (ws : List String) : Nat → Option (Nat × Meaning)
  | 0 => none
  | n + 1 =>
    match v.find? (phraseOf (ws.take (n + 1))) with
    | some m => some (n + 1, m)
    | none => longest? v ws n

/-- A sentence cut from its end up to some word: words in no chunk yet, then the chunks. -/
structure Cut where
  loose : List String := []
  chunks : List Chunk := []

/-- Takes in the word before. If a phrase starts there, it becomes a chunk, and the loose words
behind it a literal. -/
def Cut.extend (v : Vocabulary) (word : String) (cut : Cut) : Cut :=
  let ws := word :: cut.loose
  match v.longest? ws ws.length with
  | none => { cut with loose := ws }
  | some (n, m) =>
    { loose := [], chunks := ⟨ws.take n, some m⟩ :: (Chunk.literal (ws.drop n) ++ cut.chunks) }

def chunks (v : Vocabulary) (ws : List String) : List Chunk :=
  let cut := ws.foldr (Cut.extend v) {}
  Chunk.literal cut.loose ++ cut.chunks

/-! ### No word is lost -/

theorem words_literal (ws : List String) : (Chunk.literal ws).flatMap Chunk.words = ws := by
  cases ws <;> simp [Chunk.literal]

theorem Cut.words_extend (v : Vocabulary) (word : String) (cut : Cut) :
    (cut.extend v word).loose ++ (cut.extend v word).chunks.flatMap Chunk.words =
      word :: (cut.loose ++ cut.chunks.flatMap Chunk.words) := by
  simp only [extend]
  split
  · simp
  · next n m _ =>
    simp only [List.nil_append, List.flatMap_cons, List.flatMap_append, words_literal]
    rw [← List.append_assoc, List.take_append_drop, List.cons_append]

/-- The words of a cut are those that it was made of. -/
theorem words_cut (v : Vocabulary) (ws : List String) :
    (ws.foldr (Cut.extend v) {}).loose ++ (ws.foldr (Cut.extend v) {}).chunks.flatMap Chunk.words = ws := by
  induction ws with
  | nil => rfl
  | cons w ws ih => rw [List.foldr_cons, Cut.words_extend, ih]

/-- The chunks hold the words of the sentence, in order. -/
theorem words_chunks (v : Vocabulary) (ws : List String) :
    (v.chunks ws).flatMap Chunk.words = ws := by
  simpa only [chunks, List.flatMap_append, words_literal] using words_cut v ws

end Vocabulary

end Rulebook
