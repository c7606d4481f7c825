import Rulebook.Proofs.Sentence.Chunks

/-!
# What a sentence is cut into

The rules for the chunks of a sentence, each said of a chunk and of those behind it. The scan from the last word
follows them, and nothing else does: `cut_exactly_by_the_rules`.
-/

namespace Rulebook

namespace Vocabulary

/-- What a phrase stands for: a keyword, else a field, else an expression. -/
inductive Means (v : Vocabulary) (phrase : String) : Meaning → Prop
  | keyword {k : Keyword} : k.phrase = phrase → v.Means phrase (.keyword k)
  | field {name : String} : (∀ k : Keyword, k.phrase ≠ phrase) → v.fields.get? phrase = some name →
      v.Means phrase (.field name)
  | expression {t : Tree} : (∀ k : Keyword, k.phrase ≠ phrase) → v.fields.get? phrase = none →
      v.expressions.get? phrase = some t → v.Means phrase (.expression t)

/-- The phrases of a vocabulary: those of the keywords, and the names of fields and expressions. -/
def Knows (v : Vocabulary) (phrase : String) : Prop :=
  (∃ k : Keyword, k.phrase = phrase) ∨ phrase ∈ v.fields.names ∨ phrase ∈ v.expressions.names

variable {v : Vocabulary} {phrase : String} {ws : List String} {m : Meaning}

theorem ofPhrase?_eq_none_iff : Keyword.ofPhrase? phrase = none ↔ ∀ k : Keyword, k.phrase ≠ phrase := by
  constructor
  · rintro unread k rfl
    cases unread.symm.trans k.ofPhrase?_phrase
  · intro other
    rw [Option.eq_none_iff_forall_ne_some]
    exact fun k read => other k (Keyword.phrase_of_ofPhrase? read)

theorem means_iff : v.Means phrase m ↔ v.find? phrase = some m := by
  constructor
  · intro means
    cases means with
    | keyword same =>
      subst same
      rw [find?, Keyword.ofPhrase?_phrase]
    | field other read => rw [find?, ofPhrase?_eq_none_iff.mpr other, read]
    | expression other missing read =>
      rw [find?, ofPhrase?_eq_none_iff.mpr other, missing, read]
      rfl
  · intro found
    rw [find?] at found
    split at found
    · next k read =>
      cases found
      exact .keyword (Keyword.phrase_of_ofPhrase? read)
    · next other =>
      rw [ofPhrase?_eq_none_iff] at other
      split at found
      · next name read =>
        cases found
        exact .field other read
      · next missing =>
        obtain ⟨t, read, rfl⟩ := Option.map_eq_some_iff.mp found
        exact .expression other missing read

theorem not_knows_iff : ¬ v.Knows phrase ↔ v.find? phrase = none := by
  rw [find?_eq_none_iff, ofPhrase?_eq_none_iff, Knows, not_or, not_or, not_exists]

theorem silent_iff : v.Silent ws ↔ ∀ run, run <:+: ws → run ≠ [] → ¬ v.Knows (phraseOf run) := by
  simp only [Silent, not_knows_iff]

end Vocabulary

/-! ### The rules -/

namespace Chunk

def isLiteral (chunk : Chunk) : Bool := chunk.meaning?.isNone

theorem isLiteral_iff {chunk : Chunk} : chunk.isLiteral = true ↔ chunk.meaning? = none :=
  Option.isNone_iff_eq_none

/-- The words up to the first chunk with a meaning. -/
def looseWords (chunks : List Chunk) : List String := (chunks.takeWhile isLiteral).flatMap words

/-- The words from the start of a chunk up to the next one with a meaning. -/
def reach (chunk : Chunk) (later : List Chunk) : List String := chunk.words ++ looseWords later

/-- What the vocabulary says of a chunk and of the chunks behind it. A phrase is the longest that starts at its first
word, and none starts behind that word before the next phrase. -/
structure Placed (v : Vocabulary) (chunk : Chunk) (later : List Chunk) : Prop where
  filled : chunk.words ≠ []
  means : ∀ m, chunk.meaning? = some m → v.Means (phraseOf chunk.words) m
  literal : chunk.meaning? = none → ∀ run, run <:+: chunk.words → run ≠ [] → ¬ v.Knows (phraseOf run)
  apart : chunk.meaning? = none → ∀ next ∈ later.head?, next.meaning? ≠ none
  longest : chunk.meaning? ≠ none → ∀ run, run <+: chunk.reach later → chunk.words.length < run.length →
    ¬ v.Knows (phraseOf run)
  nearest : chunk.meaning? ≠ none → ∀ run, run <:+: (chunk.reach later).tail → run ≠ [] →
    ¬ v.Knows (phraseOf run)

/-- What a chunk is as an item. A keyword waits for its operands. Fields, expressions and literals are operands,
and a literal is the value of its words joined by single spaces. -/
inductive Gives : Chunk → Item → Prop
  | keyword {ws : List String} {k : Keyword} : Gives ⟨ws, some (.keyword k)⟩ (.pending k)
  | field {ws : List String} {name : String} : Gives ⟨ws, some (.field name)⟩ (.operand (.field name))
  | expression {ws : List String} {t : Tree} : Gives ⟨ws, some (.expression t)⟩ (.operand t)
  | literal {ws : List String} : Gives ⟨ws, none⟩ (.operand (.value (.ofWord (" ".intercalate ws))))

theorem gives_iff {chunk : Chunk} {item : Item} : chunk.Gives item ↔ .ofChunk chunk = item := by
  constructor
  · intro gives
    cases gives <;> rfl
  · rintro rfl
    obtain ⟨ws, _ | meaning⟩ := chunk
    · exact .literal
    · cases meaning with
      | keyword k => exact .keyword
      | field name => exact .field
      | expression t => exact .expression

theorem forall₂_gives_iff {chunks : List Chunk} {items : List Item} :
    List.Forall₂ Gives chunks items ↔ chunks.map .ofChunk = items := by
  have gives : Gives = fun chunk item => Item.ofChunk chunk = item := funext₂ fun _ _ => propext gives_iff
  rw [gives, ← List.forall₂_map_left_iff, List.forall₂_eq_eq_eq]

end Chunk

namespace Vocabulary

/-- The words are those of the chunks, in order, and every chunk is in its place. -/
inductive Segments (v : Vocabulary) : List String → List Chunk → Prop
  | nil : v.Segments [] []
  | cons {chunk : Chunk} {later : List Chunk} {rest : List String} : chunk.Placed v later →
      v.Segments rest later → v.Segments (chunk.words ++ rest) (chunk :: later)

variable {v : Vocabulary} {ws rest : List String} {m : Meaning} {chunk : Chunk} {chunks later : List Chunk}

/-! ### The rules leave no choice -/

theorem Segments.words (segments : v.Segments ws chunks) : chunks.flatMap Chunk.words = ws := by
  induction segments with
  | nil => rfl
  | cons _ _ ih => rw [List.flatMap_cons, ih]

theorem takeWhile_of_ready (ready : ∀ next ∈ later.head?, next.meaning? ≠ none) :
    later.takeWhile Chunk.isLiteral = [] ∧ later.dropWhile Chunk.isLiteral = later := by
  cases later with
  | nil => exact ⟨rfl, rfl⟩
  | cons next later =>
    have phrase : ¬ next.isLiteral = true := mt Chunk.isLiteral_iff.mp (ready next rfl)
    exact ⟨List.takeWhile_cons_of_neg phrase, List.dropWhile_cons_of_neg phrase⟩

theorem literal_of_words (filled : chunk.words ≠ []) (literal : chunk.meaning? = none) :
    Chunk.literal chunk.words = [chunk] := by
  obtain ⟨words, meaning?⟩ := chunk
  obtain ⟨w, ws, rfl⟩ := List.exists_cons_of_ne_nil filled
  cases literal
  rfl

/-- The chunks are a literal of the loose words, if there are any, and the rest. -/
theorem Segments.literal_looseWords (segments : v.Segments ws chunks) :
    Chunk.literal (Chunk.looseWords chunks) ++ chunks.dropWhile Chunk.isLiteral = chunks := by
  cases segments with
  | nil => rfl
  | @cons chunk later rest placed segments =>
    cases means : chunk.meaning? with
    | none =>
      obtain ⟨none, all⟩ := takeWhile_of_ready (placed.apart means)
      have literal := Chunk.isLiteral_iff.mpr means
      rw [Chunk.looseWords, List.takeWhile_cons_of_pos literal, List.dropWhile_cons_of_pos literal, none, all,
        List.flatMap_singleton, literal_of_words placed.filled means]
      rfl
    | some m =>
      have phrase : ¬ chunk.isLiteral = true := by simp [Chunk.isLiteral, means]
      rw [Chunk.looseWords, List.takeWhile_cons_of_neg phrase, List.dropWhile_cons_of_neg phrase]
      rfl

/-- The scan has the loose words in hand when it comes to the first of the chunks. -/
theorem Segments.cut (segments : v.Segments ws chunks) :
    ws.foldr (Cut.extend v) {} = ⟨Chunk.looseWords chunks, chunks.dropWhile Chunk.isLiteral⟩ := by
  induction segments with
  | nil => rfl
  | @cons chunk later rest placed segments ih =>
    rw [List.foldr_append, ih]
    cases means : chunk.meaning? with
    | none =>
      obtain ⟨none, all⟩ := takeWhile_of_ready (placed.apart means)
      have literal := Chunk.isLiteral_iff.mpr means
      have silent : v.Silent (chunk.words ++ []) := by
        rw [List.append_nil]
        exact silent_iff.mpr (placed.literal means)
      rw [Chunk.looseWords, Chunk.looseWords, List.takeWhile_cons_of_pos literal, List.dropWhile_cons_of_pos literal,
        none, all, List.flatMap_singleton]
      exact silent.cut later |>.trans (by rw [List.append_nil])
    | some m =>
      have phrase : ¬ chunk.isLiteral = true := by simp [Chunk.isLiteral, means]
      have matched : chunk.meaning? ≠ none := by simp [means]
      have silent : v.Silent (chunk.words.tail ++ Chunk.looseWords later) := by
        rw [← List.tail_append_of_ne_nil placed.filled]
        exact silent_iff.mpr (placed.nearest matched)
      have longer : ∀ front, front <+: Chunk.looseWords later → front ≠ [] →
          v.find? (phraseOf (chunk.words ++ front)) = none := by
        intro front inside some
        refine not_knows_iff.mp (placed.longest matched _ ((List.prefix_append_right_inj _).mpr inside) ?_)
        rw [List.length_append]
        exact Nat.lt_add_of_pos_right (List.length_pos_iff.mpr some)
      rw [cut_before silent placed.filled (means_iff.mp (placed.means m means)) longer,
        segments.literal_looseWords, Chunk.looseWords, List.takeWhile_cons_of_neg phrase,
        List.dropWhile_cons_of_neg phrase, ← means]
      rfl

/-! ### The scan follows the rules -/

theorem longest?_longer {limit n k : Nat} (found : v.longest? ws limit = some (n, m)) (above : n < k)
    (below : k ≤ limit) : v.find? (phraseOf (ws.take k)) = none := by
  induction limit with
  | zero => cases found
  | succ limit ih =>
    rw [longest?] at found
    split at found
    · cases found
      omega
    · next unread =>
      by_cases last : k = limit + 1
      · rw [last, unread]
      · exact ih found (by omega)

theorem looseWords_literal (ready : ∀ next ∈ chunks.head?, next.meaning? ≠ none) :
    Chunk.looseWords (Chunk.literal ws ++ chunks) = ws := by
  have none := (takeWhile_of_ready ready).1
  cases ws with
  | nil =>
    rw [Chunk.literal, List.nil_append, Chunk.looseWords, none]
    rfl
  | cons w ws =>
    have literal : Chunk.isLiteral ⟨w :: ws, .none⟩ = true := rfl
    rw [Chunk.literal, List.singleton_append, Chunk.looseWords, List.takeWhile_cons_of_pos literal, none,
      List.flatMap_singleton]

theorem Segments.literal (segments : v.Segments rest chunks) (silent : v.Silent ws)
    (ready : ∀ next ∈ chunks.head?, next.meaning? ≠ none) :
    v.Segments (ws ++ rest) (Chunk.literal ws ++ chunks) := by
  cases ws with
  | nil => exact segments
  | cons w ws =>
    have placed : Chunk.Placed v ⟨w :: ws, none⟩ chunks := {
      filled := List.cons_ne_nil w ws
      means := fun m meant => nomatch meant
      literal := fun _ => silent_iff.mp silent
      apart := fun _ => ready
      longest := fun matched => (matched rfl).elim
      nearest := fun matched => (matched rfl).elim }
    have whole := Segments.cons placed segments
    exact whole

/-- The chunks of a cut are in their places, the first of them is a phrase, and the loose words before it have no
phrase in them. -/
structure Cut.Sound (v : Vocabulary) (cut : Cut) : Prop where
  silent : v.Silent cut.loose
  ready : ∀ next ∈ cut.chunks.head?, next.meaning? ≠ none
  segments : v.Segments (cut.chunks.flatMap Chunk.words) cut.chunks

theorem Cut.Sound.extend {cut : Cut} (sound : cut.Sound v) (word : String) : (cut.extend v word).Sound v := by
  rw [Cut.extend]
  split
  · next missed => exact ⟨silent_cons_iff.mpr ⟨missed, sound.silent⟩, sound.ready, sound.segments⟩
  · next n m found =>
    obtain ⟨positive, _, means⟩ := longest?_some found
    obtain ⟨n, rfl⟩ : ∃ k, n = k + 1 := ⟨n - 1, by omega⟩
    have behind : v.Segments _ (Chunk.literal ((word :: cut.loose).drop (n + 1)) ++ cut.chunks) :=
      sound.segments.literal (sound.silent.part (List.drop_suffix n _).isInfix) sound.ready
    have reach : Chunk.reach ⟨(word :: cut.loose).take (n + 1), some m⟩
        (Chunk.literal ((word :: cut.loose).drop (n + 1)) ++ cut.chunks) = word :: cut.loose := by
      rw [Chunk.reach, looseWords_literal sound.ready, List.take_append_drop]
    have placed : Chunk.Placed v ⟨(word :: cut.loose).take (n + 1), some m⟩
        (Chunk.literal ((word :: cut.loose).drop (n + 1)) ++ cut.chunks) := {
      filled := by simp
      means := fun m' meant => means_iff.mpr (Option.some.inj meant ▸ means)
      literal := by simp
      apart := by simp
      longest := by
        intro _ run front longer
        rw [reach] at front
        rw [not_knows_iff, List.prefix_iff_eq_take.mp front]
        refine longest?_longer found ?_ front.length_le
        have within := front.length_le
        rw [List.length_take] at longer
        omega
      nearest := by
        rw [reach]
        exact fun _ => silent_iff.mp sound.silent }
    refine ⟨silent_nil, by simp, ?_⟩
    rw [List.flatMap_cons, behind.words]
    exact .cons placed behind

theorem segments_chunks (v : Vocabulary) (ws : List String) : v.Segments ws (v.chunks ws) := by
  have sound : (ws.foldr (Cut.extend v) {}).Sound v := by
    induction ws with
    | nil => exact ⟨silent_nil, (fun _ member => nomatch member), .nil⟩
    | cons w ws ih => exact ih.extend w
  have whole := sound.segments.literal sound.silent sound.ready
  have words := whole.words
  rw [← Vocabulary.chunks, words_chunks] at words
  rw [← Vocabulary.chunks, ← words] at whole
  exact whole

/-- The rules decide where a sentence is cut, and each of its items is what one chunk gives. -/
theorem cut_exactly_by_the_rules (v : Vocabulary) (ws : List String) :
    (∀ chunks, v.Segments ws chunks ↔ chunks = v.chunks ws) ∧
      ∀ items, items = v.items ws ↔ ∃ chunks, v.Segments ws chunks ∧ List.Forall₂ Chunk.Gives chunks items := by
  have only : ∀ chunks, v.Segments ws chunks ↔ chunks = v.chunks ws := by
    intro chunks
    constructor
    · intro segments
      rw [Vocabulary.chunks, segments.cut]
      exact segments.literal_looseWords.symm
    · rintro rfl
      exact segments_chunks v ws
  refine ⟨only, fun items => ?_⟩
  simp only [only, exists_eq_left, Chunk.forall₂_gives_iff]
  exact eq_comm

end Vocabulary

end Rulebook
