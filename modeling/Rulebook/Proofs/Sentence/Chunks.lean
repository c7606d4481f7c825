import Rulebook.Proofs.Sentence.Parse

/-!
# Where a sentence is cut

A phrase is found as a whole exactly if no phrase begins behind its first word: `chunks_of_fits` cuts a row of
such phrases where they end, and `fits_chunks` says that a sentence is never cut into anything else.
-/

namespace Rulebook

namespace Vocabulary

variable {v : Vocabulary} {ws : List String} {m : Meaning}

theorem find?_eq_none_iff {phrase : String} : v.find? phrase = none ↔
    Keyword.ofPhrase? phrase = none ∧ phrase ∉ v.fields.names ∧ phrase ∉ v.expressions.names := by
  have absent : ∀ {α : Type} {t : Table α}, phrase ∉ t.names ↔ t.get? phrase = none := by
    intro α t
    rw [← Table.contains_eq_false, Table.contains, Option.isSome_eq_false_iff, Option.isNone_iff_eq_none]
  rw [find?, absent, absent]
  cases Keyword.ofPhrase? phrase with
  | some k => simp
  | none =>
    cases v.fields.get? phrase with
    | some d => simp
    | none => simp

/-- No run of the words is a phrase. -/
def Silent (v : Vocabulary) (ws : List String) : Prop :=
  ∀ run, run <:+: ws → run ≠ [] → v.find? (phraseOf run) = none

/-- No phrase begins behind the first word. -/
def Whole (v : Vocabulary) (ws : List String) : Prop := v.Silent ws.tail

theorem Silent.part {part : List String} (silent : v.Silent ws) (inside : part <:+: ws) : v.Silent part :=
  fun run within => silent run (within.trans inside)

theorem silent_nil : v.Silent [] := fun _ inside some => (some (List.infix_nil.mp inside)).elim

theorem whole_singleton (w : String) : v.Whole [w] := silent_nil

/-! ### The longest phrase -/

theorem longest?_some {limit n : Nat} (found : v.longest? ws limit = some (n, m)) :
    0 < n ∧ n ≤ limit ∧ v.find? (phraseOf (ws.take n)) = some m := by
  induction limit with
  | zero => cases found
  | succ limit ih =>
    rw [longest?] at found
    split at found
    · next read =>
      cases found
      exact ⟨limit.succ_pos, Nat.le_refl _, read⟩
    · obtain ⟨positive, below, read⟩ := ih found
      exact ⟨positive, by omega, read⟩

theorem longest?_eq_none_iff {limit : Nat} :
    v.longest? ws limit = none ↔ ∀ n, 0 < n → n ≤ limit → v.find? (phraseOf (ws.take n)) = none := by
  induction limit with
  | zero =>
    constructor
    · intro _ n positive below
      omega
    · exact fun _ => rfl
  | succ limit ih =>
    rw [longest?]
    constructor
    · intro missed n positive below
      split at missed
      · cases missed
      · next unread =>
        by_cases last : n = limit + 1
        · rw [last, unread]
        · exact ih.mp missed n positive (by omega)
    · intro unread
      rw [unread (limit + 1) limit.succ_pos (Nat.le_refl _)]
      exact ih.mpr fun n positive below => unread n positive (by omega)

theorem longest?_eq_some {limit n : Nat} (positive : 0 < n) (within : n ≤ limit)
    (means : v.find? (phraseOf (ws.take n)) = some m)
    (longer : ∀ k, n < k → k ≤ limit → v.find? (phraseOf (ws.take k)) = none) :
    v.longest? ws limit = some (n, m) := by
  induction limit with
  | zero => omega
  | succ limit ih =>
    rw [longest?]
    by_cases last : n = limit + 1
    · rw [← last, means]
    · rw [longer (limit + 1) (by omega) (Nat.le_refl _)]
      exact ih (by omega) fun k above below => longer k above (by omega)

/-- A phrase at the front is the longest if none goes on behind it. -/
theorem longest?_of_front {rest : List String} (some : ws ≠ []) (means : v.find? (phraseOf ws) = .some m)
    (longer : ∀ front, front <+: rest → front ≠ [] → v.find? (phraseOf (ws ++ front)) = none) :
    v.longest? (ws ++ rest) (ws ++ rest).length = .some (ws.length, m) := by
  rw [List.length_append]
  refine longest?_eq_some (List.length_pos_iff.mpr some) (Nat.le_add_right _ _) ?_ fun k above below => ?_
  · rwa [List.take_left]
  · rw [List.take_append, List.take_of_length_le (Nat.le_of_lt above)]
    refine longer _ (List.take_prefix _ _) fun empty => ?_
    have none := congrArg List.length empty
    rw [List.length_take, List.length_nil] at none
    omega

theorem silent_cons_iff {w : String} :
    v.Silent (w :: ws) ↔ v.longest? (w :: ws) (w :: ws).length = none ∧ v.Silent ws := by
  rw [longest?_eq_none_iff]
  constructor
  · intro silent
    refine ⟨fun n positive _ => silent _ (List.take_prefix n _).isInfix ?_, silent.part (List.suffix_cons w ws).isInfix⟩
    simp only [ne_eq, List.take_eq_nil_iff, reduceCtorEq, or_false]
    omega
  · rintro ⟨first, later⟩ run inside some
    rcases List.infix_cons_iff.mp inside with front | behind
    · have positive : 0 < run.length := List.length_pos_iff.mpr some
      rw [List.prefix_iff_eq_take.mp front]
      exact first run.length positive front.length_le
    · exact later run behind some

end Vocabulary

/-- What a chunk of a sentence is: words that have its meaning together, with no phrase behind the first. -/
structure Chunk.Fits (v : Vocabulary) (chunk : Chunk) : Prop where
  some : chunk.words ≠ []
  means : v.find? (phraseOf chunk.words) = chunk.meaning?
  whole : v.Whole chunk.words

namespace Vocabulary

variable {v : Vocabulary} {ws : List String} {m : Meaning} {chunk : Chunk}

/-! ### Every chunk fits -/

theorem Silent.fits (silent : v.Silent ws) (member : chunk ∈ Chunk.literal ws) : chunk.Fits v := by
  cases ws with
  | nil => cases member
  | cons w ws =>
    rw [List.mem_singleton.mp member]
    have some : w :: ws ≠ [] := List.cons_ne_nil w ws
    exact ⟨some, silent _ List.infix_rfl some, (silent_cons_iff.mp silent).2⟩

theorem Cut.fits_extend {word : String} {cut : Cut} (silent : v.Silent cut.loose)
    (fits : ∀ chunk ∈ cut.chunks, chunk.Fits v) :
    v.Silent (cut.extend v word).loose ∧ ∀ chunk ∈ (cut.extend v word).chunks, chunk.Fits v := by
  rw [extend]
  split
  · next missed => exact ⟨silent_cons_iff.mpr ⟨missed, silent⟩, fits⟩
  · next n m found =>
    obtain ⟨positive, _, means⟩ := longest?_some found
    obtain ⟨n, rfl⟩ := Nat.exists_eq_succ_of_ne_zero (Nat.ne_of_gt positive)
    refine ⟨silent_nil, fun chunk member => ?_⟩
    rcases List.mem_cons.mp member with rfl | later
    · exact ⟨by simp, means, silent.part (List.take_prefix n _).isInfix⟩
    · rcases List.mem_append.mp later with literal | old
      · exact (silent.part (List.drop_suffix n _).isInfix).fits literal
      · exact fits chunk old

theorem fits_chunks (member : chunk ∈ v.chunks ws) : chunk.Fits v := by
  -- The words that are in no chunk yet are silent, or one of them would have begun a chunk.
  have cut : v.Silent (ws.foldr (Cut.extend v) {}).loose ∧
      ∀ chunk ∈ (ws.foldr (Cut.extend v) {}).chunks, chunk.Fits v := by
    clear member
    induction ws with
    | nil => exact ⟨silent_nil, fun _ member => nomatch member⟩
    | cons w ws ih => exact Cut.fits_extend ih.1 ih.2
  rcases List.mem_append.mp member with literal | chunked
  · exact cut.1.fits literal
  · exact cut.2 chunk chunked

theorem words_subset_of_mem_chunks (member : chunk ∈ v.chunks ws) : chunk.words ⊆ ws := by
  intro w inside
  rw [← words_chunks v ws]
  exact List.mem_flatMap.mpr ⟨chunk, member, inside⟩

/-! ### Whole phrases are chunks -/

theorem Silent.cut {rest : List String} (silent : v.Silent (ws ++ rest)) (chunks : List Chunk) :
    ws.foldr (Cut.extend v) ⟨rest, chunks⟩ = ⟨ws ++ rest, chunks⟩ := by
  induction ws with
  | nil => rfl
  | cons w ws ih =>
    rw [List.cons_append] at silent
    obtain ⟨missed, later⟩ := silent_cons_iff.mp silent
    simp only [List.foldr_cons, ih later, Cut.extend, missed, List.cons_append]

/-- A phrase is cut from the loose words behind it, if none begins behind its first word or goes on behind its
last. -/
theorem cut_before {rest : List String} (silent : v.Silent (ws.tail ++ rest)) (some : ws ≠ [])
    (means : v.find? (phraseOf ws) = .some m)
    (longer : ∀ front, front <+: rest → front ≠ [] → v.find? (phraseOf (ws ++ front)) = none)
    (chunks : List Chunk) :
    ws.foldr (Cut.extend v) ⟨rest, chunks⟩ = ⟨[], ⟨ws, .some m⟩ :: (Chunk.literal rest ++ chunks)⟩ := by
  have found := longest?_of_front some means longer
  cases ws with
  | nil => exact (some rfl).elim
  | cons w ws =>
    have behind : ws.foldr (Cut.extend v) ⟨rest, chunks⟩ = ⟨ws ++ rest, chunks⟩ := Silent.cut silent chunks
    rw [List.cons_append] at found
    rw [List.foldr_cons, behind, Cut.extend, found]
    simp only [← List.cons_append, List.take_left, List.drop_left]

theorem Whole.cut (whole : v.Whole ws) (some : ws ≠ []) (means : v.find? (phraseOf ws) = .some m)
    (chunks : List Chunk) : ws.foldr (Cut.extend v) ⟨[], chunks⟩ = ⟨[], ⟨ws, .some m⟩ :: chunks⟩ := by
  refine cut_before ?_ some means (fun front inside some => (some (List.prefix_nil.mp inside)).elim) chunks
  rw [List.append_nil]
  exact whole

/-- A row of phrases that are found as a whole is cut into these phrases. -/
theorem chunks_of_fits {chunks : List Chunk} (fits : ∀ chunk ∈ chunks, chunk.Fits v ∧ chunk.meaning? ≠ none) :
    v.chunks (chunks.flatMap Chunk.words) = chunks := by
  have cut : (chunks.flatMap Chunk.words).foldr (Cut.extend v) {} = ⟨[], chunks⟩ := by
    induction chunks with
    | nil => rfl
    | cons chunk chunks ih =>
      obtain ⟨⟨fit, meant⟩, later⟩ := List.forall_mem_cons.mp fits
      obtain ⟨m, means⟩ := Option.ne_none_iff_exists'.mp meant
      have same : chunk = ⟨chunk.words, some m⟩ := by rw [← means]
      rw [List.flatMap_cons, List.foldr_append, ih later, fit.whole.cut fit.some (fit.means.trans means), ← same]
  rw [Vocabulary.chunks, cut]
  rfl

end Vocabulary

/-! ### Vocabularies that cut sentences alike -/

def Chunk.reread (f : Meaning → Meaning) (chunk : Chunk) : Chunk :=
  { chunk with meaning? := chunk.meaning?.map f }

namespace Vocabulary

variable {v w : Vocabulary} {f : Meaning → Meaning} {ws : List String}

theorem longest?_reread {limit : Nat}
    (reads : ∀ n, 0 < n → n ≤ limit → v.find? (phraseOf (ws.take n)) = (w.find? (phraseOf (ws.take n))).map f) :
    v.longest? ws limit = (w.longest? ws limit).map (Prod.map id f) := by
  induction limit with
  | zero => rfl
  | succ limit ih =>
    have shorter := ih fun n positive below => reads n positive (by omega)
    rw [longest?, longest?, reads (limit + 1) limit.succ_pos (Nat.le_refl _), shorter]
    cases w.find? (phraseOf (ws.take (limit + 1))) <;> rfl

theorem literal_reread (f : Meaning → Meaning) (ws : List String) :
    (Chunk.literal ws).map (Chunk.reread f) = Chunk.literal ws := by
  cases ws <;> rfl

def Cut.reread (f : Meaning → Meaning) (cut : Cut) : Cut :=
  { cut with chunks := cut.chunks.map (Chunk.reread f) }

theorem Cut.extend_reread {word : String} {cut : Cut}
    (reads : ∀ run, run <:+: word :: cut.loose → run ≠ [] →
      v.find? (phraseOf run) = (w.find? (phraseOf run)).map f) :
    (cut.reread f).extend v word = (cut.extend w word).reread f := by
  have same : (cut.reread f).loose = cut.loose := rfl
  have fronts := @longest?_reread v w f (word :: cut.loose) (word :: cut.loose).length fun n positive _ =>
    reads ((word :: cut.loose).take n) (List.take_prefix n _).isInfix (by simp; omega)
  rw [extend, extend, same, fronts]
  cases w.longest? (word :: cut.loose) (word :: cut.loose).length with
  | none => rfl
  | some found => simp [reread, Chunk.reread, literal_reread]

/-- If two vocabularies differ on the phrases in a sentence only in what these stand for, so do its chunks. -/
theorem chunks_reread (reads : ∀ run, run <:+: ws → run ≠ [] →
    v.find? (phraseOf run) = (w.find? (phraseOf run)).map f) :
    v.chunks ws = (w.chunks ws).map (Chunk.reread f) := by
  have cuts : ws.foldr (Cut.extend v) {} = (ws.foldr (Cut.extend w) {}).reread f := by
    induction ws with
    | nil => rfl
    | cons word ws ih =>
      -- What is looked up at a word are runs of it and the loose words, with which the rest begins.
      have loose : (ws.foldr (Cut.extend w) {}).loose <+: ws := ⟨_, words_cut w ws⟩
      have front := ((List.prefix_cons_inj word).mpr loose).isInfix
      rw [List.foldr_cons, List.foldr_cons, ih fun run inside => reads run (List.infix_cons inside)]
      exact Cut.extend_reread fun run inside => reads run (inside.trans front)
  rw [chunks, chunks, cuts, List.map_append, literal_reread]
  rfl

end Vocabulary

end Rulebook
