import Rulebook.Proofs.Sentence.Pass

/-!
# All passes

`assemble_ok_iff`: the passes make one tree of a sentence exactly if its items are one level of the
next operator within another, down to single operands. How many rounds there are does not matter once
there is one for every operator.
-/

namespace Rulebook

namespace Item

/-- Passes for some operators, in order. -/
def passes : List Keyword → List Item → Except GrammarError (List Item)
  | [], items => .ok items
  | k :: ks, items => sweep k [] items >>= passes ks

/-- A tree stands for itself. -/
def Single (run : List Item) (t : Tree) : Prop := run = [operand t]

/-- The runs that are one tree after the passes for some operators, of which the first comes last. -/
def Reduced (ks : List Keyword) : List Item → Tree → Prop := ks.foldr Level Single

theorem reduced_eq_foldl (ks : List Keyword) :
    Reduced ks = ks.reverse.foldl (fun P k => Level k P) Single := by
  rw [Reduced, List.foldl_reverse]

variable {P : List Item → Tree → Prop}

/-! ### What the passes leave -/

theorem passes_covers {ks : List Keyword} {source items swept : List Item}
    (covers : Covers (Settled P) source items) (h : passes ks items = .ok swept) :
    Covers (Settled (ks.foldl (fun P k => Level k P) P)) source swept := by
  induction ks generalizing P items with
  | nil =>
    cases h
    exact covers
  | cons k ks ih =>
    obtain ⟨next, first, h⟩ := bind_ok h
    exact ih (pass_covers first covers) h

theorem exists_passes {ks : List Keyword} {source swept : List Item} (nodup : ks.Nodup)
    (covers : Covers (Settled (ks.foldl (fun P k => Level k P) P)) source swept)
    (idle : ∀ item ∈ swept, ∀ k ∈ ks, ¬ item.Awaits k) :
    ∃ items, Covers (Settled P) source items ∧ passes ks items = .ok swept ∧
      ∀ i ∈ items, ∀ j, i.Awaits j → j ∈ ks ∨ ∃ item ∈ swept, item.Awaits j := by
  induction ks generalizing P with
  | nil => exact ⟨swept, covers, rfl, fun i member j waits => Or.inr ⟨i, member, waits⟩⟩
  | cons k ks ih =>
    obtain ⟨fresh, nodup⟩ := List.nodup_cons.mp nodup
    obtain ⟨next, covers, run, waiting⟩ :=
      ih nodup covers fun item member j present => idle item member j (List.mem_cons_of_mem _ present)
    have idleNext : ∀ i ∈ next, ¬ i.Awaits k := by
      intro i member waits
      rcases waiting i member k waits with present | ⟨item, present, waits⟩
      · exact fresh present
      · exact idle item present k List.mem_cons_self waits
    obtain ⟨items, covers, first, waiting'⟩ := exists_sweep covers idleNext
    refine ⟨items, covers, ?_, ?_⟩
    · rw [passes, first]
      exact run
    · intro i member j waits
      rcases waiting' i member j waits with rfl | ⟨item, present, waits⟩
      · exact Or.inl List.mem_cons_self
      · exact (waiting item present j waits).imp (List.mem_cons_of_mem _) id

/-! ### Items that stand for themselves -/

theorem eq_of_covers_single {source items : List Item} (covers : Covers (Settled Single) source items) :
    source = items := by
  induction items generalizing source with
  | nil => exact covers
  | cons item items ih =>
    obtain ⟨run, rest, rfl, stands, covers⟩ := covers
    have self : run = [item] := by
      cases item with
      | built t => exact stands.elim
      | operand t => exact stands
      | _ => exact stands
    rw [self, ih covers, List.singleton_append]

theorem covers_single {items : List Item} (settled : ∀ t, built t ∉ items) :
    Covers (Settled Single) items items := by
  induction items with
  | nil => rfl
  | cons item items ih =>
    refine ⟨[item], items, rfl, ?_, ih fun t member => settled t (List.mem_cons_of_mem _ member)⟩
    cases item with
    | built t => exact settled t List.mem_cons_self
    | operand t => rfl
    | _ => rfl

theorem Covers.settled {source items : List Item} (covers : Covers (Settled P) source items) (t : Tree) :
    built t ∉ items := by
  induction items generalizing source with
  | nil => exact List.not_mem_nil
  | cons item items ih =>
    obtain ⟨run, rest, rfl, stands, covers⟩ := covers
    intro member
    rcases List.mem_cons.mp member with rfl | member
    · exact stands
    · exact ih covers member

/-! ### Rounds -/

/-- What becomes of the items that the last pass leaves. -/
def outcome (limit : Nat) (items : List Item) : Except GrammarError Tree :=
  if items.length ≤ 1 then finish items else .error (.unresolved (items.map kind) limit)

/-- A pass leaves an item on its own alone, or refuses it as it is refused in the end. -/
theorem sweep_of_short {k : Keyword} {items : List Item} (short : items.length ≤ 1)
    (settled : ∀ t, built t ∉ items) (bare : ∀ t, items ≠ [fenced t]) :
    sweep k [] items = .ok items ∨ ∃ e, sweep k [] items = .error e ∧ finish items = .error e := by
  match items with
  | [] => exact .inl (sweep_nil k [])
  | [item] =>
    by_cases waits : item.Awaits k
    · cases item with
      | pending j =>
        obtain rfl : j = k := waits
        exact .inr ⟨.missingOperand j, sweep_lonely (by simp), rfl⟩
      | fenced t => exact (bare t rfl).elim
      | _ => exact waits.elim
    · rw [sweep_past item waits, sweep_nil]
      cases item with
      | built t => exact (settled t List.mem_cons_self).elim
      | _ => exact .inl rfl
  | _ :: _ :: _ => simp at short

theorem passes_of_short (ks : List Keyword) {items : List Item} (short : items.length ≤ 1)
    (settled : ∀ t, built t ∉ items) (bare : ∀ t, items ≠ [fenced t]) :
    passes ks items = .ok items ∨ ∃ e, passes ks items = .error e ∧ finish items = .error e := by
  induction ks with
  | nil => exact .inl rfl
  | cons k ks ih =>
    rw [passes]
    rcases sweep_of_short short settled bare with ran | ⟨e, ran, refused⟩
    · rw [ran]
      exact ih
    · rw [ran]
      exact .inr ⟨e, rfl, refused⟩

theorem assembleIn_short (limit rounds : Nat) (ks : List Keyword) {items : List Item} (short : items.length ≤ 1) :
    assembleIn limit rounds ks items = finish items := by
  rw [assembleIn.eq_def]
  exact if_pos short

theorem assembleIn_cons (limit rounds : Nat) (k : Keyword) (ks : List Keyword) {items : List Item}
    (long : ¬ items.length ≤ 1) :
    assembleIn limit (rounds + 1) (k :: ks) items = (sweep k [] items >>= assembleIn limit rounds ks) := by
  rw [assembleIn.eq_def]
  exact if_neg long

/-- Rounds after the last operator find nothing to do. -/
theorem assembleIn_nil (limit rounds : Nat) {items : List Item} (long : ¬ items.length ≤ 1) :
    assembleIn limit rounds [] items = .error (.unresolved (items.map kind) limit) := by
  induction rounds with
  | zero =>
    rw [assembleIn.eq_def]
    exact if_neg long
  | succ rounds ih =>
    rw [assembleIn.eq_def]
    exact (if_neg long).trans ih

theorem finish_eq_outcome (limit : Nat) (ks : List Keyword) {items : List Item} (short : items.length ≤ 1)
    (settled : ∀ t, built t ∉ items) (bare : ∀ t, items ≠ [fenced t]) :
    finish items = (passes ks items >>= outcome limit) := by
  rcases passes_of_short ks short settled bare with ran | ⟨e, ran, refused⟩
  · rw [ran]
    exact (if_pos short).symm
  · rw [ran, refused]
    rfl

/-- With a round for every operator, the rounds are the passes. -/
theorem assembleIn_eq_passes {limit rounds : Nat} {ks : List Keyword} {items : List Item}
    (enough : ks.length ≤ rounds) (settled : ∀ u, built u ∉ items) (bare : ∀ u, items ≠ [fenced u]) :
    assembleIn limit rounds ks items = (passes ks items >>= outcome limit) := by
  induction ks generalizing rounds items with
  | nil =>
    by_cases short : items.length ≤ 1
    · rw [assembleIn_short limit rounds _ short]
      exact finish_eq_outcome limit [] short settled bare
    · rw [assembleIn_nil limit rounds short]
      exact (if_neg short).symm
  | cons k ks ih =>
    by_cases short : items.length ≤ 1
    · rw [assembleIn_short limit rounds _ short]
      exact finish_eq_outcome limit (k :: ks) short settled bare
    · obtain ⟨rounds, rfl⟩ : ∃ n, rounds = n + 1 := ⟨rounds - 1, by simp at enough; omega⟩
      rw [assembleIn_cons limit rounds k ks short, passes]
      cases run : sweep k [] items with
      | error e => rfl
      | ok next =>
        have covers := pass_covers run (covers_single settled)
        refine ih (Nat.le_of_succ_le_succ enough) covers.settled fun u alone => short ?_
        -- A pass leaves one fenced tree only of one fenced tree.
        subst alone
        have self : items = [fenced u] := covers_singleton.mp covers
        exact self ▸ Nat.le_refl 1

theorem outcome_ok {limit : Nat} {items : List Item} {t : Tree} (settled : ∀ u, built u ∉ items)
    (bare : ∀ u, items ≠ [fenced u]) (h : outcome limit items = .ok t) : items = [operand t] := by
  match items with
  | [operand u] =>
    cases h
    rfl
  | [built u] => exact (settled u List.mem_cons_self).elim
  | [fenced u] => exact (bare u rfl).elim
  | [] | [pending k] | [placeholder] => cases h
  | _ :: _ :: _ => cases h

theorem assembleIn_ok_iff {limit rounds : Nat} {ks : List Keyword} {items : List Item} {t : Tree}
    (enough : ks.length ≤ rounds) (settled : ∀ u, built u ∉ items) (bare : ∀ u, items ≠ [fenced u]) :
    assembleIn limit rounds ks items = .ok t ↔ passes ks items = .ok [operand t] := by
  rw [assembleIn_eq_passes enough settled bare]
  constructor
  · intro h
    obtain ⟨swept, run, ended⟩ := bind_ok h
    have covers := passes_covers (covers_single settled) run
    rw [run, outcome_ok covers.settled ?_ ended]
    rintro u rfl
    exact bare u (covers_singleton.mp covers)
  · intro run
    rw [run]
    rfl

/-- Items become one tree exactly if the tree can be read off them level by level. -/
theorem assemble_ok_iff {limit : Nat} {items : List Item} {t : Tree} (enough : 15 ≤ limit)
    (settled : ∀ u, built u ∉ items) (bare : ∀ u, items ≠ [fenced u]) :
    assemble limit items = .ok t ↔ Reduced Keyword.byStrength items t := by
  have levels := reduced_eq_foldl Keyword.byStrength
  rw [assemble, assembleIn_ok_iff enough settled bare]
  constructor
  · intro run
    have covers := passes_covers (covers_single settled) run
    rw [← levels] at covers
    exact covers_singleton.mp covers
  · intro read
    rw [levels] at read
    have stands : Settled (Keyword.byStrength.reverse.foldl (fun P k => Level k P) Single) (operand t) items := read
    have idle : ∀ item ∈ [operand t], ∀ k ∈ Keyword.byStrength.reverse, ¬ item.Awaits k := by simp [Awaits]
    obtain ⟨start, singles, run, _⟩ := exists_passes (by decide) (covers_singleton.mpr stands) idle
    rw [eq_of_covers_single singles]
    exact run

end Item

end Rulebook
