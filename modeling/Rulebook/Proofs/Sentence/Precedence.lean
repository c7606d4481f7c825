import Rulebook.Proofs.Sentence.Arrangement
import Rulebook.Proofs.Sentence.Assembly

/-!
# Precedence

The passes over an arranged sentence make the trees that the grammar reads off the sentence:
`assemble_arrange_ok_iff`. A level of a pass and a clause of its operator correspond block by block.
-/

namespace Rulebook

namespace Item

theorem exists_field {t : Tree} (field : t.kind = .field) : ∃ f, t = .field f := by
  cases t with
  | field f => exact ⟨f, rfl⟩
  | compare c l r => cases c <;> cases field
  | was c l r => cases c <;> cases field
  | _ => cases field

theorem kind_of_keyword {t : Tree} {k : Keyword} (root : t.keyword? = some k) : t.kind = .operator k := by
  unfold Tree.kind
  simp only [root]

/-! ### The shape of a level -/

theorem reduced_operand (ks : List Keyword) (t : Tree) : Reduced ks [operand t] t := by
  induction ks with
  | nil => rfl
  | cons k ks ih => exact ⟨false, .kept ih⟩

/-- A run that is one tree begins with an operand or with a fence. -/
theorem Reduced.head {ks : List Keyword} {run : List Item} {t : Tree} (read : Reduced ks run t) :
    (∃ u rest, run = operand u :: rest) ∨ ∃ u rest, run = placeholder :: fenced u :: placeholder :: rest := by
  induction ks generalizing run t with
  | nil => exact Or.inl ⟨t, [], read⟩
  | cons k ks ih =>
    obtain ⟨new, made⟩ := read
    induction made with
    | kept read => exact ih read
    | unfenced root => exact Or.inr ⟨_, [], rfl⟩
    | joined made _ _ _ left | padded made _ _ _ left =>
      rcases left with ⟨u, rest, rfl⟩ | ⟨u, rest, rfl⟩
      · exact Or.inl ⟨u, _, rfl⟩
      · exact Or.inr ⟨u, _, rfl⟩

theorem Reduced.ne_nil {ks : List Keyword} {run : List Item} {t : Tree} (read : Reduced ks run t) :
    run ≠ [] := by
  rcases read.head with ⟨u, rest, rfl⟩ | ⟨u, rest, rfl⟩ <;> simp

/-- Only a field on its own is a field. -/
theorem Reduced.eq_of_field {ks : List Keyword} {run : List Item} {t : Tree} (read : Reduced ks run t)
    (field : t.kind = .field) : run = [operand t] := by
  induction ks generalizing run t with
  | nil => exact read
  | cons k ks ih =>
    obtain ⟨new, made⟩ := read
    cases made with
    | kept read => exact ih read field
    | unfenced root => cases (kind_of_keyword root).symm.trans field
    | joined | padded => cases (kind_of_keyword (Tree.keyword?_join k _ _)).symm.trans field

theorem fits_operator {k : Keyword} {run : List Item} {ks : List Keyword} {new : Bool} {t : Tree}
    (made : Made k (Reduced ks) new run t) (field : k.assigns = true → t.kind = .field)
    (last : ∀ j, run.getLast? ≠ some (pending j)) : ∀ item ∈ run.getLast?, Fits item (pending k) := by
  rintro item member _ ⟨⟩
  refine ⟨fun j same => last j (same ▸ member), fun assigns => ?_⟩
  have read : Reduced (k :: ks) run t := ⟨new, made⟩
  have alone := read.eq_of_field (field assigns)
  obtain ⟨f, rfl⟩ := exists_field (field assigns)
  rw [alone] at member
  exact ⟨f, (Option.some.inj member).symm⟩

theorem Reduced.neat {ks : List Keyword} {run : List Item} {t : Tree} (read : Reduced ks run t) : Neat run := by
  induction ks generalizing run t with
  | nil =>
    obtain rfl : run = [operand t] := read
    exact ⟨.singleton _, by simp⟩
  | cons k ks ih =>
    obtain ⟨new, made⟩ := read
    induction made with
    | kept read => exact ih read
    | unfenced root =>
      refine ⟨?_, by simp⟩
      simp [Fits]
    | @joined new left right l r made chained field read before =>
      have follows : ∀ item ∈ right.head?, Fits (pending k) item := by
        rintro item member j rfl
        rcases Reduced.head read with ⟨u, rest, rfl⟩ | ⟨u, rest, rfl⟩ <;> cases member
      refine ⟨List.isChain_append.mpr ⟨before.1, ?_, ?_⟩, ?_⟩
      · exact List.isChain_cons.mpr ⟨follows, (ih read).1⟩
      · rintro item member _ ⟨⟩
        exact fits_operator made field before.2 item member
      · intro j last
        have ending := List.getLast?_eq_some_getLast (Reduced.ne_nil read)
        rw [List.append_cons, List.getLast?_append, ending, Option.some_or] at last
        exact (ih read).2 j (ending.trans last)
    | @padded new left l made chained field takes before =>
      refine ⟨List.isChain_append.mpr ⟨before.1, ?_, ?_⟩, by simp⟩
      · simp [Fits]
      · rintro item member _ ⟨⟩
        exact fits_operator made field before.2 item member

/-! ### From phrases to levels -/

/-- Blocks that a pass for `k` makes one tree, and whether that tree is new. -/
def Blocks (k : Keyword) (ks : List Keyword) (new : Bool) (run : List Item) (t : Tree) : Prop :=
  ∃ blocks : List Block, run = blocks.flatMap Block.source ∧
    Made k (Reduced ks) new (blocks.flatMap Block.arranged) t

theorem Reused.blocks {k : Keyword} {ks : List Keyword} {run : List Item} {t : Tree}
    (reused : Reused k run t) : Blocks k ks false run t := by
  obtain ⟨rfl, bound, root⟩ := reused_iff.mp reused
  refine ⟨[.operand t], rfl, ?_⟩
  rw [List.flatMap_singleton, arranged_fenced bound]
  exact .unfenced root

/-- A phrase is a row of blocks that its passes make one tree. -/
theorem Phrase.exists_blocks {ks : List Keyword} {run : List Item} {t : Tree} (phrase : Phrase ks run t) :
    ∃ blocks : List Block, run = blocks.flatMap Block.source ∧
      Reduced ks (blocks.flatMap Block.arranged) t := by
  induction ks generalizing run t with
  | nil =>
    obtain ⟨rfl, bare⟩ := atom_iff.mp phrase
    refine ⟨[.operand t], rfl, ?_⟩
    rw [List.flatMap_singleton, arranged_operand bare]
    exact reduced_operand [] t
  | cons k ks ih =>
    have kept {run : List Item} {t : Tree} (read : Phrase ks run t) : Blocks k ks false run t := by
      obtain ⟨blocks, rfl, level⟩ := ih read
      exact ⟨blocks, rfl, .kept level⟩
    suffices ∃ new, Blocks k ks new run t by
      obtain ⟨new, blocks, rfl, made⟩ := this
      exact ⟨blocks, rfl, new, made⟩
    induction phrase with
    | tighter read => exact ⟨false, kept read⟩
    | reused reused => exact ⟨false, reused.blocks⟩
    | between form left right =>
      obtain ⟨front, rfl, made⟩ := kept left
      obtain ⟨back, rfl, read⟩ := ih right
      refine ⟨true, front ++ .plain k (Or.inl form) :: back, by simp [Block.source], ?_⟩
      rw [List.flatMap_append, List.flatMap_cons]
      exact .joined made (by simp) (by simp [Keyword.assigns_iff, form]) read
    | chain form _ right left =>
      obtain ⟨new, front, rfl, made⟩ := left
      obtain ⟨back, rfl, read⟩ := ih right
      refine ⟨true, front ++ .plain k (Or.inr form) :: back, by simp [Block.source], ?_⟩
      rw [List.flatMap_append, List.flatMap_cons]
      exact .joined made (fun _ => Keyword.associative_iff.mpr form) (by simp [Keyword.assigns_iff, form]) read
    | behind form inner =>
      obtain ⟨front, rfl, made⟩ := inner.elim kept Reused.blocks
      refine ⟨true, front ++ [.behind k form], by simp [Block.source], ?_⟩
      rw [List.flatMap_append, List.flatMap_singleton]
      exact .padded made (by simp) (by simp [Keyword.assigns_iff, form])
        (Keyword.takesPlaceholder_iff.mpr (Or.inl form))
    | @step f form =>
      obtain rfl := Keyword.form_step.mp form
      refine ⟨true, [.step f], rfl, ?_⟩
      exact .padded (.kept (reduced_operand ks (.field f))) (by simp) (fun _ => rfl) rfl
    | @write f right r form read =>
      obtain rfl := Keyword.form_write.mp form
      obtain ⟨back, rfl, level⟩ := ih read
      refine ⟨true, .write f :: back, rfl, ?_⟩
      exact .joined (.kept (reduced_operand ks (.field f))) (by simp) (fun _ => rfl) level

/-! ### From levels to phrases -/

/-- What is left of a block behind its operator is no phrase with the rest. -/
theorem not_reduced_placeholder {ks : List Keyword} {blocks : List Block} {t : Tree} :
    ¬ Reduced ks (placeholder :: blocks.flatMap Block.arranged) t := by
  intro read
  rcases read.head with ⟨u, rest, h⟩ | ⟨u, rest, h⟩
  · cases h
  · exact arranged_ne_fenced blocks u _ (List.cons.inj h).2

/-- What the pass for `k` makes of blocks: an operand of `k`, or, if it is new, a clause of `k`. -/
def Read (k : Keyword) (ks : List Keyword) (new : Bool) (run : List Item) (t : Tree) : Prop :=
  match new with
  | false => Phrase ks run t ∨ Reused k run t
  | true => Clause k (Phrase ks) run t

theorem Read.clause {k : Keyword} {ks : List Keyword} {new : Bool} {run : List Item} {t : Tree}
    (read : Read k ks new run t) : Clause k (Phrase ks) run t := by
  cases new with
  | true => exact read
  | false => exact read.elim .tighter .reused

/-- The left operand of an operator that does not chain is no clause of the same operator. -/
theorem Read.operand {k : Keyword} {ks : List Keyword} {new : Bool} {run : List Item} {t : Tree}
    (read : Read k ks new run t) (chained : new = true → k.associative = true) (form : k.form ≠ .chain) :
    Phrase ks run t ∨ Reused k run t := by
  cases new with
  | false => exact read
  | true => exact (form (Keyword.associative_iff.mp (chained rfl))).elim

theorem Read.phrase {k : Keyword} {ks : List Keyword} {new : Bool} {run : List Item} {t : Tree}
    (read : Read k ks new run t) (chained : new = true → k.associative = true) (form : k.form = .between) :
    Phrase ks run t := by
  rcases read.operand chained (by simp [form]) with phrase | reused
  · exact phrase
  · rcases reused.form with other | other | other <;> cases form.symm.trans other

/-- A field in front of the operator that assigns to it has nothing before it. -/
theorem Made.eq_nil_of_field {k : Keyword} {ks : List Keyword} {new : Bool} {front : List Block} {f : String}
    {t : Tree} (made : Made k (Reduced ks) new (front.flatMap Block.arranged ++ [operand (.field f)]) t)
    (field : t.kind = .field) : front = [] ∧ t = .field f := by
  have read : Reduced (k :: ks) _ t := ⟨new, made⟩
  have alone := read.eq_of_field field
  rcases List.append_eq_singleton_iff.mp alone with ⟨front, same⟩ | ⟨_, same⟩
  · exact ⟨eq_nil_of_arranged front, (Item.operand.inj (List.cons.inj same).1).symm⟩
  · cases same

theorem atom_of_arranged {blocks : List Block} {t : Tree} (h : blocks.flatMap Block.arranged = [operand t]) :
    Atom (blocks.flatMap Block.source) t := by
  cases blocks with
  | nil => cases h
  | cons block blocks =>
    rw [List.flatMap_cons] at h
    cases block with
    | operand u =>
      cases bare : needsFence u with
      | false =>
        rw [arranged_operand bare] at h
        obtain ⟨same, rest⟩ := List.cons.inj h
        cases same
        rw [eq_nil_of_arranged rest]
        exact atom_iff.mpr ⟨rfl, bare⟩
      | true =>
        rw [arranged_fenced bare] at h
        cases h
    | plain j free => cases h
    | behind j form => cases h
    | step f => cases h
    | write f => cases h

theorem reused_of_arranged {k : Keyword} {blocks : List Block} {t : Tree} (root : t.keyword? = some k)
    (h : blocks.flatMap Block.arranged = [placeholder, fenced t, placeholder]) :
    Reused k (blocks.flatMap Block.source) t := by
  cases blocks with
  | nil => cases h
  | cons block blocks =>
    rw [List.flatMap_cons] at h
    cases block with
    | operand u =>
      cases bare : needsFence u with
      | false =>
        rw [arranged_operand bare] at h
        cases h
      | true =>
        rw [arranged_fenced bare] at h
        obtain ⟨_, rest⟩ := List.cons.inj h
        obtain ⟨same, closing⟩ := List.cons.inj rest
        cases same
        rw [eq_nil_of_arranged (List.cons.inj closing).2]
        exact reused_iff.mpr ⟨rfl, bare, root⟩
    | plain j free => cases h
    | behind j form => cases h
    | step f => cases h
    | write f => cases h

/-- Blocks that some passes make one tree are a phrase of their operators. -/
theorem Reduced.phrase {ks : List Keyword} {blocks : List Block} {t : Tree}
    (level : Reduced ks (blocks.flatMap Block.arranged) t) : Phrase ks (blocks.flatMap Block.source) t := by
  induction ks generalizing blocks t with
  | nil => exact atom_of_arranged level
  | cons k ks ih =>
    obtain ⟨new, made⟩ := level
    -- Inside the pass it matters whether the tree is new, so the induction keeps the flag.
    suffices read : Read k ks new (blocks.flatMap Block.source) t from read.clause
    generalize whole : blocks.flatMap Block.arranged = run at made
    induction made generalizing blocks with
    | kept level =>
      subst whole
      exact Or.inl (ih level)
    | unfenced root => exact Or.inr (reused_of_arranged root whole)
    | @joined new left right l r made chained field level before =>
      have right_ne : ∀ back : List Block, right ≠ placeholder :: back.flatMap Block.arranged :=
        fun back same => not_reduced_placeholder (same ▸ level)
      cases split_of_arranged whole with
      | plain front back free whole' left' right' =>
        subst whole' left' right'
        rw [List.flatMap_append, List.flatMap_cons]
        rcases free with form | form
        · exact .between form ((before rfl).phrase chained form) (ih level)
        · exact .chain form (before rfl).clause (ih level)
      | behind front back form _ _ right' => exact (right_ne back right').elim
      | step front back f form _ _ right' => exact (right_ne back right').elim
      | write front back f form whole' left' right' =>
        subst whole' left' right'
        obtain ⟨rfl, rfl⟩ := made.eq_nil_of_field (field (Keyword.assigns_iff.mpr (Or.inr form)))
        obtain rfl := Keyword.form_write.mp form
        exact .write rfl (ih level)
    | @padded new left l made chained field takes before =>
      have form := Keyword.takesPlaceholder_iff.mp takes
      cases split_of_arranged whole with
      | plain front back free => rcases free with free | free <;> simp [free] at form
      | behind front back form whole' left' right' =>
        subst whole' left'
        obtain rfl := eq_nil_of_arranged (List.cons.inj right').2.symm
        rw [List.flatMap_append, List.flatMap_singleton]
        exact .behind form ((before rfl).operand chained (by simp [form]))
      | step front back f form whole' left' right' =>
        subst whole' left'
        obtain rfl := eq_nil_of_arranged (List.cons.inj right').2.symm
        obtain ⟨rfl, rfl⟩ := made.eq_nil_of_field (field (Keyword.assigns_iff.mpr (Or.inl form)))
        obtain rfl := Keyword.form_step.mp form
        exact .step rfl
      | write front back f form' => simp [form'] at form

/-! ### Sentences -/

/-- The passes make a tree of a sentence exactly if the grammar reads the tree off the sentence. -/
theorem assemble_arrange_ok_iff {limit : Nat} {items : List Item} {t : Tree} (enough : 15 ≤ limit)
    (plain : Plain items) : assemble limit (arrange items) = .ok t ↔ Sentence items t := by
  rw [assemble_ok_iff enough plain.settled plain.bare, ← Keyword.levels_eq_byStrength]
  constructor
  · intro level
    obtain ⟨blocks, rfl⟩ := exists_blocks plain level.neat
    rw [arrange_source] at level
    exact level.phrase
  · intro phrase
    obtain ⟨blocks, rfl, level⟩ := Phrase.exists_blocks phrase
    rwa [arrange_source]

theorem Sentence.plain {items : List Item} {t : Tree} (sentence : Sentence items t) : Plain items := by
  obtain ⟨blocks, rfl, _⟩ := Phrase.exists_blocks sentence
  intro item member
  obtain ⟨block, _, inside⟩ := List.mem_flatMap.mp member
  cases block with
  | operand t => exact .inl ⟨t, List.mem_singleton.mp inside⟩
  | plain k _ | behind k _ => exact .inr ⟨k, List.mem_singleton.mp inside⟩
  | step f | write f =>
    rcases List.mem_pair.mp inside with same | same
    · exact .inr ⟨_, same⟩
    · exact .inl ⟨_, same⟩

theorem Sentence.ne_nil {items : List Item} {t : Tree} (sentence : Sentence items t) : items ≠ [] := by
  rintro rfl
  obtain ⟨blocks, empty, level⟩ := Phrase.exists_blocks sentence
  cases blocks with
  | nil => exact Reduced.ne_nil level rfl
  | cons block blocks => cases block <;> cases empty

end Item

end Rulebook
