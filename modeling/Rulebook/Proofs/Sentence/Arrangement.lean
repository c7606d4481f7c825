import Mathlib.Data.List.Chain
import Rulebook.Proofs.Sentence.Blocks

/-!
# Arranged sentences

A sentence in which every operator in front of a field has its field is a row of blocks, and `arrange`
turns each block on its own. `exists_blocks`: any other sentence is arranged into one with an operator
that lacks a neighbour.
-/

namespace Rulebook

namespace Item

/-! ### Arranging from the left -/

theorem moveSet_past {item : Item} (other : item ≠ pending .set) (rest : List Item) :
    moveSet (item :: rest) = item :: moveSet rest := by
  rw [moveSet]
  intro x tail same _
  exact other same

theorem moveInc_past {item : Item} (other : item ≠ pending .inc) (rest : List Item) :
    moveInc (item :: rest) = item :: moveInc rest := by
  rw [moveInc]
  intro x tail same _
  exact other same

theorem padChange_other {k : Keyword} (other : k.form ≠ .behind) : padChange (pending k) = [pending k] := by
  cases k with
  | hasChanged | hasNotChanged => exact (other rfl).elim
  | _ => rfl

theorem padChange_behind {k : Keyword} (last : k.form = .behind) :
    padChange (pending k) = [pending k, placeholder] := by
  cases k with
  | hasChanged | hasNotChanged => rfl
  | _ => cases last

theorem arrange_operand (t : Tree) (rest : List Item) :
    arrange (operand t :: rest) = fence (operand t) ++ arrange rest := by
  simp [arrange, padChange, moveSet_past, moveInc_past]

theorem arrange_plain {k : Keyword} (free : k.form = .between ∨ k.form = .chain) (rest : List Item) :
    arrange (pending k :: rest) = pending k :: arrange rest := by
  have notLast : k.form ≠ .behind := by rcases free with free | free <;> simp [free]
  have notSet : pending k ≠ pending .set := fun same => by cases same; rcases free with free | free <;> cases free
  have notInc : pending k ≠ pending .inc := fun same => by cases same; rcases free with free | free <;> cases free
  simp [arrange, padChange_other notLast, moveSet_past notSet, moveInc_past notInc, fence]

theorem arrange_behind {k : Keyword} (last : k.form = .behind) (rest : List Item) :
    arrange (pending k :: rest) = pending k :: placeholder :: arrange rest := by
  have notSet : pending k ≠ pending .set := fun same => by cases same; cases last
  have notInc : pending k ≠ pending .inc := fun same => by cases same; cases last
  simp [arrange, padChange_behind last, moveSet_past notSet, moveInc_past notInc, moveSet_past,
    moveInc_past, fence]

theorem arrange_write (t : Tree) (rest : List Item) :
    arrange (pending .set :: operand t :: rest) = fence (operand t) ++ pending .set :: arrange rest := by
  simp [arrange, padChange, moveSet, moveInc_past, fence]

theorem arrange_step (t : Tree) (rest : List Item) :
    arrange (pending .inc :: operand t :: rest) =
      fence (operand t) ++ pending .inc :: placeholder :: arrange rest := by
  simp [arrange, padChange, moveSet_past, moveInc, fence]

theorem arrange_source (blocks : List Block) :
    arrange (blocks.flatMap Block.source) = blocks.flatMap Block.arranged := by
  induction blocks with
  | nil => rfl
  | cons block blocks ih =>
    rw [List.flatMap_cons, List.flatMap_cons, ← ih]
    cases block with
    | operand t => exact arrange_operand t _
    | plain k free => exact arrange_plain free _
    | behind k last => exact arrange_behind last _
    | step f => exact arrange_step _ _
    | write f => exact arrange_write _ _

/-! ### Operators that lack a neighbour -/

/-- Whether the second item can follow the first: an operator needs an operand before it, and one that
assigns needs a field. -/
def Fits (first second : Item) : Prop :=
  ∀ k, second = pending k → (∀ j, first ≠ pending j) ∧ (k.assigns = true → ∃ f, first = operand (.field f))

/-- Items of which every two neighbours fit, with no operator at the end. -/
def Neat (items : List Item) : Prop :=
  items.IsChain Fits ∧ ∀ k, items.getLast? ≠ some (pending k)

theorem Neat.right {front back : List Item} (neat : Neat (front ++ back)) : Neat back := by
  refine ⟨neat.1.right_of_append, fun k last => neat.2 k ?_⟩
  rw [List.getLast?_append, last]
  rfl

theorem Neat.tail {item : Item} {back : List Item} (neat : Neat (item :: back)) : Neat back := by
  have whole : Neat ([item] ++ back) := neat
  exact whole.right

theorem not_neat_operators (j k : Keyword) (front back : List Item) :
    ¬ Neat (front ++ pending j :: pending k :: back) := by
  intro neat
  have fits := (List.isChain_cons_cons.mp neat.right.1).1
  exact (fits k rfl).1 j rfl

theorem not_neat_assigns {k : Keyword} (assigns : k.assigns = true) {item : Item}
    (other : ∀ f, item ≠ operand (.field f)) (front back : List Item) :
    ¬ Neat (front ++ item :: pending k :: back) := by
  intro neat
  have fits := (List.isChain_cons_cons.mp neat.right.1).1
  obtain ⟨f, same⟩ := (fits k rfl).2 assigns
  exact other f same

theorem not_neat_last (k : Keyword) (front : List Item) : ¬ Neat (front ++ [pending k]) := by
  intro neat
  exact neat.right.2 k rfl

theorem flatMap_padChange_pending (k : Keyword) (rest : List Item) :
    ∃ tail, (pending k :: rest).flatMap padChange = pending k :: tail := by
  cases k <;> exact ⟨_, rfl⟩

theorem arrange_set_operator (k : Keyword) (rest : List Item) :
    ∃ i j back, arrange (pending .set :: pending k :: rest) = pending i :: pending j :: back := by
  obtain ⟨tail, padded⟩ := flatMap_padChange_pending k rest
  have start : (pending .set :: pending k :: rest).flatMap padChange = pending .set :: pending k :: tail :=
    congrArg (pending .set :: ·) padded
  rw [arrange, start, moveSet]
  by_cases inc : k = .inc
  · subst inc
    exact ⟨.set, .inc, _, rfl⟩
  · rw [moveInc_past (by simpa using inc), moveInc_past (by simp)]
    exact ⟨k, .set, _, rfl⟩

theorem arrange_inc_operator {k : Keyword} (notSet : k ≠ .set) (rest : List Item) :
    ∃ i j back, arrange (pending .inc :: pending k :: rest) = pending i :: pending j :: back := by
  obtain ⟨tail, padded⟩ := flatMap_padChange_pending k rest
  have start : (pending .inc :: pending k :: rest).flatMap padChange = pending .inc :: pending k :: tail :=
    congrArg (pending .inc :: ·) padded
  rw [arrange, start, moveSet_past (by simp), moveSet_past (by simpa using notSet), moveInc]
  exact ⟨k, .inc, _, rfl⟩

theorem arrange_inc_set_operator (k : Keyword) (rest : List Item) :
    ∃ i j back, arrange (pending .inc :: pending .set :: pending k :: rest) = pending i :: pending j :: back := by
  obtain ⟨tail, padded⟩ := flatMap_padChange_pending k rest
  have start : (pending .inc :: pending .set :: pending k :: rest).flatMap padChange =
      pending .inc :: pending .set :: pending k :: tail :=
    congrArg (fun l => pending .inc :: pending .set :: l) padded
  rw [arrange, start, moveSet_past (by simp), moveSet, moveInc]
  exact ⟨k, .inc, _, rfl⟩

/-- Between `inc` and its field, `set` takes the field and leaves a placeholder before itself. -/
theorem arrange_inc_set (t : Tree) (rest : List Item) :
    arrange (pending .inc :: pending .set :: operand t :: rest) =
      (fence (operand t) ++ [pending .inc]) ++ placeholder :: pending .set :: arrange rest := by
  simp [arrange, padChange, moveSet_past, moveSet, moveInc, fence]

/-- A sentence before it is arranged. -/
def Plain (items : List Item) : Prop := ∀ item ∈ items, (∃ t, item = operand t) ∨ ∃ k, item = pending k

theorem Plain.tail {item : Item} {items : List Item} (plain : Plain (item :: items)) : Plain items :=
  fun other member => plain other (List.mem_cons_of_mem _ member)

theorem not_neat_of_operators {items : List Item}
    (adjacent : ∃ i j back, arrange items = pending i :: pending j :: back) : ¬ Neat (arrange items) := by
  obtain ⟨i, j, back, same⟩ := adjacent
  rw [same]
  exact not_neat_operators i j [] back

theorem not_neat_inc_set {rest : List Item} (plain : Plain rest) :
    ¬ Neat (arrange (pending .inc :: pending .set :: rest)) := by
  match rest with
  | [] => exact not_neat_operators .set .inc [] [placeholder]
  | item :: rest =>
    rcases plain item List.mem_cons_self with ⟨t, rfl⟩ | ⟨k, rfl⟩
    · rw [arrange_inc_set]
      exact not_neat_assigns rfl (by simp) _ _
    · exact not_neat_of_operators (arrange_inc_set_operator k rest)

/-- The operand in front of an operator that assigns is a field. -/
theorem field_of_neat {k : Keyword} (assigns : k.assigns = true) {t : Tree} {back : List Item}
    (neat : Neat (fence (operand t) ++ pending k :: back)) : ∃ f, t = .field f := by
  by_cases field : ∃ f, t = .field f
  · exact field
  · rw [fence] at neat
    split at neat
    · exact (not_neat_assigns assigns (by simp) [placeholder, fenced t] back neat).elim
    · refine (not_neat_assigns assigns (fun f same => field ⟨f, ?_⟩) [] back neat).elim
      exact Item.operand.inj same

/-- A sentence without a misplaced operator is a row of blocks. -/
theorem exists_blocks {items : List Item} (plain : Plain items) (neat : Neat (arrange items)) :
    ∃ blocks : List Block, items = blocks.flatMap Block.source := by
  cases items with
  | nil => exact ⟨[], rfl⟩
  | cons item rest =>
    rcases plain item List.mem_cons_self with ⟨t, rfl⟩ | ⟨k, rfl⟩
    · rw [arrange_operand] at neat
      obtain ⟨blocks, rfl⟩ := exists_blocks plain.tail neat.right
      exact ⟨.operand t :: blocks, rfl⟩
    · cases form : k.form with
      | between | chain =>
        have free : k.form = .between ∨ k.form = .chain := by simp [form]
        rw [arrange_plain free] at neat
        obtain ⟨blocks, rfl⟩ := exists_blocks plain.tail neat.tail
        exact ⟨.plain k free :: blocks, rfl⟩
      | behind =>
        rw [arrange_behind form] at neat
        obtain ⟨blocks, rfl⟩ := exists_blocks plain.tail neat.tail.tail
        exact ⟨.behind k form :: blocks, rfl⟩
      | write =>
        obtain rfl := Keyword.form_write.mp form
        cases rest with
        | nil => exact (not_neat_last .set [] neat).elim
        | cons next rest =>
          rcases plain.tail next List.mem_cons_self with ⟨t, rfl⟩ | ⟨j, rfl⟩
          · rw [arrange_write] at neat
            obtain ⟨f, rfl⟩ := field_of_neat rfl neat
            obtain ⟨blocks, rfl⟩ := exists_blocks plain.tail.tail neat.right.tail
            exact ⟨.write f :: blocks, rfl⟩
          · exact (not_neat_of_operators (arrange_set_operator j rest) neat).elim
      | step =>
        obtain rfl := Keyword.form_step.mp form
        -- An operator behind `inc` ends up before it, except for `set`, which jumps first.
        cases rest with
        | nil => exact (not_neat_last .inc [] neat).elim
        | cons next rest =>
          rcases plain.tail next List.mem_cons_self with ⟨t, rfl⟩ | ⟨j, rfl⟩
          · rw [arrange_step] at neat
            obtain ⟨f, rfl⟩ := field_of_neat rfl neat
            obtain ⟨blocks, rfl⟩ := exists_blocks plain.tail.tail neat.right.tail.tail
            exact ⟨.step f :: blocks, rfl⟩
          · by_cases set : j = .set
            · subst set
              exact (not_neat_inc_set plain.tail.tail neat).elim
            · exact (not_neat_of_operators (arrange_inc_operator set rest) neat).elim
termination_by items.length

/-! ### The items of an arranged sentence -/

theorem mem_padChange {item other : Item} (member : other ∈ padChange item) :
    other = item ∨ other = placeholder := by
  unfold padChange at member
  split at member
  · simpa using member
  · simpa using member
  · exact Or.inl (List.mem_singleton.mp member)

theorem moveSet_perm (items : List Item) : (moveSet items).Perm items := by
  induction items using moveSet.induct with
  | case1 x rest ih =>
    rw [moveSet]
    exact ((ih.cons _).cons _).trans (.swap _ _ rest)
  | case2 x rest alone ih =>
    rw [moveSet]
    · exact ih.cons x
    · exact alone
  | case3 => exact .nil

theorem subset_moveInc (items : List Item) : items ⊆ moveInc items := by
  induction items using moveInc.induct with
  | case1 x rest ih =>
    rw [moveInc]
    intro item member
    have places : item = pending .inc ∨ item = x ∨ item ∈ rest := by simpa using member
    rcases places with rfl | rfl | later
    · simp
    · simp
    · simp [ih later]
  | case2 x rest alone ih =>
    rw [moveInc]
    · exact List.cons_subset_cons x ih
    · exact alone
  | case3 => exact List.nil_subset _

theorem mem_moveInc {items : List Item} {item : Item} (member : item ∈ moveInc items) :
    item ∈ items ∨ item = placeholder := by
  induction items using moveInc.induct with
  | case1 x rest ih =>
    rw [moveInc, List.mem_cons, List.mem_cons, List.mem_cons] at member
    rcases member with rfl | rfl | rfl | member
    · simp
    · simp
    · simp
    · exact (ih member).imp (by simp +contextual) id
  | case2 x rest alone ih =>
    rw [moveInc, List.mem_cons] at member
    · rcases member with rfl | member
      · simp
      · exact (ih member).imp (List.mem_cons_of_mem _) id
    · exact alone
  | case3 => exact Or.inl member

/-- Arranging leaves the tree or the operator of every item. -/
theorem exists_mem_arrange {items : List Item} (plain : Plain items) (some : items ≠ []) :
    ∃ item ∈ arrange items, item ≠ placeholder := by
  obtain ⟨item, rest, rfl⟩ := List.exists_cons_of_ne_nil some
  have padded : item ∈ (item :: rest).flatMap padChange := by
    refine List.mem_flatMap.mpr ⟨item, List.mem_cons_self, ?_⟩
    unfold padChange
    split <;> simp
  have moved := subset_moveInc _ ((moveSet_perm _).symm.subset padded)
  have kept {other : Item} (inside : other ∈ fence item) : other ∈ arrange (item :: rest) :=
    List.mem_flatMap.mpr ⟨item, moved, inside⟩
  rcases plain item List.mem_cons_self with ⟨t, rfl⟩ | ⟨k, rfl⟩
  · cases bound : needsFence t with
    | false => exact ⟨operand t, kept (by simp [fence, bound]), by simp⟩
    | true => exact ⟨fenced t, kept (by simp [fence, bound]), by simp⟩
  · exact ⟨pending k, kept (by simp [fence]), by simp⟩

/-- Before the fences go up, a sentence holds operands, operators and placeholders. -/
theorem Plain.moved {items : List Item} (plain : Plain items) {item : Item}
    (member : item ∈ moveInc (moveSet (items.flatMap padChange))) :
    (∃ t, item = operand t) ∨ (∃ k, item = pending k) ∨ item = placeholder := by
  rcases mem_moveInc member with member | rfl
  · obtain ⟨source, present, member⟩ := List.mem_flatMap.mp ((moveSet_perm _).subset member)
    rcases mem_padChange member with rfl | rfl
    · exact (plain item present).imp id Or.inl
    · exact Or.inr (Or.inr rfl)
  · exact Or.inr (Or.inr rfl)

theorem Plain.settled {items : List Item} (plain : Plain items) (t : Tree) : built t ∉ arrange items := by
  intro member
  obtain ⟨item, present, member⟩ := List.mem_flatMap.mp member
  rcases plain.moved present with ⟨u, rfl⟩ | ⟨k, rfl⟩ | rfl
  · cases bare : needsFence u <;> simp [fence, bare] at member
  · simp [fence] at member
  · simp [fence] at member

theorem Plain.bare {items : List Item} (plain : Plain items) (t : Tree) : arrange items ≠ [fenced t] := by
  unfold arrange
  have moved : ∀ item ∈ moveInc (moveSet (items.flatMap padChange)), _ := fun item => plain.moved
  cases shape : moveInc (moveSet (items.flatMap padChange)) with
  | nil => simp
  | cons item rest =>
    rw [shape] at moved
    rcases moved item List.mem_cons_self with ⟨u, rfl⟩ | ⟨k, rfl⟩ | rfl
    · cases bare : needsFence u <;> simp [fence, bare]
    · simp [fence]
    · simp [fence]

end Item

end Rulebook
