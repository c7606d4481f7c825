import Rulebook.Proofs.Sentence.Grammar

/-!
# Blocks

The parts of a sentence that are arranged on their own. `split_of_arranged`: an operator in an arranged
sentence belongs to one of its blocks.
-/

namespace Rulebook

namespace Item

/-- A part of a sentence that is arranged on its own. -/
inductive Block where
  | operand (t : Tree)
  | plain (k : Keyword) (free : k.form = .between ∨ k.form = .chain)
  | behind (k : Keyword) (last : k.form = .behind)
  | step (f : String)
  | write (f : String)

namespace Block

/-- The items of the block as the sentence has them. -/
def source : Block → List Item
  | operand t => [.operand t]
  | plain k _ => [pending k]
  | behind k _ => [pending k]
  | step f => [pending .inc, .operand (.field f)]
  | write f => [pending .set, .operand (.field f)]

/-- The items of the block in the order in which the passes need them. -/
def arranged : Block → List Item
  | operand t => fence (.operand t)
  | plain k _ => [pending k]
  | behind k _ => [pending k, placeholder]
  | step f => [.operand (.field f), pending .inc, placeholder]
  | write f => [.operand (.field f), pending .set]

end Block

theorem arranged_operand {t : Tree} (bare : needsFence t = false) :
    (Block.operand t).arranged = [operand t] := by
  simp [Block.arranged, fence, bare]

theorem arranged_fenced {t : Tree} (bound : needsFence t = true) :
    (Block.operand t).arranged = [placeholder, fenced t, placeholder] := by
  simp [Block.arranged, fence, bound]

theorem arranged_ne_nil (block : Block) : block.arranged ≠ [] := by
  cases block with
  | operand t => cases bare : needsFence t <;> simp [Block.arranged, fence, bare]
  | _ => simp [Block.arranged]

theorem eq_nil_of_arranged {blocks : List Block} (h : blocks.flatMap Block.arranged = []) : blocks = [] := by
  cases blocks with
  | nil => rfl
  | cons block blocks => exact (arranged_ne_nil block (List.append_eq_nil_iff.mp h).1).elim

/-- No row of blocks begins in the middle of a fence. -/
theorem arranged_ne_fenced (blocks : List Block) (t : Tree) (rest : List Item) :
    blocks.flatMap Block.arranged ≠ fenced t :: rest := by
  cases blocks with
  | nil => simp
  | cons block blocks =>
    rw [List.flatMap_cons]
    cases block with
    | operand t => cases bare : needsFence t <;> simp [Block.arranged, fence, bare]
    | _ => simp [Block.arranged]

/-! ### Taking blocks apart -/

/-- The block of an operator in an arranged sentence, with the blocks before and behind it. -/
inductive Split (k : Keyword) (blocks : List Block) (left right : List Item) : Prop
  | plain (front back : List Block) (free : k.form = .between ∨ k.form = .chain)
      (whole : blocks = front ++ .plain k free :: back) (before : left = front.flatMap Block.arranged)
      (after : right = back.flatMap Block.arranged)
  | behind (front back : List Block) (form : k.form = .behind) (whole : blocks = front ++ .behind k form :: back)
      (before : left = front.flatMap Block.arranged) (after : right = placeholder :: back.flatMap Block.arranged)
  | step (front back : List Block) (f : String) (form : k.form = .step) (whole : blocks = front ++ .step f :: back)
      (before : left = front.flatMap Block.arranged ++ [operand (.field f)])
      (after : right = placeholder :: back.flatMap Block.arranged)
  | write (front back : List Block) (f : String) (form : k.form = .write)
      (whole : blocks = front ++ .write f :: back)
      (before : left = front.flatMap Block.arranged ++ [operand (.field f)])
      (after : right = back.flatMap Block.arranged)

theorem Split.cons {k : Keyword} {blocks : List Block} {left right : List Item} (block : Block)
    (split : Split k blocks left right) : Split k (block :: blocks) (block.arranged ++ left) right := by
  cases split with
  | plain front back free whole before after =>
    exact .plain (block :: front) back free (by rw [whole]; rfl) (by rw [before]; rfl) after
  | behind front back form whole before after =>
    exact .behind (block :: front) back form (by rw [whole]; rfl) (by rw [before]; rfl) after
  | step front back f form whole before after =>
    exact .step (block :: front) back f form (by rw [whole]; rfl) (by rw [before]; simp) after
  | write front back f form whole before after =>
    exact .write (block :: front) back f form (by rw [whole]; rfl) (by rw [before]; simp) after

theorem cons_split {item mark : Item} {rest left right : List Item} (h : item :: rest = left ++ mark :: right) :
    (item = mark ∧ left = [] ∧ right = rest) ∨ ∃ tail, left = item :: tail ∧ rest = tail ++ mark :: right := by
  rcases List.cons_eq_append_iff.mp h with ⟨rfl, same⟩ | ⟨tail, rfl, rest⟩
  · obtain ⟨rfl, rfl⟩ := List.cons.inj same
    exact Or.inl ⟨rfl, rfl, rfl⟩
  · exact Or.inr ⟨tail, rfl, rest⟩

theorem past_split {item mark : Item} {rest left right : List Item} (other : item ≠ mark)
    (h : item :: rest = left ++ mark :: right) : ∃ tail, left = item :: tail ∧ rest = tail ++ mark :: right := by
  rcases cons_split h with ⟨same, _, _⟩ | split
  · exact (other same).elim
  · exact split

theorem append_split {mark : Item} {front rest left right : List Item} (bare : mark ∉ front)
    (h : front ++ rest = left ++ mark :: right) : ∃ tail, left = front ++ tail ∧ rest = tail ++ mark :: right := by
  induction front generalizing left with
  | nil => exact ⟨left, rfl, h⟩
  | cons item front ih =>
    rw [List.mem_cons, not_or] at bare
    obtain ⟨middle, rfl, first⟩ := past_split (Ne.symm bare.1) h
    obtain ⟨tail, rfl, later⟩ := ih bare.2 first
    exact ⟨tail, rfl, later⟩

theorem pending_not_mem_fence (k : Keyword) (t : Tree) : pending k ∉ fence (operand t) := by
  rw [fence]
  split <;> simp

/-- An operator in an arranged sentence belongs to a block. -/
theorem split_of_arranged {k : Keyword} {blocks : List Block} {left right : List Item}
    (h : blocks.flatMap Block.arranged = left ++ pending k :: right) : Split k blocks left right := by
  induction blocks generalizing left with
  | nil => cases left <;> cases h
  | cons block blocks ih =>
    rw [List.flatMap_cons] at h
    cases block with
    | operand t =>
      obtain ⟨tail, rfl, rest⟩ := append_split (pending_not_mem_fence k t) h
      exact (ih rest).cons (.operand t)
    | plain j free =>
      rcases cons_split h with ⟨same, rfl, rfl⟩ | ⟨tail, rfl, rest⟩
      · cases same
        exact .plain [] blocks free rfl rfl rfl
      · exact (ih rest).cons (.plain j free)
    | behind j form =>
      rcases cons_split h with ⟨same, rfl, rfl⟩ | ⟨tail, rfl, rest⟩
      · cases same
        exact .behind [] blocks form rfl rfl rfl
      · obtain ⟨tail', rfl, rest'⟩ := past_split (by simp) rest
        exact (ih rest').cons (.behind j form)
    | step f =>
      obtain ⟨tail, rfl, rest⟩ := past_split (by simp) h
      rcases cons_split rest with ⟨same, rfl, rfl⟩ | ⟨tail', rfl, rest'⟩
      · cases same
        exact .step [] blocks f rfl rfl rfl rfl
      · obtain ⟨tail'', rfl, rest''⟩ := past_split (by simp) rest'
        exact (ih rest'').cons (.step f)
    | write f =>
      obtain ⟨tail, rfl, rest⟩ := past_split (by simp) h
      rcases cons_split rest with ⟨same, rfl, rfl⟩ | ⟨tail', rfl, rest'⟩
      · cases same
        exact .write [] blocks f rfl rfl rfl rfl
      · exact (ih rest').cons (.write f)

end Item

end Rulebook
