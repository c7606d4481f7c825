import Rulebook.Proofs.Sentence.Precedence

/-!
# Fences

No operator reaches into the fence of a reused tree, so that a fence is whole when its pass comes to it:
`fence_whole` and `assembleReporting_arrange`. That can be seen from the arranged sentence alone, since between the
passes every item stands for a run of it.
-/

namespace Rulebook

namespace Item

/-! ### What comes behind an operator -/

theorem isChain_flatMap_padChange {items : List Item} (plain : Plain items) :
    (items.flatMap padChange).IsChain fun a b => ∀ k, a = pending k → k.form = .behind → b = placeholder := by
  induction items with
  | nil => exact .nil
  | cons item items ih =>
    have later := ih plain.tail
    rw [List.flatMap_cons]
    rcases plain item List.mem_cons_self with ⟨t, rfl⟩ | ⟨k, rfl⟩
    · exact List.isChain_cons.mpr ⟨by simp, later⟩
    · by_cases behind : k.form = .behind
      · rw [padChange_behind behind, List.cons_append, List.singleton_append]
        refine List.isChain_cons_cons.mpr ⟨fun _ _ _ => rfl, ?_⟩
        exact List.isChain_cons.mpr ⟨by simp, later⟩
      · rw [padChange_other behind, List.singleton_append]
        refine List.isChain_cons.mpr ⟨fun b _ j same form => ?_, later⟩
        cases same
        exact (behind form).elim

theorem isChain_moveSet {items : List Item}
    (chain : items.IsChain fun a b => ∀ k, a = pending k → k.form = .behind → b = placeholder) :
    (moveSet items).IsChain fun a b =>
      ∀ k, a = pending k → k.form = .behind → b = placeholder ∨ b = pending .set := by
  induction items using moveSet.induct with
  | case1 x rest ih =>
    rw [moveSet]
    refine List.isChain_cons_cons.mpr ⟨fun _ _ _ => .inr rfl, List.isChain_cons.mpr ⟨?_, ih chain.tail.tail⟩⟩
    intro b _ k same form
    cases same
    cases form
  | case2 x rest alone ih =>
    rw [moveSet]
    · refine List.isChain_cons.mpr ⟨fun b member k same form => ?_, ih chain.tail⟩
      cases rest with
      | nil => cases member
      | cons y rest =>
        obtain rfl := (List.isChain_cons_cons.mp chain).1 k same form
        rw [moveSet_past (by simp)] at member
        exact .inl (Option.some.inj member).symm
    · exact alone
  | case3 => exact .nil

theorem isChain_moveInc {items : List Item}
    (chain : items.IsChain fun a b =>
      ∀ k, a = pending k → k.form = .behind → b = placeholder ∨ b = pending .set) :
    (moveInc items).IsChain fun a b =>
      ∀ k, a = pending k → k.takesPlaceholder = true → ∀ t, b ≠ operand t := by
  induction items using moveInc.induct with
  | case1 x rest ih =>
    rw [moveInc]
    refine List.isChain_cons_cons.mpr ⟨by simp, List.isChain_cons_cons.mpr ⟨by simp, ?_⟩⟩
    exact List.isChain_cons.mpr ⟨by simp, ih chain.tail.tail⟩
  | case2 x rest alone ih =>
    rw [moveInc]
    · refine List.isChain_cons.mpr ⟨fun b member k same takes t operand => ?_, ih chain.tail⟩
      subst operand
      cases rest with
      | nil => cases member
      | cons y rest =>
        rcases Keyword.takesPlaceholder_iff.mp takes with behind | step
        · rcases (List.isChain_cons_cons.mp chain).1 k same behind with rfl | rfl
          · have stays : moveInc (placeholder :: rest) = placeholder :: moveInc rest := moveInc_past (by simp) rest
            rw [stays] at member
            cases member
          · have stays : moveInc (pending .set :: rest) = pending .set :: moveInc rest :=
              moveInc_past (by simp) rest
            rw [stays] at member
            cases member
        · -- An `inc` with an item behind it has moved.
          obtain rfl := Keyword.form_step.mp step
          exact alone y rest same rfl
    · exact alone
  | case3 => exact .nil

/-! ### Fences in an arranged sentence -/

/-- A fenced tree has a placeholder on each side, and the one on its left belongs to no operator and to no other
fence. -/
def Sheltered (source : List Item) : Prop :=
  ∀ front t back, source = front ++ fenced t :: back →
    (∃ before, front = before ++ [placeholder] ∧ (∀ u, before.getLast? ≠ some (fenced u)) ∧
      ∀ k, k.takesPlaceholder = true → before.getLast? ≠ some (pending k)) ∧
    ∃ after, back = placeholder :: after

theorem fence_split {items front back : List Item} {t : Tree}
    (moved : ∀ item ∈ items, (∃ u, item = operand u) ∨ (∃ k, item = pending k) ∨ item = placeholder)
    (h : items.flatMap fence = front ++ fenced t :: back) :
    ∃ before after, items = before ++ operand t :: after ∧ needsFence t = true ∧
      front = before.flatMap fence ++ [placeholder] ∧ back = placeholder :: after.flatMap fence := by
  induction items generalizing front with
  | nil => cases front <;> cases h
  | cons item items ih =>
    obtain ⟨first, later⟩ := List.forall_mem_cons.mp moved
    rw [List.flatMap_cons] at h
    -- Behind the item, the fence of `t` is where the induction hypothesis finds it.
    have behind {tail : List Item} (whole : front = fence item ++ tail)
        (rest : items.flatMap fence = tail ++ fenced t :: back) :
        ∃ before after, item :: items = before ++ operand t :: after ∧ needsFence t = true ∧
          front = before.flatMap fence ++ [placeholder] ∧ back = placeholder :: after.flatMap fence := by
      obtain ⟨before, after, rfl, bound, rfl, closing⟩ := ih later rest
      exact ⟨item :: before, after, rfl, bound, by rw [whole, List.flatMap_cons, List.append_assoc], closing⟩
    rcases first with ⟨u, rfl⟩ | ⟨k, rfl⟩ | rfl
    · cases bound : needsFence u with
      | false =>
        have bare : fence (operand u) = [operand u] := by simp [fence, bound]
        obtain ⟨tail, whole, rest⟩ := append_split (by simp [bare]) h
        exact behind whole rest
      | true =>
        have closed : fence (operand u) = [placeholder, fenced u, placeholder] := by simp [fence, bound]
        rw [closed, List.cons_append, List.cons_append, List.singleton_append] at h
        obtain ⟨front, rfl, inner⟩ := past_split (by simp) h
        rcases cons_split inner with ⟨same, rfl, rfl⟩ | ⟨front, rfl, outer⟩
        · cases same
          exact ⟨[], items, rfl, bound, rfl, rfl⟩
        · obtain ⟨tail, rfl, rest⟩ := past_split (by simp) outer
          exact behind (by rw [closed]; rfl) rest
    · obtain ⟨tail, whole, rest⟩ := append_split (by simp [fence]) h
      exact behind whole rest
    · obtain ⟨tail, whole, rest⟩ := append_split (by simp [fence]) h
      exact behind whole rest

theorem needsFence_of_mem_arrange {items : List Item} (plain : Plain items) {t : Tree}
    (member : fenced t ∈ arrange items) : needsFence t = true := by
  obtain ⟨front, back, same⟩ := List.append_of_mem member
  obtain ⟨_, _, _, bound, _⟩ := fence_split (fun _ => plain.moved) same
  exact bound

theorem sheltered_arrange {items : List Item} (plain : Plain items) : Sheltered (arrange items) := by
  intro front t back same
  have chain := isChain_moveInc (isChain_moveSet (isChain_flatMap_padChange plain))
  have moved : ∀ item ∈ moveInc (moveSet (items.flatMap padChange)), _ := fun item => plain.moved
  obtain ⟨before, after, whole, _, rfl, rfl⟩ := fence_split moved same
  refine ⟨⟨before.flatMap fence, rfl, ?_⟩, _, rfl⟩
  rcases List.eq_nil_or_concat' before with rfl | ⟨before, item, rfl⟩
  · simp
  · rw [whole] at chain moved
    rw [List.flatMap_append, List.flatMap_singleton]
    have present : item ∈ before ++ [item] ++ operand t :: after := by simp
    rcases moved item present with ⟨u, rfl⟩ | ⟨k, rfl⟩ | rfl
    · cases bound : needsFence u <;> simp [fence, bound]
    · refine ⟨by simp [fence], fun j takes last => ?_⟩
      have next : pending k = pending j := by simpa [fence] using last
      rw [List.append_assoc, List.singleton_append] at chain
      exact (List.isChain_cons_cons.mp chain.right_of_append).1 j next takes t rfl
    · simp [fence]

/-! ### Reports of a broken fence -/

variable {k : Keyword} {ks : List Keyword} {first second source : List Item} {done rest : List Item} {t : Tree}

/-- The pass for `k` with a report of its own for a fenced tree that lacks a placeholder. -/
def sweepReporting (report : Keyword → GrammarError) (k : Keyword) :
    List Item → List Item → Except GrammarError (List Item)
  | done, [] => return done.reverse.map settle
  | done, pending j :: rest =>
    if j = k then
      match done, rest with
      | left :: done, right :: rest => do
        let t ← build k left right
        sweepReporting report k (built t :: done) rest
      | _, _ => throw (.missingOperand k)
    else sweepReporting report k (pending j :: done) rest
  | done, fenced t :: rest =>
    if t.keyword? = some k then
      match done, rest with
      | placeholder :: done, placeholder :: rest => sweepReporting report k (operand t :: done) rest
      | _, _ => throw (report k)
    else sweepReporting report k (fenced t :: done) rest
  | done, item :: rest => sweepReporting report k (item :: done) rest

theorem sweepReporting_past (report : Keyword → GrammarError) (item : Item) (idle : ¬ item.Awaits k)
    (done rest : List Item) :
    sweepReporting report k done (item :: rest) = sweepReporting report k (item :: done) rest := by
  cases item with
  | pending j =>
    rw [sweepReporting.eq_def]
    exact if_neg idle
  | fenced t =>
    rw [sweepReporting.eq_def]
    exact if_neg idle
  | operand t => rw [sweepReporting] <;> simp
  | built t => rw [sweepReporting] <;> simp
  | placeholder => rw [sweepReporting] <;> simp

theorem sweepReporting_misplaced (k : Keyword) (done items : List Item) :
    sweepReporting .misplacedPlaceholder k done items = sweep k done items := by
  induction done, items using sweep.induct k with
  | case1 done => rw [sweepReporting, sweep]
  | case2 left done right rest ih =>
    rw [sweepReporting, if_pos rfl, sweep_join]
    exact bind_congr ih
  | case3 done rest lonely =>
    rw [sweepReporting, if_pos rfl, sweep_lonely lonely]
    · rfl
    · exact lonely
  | case4 done j rest other ih =>
    rw [sweepReporting_past _ (pending j) other, sweep_past (pending j) other, ih]
  | case5 t root done rest ih => rw [sweepReporting, if_pos root, sweep_unfence root, ih]
  | case6 done t rest root broken =>
    rw [sweepReporting, if_pos root, sweep_broken root broken]
    · rfl
    · exact broken
  | case7 done t rest other ih =>
    rw [sweepReporting_past _ (fenced t) other, sweep_past (fenced t) other, ih]
  | case8 done item rest notPending notFenced ih =>
    have idle : ¬ item.Awaits k := not_awaits notPending notFenced
    rw [sweepReporting_past _ item idle, sweep_past item idle, ih]

/-- The rounds with the passes that report in their own way. -/
def assembleReporting (report : Keyword → GrammarError) (limit : Nat) :
    Nat → List Keyword → List Item → Except GrammarError Tree
  | rounds, ks, items =>
    if items.length ≤ 1 then finish items
    else
      match rounds, ks with
      | 0, _ => throw (.unresolved (items.map kind) limit)
      | rounds + 1, [] => assembleReporting report limit rounds [] items
      | rounds + 1, k :: ks => do
        assembleReporting report limit rounds ks (← sweepReporting report k [] items)

theorem assembleReporting_eq {report : Keyword → GrammarError} {Good : List Item → Prop}
    (same : ∀ k items, Good items → sweepReporting report k [] items = sweep k [] items)
    (kept : ∀ k items next, Good items → sweep k [] items = .ok next → Good next) (limit rounds : Nat)
    (ks : List Keyword) {items : List Item} (good : Good items) :
    assembleReporting report limit rounds ks items = assembleIn limit rounds ks items := by
  induction rounds generalizing ks items with
  | zero => rw [assembleReporting.eq_def, assembleIn.eq_def]
  | succ rounds ih =>
    by_cases short : items.length ≤ 1
    · rw [assembleIn_short limit _ _ short, assembleReporting.eq_def]
      exact if_pos short
    · cases ks with
      | nil =>
        rw [assembleReporting.eq_def, assembleIn.eq_def]
        simp only [if_neg short]
        exact ih [] good
      | cons k ks =>
        rw [assembleIn_cons limit rounds k ks short, assembleReporting.eq_def]
        simp only [if_neg short, same k items good]
        cases ran : sweep k [] items with
        | error e => rfl
        | ok next => exact ih ks (kept k items next good ran)

theorem assembleReporting_misplaced (limit rounds : Nat) (ks : List Keyword) (items : List Item) :
    assembleReporting .misplacedPlaceholder limit rounds ks items = assembleIn limit rounds ks items := by
  have same (k : Keyword) (items : List Item) (_ : True) := sweepReporting_misplaced k [] items
  exact assembleReporting_eq same (fun _ _ _ _ _ => trivial) limit rounds ks trivial

/-! ### A pass finds every fence whole

Both placeholders of a fence are still there when the pass comes to it. -/

/-- A run that is one tree ends with an operand, with a fence, or with an operator and its placeholder. -/
theorem Reduced.last {ks : List Keyword} {run : List Item} {t : Tree} (read : Reduced ks run t) :
    (∃ front u, run = front ++ [operand u]) ∨ (∃ front u, run = front ++ [fenced u, placeholder]) ∨
      ∃ front k, k.takesPlaceholder = true ∧ run = front ++ [pending k, placeholder] := by
  induction ks generalizing run t with
  | nil => exact .inl ⟨[], t, read⟩
  | cons k ks ih =>
    obtain ⟨new, made⟩ := read
    cases made with
    | kept read => exact ih read
    | unfenced root => exact .inr (.inl ⟨[placeholder], t, rfl⟩)
    | @joined new left right l r _ _ _ read =>
      rcases ih read with ⟨front, u, rfl⟩ | ⟨front, u, rfl⟩ | ⟨front, j, takes, rfl⟩
      · exact .inl ⟨left ++ pending k :: front, u, by simp⟩
      · exact .inr (.inl ⟨left ++ pending k :: front, u, by simp⟩)
      · exact .inr (.inr ⟨left ++ pending k :: front, j, takes, by simp⟩)
    | padded _ _ _ takes => exact .inr (.inr ⟨_, k, takes, rfl⟩)

theorem exists_placeholder_before (before : Covers (Midway k (Reduced ks)) first done.reverse)
    {earlier : List Item} (opening : first = earlier ++ [placeholder])
    (alone : ∀ u, earlier.getLast? ≠ some (fenced u))
    (free : ∀ j, j.takesPlaceholder = true → earlier.getLast? ≠ some (pending j)) :
    ∃ done', done = placeholder :: done' := by
  cases done with
  | nil =>
    have empty : first = [] := before
    rw [opening] at empty
    simp at empty
  | cons item done =>
    obtain ⟨front, run, rfl, _, stands⟩ := covers_reverse_cons before
    -- A run that ends with the placeholder ends with a fence or an operator before it.
    have made {u : Tree} (read : Reduced (k :: ks) run u) : False := by
      rcases read.last with ⟨part, u, rfl⟩ | ⟨part, u, rfl⟩ | ⟨part, j, takes, rfl⟩
      · rw [← List.append_assoc] at opening
        cases (List.append_inj' opening rfl).2
      · rw [List.append_cons, ← List.append_assoc] at opening
        refine alone u ?_
        rw [← (List.append_inj' opening rfl).1]
        simp
      · rw [List.append_cons, ← List.append_assoc] at opening
        refine free j takes ?_
        rw [← (List.append_inj' opening rfl).1]
        simp
    cases item with
    | operand u => exact (made ⟨false, stands⟩).elim
    | built u => exact (made ⟨true, stands⟩).elim
    | placeholder => exact ⟨done, rfl⟩
    | pending j =>
      obtain rfl : run = [pending j] := stands
      cases (List.append_inj' opening rfl).2
    | fenced u =>
      obtain rfl : run = [fenced u] := stands
      cases (List.append_inj' opening rfl).2

theorem exists_placeholder_behind (after : Covers (Settled (Reduced ks)) second rest) {later : List Item}
    (closing : second = placeholder :: later) (alone : ∀ u tail, later ≠ fenced u :: tail) :
    ∃ rest', rest = placeholder :: rest' := by
  cases rest with
  | nil =>
    have empty : second = [] := after
    cases empty.symm.trans closing
  | cons item rest =>
    obtain ⟨run, tail, rfl, stands, _⟩ := after
    cases item with
    | operand u =>
      rcases Reduced.head stands with ⟨u, part, rfl⟩ | ⟨u, part, rfl⟩
      · cases closing
      · exact (alone u _ (List.cons.inj closing).2.symm).elim
    | built u => exact stands.elim
    | placeholder => exact ⟨rest, rfl⟩
    | pending j =>
      obtain rfl : run = [pending j] := stands
      cases closing
    | fenced u =>
      obtain rfl : run = [fenced u] := stands
      cases closing

theorem fence_whole (sheltered : Sheltered source) {tail : List Item} (whole : source = first ++ fenced t :: tail)
    (before : Covers (Midway k (Reduced ks)) first done.reverse) (after : Covers (Settled (Reduced ks)) tail rest) :
    (∃ done', done = placeholder :: done') ∧ ∃ rest', rest = placeholder :: rest' := by
  obtain ⟨⟨earlier, opening, alone, free⟩, later, closing⟩ := sheltered first t tail whole
  refine ⟨exists_placeholder_before before opening alone free, exists_placeholder_behind after closing ?_⟩
  -- The placeholder behind `t` is not the one before another fence, which `t` would then be next to.
  rintro u after rfl
  have shifted : source = (first ++ [fenced t, placeholder]) ++ fenced u :: after := by
    rw [whole, closing]
    simp
  obtain ⟨⟨earlier', opening', alone', _⟩, _⟩ := sheltered _ u after shifted
  refine alone' t ?_
  rw [List.append_cons] at opening'
  rw [← (List.append_inj' opening' rfl).1]
  simp

/-- A pass over a sheltered sentence never makes its report. -/
theorem sweepReporting_eq (report : Keyword → GrammarError) (sheltered : Sheltered source)
    (whole : source = first ++ second) (before : Covers (Midway k (Reduced ks)) first done.reverse)
    (after : Covers (Settled (Reduced ks)) second rest) :
    sweepReporting report k done rest = sweep k done rest := by
  induction done, rest using sweep.induct k generalizing first second with
  | case1 done =>
    rw [sweepReporting, sweep]
  | case2 left done right rest ih =>
    rw [sweepReporting, if_pos rfl, sweep_join]
    cases join : build k left right with
    | error e => rfl
    | ok t =>
      obtain ⟨front, run, rfl, earlier, leftStands⟩ := covers_reverse_cons before
      obtain ⟨_, _, rfl, rfl, run', rest', rfl, rightStands, after⟩ := after
      have stands : Midway k (Reduced ks) (built t) _ := made_of_build leftStands rightStands join
      refine ih t ?_ (earlier.snoc stands) after
      rw [whole]
      simp only [List.append_assoc, List.cons_append, List.nil_append]
  | case3 done rest lonely =>
    rw [sweepReporting, if_pos rfl, sweep_lonely lonely]
    · rfl
    · exact lonely
  | case4 done j rest other ih =>
    rw [sweepReporting_past report (pending j) other, sweep_past (pending j) other]
    obtain ⟨run, rest', rfl, stands, after⟩ := after
    exact ih (by rw [whole, List.append_assoc]) (before.snoc stands.midway) after
  | case5 t root done rest ih =>
    rw [sweepReporting, if_pos root, sweep_unfence root]
    obtain ⟨front, _, rfl, earlier, rfl⟩ := covers_reverse_cons before
    obtain ⟨_, _, rfl, rfl, _, rest', rfl, rfl, after⟩ := after
    have made : Midway k (Reduced ks) (operand t) [placeholder, fenced t, placeholder] := .unfenced root
    refine ih ?_ (earlier.snoc made) after
    rw [whole]
    simp only [List.append_assoc, List.cons_append, List.nil_append]
  | case6 done t rest root broken =>
    obtain ⟨_, tail, rfl, rfl, after⟩ := after
    obtain ⟨⟨done', rfl⟩, rest', rfl⟩ := fence_whole sheltered whole before after
    exact (broken done' rest' rfl rfl).elim
  | case7 done t rest other ih =>
    rw [sweepReporting_past report (fenced t) other, sweep_past (fenced t) other]
    obtain ⟨run, rest', rfl, stands, after⟩ := after
    exact ih (by rw [whole, List.append_assoc]) (before.snoc stands.midway) after
  | case8 done item rest notPending notFenced ih =>
    have idle : ¬ item.Awaits k := not_awaits notPending notFenced
    rw [sweepReporting_past report item idle, sweep_past item idle]
    obtain ⟨run, rest', rfl, stands, after⟩ := after
    exact ih (by rw [whole, List.append_assoc]) (before.snoc stands.midway) after

theorem assembleReporting_arrange (report : Keyword → GrammarError) (limit rounds : Nat) (ks : List Keyword)
    {items : List Item} (plain : Plain items) :
    assembleReporting report limit rounds ks (arrange items) = assembleIn limit rounds ks (arrange items) := by
  let Good (next : List Item) : Prop := ∃ past, Covers (Settled (Reduced past)) (arrange items) next
  have same (k : Keyword) (next : List Item) :
      Good next → sweepReporting report k [] next = sweep k [] next := by
    rintro ⟨past, covers⟩
    have start : Covers (Midway k (Reduced past)) [] [].reverse := rfl
    exact sweepReporting_eq report (sheltered_arrange plain) (List.nil_append _).symm start covers
  have kept (k : Keyword) (now next : List Item) : Good now → sweep k [] now = .ok next → Good next := by
    rintro ⟨past, covers⟩ ran
    exact ⟨k :: past, pass_covers ran covers⟩
  have single : Covers (Settled (Reduced [])) (arrange items) (arrange items) := covers_single plain.settled
  exact assembleReporting_eq same kept limit rounds ks ⟨[], single⟩

end Item

end Rulebook
