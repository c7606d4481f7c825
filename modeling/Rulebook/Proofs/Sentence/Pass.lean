import Rulebook.Proofs.Outcome
import Rulebook.Sentence.Assembly

/-!
# One pass

What the pass for one operator does to a sentence. Every item between two passes stands for a run of
the items at the start. `sweep_covers` and `exists_sweep` say, in both directions, that a pass makes one
tree of exactly the runs that `Made` describes.
-/

namespace Rulebook

namespace Item

/-! ### Runs behind items -/

/-- The source is cut into runs, one for each item, and every item stands for its run. -/
def Covers (Stands : Item → List Item → Prop) : List Item → List Item → Prop
  | source, [] => source = []
  | source, item :: items => ∃ run rest, source = run ++ rest ∧ Stands item run ∧ Covers Stands rest items

theorem covers_append {Stands : Item → List Item → Prop} {source front back : List Item} :
    Covers Stands source (front ++ back) ↔
      ∃ first second, source = first ++ second ∧ Covers Stands first front ∧ Covers Stands second back := by
  induction front generalizing source with
  | nil =>
    constructor
    · exact fun covers => ⟨[], source, rfl, rfl, covers⟩
    · rintro ⟨_, _, rfl, rfl, covers⟩
      exact covers
  | cons item front ih =>
    constructor
    · rintro ⟨run, rest, rfl, stands, covers⟩
      obtain ⟨first, second, rfl, left, right⟩ := ih.mp covers
      exact ⟨run ++ first, second, by simp, ⟨run, first, rfl, stands, left⟩, right⟩
    · rintro ⟨_, second, rfl, ⟨run, first, rfl, stands, left⟩, right⟩
      exact ⟨run, first ++ second, by simp, stands, ih.mpr ⟨first, second, rfl, left, right⟩⟩

theorem covers_singleton {Stands : Item → List Item → Prop} {source : List Item} {item : Item} :
    Covers Stands source [item] ↔ Stands item source := by
  simp [Covers]

theorem Covers.snoc {Stands : Item → List Item → Prop} {source run items : List Item} {item : Item}
    (covers : Covers Stands source items.reverse) (stands : Stands item run) :
    Covers Stands (source ++ run) (item :: items).reverse := by
  rw [List.reverse_cons]
  exact covers_append.mpr ⟨source, run, rfl, covers, covers_singleton.mpr stands⟩

theorem covers_reverse_cons {Stands : Item → List Item → Prop} {source items : List Item} {item : Item}
    (covers : Covers Stands source (item :: items).reverse) :
    ∃ front run, source = front ++ run ∧ Covers Stands front items.reverse ∧ Stands item run := by
  rw [List.reverse_cons] at covers
  obtain ⟨front, run, rfl, left, right⟩ := covers_append.mp covers
  exact ⟨front, run, rfl, left, covers_singleton.mp right⟩

theorem Covers.map {Stands Stands' : Item → List Item → Prop} {f : Item → Item}
    (step : ∀ item run, Stands item run → Stands' (f item) run) {source items : List Item}
    (covers : Covers Stands source items) : Covers Stands' source (items.map f) := by
  induction items generalizing source with
  | nil => exact covers
  | cons item items ih =>
    obtain ⟨run, rest, rfl, stands, covers⟩ := covers
    exact ⟨run, rest, rfl, step item run stands, ih covers⟩

/-! ### What a pass makes -/

/-- Between two passes an operand stands for a run that `P` reads as its tree, and any other item for
itself. -/
def Settled (P : List Item → Tree → Prop) : Item → List Item → Prop
  | operand t, run => P run t
  | built _, _ => False
  | item, run => run = [item]

/-- The runs that are one tree after the pass for `k`, if `P` tells which were one before. The flag says
whether the pass has built the tree; then it is a left operand only of an associative operator. -/
inductive Made (k : Keyword) (P : List Item → Tree → Prop) : Bool → List Item → Tree → Prop
  | kept {run : List Item} {t : Tree} : P run t → Made k P false run t
  | unfenced {t : Tree} : t.keyword? = some k → Made k P false [placeholder, fenced t, placeholder] t
  | joined {new : Bool} {left right : List Item} {l r : Tree} : Made k P new left l →
      (new = true → k.associative = true) → (k.assigns = true → l.kind = .field) → P right r →
      Made k P true (left ++ pending k :: right) (.join k l r)
  | padded {new : Bool} {left : List Item} {l : Tree} : Made k P new left l →
      (new = true → k.associative = true) → (k.assigns = true → l.kind = .field) →
      k.takesPlaceholder = true → Made k P true (left ++ [pending k, placeholder]) (.join k l .placeholder)

/-- What items stand for in the middle of the pass for `k`. -/
def Midway (k : Keyword) (P : List Item → Tree → Prop) : Item → List Item → Prop
  | operand t, run => Made k P false run t
  | built t, run => Made k P true run t
  | item, run => run = [item]

/-- The runs that are one tree after the pass for `k`. -/
def Level (k : Keyword) (P : List Item → Tree → Prop) (run : List Item) (t : Tree) : Prop :=
  ∃ new, Made k P new run t

variable {k : Keyword} {P : List Item → Tree → Prop}

theorem Settled.midway {item : Item} {run : List Item} (stands : Settled P item run) :
    Midway k P item run := by
  cases item with
  | operand t => exact .kept stands
  | built t => exact stands.elim
  | pending j => exact stands
  | fenced t => exact stands
  | placeholder => exact stands

theorem Midway.settle {item : Item} {run : List Item} (stands : Midway k P item run) :
    Settled (Level k P) item.settle run := by
  cases item with
  | operand t => exact ⟨false, stands⟩
  | built t => exact ⟨true, stands⟩
  | pending j => exact stands
  | fenced t => exact stands
  | placeholder => exact stands

/-! ### The steps of a pass -/

/-- Whether the pass for `k` acts on the item. -/
def Awaits (k : Keyword) : Item → Prop
  | pending j => j = k
  | fenced t => t.keyword? = some k
  | _ => False

theorem sweep_nil (k : Keyword) (done : List Item) : sweep k done [] = .ok (done.reverse.map settle) := by
  rw [sweep]
  rfl

theorem sweep_past {k : Keyword} (item : Item) (idle : ¬ item.Awaits k) (done rest : List Item) :
    sweep k done (item :: rest) = sweep k (item :: done) rest := by
  cases item with
  | pending j =>
    rw [sweep.eq_def]
    exact if_neg idle
  | fenced t =>
    rw [sweep.eq_def]
    exact if_neg idle
  | operand t => rw [sweep] <;> simp
  | built t => rw [sweep] <;> simp
  | placeholder => rw [sweep] <;> simp

theorem sweep_join (k : Keyword) (left right : Item) (done rest : List Item) :
    sweep k (left :: done) (pending k :: right :: rest) =
      (build k left right >>= fun t => sweep k (built t :: done) rest) := by
  rw [sweep, if_pos rfl]

theorem sweep_unfence {k : Keyword} {t : Tree} (root : t.keyword? = some k) (done rest : List Item) :
    sweep k (placeholder :: done) (fenced t :: placeholder :: rest) = sweep k (operand t :: done) rest := by
  rw [sweep, if_pos root]

theorem sweep_lonely {k : Keyword} {done rest : List Item}
    (lonely : ∀ left done' right rest', done = left :: done' → rest = right :: rest' → False) :
    sweep k done (pending k :: rest) = .error (.missingOperand k) := by
  rw [sweep, if_pos rfl]
  · rfl
  · exact lonely

theorem sweep_broken {k : Keyword} {t : Tree} {done rest : List Item} (root : t.keyword? = some k)
    (broken : ∀ done' rest', done = placeholder :: done' → rest = placeholder :: rest' → False) :
    sweep k done (fenced t :: rest) = .error (.misplacedPlaceholder k) := by
  rw [sweep, if_pos root]
  · rfl
  · exact broken

theorem not_awaits {k : Keyword} {item : Item} (notPending : ∀ j, item ≠ pending j)
    (notFenced : ∀ t, item ≠ fenced t) : ¬ item.Awaits k := by
  cases item with
  | pending j => exact (notPending j rfl).elim
  | fenced t => exact (notFenced t rfl).elim
  | _ => exact id

/-! ### A pass reads what it makes -/

theorem asLeft_ok {item : Item} {t : Tree} (h : item.asLeft k = .ok t) :
    item = operand t ∨ (item = built t ∧ k.associative = true) := by
  cases item with
  | operand u => cases h; exact Or.inl rfl
  | built u =>
    rw [asLeft] at h
    split at h
    · next chained => cases h; exact Or.inr ⟨rfl, chained⟩
    · cases h
  | pending j => cases h
  | fenced u => cases h
  | placeholder => cases h

/-- The left operand of an operator stands for a run that the pass has read. -/
theorem Midway.asLeft {item : Item} {run : List Item} {t : Tree} (stands : Midway k P item run)
    (h : item.asLeft k = .ok t) :
    ∃ new, Made k P new run t ∧ (new = true → k.associative = true) := by
  rcases asLeft_ok h with rfl | ⟨rfl, chained⟩
  · exact ⟨false, stands, by simp⟩
  · exact ⟨true, stands, fun _ => chained⟩

/-- The right operand has not been touched by the pass. -/
theorem Settled.asRight {item : Item} {run : List Item} {t : Tree} (stands : Settled P item run)
    (h : item.asRight k = .ok t) :
    P run t ∨ (run = [placeholder] ∧ k.takesPlaceholder = true ∧ t = .placeholder) := by
  cases item with
  | operand u => cases h; exact Or.inl stands
  | built u => exact stands.elim
  | pending j => cases h
  | fenced u => cases h
  | placeholder =>
    rw [Item.asRight] at h
    split at h
    · next takes => cases h; exact Or.inr ⟨stands, takes, rfl⟩
    · cases h

theorem build_ok {left right : Item} {t : Tree} (h : build k left right = .ok t) :
    ∃ l r, left.asLeft k = .ok l ∧ right.asRight k = .ok r ∧ (k.assigns = true → l.kind = .field) ∧
      t = .join k l r := by
  unfold build at h
  obtain ⟨l, hl, h⟩ := bind_ok h
  obtain ⟨r, hr, h⟩ := bind_ok h
  split at h
  · cases h
  · next field =>
    cases h
    refine ⟨l, r, hl, hr, fun assigns => ?_, rfl⟩
    simpa [assigns] using field

/-- What an operator builds of its neighbours is made by the pass. -/
theorem made_of_build {left right : Item} {before after : List Item} {t : Tree}
    (leftStands : Midway k P left before) (rightStands : Settled P right after)
    (h : build k left right = .ok t) : Made k P true (before ++ pending k :: after) t := by
  obtain ⟨l, r, hl, hr, field, rfl⟩ := build_ok h
  obtain ⟨new, made, chained⟩ := leftStands.asLeft hl
  rcases rightStands.asRight hr with read | ⟨rfl, takes, rfl⟩
  · exact .joined made chained field read
  · exact .padded made chained field takes

/-- After a pass every item stands for a run that the pass makes one tree, or for itself. -/
theorem sweep_covers {done items swept first second : List Item} (h : sweep k done items = .ok swept)
    (before : Covers (Midway k P) first done.reverse) (after : Covers (Settled P) second items) :
    Covers (Settled (Level k P)) (first ++ second) swept := by
  -- The pass stands between `first` and `second`, and each of its steps moves a run from one to the other.
  induction done, items using sweep.induct k generalizing first second with
  | case1 done =>
    rw [sweep_nil] at h
    cases h
    obtain rfl : second = [] := after
    rw [List.append_nil]
    exact before.map fun _ _ stands => stands.settle
  | case2 left done right rest ih =>
    rw [sweep_join] at h
    obtain ⟨t, join, h⟩ := bind_ok h
    obtain ⟨front, run, rfl, earlier, leftStands⟩ := covers_reverse_cons before
    obtain ⟨_, _, rfl, rfl, run', rest', rfl, rightStands, after⟩ := after
    have stands : Midway k P (built t) _ := made_of_build leftStands rightStands join
    have covers := ih t h (earlier.snoc stands) after
    simpa only [List.append_assoc, List.cons_append, List.nil_append] using covers
  | case3 done rest lonely =>
    rw [sweep_lonely lonely] at h
    cases h
  | case4 done j rest other ih =>
    rw [sweep_past (pending j) other] at h
    obtain ⟨run, rest', rfl, stands, after⟩ := after
    simpa only [List.append_assoc] using ih h (before.snoc stands.midway) after
  | case5 t root done rest ih =>
    rw [sweep_unfence root] at h
    obtain ⟨front, _, rfl, earlier, rfl⟩ := covers_reverse_cons before
    obtain ⟨_, _, rfl, rfl, _, rest', rfl, rfl, after⟩ := after
    have made : Midway k P (operand t) [placeholder, fenced t, placeholder] := .unfenced root
    have covers := ih h (earlier.snoc made) after
    simpa only [List.append_assoc, List.cons_append, List.nil_append] using covers
  | case6 done t rest root broken =>
    rw [sweep_broken root broken] at h
    cases h
  | case7 done t rest other ih =>
    rw [sweep_past (fenced t) other] at h
    obtain ⟨run, rest', rfl, stands, after⟩ := after
    simpa only [List.append_assoc] using ih h (before.snoc stands.midway) after
  | case8 done item rest notPending notFenced ih =>
    rw [sweep_past item (not_awaits notPending notFenced)] at h
    obtain ⟨run, rest', rfl, stands, after⟩ := after
    simpa only [List.append_assoc] using ih h (before.snoc stands.midway) after

theorem pass_covers {items swept source : List Item} (h : sweep k [] items = .ok swept)
    (covers : Covers (Settled P) source items) : Covers (Settled (Level k P)) source swept := by
  have start : Covers (Midway k P) [] [].reverse := rfl
  exact sweep_covers h start covers

/-! ### A pass makes what it can read -/

/-- A tree in the middle of a pass: marked as built, or not. -/
def midTree (new : Bool) (t : Tree) : Item := if new then built t else operand t

theorem settle_midTree (new : Bool) (t : Tree) : (midTree new t).settle = operand t := by
  cases new <;> rfl

theorem build_midTree {new : Bool} {l r : Tree} {right : Item}
    (chained : new = true → k.associative = true) (field : k.assigns = true → l.kind = .field)
    (offered : right.asRight k = .ok r) : build k (midTree new l) right = .ok (.join k l r) := by
  have left : (midTree new l).asLeft k = .ok l := by
    cases new with
    | false => rfl
    | true => exact if_pos (chained rfl)
  have allowed : (k.assigns && l.kind != .field) = false := by
    cases assigns : k.assigns with
    | false => rfl
    | true => simp [field assigns]
  simp only [build, left, offered, allowed, bind, Except.bind]
  rfl

theorem awaits_snoc {items : List Item} {other : Item}
    (waiting : ∀ item ∈ items, ∀ j, item.Awaits j → j = k) (idle : ∀ j, ¬ other.Awaits j) :
    ∀ item ∈ items ++ [pending k, other], ∀ j, item.Awaits j → j = k := by
  intro item member j waits
  rcases List.mem_append.mp member with member | member
  · exact waiting item member j waits
  · simp only [List.mem_cons, List.not_mem_nil, or_false] at member
    rcases member with rfl | rfl
    · exact waits.symm
    · exact (idle j waits).elim

/-- The pass finds a run that it can make one tree as items of which it makes that tree. -/
theorem Made.exists_items {new : Bool} {run : List Item} {t : Tree} (made : Made k P new run t) :
    ∃ items, Covers (Settled P) run items ∧ (∀ item ∈ items, ∀ j, item.Awaits j → j = k) ∧
      ∀ done rest, sweep k done (items ++ rest) = sweep k (midTree new t :: done) rest := by
  induction made with
  | @kept run t read =>
    refine ⟨[operand t], covers_singleton.mpr read, ?_, fun done rest => sweep_past _ id done rest⟩
    intro item member j waits
    obtain rfl := List.mem_singleton.mp member
    exact waits.elim
  | @unfenced t root =>
    refine ⟨[placeholder, fenced t, placeholder], ⟨[_], [_, _], rfl, rfl, [_], [_], rfl, rfl, [_], [], rfl, rfl, rfl⟩,
      ?_, ?_⟩
    · intro item member j waits
      simp only [List.mem_cons, List.not_mem_nil, or_false] at member
      rcases member with rfl | rfl | rfl
      · exact waits.elim
      · exact Option.some.inj (waits.symm.trans root)
      · exact waits.elim
    · intro done rest
      exact (sweep_past _ id done _).trans (sweep_unfence root done rest)
  | @joined new left right l r made chained field read ih =>
    obtain ⟨items, covers, waiting, swept⟩ := ih
    refine ⟨items ++ [pending k, operand r],
      covers_append.mpr ⟨left, _, rfl, covers, [_], right, rfl, rfl, covers_singleton.mpr read⟩,
      awaits_snoc waiting fun _ => id, ?_⟩
    intro done rest
    rw [List.append_assoc, swept, List.cons_append, List.cons_append, List.nil_append, sweep_join,
      build_midTree chained field rfl]
    rfl
  | @padded new left l made chained field takes ih =>
    obtain ⟨items, covers, waiting, swept⟩ := ih
    have offered : placeholder.asRight k = .ok .placeholder := if_pos takes
    refine ⟨items ++ [pending k, placeholder],
      covers_append.mpr ⟨left, _, rfl, covers, [_], [_], rfl, rfl, covers_singleton.mpr rfl⟩,
      awaits_snoc waiting fun _ => id, ?_⟩
    intro done rest
    rw [List.append_assoc, swept, List.cons_append, List.cons_append, List.nil_append, sweep_join,
      build_midTree chained field offered]
    rfl

/-- Every item that can stand after the pass for `k`, and is not one that it acts on, is what the pass
leaves of some items. -/
theorem Settled.exists_items {item : Item} {run : List Item} (stands : Settled (Level k P) item run)
    (idle : ¬ item.Awaits k) :
    ∃ items mid, Covers (Settled P) run items ∧ (∀ i ∈ items, ∀ j, i.Awaits j → j = k ∨ item.Awaits j) ∧
      settle mid = item ∧ ∀ done rest, sweep k done (items ++ rest) = sweep k (mid :: done) rest := by
  have alone (self : Settled P item run) (same : settle item = item) :
      ∃ items mid, Covers (Settled P) run items ∧ (∀ i ∈ items, ∀ j, i.Awaits j → j = k ∨ item.Awaits j) ∧
        settle mid = item ∧ ∀ done rest, sweep k done (items ++ rest) = sweep k (mid :: done) rest := by
    refine ⟨[item], item, covers_singleton.mpr self, ?_, same, sweep_past item idle⟩
    intro i member j waits
    obtain rfl := List.mem_singleton.mp member
    exact Or.inr waits
  cases item with
  | operand t =>
    obtain ⟨new, made⟩ := stands
    obtain ⟨items, covers, waiting, swept⟩ := made.exists_items
    exact ⟨items, midTree new t, covers, fun i member j waits => Or.inl (waiting i member j waits),
      settle_midTree new t, swept⟩
  | built t => exact stands.elim
  | pending j => exact alone stands rfl
  | fenced t => exact alone stands rfl
  | placeholder => exact alone stands rfl

theorem exists_sweep_append {source swept : List Item} (covers : Covers (Settled (Level k P)) source swept)
    (idle : ∀ item ∈ swept, ¬ item.Awaits k) :
    ∃ items mids : List Item, Covers (Settled P) source items ∧
      (∀ i ∈ items, ∀ j, i.Awaits j → j = k ∨ ∃ item ∈ swept, item.Awaits j) ∧ mids.map settle = swept ∧
      ∀ done rest, sweep k done (items ++ rest) = sweep k (mids.reverse ++ done) rest := by
  induction swept generalizing source with
  | nil => exact ⟨[], [], covers, by simp, rfl, fun _ _ => rfl⟩
  | cons item swept ih =>
    obtain ⟨run, rest, rfl, stands, covers⟩ := covers
    obtain ⟨here, mid, first, waiting, settled, step⟩ := stands.exists_items (idle item List.mem_cons_self)
    obtain ⟨items, mids, second, waiting', settled', steps⟩ :=
      ih covers fun i member => idle i (List.mem_cons_of_mem _ member)
    refine ⟨here ++ items, mid :: mids, covers_append.mpr ⟨run, rest, rfl, first, second⟩, ?_, ?_, ?_⟩
    · intro i member j waits
      rcases List.mem_append.mp member with member | member
      · exact (waiting i member j waits).imp id fun waits => ⟨item, List.mem_cons_self, waits⟩
      · exact (waiting' i member j waits).imp id fun ⟨other, present, waits⟩ =>
          ⟨other, List.mem_cons_of_mem _ present, waits⟩
    · rw [List.map_cons, settled, settled']
    · intro done rest'
      rw [List.append_assoc, step, steps, List.reverse_cons, List.append_assoc, List.singleton_append]

/-- Whatever the pass for `k` can make of the source, it makes of some reading of the source, and that
reading has no operator or fence that is not still there or the pass's own. -/
theorem exists_sweep {source swept : List Item} (covers : Covers (Settled (Level k P)) source swept)
    (idle : ∀ item ∈ swept, ¬ item.Awaits k) :
    ∃ items, Covers (Settled P) source items ∧ sweep k [] items = .ok swept ∧
      ∀ i ∈ items, ∀ j, i.Awaits j → j = k ∨ ∃ item ∈ swept, item.Awaits j := by
  obtain ⟨items, mids, covers, waiting, settled, steps⟩ := exists_sweep_append covers idle
  refine ⟨items, covers, ?_, waiting⟩
  have run := steps [] []
  rw [List.append_nil, List.append_nil, sweep_nil, List.reverse_reverse, settled] at run
  exact run

end Item

end Rulebook
