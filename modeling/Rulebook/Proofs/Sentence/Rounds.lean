import Mathlib.Data.Set.List
import Rulebook.Proofs.Sentence.Fences
import Rulebook.Proofs.Sentence.Parse

/-!
# Rounds

The bound on the rounds decides no sentence: `rounds_decide_nothing`. A refused pass names its operator, so that
only the end of the passes can report leftovers, and these are finished trees: `exists_operands`.
-/

namespace Rulebook

namespace GrammarError

/-- The operator that the error is about. -/
def operator? : GrammarError → Option Keyword
  | missingOperand k | ambiguous k | misplacedPlaceholder k | notAssignable k _ => some k
  | empty | unknownOperator _ | unresolved _ _ => none

/-- The error with another number of passes in it. -/
def within (limit : Nat) : GrammarError → GrammarError
  | unresolved left _ => unresolved left limit
  | e => e

theorem within_of_operator? {e : GrammarError} {k : Keyword} (limit : Nat) (names : e.operator? = some k) :
    e.within limit = e := by
  cases e with
  | unresolved left passes => cases names
  | _ => rfl

end GrammarError

namespace Item

/-! ### Refusals -/

variable {k : Keyword} {ks : List Keyword} {items swept source : List Item} {e : GrammarError}

theorem asLeft_error {item : Item} (h : item.asLeft k = .error e) : e.operator? = some k := by
  cases item with
  | operand t => cases h
  | built t =>
    rw [asLeft] at h
    split at h <;> cases h
    rfl
  | _ =>
    cases h
    rfl

theorem asRight_error {item : Item} (h : item.asRight k = .error e) : e.operator? = some k := by
  cases item with
  | placeholder =>
    rw [asRight] at h
    split at h <;> cases h
    rfl
  | operand t | built t | pending j | fenced t =>
    rw [asRight] at h
    · exact asLeft_error h
    · simp

theorem build_error {left right : Item} (h : build k left right = .error e) : e.operator? = some k := by
  rcases bind_error h with refused | ⟨l, _, h⟩
  · exact asLeft_error refused
  · rcases bind_error h with refused | ⟨r, _, h⟩
    · exact asRight_error refused
    · split at h <;> cases h
      rfl

theorem sweep_error {done items : List Item} (h : sweep k done items = .error e) : e.operator? = some k := by
  induction done, items using sweep.induct k with
  | case1 done =>
    rw [sweep_nil] at h
    cases h
  | case2 left done right rest ih =>
    rw [sweep_join] at h
    rcases bind_error h with refused | ⟨t, _, h⟩
    · exact build_error refused
    · exact ih t h
  | case3 done rest lonely =>
    rw [sweep_lonely lonely] at h
    cases h
    rfl
  | case4 done j rest other ih =>
    rw [sweep_past (pending j) other] at h
    exact ih h
  | case5 t root done rest ih =>
    rw [sweep_unfence root] at h
    exact ih h
  | case6 done t rest root broken =>
    rw [sweep_broken root broken] at h
    cases h
    rfl
  | case7 done t rest other ih =>
    rw [sweep_past (fenced t) other] at h
    exact ih h
  | case8 done item rest notPending notFenced ih =>
    rw [sweep_past item (not_awaits notPending notFenced)] at h
    exact ih h

theorem passes_error (h : passes ks items = .error e) : ∃ k, e.operator? = some k := by
  induction ks generalizing items with
  | nil => cases h
  | cons k ks ih =>
    rcases bind_error h with refused | ⟨next, _, h⟩
    · exact ⟨k, sweep_error refused⟩
    · exact ih h

/-! ### The end of the rounds -/

theorem finish_within (limit : Nat) (items : List Item) :
    (finish items).mapError (.within limit) = finish items := by
  match items with
  | [] | operand _ :: _ | built _ :: _ | fenced _ :: _ | pending _ :: _ | placeholder :: _ => rfl

theorem outcome_within (limit limit' : Nat) (items : List Item) :
    outcome limit items = (outcome limit' items).mapError (.within limit) := by
  unfold outcome
  split
  · exact (finish_within limit items).symm
  · rfl

theorem outcome_unresolved {limit n : Nat} {left : List Kind} (h : outcome limit items = .error (.unresolved left n)) :
    n = limit ∧ 2 ≤ items.length ∧ left = items.map kind := by
  match items with
  | [] | [operand _] | [built _] | [fenced _] | [pending _] | [placeholder] => cases h
  | _ :: _ :: _ =>
    cases h
    exact ⟨rfl, by simp, rfl⟩

theorem outcome_empty {limit : Nat} (h : outcome limit items = .error .empty) :
    items = [] ∨ items = [placeholder] := by
  match items with
  | [] => exact .inl rfl
  | [placeholder] => exact .inr rfl
  | [operand _] | [built _] | [fenced _] | [pending _] => cases h
  | _ :: _ :: _ => cases h

variable {limit rounds : Nat}

/-- With a round for every operator, more rounds change nothing but the number in the report. -/
theorem assembleIn_within {limit' rounds' : Nat} (enough : ks.length ≤ rounds) (enough' : ks.length ≤ rounds')
    (settled : ∀ t, built t ∉ items) (bare : ∀ t, items ≠ [fenced t]) :
    assembleIn limit rounds ks items = (assembleIn limit' rounds' ks items).mapError (.within limit) := by
  rw [assembleIn_eq_passes enough settled bare, assembleIn_eq_passes enough' settled bare]
  cases run : passes ks items with
  | error e =>
    obtain ⟨k, names⟩ := passes_error run
    show Except.error e = .error (e.within limit)
    rw [GrammarError.within_of_operator? limit names]
  | ok swept => exact outcome_within limit limit' swept

theorem assembleIn_unresolved_iff (enough : ks.length ≤ rounds) (settled : ∀ t, built t ∉ items)
    (bare : ∀ t, items ≠ [fenced t]) {left : List Kind} {n : Nat} :
    assembleIn limit rounds ks items = .error (.unresolved left n) ↔
      n = limit ∧ ∃ swept, passes ks items = .ok swept ∧ 2 ≤ swept.length ∧ left = swept.map kind := by
  rw [assembleIn_eq_passes enough settled bare]
  constructor
  · intro h
    rcases bind_error h with refused | ⟨swept, run, ended⟩
    · obtain ⟨k, names⟩ := passes_error refused
      cases names
    · obtain ⟨bound, long, rfl⟩ := outcome_unresolved ended
      exact ⟨bound, swept, run, long, rfl⟩
  · rintro ⟨rfl, swept, run, long, rfl⟩
    rw [run]
    exact if_neg (by omega)

/-- Only items that have nothing in them from the start are found empty. -/
theorem assembleIn_empty (enough : ks.length ≤ rounds) (settled : ∀ t, built t ∉ items)
    (bare : ∀ t, items ≠ [fenced t]) (h : assembleIn limit rounds ks items = .error .empty) :
    items = [] ∨ items = [placeholder] := by
  rw [assembleIn_eq_passes enough settled bare] at h
  rcases bind_error h with refused | ⟨swept, run, ended⟩
  · obtain ⟨k, names⟩ := passes_error refused
    cases names
  · -- The passes leave nothing of nothing, and a placeholder of a placeholder.
    have covers := passes_covers (covers_single settled) run
    rcases outcome_empty ended with rfl | rfl
    · exact .inl covers
    · exact .inr (covers_singleton.mp covers)

/-! ### What the passes clear -/

theorem not_awaits_settle {item : Item} (idle : ¬ item.Awaits k) : ¬ item.settle.Awaits k := by
  cases item with
  | built t => exact id
  | _ => exact idle

theorem sweep_clears {done items : List Item} (h : sweep k done items = .ok swept)
    (clear : ∀ item ∈ done, ¬ item.Awaits k) : ∀ item ∈ swept, ¬ item.Awaits k := by
  induction done, items using sweep.induct k with
  | case1 done =>
    rw [sweep_nil] at h
    cases h
    intro item member
    obtain ⟨before, present, rfl⟩ := List.mem_map.mp member
    exact not_awaits_settle (clear before (List.mem_reverse.mp present))
  | case2 left done right rest ih =>
    rw [sweep_join] at h
    obtain ⟨t, _, h⟩ := bind_ok h
    exact ih t h (List.forall_mem_cons.mpr ⟨id, (List.forall_mem_cons.mp clear).2⟩)
  | case3 done rest lonely =>
    rw [sweep_lonely lonely] at h
    cases h
  | case4 done j rest other ih =>
    rw [sweep_past (pending j) other] at h
    exact ih h (List.forall_mem_cons.mpr ⟨other, clear⟩)
  | case5 t root done rest ih =>
    rw [sweep_unfence root] at h
    exact ih h (List.forall_mem_cons.mpr ⟨id, (List.forall_mem_cons.mp clear).2⟩)
  | case6 done t rest root broken =>
    rw [sweep_broken root broken] at h
    cases h
  | case7 done t rest other ih =>
    rw [sweep_past (fenced t) other] at h
    exact ih h (List.forall_mem_cons.mpr ⟨other, clear⟩)
  | case8 done item rest notPending notFenced ih =>
    have idle : ¬ item.Awaits k := not_awaits notPending notFenced
    rw [sweep_past item idle] at h
    exact ih h (List.forall_mem_cons.mpr ⟨idle, clear⟩)

/-- Neither an operator nor a fence. -/
def AtRest (item : Item) : Prop := (∃ t, item = operand t) ∨ item = placeholder

theorem not_atRest_pending (k : Keyword) : ¬ (pending k).AtRest := by simp [AtRest]

theorem not_atRest_fenced (t : Tree) : ¬ (fenced t).AtRest := by simp [AtRest]

theorem Awaits.not_atRest {item : Item} (waits : item.Awaits k) : ¬ item.AtRest := by
  rintro (⟨t, rfl⟩ | rfl) <;> exact waits

variable {P : List Item → Tree → Prop}

/-- An operator or a fence between two passes was there from the start. -/
theorem Covers.mem_source (covers : Covers (Settled P) source items) {item : Item} (member : item ∈ items)
    (busy : ¬ item.AtRest) : item ∈ source := by
  induction items generalizing source with
  | nil => cases member
  | cons first items ih =>
    obtain ⟨run, rest, rfl, stands, covers⟩ := covers
    rcases List.mem_cons.mp member with rfl | later
    · have self : run = [item] := by
        cases item with
        | operand t => exact (busy (.inl ⟨t, rfl⟩)).elim
        | built t => exact stands.elim
        | pending j | fenced t | placeholder => exact stands
      simp [self]
    · exact List.mem_append_right run (ih covers later)

theorem passes_clear (settled : ∀ t, built t ∉ items) (h : passes ks items = .ok swept) :
    ∀ item ∈ swept, ∀ k ∈ ks, ¬ item.Awaits k := by
  induction ks generalizing items with
  | nil => exact fun _ _ _ member => nomatch member
  | cons k ks ih =>
    obtain ⟨next, first, others⟩ := bind_ok h
    have between := (pass_covers first (covers_single settled)).settled
    intro item member j present
    rcases List.mem_cons.mp present with rfl | later
    · intro waits
      have before := (passes_covers (covers_single between) others).mem_source member waits.not_atRest
      exact sweep_clears first (fun _ member => nomatch member) item before waits
    · exact ih between others item member j later

/-! ### What the passes leave of a sentence -/

theorem Covers.head_atRest (covers : Covers (Settled (Reduced ks)) source items)
    (rest : ∀ item ∈ items, item.AtRest) : ∀ item ∈ source.head?, item.AtRest := by
  cases items with
  | nil =>
    obtain rfl : source = [] := covers
    simp
  | cons first items =>
    obtain ⟨run, tail, rfl, stands, _⟩ := covers
    rcases rest first List.mem_cons_self with ⟨t, rfl⟩ | rfl
    · rcases Reduced.head stands with ⟨u, back, rfl⟩ | ⟨u, back, rfl⟩
      · simp [AtRest]
      · simp [AtRest]
    · obtain rfl : run = [placeholder] := stands
      simp [AtRest]

theorem Covers.last_atRest (covers : Covers (Settled (Reduced ks)) source items)
    (rest : ∀ item ∈ items, item.AtRest) : ∀ item ∈ source.getLast?, item.AtRest := by
  rcases List.eq_nil_or_concat' items with rfl | ⟨front, last, rfl⟩
  · obtain rfl : source = [] := covers
    simp
  · obtain ⟨first, run, rfl, _, stands⟩ := covers_append.mp covers
    rw [covers_singleton] at stands
    rcases rest last (by simp) with ⟨t, rfl⟩ | rfl
    · rcases Reduced.last stands with ⟨part, u, rfl⟩ | ⟨part, u, rfl⟩ | ⟨part, j, _, rfl⟩
      · simp [AtRest]
      · simp [AtRest]
      · simp [AtRest]
    · obtain rfl : run = [placeholder] := stands
      simp [AtRest]

theorem AtRest.fits {first second : Item} (rest : second.AtRest) : Fits first second := by
  rintro j rfl
  rcases rest with ⟨t, same⟩ | same <;> cases same

theorem Neat.append {front back : List Item} (left : Neat front) (right : Neat back)
    (rest : ∀ item ∈ back.head?, item.AtRest) : Neat (front ++ back) := by
  refine ⟨List.isChain_append.mpr ⟨left.1, right.1, fun _ _ second member => (rest second member).fits⟩, ?_⟩
  intro j last
  rw [List.getLast?_append] at last
  cases ending : back.getLast? with
  | none => exact left.2 j (by simpa [ending] using last)
  | some item => exact right.2 j (by simpa [ending] using last)

theorem neat_of_covers (covers : Covers (Settled (Reduced ks)) source items)
    (rest : ∀ item ∈ items, item.AtRest) : Neat source := by
  induction items generalizing source with
  | nil =>
    obtain rfl : source = [] := covers
    exact ⟨.nil, by simp⟩
  | cons first items ih =>
    obtain ⟨run, tail, rfl, stands, covers⟩ := covers
    obtain ⟨here, later⟩ := List.forall_mem_cons.mp rest
    have neat : Neat run := by
      rcases here with ⟨t, rfl⟩ | rfl
      · exact Reduced.neat stands
      · obtain rfl : run = [placeholder] := stands
        exact ⟨.singleton _, by simp⟩
    exact neat.append (ih covers later) (covers.head_atRest later)

/-- A place beside a fence or behind an operator. -/
def Beside (left right : List Item) : Prop :=
  (∃ t, right.head? = some (fenced t)) ∨ ∃ item, left.getLast? = some item ∧ ¬ item.AtRest

theorem Beside.append {left right : List Item} (front : List Item) (beside : Beside left right) :
    Beside (front ++ left) right := by
  refine beside.imp id fun ⟨item, last, busy⟩ => ⟨item, ?_, busy⟩
  rw [List.getLast?_append, last]
  rfl

/-- In a row of blocks every placeholder belongs to a fence or to an operator. -/
theorem beside_of_arranged {blocks : List Block} {left right : List Item}
    (h : blocks.flatMap Block.arranged = left ++ placeholder :: right) : Beside left right := by
  have after {item : Item} (busy : ¬ item.AtRest) (front right : List Item) : Beside (front ++ [item]) right :=
    .inr ⟨item, by simp, busy⟩
  induction blocks generalizing left with
  | nil => cases left <;> cases h
  | cons block blocks ih =>
    rw [List.flatMap_cons] at h
    cases block with
    | operand t =>
      cases bound : needsFence t with
      | false =>
        rw [arranged_operand bound] at h
        obtain ⟨tail, rfl, rest⟩ := past_split (by simp) h
        exact (ih rest).append [operand t]
      | true =>
        rw [arranged_fenced bound] at h
        rcases cons_split h with ⟨_, rfl, rfl⟩ | ⟨_, rfl, inner⟩
        · exact .inl ⟨t, rfl⟩
        · obtain ⟨_, rfl, closing⟩ := past_split (by simp) inner
          rcases cons_split closing with ⟨_, rfl, rfl⟩ | ⟨tail, rfl, rest⟩
          · exact after (not_atRest_fenced t) [placeholder] _
          · exact (ih rest).append [placeholder, fenced t, placeholder]
    | plain j free =>
      obtain ⟨tail, rfl, rest⟩ := past_split (by simp) h
      exact (ih rest).append [pending j]
    | behind j form =>
      obtain ⟨_, rfl, padding⟩ := past_split (by simp) h
      rcases cons_split padding with ⟨_, rfl, rfl⟩ | ⟨tail, rfl, rest⟩
      · exact after (not_atRest_pending j) [] _
      · exact (ih rest).append [pending j, placeholder]
    | step f =>
      obtain ⟨_, rfl, operator⟩ := past_split (by simp) h
      obtain ⟨_, rfl, padding⟩ := past_split (by simp) operator
      rcases cons_split padding with ⟨_, rfl, rfl⟩ | ⟨tail, rfl, rest⟩
      · exact after (not_atRest_pending .inc) [operand (.field f)] _
      · exact (ih rest).append [operand (.field f), pending .inc, placeholder]
    | write f =>
      obtain ⟨_, rfl, operator⟩ := past_split (by simp) h
      obtain ⟨tail, rfl, rest⟩ := past_split (by simp) operator
      exact (ih rest).append [operand (.field f), pending .set]

theorem atRest_of_passes (plain : Plain items) (h : passes Keyword.byStrength.reverse (arrange items) = .ok swept) :
    ∀ item ∈ swept, item.AtRest := by
  have covers := passes_covers (covers_single plain.settled) h
  intro item member
  have idle (k : Keyword) : ¬ item.Awaits k :=
    passes_clear plain.settled h item member k (List.mem_reverse.mpr k.mem_byStrength)
  cases item with
  | operand t => exact .inl ⟨t, rfl⟩
  | built t => exact (covers.settled t member).elim
  | pending k => exact (idle k rfl).elim
  | placeholder => exact .inr rfl
  | fenced t =>
    have present : fenced t ∈ arrange items := covers.mem_source member (not_atRest_fenced t)
    have bound := needsFence_of_mem_arrange plain present
    cases root : t.keyword? with
    | none => simp [needsFence, root] at bound
    | some k => exact (idle k root).elim

theorem exists_operands (plain : Plain items)
    (h : passes Keyword.byStrength.reverse (arrange items) = .ok swept) :
    ∃ ts : List Tree, swept = ts.map operand := by
  have rest := atRest_of_passes plain h
  have covers := passes_covers (covers_single plain.settled) h
  rw [← reduced_eq_foldl] at covers
  suffices finished : ∀ item ∈ swept, item ∈ Set.range operand by
    have all : swept ∈ Set.range (List.map operand) := by
      rw [Set.range_list_map]
      exact finished
    obtain ⟨ts, same⟩ := all
    exact ⟨ts, same.symm⟩
  intro item member
  rcases rest item member with ⟨t, rfl⟩ | rfl
  · exact ⟨t, rfl⟩
  · -- A placeholder stands for itself between runs at rest, and no block has it there.
    obtain ⟨front, back, rfl⟩ := List.append_of_mem member
    obtain ⟨blocks, rfl⟩ := exists_blocks plain (neat_of_covers covers rest)
    rw [arrange_source] at covers
    obtain ⟨left, _, whole, before, _, right, rfl, rfl, after⟩ := covers_append.mp covers
    rcases beside_of_arranged whole with ⟨t, next⟩ | ⟨last, ending, busy⟩
    · have calm := after.head_atRest (fun item member => rest item (by simp [member])) _ next
      rcases calm with ⟨u, same⟩ | same <;> cases same
    · exact (busy (before.last_atRest (fun item member => rest item (by simp [member])) last ending)).elim

end Item

namespace Vocabulary

theorem parse_eq_assemble (v : Vocabulary) (ws : List String) :
    v.parse ws = Item.assemble roundLimit (Item.arrange (v.items ws)) := by
  cases ws with
  | nil => rfl
  | cons w ws => exact parse_cons v w ws

theorem parse_unresolved_iff {v : Vocabulary} {ws : List String} {left : List Kind} {n : Nat} :
    v.parse ws = .error (.unresolved left n) ↔ n = roundLimit ∧ ∃ ts : List Tree, 2 ≤ ts.length ∧
      left = ts.map Tree.kind ∧
      Item.passes Keyword.byStrength.reverse (Item.arrange (v.items ws)) = .ok (ts.map .operand) := by
  have plain := v.plain_items ws
  have kinds (ts : List Tree) : (ts.map Item.operand).map Item.kind = ts.map Tree.kind := List.map_map
  rw [parse_eq_assemble, Item.assemble, Item.assembleIn_unresolved_iff (by decide) plain.settled plain.bare]
  refine and_congr_right fun _ => ?_
  constructor
  · rintro ⟨swept, run, long, rfl⟩
    obtain ⟨ts, rfl⟩ := Item.exists_operands plain run
    exact ⟨ts, by simpa using long, kinds ts, run⟩
  · rintro ⟨ts, long, rfl, run⟩
    exact ⟨ts.map .operand, run, by simpa using long, (kinds ts).symm⟩

theorem parse_empty_iff {v : Vocabulary} {ws : List String} : v.parse ws = .error .empty ↔ ws = [] := by
  have plain := v.plain_items ws
  constructor
  · intro h
    by_contra some
    obtain ⟨item, member, other⟩ := Item.exists_mem_arrange plain (items_ne_nil some)
    rw [parse_eq_assemble] at h
    rcases Item.assembleIn_empty (by decide) plain.settled plain.bare h with none | padding
    · rw [none] at member
      cases member
    · rw [padding] at member
      exact other (List.mem_singleton.mp member)
  · rintro rfl
    rfl

/-- The tree of a sentence if there are at most `limit` rounds and a broken fence gets a report of its own. -/
def parseReporting (v : Vocabulary) (report : Keyword → GrammarError) (limit : Nat) (ws : List String) :
    Except GrammarError Tree :=
  if ws.isEmpty then .error .empty
  else Item.assembleReporting report limit limit Keyword.byStrength.reverse (Item.arrange (v.items ws))

theorem parseReporting_eq_assemble (v : Vocabulary) (report : Keyword → GrammarError) (limit : Nat)
    (ws : List String) :
    v.parseReporting report limit ws = Item.assemble limit (Item.arrange (v.items ws)) := by
  cases ws with
  | nil =>
    have short : (Item.arrange (v.items [])).length ≤ 1 := Nat.zero_le 1
    rw [Item.assemble, Item.assembleIn_short limit limit _ short]
    rfl
  | cons w ws =>
    unfold parseReporting
    rw [if_neg (by simp)]
    exact Item.assembleReporting_arrange report limit limit _ (v.plain_items (w :: ws))

/-- The bound on the rounds decides no sentence: with at least a round for every operator the outcome is the same
but for the number in the report, and so it is whatever is reported of a broken fence, for which the rounds have one
report of their own. What is left unresolved is two finished trees or more, and only the empty sentence is found
empty. -/
theorem rounds_decide_nothing (v : Vocabulary) (ws : List String) :
    (∀ limit rounds ks items,
      Item.assembleReporting .misplacedPlaceholder limit rounds ks items = Item.assembleIn limit rounds ks items) ∧
      (∀ report limit, 15 ≤ limit →
        v.parseReporting report limit ws = (v.parse ws).mapError (.within limit)) ∧
      (∀ left n, v.parse ws = .error (.unresolved left n) ↔ n = roundLimit ∧ ∃ ts : List Tree, 2 ≤ ts.length ∧
        left = ts.map Tree.kind ∧
        Item.passes Keyword.byStrength.reverse (Item.arrange (v.items ws)) = .ok (ts.map .operand)) ∧
      (v.parse ws = .error .empty ↔ ws = []) := by
  refine ⟨Item.assembleReporting_misplaced, fun report limit enough => ?_, fun left n => parse_unresolved_iff,
    parse_empty_iff⟩
  have plain := v.plain_items ws
  rw [parseReporting_eq_assemble, parse_eq_assemble]
  exact Item.assembleIn_within enough (by decide) plain.settled plain.bare

/-- A question about change that is reused before a field stays beside it, in fifteen rounds as in more. -/
theorem reused_question_left_over :
    let v : Vocabulary :=
      { fields := .ofList [("x", "x"), ("y", "y")],
        expressions := .ofList [("c", .changed (.field "x") .placeholder)] }
    v.parseReporting .missingOperand 15 ["c", "y"] = .error (.unresolved [.operator .hasChanged, .field] 15) := by
  intro v
  obtain ⟨_, bounded, _⟩ := rounds_decide_nothing v ["c", "y"]
  have parsed : v.parse ["c", "y"] = .error (.unresolved [.operator .hasChanged, .field] 100) := by decide
  rw [bounded .missingOperand 15 (by decide), parsed]
  rfl

end Vocabulary

end Rulebook
