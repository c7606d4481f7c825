import Rulebook.Proofs.History.Playback

/-!
# Stepping through a recording

A playback and the store that it moves stay in step, whatever moves are tried on whatever recording:
`Player.stays_in_step`. A move has three ways to go, which `Playback.move_cases` lists, and all else is said of
these three.
-/

namespace Rulebook

namespace Playback

variable {p : Playback} {s : State}

/-! ### One move -/

/-- The place that a move makes for, if there is one. -/
def target? (p : Playback) : Move → Option Nat
  | .goTo index => some index
  | .forward => if p.next < p.recording.length then some p.next else none
  | .backward => if p.position = 0 then none else some (p.position - 1)
  | .reset => some 0

/-- The playback after a move that had no place to make for. -/
def stay (p : Playback) : Move → Playback
  | .forward => { p with status := .finished }
  | _ => p

/-- The playback after a move to a place. -/
def arrive (p : Playback) (index : Nat) : Move → Playback
  | .reset => { p with status := .idle, position := index }
  | _ => { p with
      status := if index + 1 = p.recording.length then .finished else .paused
      position := index }

theorem next_arrive (p : Playback) (index : Nat) : (p.arrive index .forward).next = index + 1 := by
  by_cases last : index + 1 = p.recording.length <;> simp [arrive, next, last]

/-- The place is outside the recording, or the store refuses a snapshot on the way to it. -/
def Blocked (p : Playback) (s : State) (index : Nat) : Prop :=
  p.recording.length ≤ index ∨ ∃ f ∈ p.recording.take (index + 1), f.hasNames s.fieldNames = false

theorem goTo_cases (p : Playback) (s : State) (index : Nat) :
    (∃ e, p.goTo s index = .error e ∧ p.Blocked s index) ∨
      ∃ t, index < p.recording.length ∧ s.restore (p.recording.take (index + 1)) = .ok t ∧
        p.goTo s index = .ok ({ p with
          status := if index + 1 = p.recording.length then .finished else .paused
          position := index }, t) := by
  by_cases within : index < p.recording.length
  · rw [goTo, if_pos within]
    cases restored : s.restore (p.recording.take (index + 1)) with
    | ok t => exact .inr ⟨t, within, rfl, rfl⟩
    | error e =>
      refine .inl ⟨_, rfl, .inr ?_⟩
      have kept : p.recording.take (index + 1) ≠ [] := by
        rw [ne_eq, List.take_eq_nil_iff]
        rintro (none | empty)
        · cases none
        · simp [empty] at within
      exact State.exists_refused kept restored
  · rw [goTo, if_neg within]
    exact .inl ⟨_, rfl, .inl (Nat.not_lt.mp within)⟩

/-- A move has no place to make for, is blocked on its way, or arrives. -/
theorem move_cases (p : Playback) (s : State) (m : Move) :
    (p.target? m = none ∧ p.move s m = .ok (false, p.stay m, s)) ∨
      (∃ index e, p.target? m = some index ∧ p.move s m = .error e ∧ p.Blocked s index) ∨
      ∃ index t, p.target? m = some index ∧ index < p.recording.length ∧
        s.restore (p.recording.take (index + 1)) = .ok t ∧ p.move s m = .ok (true, p.arrive index m, t) := by
  cases m with
  | goTo index =>
    rcases p.goTo_cases s index with ⟨e, refused, blocked⟩ | ⟨t, within, restored, moved⟩
    · exact .inr (.inl ⟨index, e, rfl, by rw [move, refused]; rfl, blocked⟩)
    · exact .inr (.inr ⟨index, t, rfl, within, restored, by rw [move, moved]; rfl⟩)
  | forward =>
    by_cases more : p.next < p.recording.length
    · have target : p.target? .forward = some p.next := if_pos more
      rw [move, forward, if_pos more]
      rcases p.goTo_cases s p.next with ⟨e, refused, blocked⟩ | ⟨t, within, restored, moved⟩
      · exact .inr (.inl ⟨_, e, target, by rw [refused]; rfl, blocked⟩)
      · exact .inr (.inr ⟨_, t, target, within, restored, by rw [moved]; rfl⟩)
    · exact .inl ⟨if_neg more, if_neg more⟩
  | backward =>
    by_cases first : p.position = 0
    · exact .inl ⟨if_pos first, if_pos first⟩
    · have target : p.target? .backward = some (p.position - 1) := if_neg first
      rw [move, backward, if_neg first]
      rcases p.goTo_cases s (p.position - 1) with ⟨e, refused, blocked⟩ | ⟨t, within, restored, moved⟩
      · exact .inr (.inl ⟨_, e, target, by rw [refused]; rfl, blocked⟩)
      · exact .inr (.inr ⟨_, t, target, within, restored, by rw [moved]; rfl⟩)
  | reset =>
    rw [move, reset]
    rcases p.goTo_cases s 0 with ⟨e, refused, blocked⟩ | ⟨t, within, restored, moved⟩
    · exact .inr (.inl ⟨0, e, rfl, by rw [refused]; rfl, blocked⟩)
    · exact .inr (.inr ⟨0, t, rfl, within, restored, by rw [moved]; rfl⟩)

end Playback

namespace Player

variable {d : Player} {recording : History} {s : State}

/-- Tries moves in turn. -/
def moves (d : Player) (ms : List Move) : List (Except HistoryError Bool) × Player := inTurn move d ms

theorem moves_cons (d : Player) (m : Move) (ms : List Move) :
    d.moves (m :: ms) = ((d.move m).1 :: ((d.move m).2.moves ms).1, ((d.move m).2.moves ms).2) := rfl

/-- The three ways of a move, as the player tells them. -/
theorem move_cases (d : Player) (m : Move) :
    (d.playback.target? m = none ∧ d.move m = (.ok false, { d with playback := d.playback.stay m })) ∨
      (∃ index e, d.playback.target? m = some index ∧ d.playback.Blocked d.state index ∧ d.move m = (.error e, d)) ∨
      ∃ index last, d.playback.target? m = some index ∧ index < d.playback.recording.length ∧
        (∀ f ∈ d.playback.recording.take (index + 1), f.hasNames d.state.fieldNames = true) ∧
        d.playback.recording[index]? = some last ∧
        d.move m = (.ok true,
          { playback := d.playback.arrive index m
            state := { d.state with live := last, history := d.playback.recording.take (index + 1) } }) := by
  unfold move
  rcases d.playback.move_cases d.state m with ⟨target, stays⟩ | ⟨index, e, target, refused, blocked⟩ |
    ⟨index, t, target, within, restored, arrives⟩
  · rw [stays]
    exact .inl ⟨target, rfl⟩
  · rw [refused]
    exact .inr (.inl ⟨index, e, target, blocked, rfl⟩)
  · obtain ⟨whole, last, latest, rfl⟩ := State.restore_ok_iff.mp restored
    rw [arrives]
    refine .inr (.inr ⟨index, last, target, within, whole, ?_, rfl⟩)
    rw [List.getLast?_take, if_neg (Nat.succ_ne_zero index)] at latest
    rw [Nat.add_sub_cancel, List.getElem?_eq_getElem within, Option.some_or] at latest
    rw [List.getElem?_eq_getElem within, latest]

/-- A move is refused exactly if its way is blocked. -/
theorem move_refused_iff (m : Move) :
    (∃ e, (d.move m).1 = .error e) ↔ ∃ index, d.playback.target? m = some index ∧ d.playback.Blocked d.state index := by
  rcases d.move_cases m with ⟨target, stays⟩ | ⟨index, e, target, blocked, refused⟩ |
    ⟨index, last, target, within, whole, _, arrives⟩
  · simp [stays, target]
  · simp [refused, target, blocked]
  · have free : ¬ d.playback.Blocked d.state index := by
      rintro (outside | ⟨f, member, strange⟩)
      · omega
      · cases (whole f member).symm.trans strange
    simp [arrives, target, free]

/-- A move that is refused changes nothing, and one that finds no place changes neither the store nor the place. -/
theorem move_unmoved (m : Move) :
    (∀ e, (d.move m).1 = .error e → (d.move m).2 = d) ∧
      ((d.move m).1 = .ok false → (d.move m).2.state = d.state ∧
        (d.move m).2.playback.position = d.playback.position) := by
  rcases d.move_cases m with ⟨_, stays⟩ | ⟨index, e, _, _, refused⟩ | ⟨index, last, _, _, _, _, arrives⟩
  · rw [stays]
    refine ⟨nofun, fun _ => ⟨rfl, ?_⟩⟩
    cases m <;> rfl
  · rw [refused]
    exact ⟨fun _ _ => rfl, nofun⟩
  · rw [arrives]
    exact ⟨nofun, nofun⟩

/-- A move that finds no place is one that makes for none. -/
theorem move_unanswered_iff (m : Move) : (d.move m).1 = .ok false ↔ d.playback.target? m = none := by
  rcases d.move_cases m with ⟨target, stays⟩ | ⟨index, e, target, _, refused⟩ | ⟨index, last, target, _, _, _, arrives⟩
  · simp [stays, target]
  · simp [refused, target]
  · simp [arrives, target]

theorem fieldNames_move (d : Player) (m : Move) : (d.move m).2.state.fieldNames = d.state.fieldNames := by
  rcases d.move_cases m with ⟨_, stays⟩ | ⟨index, e, _, _, refused⟩ | ⟨index, last, _, _, _, _, arrives⟩
  · rw [stays]
  · rw [refused]
  · rw [arrives]
    rfl

theorem fieldNames_moves (d : Player) (ms : List Move) : (d.moves ms).2.state.fieldNames = d.state.fieldNames :=
  inTurn_keeps (P := fun e : Player => e.state.fieldNames = d.state.fieldNames)
    (fun e m same => (e.fieldNames_move m).trans same) rfl ms

/-! ### What moves keep -/

/-- The status says where in the recording the playback is. -/
structure InStep (recording : History) (d : Player) : Prop where
  plays : d.playback.recording = recording
  within : d.playback.position < recording.length ∨ recording = [] ∧ d.playback.position = 0
  finished : d.playback.status = .finished → recording = [] ∨ d.playback.position + 1 = recording.length
  paused : d.playback.status = .paused → d.playback.position + 1 ≠ recording.length

/-- The store shows the recording up to the place of the playback. -/
structure Shows (recording : History) (d : Player) : Prop where
  history : d.state.history = recording.take (d.playback.position + 1)
  live : recording[d.playback.position]? = some d.state.live

theorem inStep_start (recording : History) (s : State) : InStep recording ⟨{ recording }, s⟩ where
  plays := rfl
  within := by
    cases recording with
    | nil => exact .inr ⟨rfl, rfl⟩
    | cons f rest => exact .inl rest.length.succ_pos
  finished := nofun
  paused := nofun

/-- A step forward has no place to make for at the end of the recording, and there only. -/
theorem InStep.ends_iff (inStep : d.InStep recording) : d.playback.target? .forward = none ↔
    recording = [] ∨ d.playback.status ≠ .idle ∧ d.playback.position + 1 = recording.length := by
  have past : d.playback.target? .forward = none ↔ recording.length ≤ d.playback.next := by
    simp [Playback.target?, inStep.plays]
  rw [past, ← List.length_eq_zero_iff]
  unfold Playback.next
  split
  · next idle => simp [idle]
  · next started =>
    have within := inStep.within
    rw [← List.length_eq_zero_iff] at within
    constructor
    · intro outside
      rcases within with inside | ⟨empty, _⟩
      · exact .inr ⟨started, by omega⟩
      · exact .inl empty
    · rintro (empty | ⟨_, last⟩) <;> omega

theorem arrive_inStep {p : Playback} {index : Nat} (within : index < p.recording.length) (m : Move) (t : State) :
    InStep p.recording ⟨p.arrive index m, t⟩ := by
  have paused : (if index + 1 = p.recording.length then PlaybackStatus.finished else .paused) = .paused →
      index + 1 ≠ p.recording.length := by
    split
    · exact nofun
    · next before => exact fun _ => before
  have finished : (if index + 1 = p.recording.length then PlaybackStatus.finished else .paused) = .finished →
      index + 1 = p.recording.length := by
    split
    · next last => exact fun _ => last
    · exact nofun
  cases m with
  | reset => exact ⟨rfl, .inl within, nofun, nofun⟩
  | goTo | forward | backward => exact ⟨rfl, .inl within, fun status => .inr (finished status), paused⟩

theorem InStep.move (inStep : d.InStep recording) (m : Move) : (d.move m).2.InStep recording := by
  rcases d.move_cases m with ⟨none, stays⟩ | ⟨index, e, _, _, refused⟩ | ⟨index, last, _, within, _, _, arrives⟩
  · rw [stays]
    cases m with
    | forward =>
      refine ⟨inStep.plays, inStep.within, fun _ => ?_, nofun⟩
      exact (inStep.ends_iff.mp none).imp_right And.right
    | goTo | backward | reset => exact inStep
  · rw [refused]
    exact inStep
  · rw [arrives, ← inStep.plays]
    exact arrive_inStep within m _

theorem InStep.moves (inStep : d.InStep recording) (ms : List Move) : (d.moves ms).2.InStep recording :=
  inTurn_keeps (fun _ m held => held.move m) inStep ms

/-- A move to a place shows it, and every other move leaves the store alone. -/
theorem InStep.shows_move (inStep : d.InStep recording) (m : Move) :
    ((d.move m).1 = .ok true → (d.move m).2.Shows recording) ∧
      ((d.move m).1 ≠ .ok true → (d.move m).2.state = d.state ∧
        (d.move m).2.playback.position = d.playback.position) := by
  rcases d.move_cases m with ⟨_, stays⟩ | ⟨index, e, _, _, refused⟩ | ⟨index, last, _, _, _, found, arrives⟩
  · rw [stays]
    refine ⟨nofun, fun _ => ⟨rfl, ?_⟩⟩
    cases m <;> rfl
  · rw [refused]
    exact ⟨nofun, fun _ => ⟨rfl, rfl⟩⟩
  · rw [arrives, ← inStep.plays]
    refine ⟨fun _ => ?_, fun other => (other rfl).elim⟩
    cases m <;> exact ⟨rfl, found⟩

theorem InStep.shows_moves (inStep : d.InStep recording) (ms : List Move) :
    (d.Shows recording ∨ .ok true ∈ (d.moves ms).1 → (d.moves ms).2.Shows recording) ∧
      (.ok true ∉ (d.moves ms).1 → (d.moves ms).2.state = d.state) := by
  induction ms generalizing d with
  | nil =>
    refine ⟨fun shown => ?_, fun _ => rfl⟩
    rcases shown with shows | never
    · exact shows
    · cases never
  | cons m ms ih =>
    obtain ⟨shown, unmoved⟩ := inStep.shows_move m
    obtain ⟨later, still⟩ := ih (inStep.move m)
    by_cases moved : (d.move m).1 = .ok true
    · exact ⟨fun _ => later (.inl (shown moved)), fun never => (never (moved ▸ List.mem_cons_self)).elim⟩
    · obtain ⟨state, position⟩ := unmoved moved
      constructor
      · rintro (shows | member)
        · refine later (.inl ⟨?_, ?_⟩)
          · rw [state, position, shows.history]
          · rw [state, position, shows.live]
        · rcases List.mem_cons.mp member with here | there
          · exact (moved here.symm).elim
          · exact later (.inr there)
      · intro never
        exact (still fun there => never (List.mem_cons_of_mem _ there)).trans state

/-! ### From the first place to the last -/

/-- As long as the recording goes on, and the store accepts it, every step forward succeeds. -/
theorem InStep.forward_moves (inStep : d.InStep recording)
    (accepted : ∀ f ∈ recording, f.hasNames d.state.fieldNames = true) {n : Nat}
    (more : d.playback.next + n ≤ recording.length) :
    (d.moves (List.replicate n .forward)).1 = List.replicate n (.ok true) ∧
      (d.moves (List.replicate n .forward)).2.playback.next = d.playback.next + n := by
  induction n generalizing d with
  | zero => exact ⟨rfl, rfl⟩
  | succ n ih =>
    have target : d.playback.target? .forward = some d.playback.next :=
      if_pos (by rw [inStep.plays]; omega)
    rcases d.move_cases .forward with ⟨none, _⟩ | ⟨index, e, found, blocked, _⟩ |
      ⟨index, last, found, within, _, _, arrives⟩
    · cases target.symm.trans none
    · cases target.symm.trans found
      rcases blocked with outside | ⟨f, member, strange⟩
      · rw [inStep.plays] at outside
        omega
      · rw [inStep.plays] at member
        cases (accepted f (List.mem_of_mem_take member)).symm.trans strange
    · cases target.symm.trans found
      have next : (d.move .forward).2.playback.next = d.playback.next + 1 := by
        rw [arrives]
        exact Playback.next_arrive _ _
      obtain ⟨replies, after⟩ := ih (inStep.move .forward) (by rwa [d.fieldNames_move]) (by omega)
      rw [List.replicate_succ, List.replicate_succ, moves_cons, replies, after, next, arrives]
      exact ⟨rfl, by omega⟩

theorem InStep.ended_moves (inStep : d.InStep recording) (none : d.playback.target? .forward = none) (n : Nat) :
    (d.moves (List.replicate n .forward)).1 = List.replicate n (.ok false) := by
  induction n generalizing d with
  | zero => rfl
  | succ n ih =>
    rcases d.move_cases .forward with ⟨_, stays⟩ | ⟨index, e, found, _⟩ | ⟨index, last, found, _⟩
    · have still : (d.move .forward).2.playback.target? .forward = Option.none := by
        rw [stays]
        refine if_neg ?_
        change ¬ d.playback.position + 1 < d.playback.recording.length
        rw [inStep.plays]
        rcases inStep.ends_iff.mp none with empty | ⟨_, last⟩
        · simp [empty]
        · omega
      rw [List.replicate_succ, List.replicate_succ, moves_cons, ih (inStep.move .forward) still, stays]
    · cases none.symm.trans found
    · cases none.symm.trans found

/-- From before the first place, steps forward go through all places of an accepted recording in their order, and
then there are no more. -/
theorem InStep.plays_through (inStep : d.InStep recording) (idle : d.playback.status = .idle)
    (accepted : ∀ f ∈ recording, f.hasNames d.state.fieldNames = true) :
    (∀ index < recording.length, ∃ e, d.moves (List.replicate (index + 1) .forward) =
        (List.replicate (index + 1) (.ok true), e) ∧ e.playback.position = index ∧ e.Shows recording) ∧
      ∀ more, (d.moves (List.replicate (recording.length + more) .forward)).1 =
        List.replicate recording.length (.ok true) ++ List.replicate more (.ok false) := by
  have first : d.playback.next = 0 := by rw [Playback.next, idle]
  constructor
  · intro index within
    obtain ⟨replies, next⟩ := inStep.forward_moves accepted (n := index + 1) (by omega)
    refine ⟨(d.moves (List.replicate (index + 1) .forward)).2, Prod.ext replies rfl, ?_, ?_⟩
    · rw [first] at next
      unfold Playback.next at next
      split at next <;> omega
    · refine (inStep.shows_moves _).1 (.inr ?_)
      rw [replies]
      exact List.mem_replicate.mpr ⟨index.succ_ne_zero, rfl⟩
  · intro more
    obtain ⟨replies, next⟩ := inStep.forward_moves accepted (n := recording.length) (by omega)
    have ended := (inStep.moves (List.replicate recording.length .forward)).ended_moves
      (if_neg (by rw [(inStep.moves _).plays]; omega)) more
    rw [List.replicate_add, Player.moves, inTurn_append]
    exact congrArg₂ (· ++ ·) replies ended

/-- A playback and its store stay in step, whatever the recording is and whatever moves were tried. The place is in
the recording, and the status tells whether it is the last one. Once a move has succeeded, the store shows the
recording up to the place; before that it is as it was. A move is refused exactly if its way is blocked, and then
it changes nothing; one that finds no place leaves the store and the place alone. A step forward finds none at the
end of the recording and there only. From the start, and after a reset, steps forward go through all places in
their order, and then there are no more. -/
theorem stays_in_step (recording : History) (s : State) (ms : List Move) :
    let replies := ((Player.mk { recording } s).moves ms).1
    let d := ((Player.mk { recording } s).moves ms).2
    d.InStep recording ∧ (.ok true ∈ replies → d.Shows recording) ∧ (.ok true ∉ replies → d.state = s) ∧
      (∀ m, ((∃ e, (d.move m).1 = .error e) ↔
          ∃ index, d.playback.target? m = some index ∧ d.playback.Blocked d.state index) ∧
        (∀ e, (d.move m).1 = .error e → (d.move m).2 = d) ∧
        ((d.move m).1 = .ok false → (d.move m).2.state = d.state ∧
          (d.move m).2.playback.position = d.playback.position)) ∧
      ((d.move .forward).1 = .ok false ↔
        recording = [] ∨ d.playback.status ≠ .idle ∧ d.playback.position + 1 = recording.length) ∧
      (d.playback.status = .idle → (∃ t, s.restore recording = .ok t) →
        (∀ index < recording.length, ∃ e, d.moves (List.replicate (index + 1) .forward) =
            (List.replicate (index + 1) (.ok true), e) ∧ e.playback.position = index ∧ e.Shows recording) ∧
          ∀ more, (d.moves (List.replicate (recording.length + more) .forward)).1 =
            List.replicate recording.length (.ok true) ++ List.replicate more (.ok false)) := by
  intro replies d
  have start := inStep_start recording s
  have inStep : d.InStep recording := start.moves ms
  obtain ⟨shown, still⟩ := start.shows_moves ms
  refine ⟨inStep, fun moved => shown (.inr moved), still, fun m => ⟨move_refused_iff m, move_unmoved m⟩,
    (move_unanswered_iff .forward).trans inStep.ends_iff, fun idle ⟨t, restored⟩ => ?_⟩
  have names : d.state.fieldNames = s.fieldNames := fieldNames_moves ⟨{ recording }, s⟩ ms
  refine inStep.plays_through idle ?_
  rw [names]
  exact (State.restore_ok_iff.mp restored).1

/-- The counter goes through a recording of two snapshots after a reset. -/
theorem counter_plays_through :
    let recording : History := [.ofList [("x", .number .one)], .ofList [("x", .null)]]
    let d := ((Player.mk { recording } Counter.state).moves [.goTo 1, .reset]).2
    d.state.live = .ofList [("x", .number .one)] ∧
      (d.moves (List.replicate 4 .forward)).1 = [.ok true, .ok true, .ok false, .ok false] := by
  intro recording d
  obtain ⟨_, shows, _, _, _, through⟩ := stays_in_step recording Counter.state [.goTo 1, .reset]
  have shown : d.Shows recording := shows (by decide)
  have place : d.playback.position = 0 ∧ d.playback.status = .idle := by decide
  have accepted : (Counter.state.restore recording).toOption.isSome = true := by decide
  refine ⟨?_, ?_⟩
  · have live := shown.live
    rw [place.1] at live
    exact (Option.some.inj live).symm
  · refine (through place.2 ?_).2 2
    cases restored : Counter.state.restore recording with
    | ok t => exact ⟨t, rfl⟩
    | error e =>
      rw [restored] at accepted
      cases accepted

end Player

end Rulebook
