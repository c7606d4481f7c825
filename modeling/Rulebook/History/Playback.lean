import Rulebook.Store.Cycle

/-!
# Playback

A playback moves a store back and forth through a recording by putting a part of the recording in
place of its history. No rule and no listener runs.
-/

namespace Rulebook

/-- Cuts the history of a store so that the snapshot at `index` is its last one. -/
def State.rewind (s : State) (index : Nat) : Except HistoryError State :=
  if index < s.history.length then
    (s.restore (s.history.take (index + 1))).mapError .store
  else .error (.noSnapshot index s.history.length)

/-- Cuts the history of the store of an application. It stays as it is if that is refused. -/
def App.rewind {σ : Type} (app : App σ) (index : Nat) : Except HistoryError Unit × App σ :=
  app.change ((app.store.toState.rewind index).map fun s => { app.store with toState := s })

/-- How far a playback has come. -/
inductive PlaybackStatus where
  | idle
  | paused
  /-- It is at the end of the recording. -/
  | finished
deriving DecidableEq

/-- A recording with a position in it. -/
structure Playback where
  recording : History
  status : PlaybackStatus := .idle
  position : Nat := 0
deriving DecidableEq

/-- What a playback can be told to do. -/
inductive Move where
  | goTo (index : Nat)
  | forward
  | backward
  | reset

namespace Playback

/-- Moves the store to a place of the recording. -/
def goTo (p : Playback) (s : State) (index : Nat) : Except HistoryError (Playback × State) :=
  if index < p.recording.length then do
    let s ← (s.restore (p.recording.take (index + 1))).mapError .store
    let status := if index + 1 = p.recording.length then .finished else .paused
    return ({ p with status, position := index }, s)
  else .error (.noSnapshot index p.recording.length)

def next (p : Playback) : Nat :=
  match p.status with
  | .idle => 0
  | _ => p.position + 1

/-- Moves one place on. The answer is whether there was one. -/
def forward (p : Playback) (s : State) : Except HistoryError (Bool × Playback × State) :=
  if p.next < p.recording.length then do
    return (true, ← p.goTo s p.next)
  else return (false, { p with status := .finished }, s)

/-- Moves one place back. The answer is whether there was one. -/
def backward (p : Playback) (s : State) : Except HistoryError (Bool × Playback × State) :=
  if p.position = 0 then return (false, p, s)
  else do
    return (true, ← p.goTo s (p.position - 1))

/-- Moves to the first place, as if the playback had not started. -/
def reset (p : Playback) (s : State) : Except HistoryError (Playback × State) := do
  let (p, s) ← p.goTo s 0
  return ({ p with status := .idle }, s)

/-- Makes a move. The answer is whether there was a place to move to. -/
def move (p : Playback) (s : State) : Move → Except HistoryError (Bool × Playback × State)
  | .goTo index => (p.goTo s index).map fun moved => (true, moved)
  | .forward => p.forward s
  | .backward => p.backward s
  | .reset => (p.reset s).map fun moved => (true, moved)

end Playback

/-- A playback and the store that it moves. -/
structure Player where
  playback : Playback
  state : State
deriving DecidableEq

/-- Tries a move. One that is refused changes nothing. -/
def Player.move (d : Player) (m : Move) : Except HistoryError Bool × Player :=
  match d.playback.move d.state m with
  | .ok (more, playback, state) => (.ok more, { playback, state })
  | .error e => (.error e, d)

/-- Tries a move of a playback on the store of an application. -/
def App.play {σ : Type} (app : App σ) (p : Playback) (m : Move) : Except HistoryError Bool × Playback × App σ :=
  let (reply, d) := Player.move ⟨p, app.store.toState⟩ m
  (reply, d.playback, { app with store := { app.store with toState := d.state } })

end Rulebook
