import Rulebook.Proofs.Store.Reachable

/-!
# Moving a store through recordings

A playback puts a part of a recording in place of the history, so whatever was recorded where, a store keeps
to the fields that its configuration declares: `fields_stay_declared`.
-/

namespace Rulebook

variable {σ : Type}

/-! ### Moves of a playback -/

namespace Playback

variable {p q : Playback} {s t : State}

theorem goTo_ok {index : Nat} (moved : p.goTo s index = .ok (q, t)) :
    s.restore (p.recording.take (index + 1)) = .ok t := by
  unfold goTo at moved
  split at moved
  · obtain ⟨u, restored, moved⟩ := bind_ok moved
    cases moved
    exact mapError_ok.mp restored
  · cases moved

/-- A move leaves the store alone or puts the beginning of the recording in place of its history. -/
theorem move_ok {m : Move} {more : Bool} (moved : p.move s m = .ok (more, q, t)) :
    t = s ∨ ∃ count, s.restore (p.recording.take count) = .ok t := by
  cases m with
  | goTo index =>
    obtain ⟨place, went, same⟩ := map_ok.mp moved
    cases same
    exact .inr ⟨index + 1, goTo_ok went⟩
  | forward =>
    change p.forward s = _ at moved
    unfold forward at moved
    split at moved
    · obtain ⟨place, went, moved⟩ := bind_ok moved
      cases moved
      exact .inr ⟨p.next + 1, goTo_ok went⟩
    · cases moved
      exact .inl rfl
  | backward =>
    change p.backward s = _ at moved
    unfold backward at moved
    split at moved
    · cases moved
      exact .inl rfl
    · obtain ⟨place, went, moved⟩ := bind_ok moved
      cases moved
      exact .inr ⟨p.position - 1 + 1, goTo_ok went⟩
  | reset =>
    obtain ⟨_, moved, same⟩ := map_ok.mp moved
    obtain ⟨place, went, moved⟩ := bind_ok moved
    cases moved
    cases same
    exact .inr ⟨0 + 1, goTo_ok went⟩

end Playback

namespace App

variable {c : Config} {app after : App σ}

theorem restore_of_ok {history : History} {s : State} (restored : app.store.toState.restore history = .ok s) :
    app.restore history = (.ok (), { app with store := { app.store with toState := s } }) := by
  rw [restore, restored]
  rfl

theorem restore_accepted {history : History} (accepted : (app.restore history).1 = .ok ()) :
    ∃ s, app.store.toState.restore history = .ok s := by
  unfold restore at accepted
  cases restored : app.store.toState.restore history with
  | error e =>
    rw [restored] at accepted
    cases accepted
  | ok s => exact ⟨s, rfl⟩

theorem Reachable.play (p : Playback) (m : Move) (reachable : app.Reachable c) :
    (app.play p m).2.2.Reachable c := by
  simp only [App.play, Player.move]
  cases moved : p.move app.store.toState m with
  | error e => exact reachable
  | ok answer =>
    obtain ⟨more, q, s⟩ := answer
    rcases Playback.move_ok moved with rfl | ⟨count, restored⟩
    · exact reachable
    · have later := reachable.restore (p.recording.take count)
      rwa [restore_of_ok restored] at later

/-! ### Whole operations -/

/-- The applications that an application comes to by its operations, and by the calls of its listeners in
the midst of them. -/
inductive Attained (c : Config) : App σ → Prop
  | built {s : State} (memory : σ) : State.build c = .ok s → Attained c ⟨{ toState := s }, memory⟩
  | call {app after : App σ} : Attained c app → app.Call after → Attained c after
  | update {app after : App σ} {depth : Nat} {patch : Patch} {reply : Except StoreError Cycle} :
      Attained c app → app.update depth patch = some (reply, after) → Attained c after
  | rewind {app : App σ} (index : Nat) : Attained c app → Attained c (app.rewind index).2
  | play {app : App σ} (p : Playback) (m : Move) : Attained c app → Attained c (app.play p m).2.2

theorem Attained.reachable (attained : app.Attained c) : app.Reachable c := by
  induction attained with
  | built memory built => exact .built memory built
  | call _ call ih => exact ih.call call
  | update _ ran ih => exact ih.update ran
  | rewind index _ ih => exact ih.rewind index
  | play p m _ ih => exact ih.play p m

/-- A history is accepted exactly if it has a snapshot and all its snapshots hold the declared fields. -/
theorem Reachable.restore_ok_iff (reachable : app.Reachable c) {history : History} :
    (app.restore history).1 = .ok () ↔ history ≠ [] ∧ ∀ f ∈ history, f.Covers c.data.names := by
  have consistent := reachable.consistent
  have covers (f : Fields) : f.Covers c.data.names ↔ f.names.Perm c.data.names :=
    Table.covers_iff_perm consistent.distinct
  simp only [covers]
  constructor
  · intro accepted
    obtain ⟨s, restored⟩ := restore_accepted accepted
    obtain ⟨whole, last, found, _⟩ := consistent.restore_ok_iff.mp restored
    exact ⟨List.ne_nil_of_mem (List.mem_of_getLast? found), whole⟩
  · rintro ⟨kept, whole⟩
    have found := List.getLast?_eq_some_getLast kept
    rw [restore_of_ok (consistent.restore_ok_iff.mpr ⟨whole, _, found, rfl⟩)]

theorem Reachable.restored (reachable : app.Reachable c) {history : History}
    (accepted : (app.restore history).1 = .ok ()) :
    (app.restore history).2.store.history = history ∧
      history.getLast? = some (app.restore history).2.store.live := by
  obtain ⟨s, restored⟩ := restore_accepted accepted
  obtain ⟨_, last, found, rfl⟩ := reachable.consistent.restore_ok_iff.mp restored
  rw [restore_of_ok restored]
  exact ⟨rfl, found⟩

/-- Whatever is done to a store, its live fields and all its snapshots have exactly the declared names, and
there is a snapshot. A history is put in place exactly if it is such a history, and then its last snapshot
is live. -/
theorem Attained.fields_stay_declared (attained : app.Attained c) :
    app.store.live.Covers c.data.names ∧ app.store.history ≠ [] ∧
      (∀ f ∈ app.store.history, f.Covers c.data.names) ∧
      ∀ history,
        ((app.restore history).1 = .ok () ↔ history ≠ [] ∧ ∀ f ∈ history, f.Covers c.data.names) ∧
          ((app.restore history).1 = .ok () → (app.restore history).2.store.history = history ∧
            history.getLast? = some (app.restore history).2.store.live) := by
  have reachable := attained.reachable
  have consistent := reachable.consistent
  have covers {f : Fields} (same : f.names.Perm c.data.names) : f.Covers c.data.names :=
    (Table.covers_iff_perm consistent.distinct).mpr same
  exact ⟨covers consistent.live, consistent.kept, fun f member => covers (consistent.history f member),
    fun _ => ⟨reachable.restore_ok_iff, reachable.restored⟩⟩

end App

namespace Counter

/-- The counter, moved to the first snapshot of a recording from elsewhere. -/
def played : App Unit :=
  (app.play { recording := [.ofList [("x", .number .one)], .ofList [("y", .null)]] } .forward).2.2

end Counter

/-- The recording goes on with a snapshot of another store, which the counter refuses. -/
theorem played_counter_keeps_its_field :
    Counter.played.store.history = [.ofList [("x", .number .one)]] ∧
      Counter.played.store.live.Covers ["x"] ∧ (Counter.played.restore [.ofList [("y", .null)]]).1 ≠ .ok () := by
  have attained : Counter.played.Attained Counter.config := .play _ _ (.built () Counter.built)
  obtain ⟨live, _, _, histories⟩ := attained.fields_stay_declared
  have strange : "y" ∉ Counter.config.data.names := by decide
  refine ⟨by decide, live, fun accepted => ?_⟩
  have covers := ((histories _).1.mp accepted).2 _ (List.mem_singleton_self _)
  exact strange ((covers "y").mp (by decide))

end Rulebook
