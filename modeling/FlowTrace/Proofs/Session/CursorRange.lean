import FlowTrace.Proofs.Session.Weave

/-! # The range of the cursor

The cursor of a session stands before the first step or on a step of the result, and it plays only
while there is a step to go to (`Session.InRange`). The result is swapped by requests, answers and
resets, the cursor is moved by hand and by ticks; but whatever swaps the result also puts the cursor
before the first step, and whatever moves the cursor asks how many steps there are. So each
transition keeps the range, and it holds in every run (`Weave.cursor_within_steps`). -/

namespace FlowTrace

namespace Session

variable {s s' : Session}

/-- The cursor is **in range**. -/
structure InRange (s : Session) : Prop where
  /-- It is not before the place in front of the first step. -/
  lower : -1 ≤ s.cursor.step
  /-- It is not behind the last step. -/
  upper : s.cursor.step ≤ (s.stepCount : Int) - 1
  /-- It plays only before the last step. -/
  playing : s.cursor.playing = true → s.cursor.step < (s.stepCount : Int) - 1

/-- A cursor in front of the first step that does not play is in range, whatever the result. -/
theorem inRange_of_idle (h : s.cursor = {}) : InRange s := by
  refine ⟨?_, ?_, ?_⟩
  · rw [h]
  · rw [h]
    show (-1 : Int) ≤ (s.stepCount : Int) - 1
    omega
  · intro playing
    rw [h] at playing
    cases playing

/-- A cursor that does not play is in range on every step of the result. -/
theorem inRange_of_resting (resting : s.cursor.playing = false) (lower : -1 ≤ s.cursor.step)
    (upper : s.cursor.step ≤ (s.stepCount : Int) - 1) : InRange s := by
  refine ⟨lower, upper, fun playing => ?_⟩
  rw [resting] at playing
  cases playing

/-- Stopping the playback keeps the range. -/
theorem InRange.stopPlayback (h : InRange s) : InRange s.stopPlayback :=
  inRange_of_resting rfl h.lower h.upper

/-- A tick goes to a step of the result. -/
theorem InRange.nextStep (h : InRange s) :
    -1 ≤ s.nextStep ∧ s.nextStep ≤ (s.stepCount : Int) - 1 := by
  have lower := h.lower
  have upper := h.upper
  unfold Session.nextStep
  split
  · omega
  · exact ⟨lower, upper⟩

/-- **Every shift keeps the range.** -/
theorem InRange.shift (h : InRange s) (shifted : Shift s s') : InRange s' := by
  -- A shift that swaps the result also puts the cursor back, so that no step count is compared.
  cases shifted with
  | stay => exact h
  | start context => exact inRange_of_idle rfl
  | reset => exact inRange_of_idle rfl
  | play played =>
    obtain ⟨before, ⟨-, rfl⟩ | ⟨-, rfl⟩⟩ := play_eq_ok played
    · exact h
    · exact ⟨h.lower, h.upper, fun _ => before⟩
  | pause => exact h.stopPlayback
  | @move delta single =>
    rcases move_cases s delta with moved | ⟨lower, upper, moved⟩
    · rw [moved]
      exact h.stopPlayback
    · rw [moved]
      exact inRange_of_resting rfl lower upper
  | advance epoch =>
    obtain ⟨lower, upper⟩ := h.nextStep
    rcases advance_cases s epoch with ⟨-, ticked⟩ | ⟨-, -, before, ticked⟩ | ⟨-, -, -, ticked⟩
    · rw [ticked]
      exact ⟨h.lower, h.upper, h.playing⟩
    · rw [ticked]
      exact ⟨lower, upper, fun _ => before⟩
    · rw [ticked]
      exact inRange_of_resting rfl lower upper

/-- **Every answer keeps the range**: a result that comes in puts the cursor before its first step,
and no other answer touches the result or the cursor. -/
theorem InRange.apply (h : InRange s) (generation : Nat) (answer : Except Failure Result) :
    InRange (s.apply generation answer).1 := by
  rcases s.apply_cases generation answer with ⟨result, -, -, committed⟩ |
    ⟨-, calls, holding, status, failure, kept⟩
  · rw [committed]
    exact inRange_of_idle rfl
  · rw [kept]
    exact ⟨h.lower, h.upper, h.playing⟩

/-- A cursor that plays has a result to play. -/
theorem InRange.result_of_playing (h : InRange s) (playing : s.cursor.playing = true) :
    ∃ result, s.result = some result ∧ s.cursor.step < (result.steps.length : Int) - 1 := by
  have before := h.playing playing
  have lower := h.lower
  cases present : s.result with
  | none =>
    rw [stepCount, present, stepCount_none] at before
    omega
  | some result =>
    rw [stepCount, present, stepCount_some] at before
    exact ⟨result, rfl, before⟩

/-- Without a result the cursor is in front of the first step, and does not play. -/
theorem InRange.idle_of_none (h : InRange s) (empty : s.result = none) :
    s.cursor.step = -1 ∧ s.cursor.playing = false := by
  have lower := h.lower
  have upper := h.upper
  have before := h.playing
  rw [stepCount, empty, stepCount_none] at upper before
  refine ⟨by omega, ?_⟩
  cases playing : s.cursor.playing with
  | false => rfl
  | true =>
    have behind := before playing
    omega

end Session

namespace Weave

/-- The cursor is in range at the end of every run. -/
theorem inRange_run (policy : ClearPolicy) (surroundings : Surroundings)
    (listeners : List (Text × Act)) (turns : List Turn) :
    ((fresh policy surroundings listeners).run turns).session.InRange :=
  session_run (fun _ _ shifted kept => kept.shift shifted)
    (fun _ generation answer kept => kept.apply generation answer)
    (Session.inRange_of_idle rfl) turns

/-- **The cursor stays within the steps of the result**, under either policy and in every
interleaving of submissions, answers, resets, acts and ticks of any tickers; and it plays only while
there is a result with a step to go to. -/
theorem cursor_within_steps (policy : ClearPolicy) (surroundings : Surroundings)
    (listeners : List (Text × Act)) (turns : List Turn) :
    let s := ((fresh policy surroundings listeners).run turns).session
    (-1 ≤ s.cursor.step ∧ s.cursor.step ≤ (stepCount s.result : Int) - 1) ∧
      (s.cursor.playing = true →
        ∃ result, s.result = some result ∧ s.cursor.step < (result.steps.length : Int) - 1) := by
  intro s
  have range := inRange_run policy surroundings listeners turns
  exact ⟨⟨range.lower, range.upper⟩, range.result_of_playing⟩

end Weave

end FlowTrace
