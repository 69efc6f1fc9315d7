import FlowTrace.Session.Submit
import Mathlib.Algebra.Order.Group.Int

/-! # The transitions of a session

What each transition of a session can do, said once. An operation with several outcomes has one
statement that lists them together with the conditions under which they arise (`play_eq_ok`,
`move_cases`, `advance_cases`, and the three lemmas on `apply`); the transitions without a choice
are read field by field. **`Session.Shift`** gathers all transitions but the taking of an answer:
whatever holds before and is kept by every shift and by every answer holds forever. -/

namespace FlowTrace

namespace Session

variable {s s' : Session}

/-- The session after its cursor has gone to a step. -/
def goTo (s : Session) (step : Int) : Session :=
  { s with cursor := { s.cursor with step := step }, moves := s.moves + 1 }

/-- The session after a new ticker has been started. -/
def startTicker (s : Session) : Session :=
  { s with
    cursor := { s.cursor with playing := true }
    epoch := s.epoch + 1
    ticking := some (s.epoch + 1)
    tickers := ⟨s.epoch + 1, true⟩ :: s.tickers }

/-- The session after the last tick of the ticker of an epoch. -/
def finish (s : Session) (epoch : Nat) : Session :=
  { s.endTicker epoch with cursor := { s.cursor with playing := false }, ticking := none }

/-- The step that a tick goes to: the next one, if there is one. -/
def nextStep (s : Session) : Int :=
  if s.cursor.step < (s.stepCount : Int) - 1 then s.cursor.step + 1 else s.cursor.step

/-! ## Playback -/

/-- **Playing** is possible before the last step only. It starts a ticker, unless one runs. -/
theorem play_eq_ok {started : Bool} (h : s.play = .ok (s', started)) :
    s.cursor.step < (s.stepCount : Int) - 1 ∧
      (s.cursor.playing = true ∧ s' = s ∨ s.cursor.playing = false ∧ s' = s.startTicker) := by
  unfold play at h
  split at h
  · cases h
  · rename_i possible
    have before : s.cursor.step < (s.stepCount : Int) - 1 := by
      simp only [Bool.or_eq_true, decide_eq_true_eq, not_or, Int.not_le] at possible
      exact possible.1
    refine ⟨before, ?_⟩
    split at h
    · rename_i playing
      cases h
      exact Or.inl ⟨playing, rfl⟩
    · rename_i resting
      cases h
      exact Or.inr ⟨by simpa using resting, rfl⟩

/-- A **move by hand** stops the playback. It goes to a place within the steps, or nowhere. -/
theorem move_cases (s : Session) (delta : Int) :
    s.move delta = (s.stopPlayback, none) ∨
      (-1 ≤ s.cursor.step + delta ∧ s.cursor.step + delta ≤ (s.stepCount : Int) - 1 ∧
        s.move delta = (s.stopPlayback.goTo (s.cursor.step + delta),
          some (s.stopPlayback.goTo (s.cursor.step + delta)).lastMove)) := by
  by_cases out : s.cursor.step + delta < -1 ∨ (s.stepCount : Int) - 1 < s.cursor.step + delta
  · left
    unfold move
    rw [if_pos]
    rw [Bool.or_eq_true, decide_eq_true_eq, decide_eq_true_eq]
    exact out
  · right
    refine ⟨by omega, by omega, ?_⟩
    unfold move
    rw [if_neg]
    · rfl
    · rw [Bool.or_eq_true, decide_eq_true_eq, decide_eq_true_eq]
      exact out

/-- A **tick** only ends its ticker when it is outdated or nothing plays. Otherwise the cursor goes
on, and the playback is over with the last step. -/
theorem advance_cases (s : Session) (epoch : Nat) :
    ((epoch ≠ s.epoch ∨ s.cursor.playing = false) ∧
        s.advance epoch = (s.endTicker epoch, none)) ∨
      (epoch = s.epoch ∧ s.cursor.playing = true ∧ s.nextStep < (s.stepCount : Int) - 1 ∧
        s.advance epoch = (s.goTo s.nextStep, some (s.goTo s.nextStep).lastMove)) ∨
      (epoch = s.epoch ∧ s.cursor.playing = true ∧ (s.stepCount : Int) - 1 ≤ s.nextStep ∧
        s.advance epoch = ((s.goTo s.nextStep).finish epoch,
          some { ((s.goTo s.nextStep).finish epoch).lastMove with finished := true })) := by
  unfold advance
  split
  · rename_i outdated
    left
    refine ⟨?_, rfl⟩
    simpa [Bool.or_eq_true, bne_iff_ne] using outdated
  · rename_i current
    right
    -- The tick counts: its epoch is the current one, and the cursor plays.
    simp only [Bool.or_eq_true, bne_iff_ne, ne_eq, Bool.not_eq_true', not_or,
      Decidable.not_not, Bool.not_eq_false] at current
    obtain ⟨same, playing⟩ := current
    by_cases last : (s.stepCount : Int) - 1 ≤ s.nextStep
    · right
      refine ⟨same, playing, last, ?_⟩
      exact if_pos last
    · left
      refine ⟨same, playing, by omega, ?_⟩
      exact if_neg last

/-! ## Answers -/

/-- An answer that is not for the current generation is **discarded**: the session only forgets the
call. -/
theorem apply_of_ne {generation : Nat} (h : generation ≠ s.generation)
    (answer : Except Failure Result) :
    s.apply generation answer =
      ({ s with calls := s.calls.filter (·.generation != generation) }, .discarded) := by
  unfold apply
  exact if_pos (bne_iff_ne.2 h)

/-- A current answer that is a failure changes neither the result nor the cursor. -/
theorem apply_error (s : Session) (failure : Failure) :
    s.apply s.generation (.error failure) =
      ({ s with
          calls := s.calls.filter (·.generation != s.generation)
          holding := none, status := .failed, failure := some failure }, .failed failure) := by
  unfold apply
  exact if_neg (by simp)

/-- The session after it has **committed** a result. The ticker is not told to stop. -/
def commit (s : Session) (result : Result) : Session :=
  rewind { s with
    calls := s.calls.filter (·.generation != s.generation)
    holding := none, result := some result, status := .ready, failure := none }

/-- A current answer that is a result is committed. -/
theorem apply_ok (s : Session) (result : Result) :
    s.apply s.generation (.ok result) = (s.commit result, .completed result) := by
  unfold apply
  exact if_neg (by simp)

/-- **What an answer does**: it commits a result, or it changes nothing but the slots of the
request. -/
theorem apply_cases (s : Session) (generation : Nat) (answer : Except Failure Result) :
    (∃ result, generation = s.generation ∧ answer = .ok result ∧
        (s.apply generation answer).1 = s.commit result) ∨
      ((∀ result, ¬ (generation = s.generation ∧ answer = .ok result)) ∧
        ∃ calls holding status failure, (s.apply generation answer).1 =
          { s with calls := calls, holding := holding, status := status, failure := failure }) := by
  by_cases current : generation = s.generation
  · subst current
    cases answer with
    | error failure =>
      right
      constructor
      · rintro result ⟨-, committed⟩
        cases committed
      · rw [apply_error]
        exact ⟨_, _, _, _, rfl⟩
    | ok result =>
      left
      refine ⟨result, rfl, rfl, ?_⟩
      rw [apply_ok]
  · right
    constructor
    · rintro result ⟨same, -⟩
      exact current same
    · rw [apply_of_ne current]
      exact ⟨_, _, _, _, rfl⟩

/-! ## Shifts -/

/-- A **shift**: any transition of a session other than taking an answer. -/
inductive Shift (s : Session) : Session → Prop
  /-- Nothing happens. -/
  | stay : Shift s s
  /-- A request is made. -/
  | start (context : Context) : Shift s (s.start context)
  /-- The session starts over. -/
  | reset : Shift s s.reset
  /-- The playback runs by itself. -/
  | play {s' : Session} {started : Bool} (h : s.play = .ok (s', started)) : Shift s s'
  /-- The playback stops. -/
  | pause : Shift s s.stopPlayback
  /-- The cursor is moved by hand, by one step. -/
  | move {delta : Int} (single : delta = 1 ∨ delta = -1) : Shift s (s.move delta).1
  /-- A ticker ticks. -/
  | advance (epoch : Nat) : Shift s (s.advance epoch).1

/-- Two sessions have the **same slots** when they differ in their playback only. -/
structure SameSlots (s s' : Session) : Prop where
  /-- The policy is the same. -/
  policy : s'.policy = s.policy
  /-- The generation is the same. -/
  generation : s'.generation = s.generation
  /-- The status is the same. -/
  status : s'.status = s.status
  /-- The failure is the same. -/
  failure : s'.failure = s.failure
  /-- The result is the same. -/
  result : s'.result = s.result
  /-- The call that would be given up is the same. -/
  holding : s'.holding = s.holding
  /-- The calls on their way are the same. -/
  calls : s'.calls = s.calls

/-- **A shift keeps the slots**, unless it makes a request or starts over. -/
theorem Shift.slots (h : Shift s s') :
    SameSlots s s' ∨ (∃ context, s' = s.start context) ∨ s' = s.reset := by
  -- Playback touches the cursor, the moves, the epoch and the tickers, and no slot.
  cases h with
  | stay => exact Or.inl ⟨rfl, rfl, rfl, rfl, rfl, rfl, rfl⟩
  | start context => exact Or.inr (Or.inl ⟨context, rfl⟩)
  | reset => exact Or.inr (Or.inr rfl)
  | play h =>
    left
    rcases (play_eq_ok h).2 with ⟨-, rfl⟩ | ⟨-, rfl⟩
    all_goals exact ⟨rfl, rfl, rfl, rfl, rfl, rfl, rfl⟩
  | pause => exact Or.inl ⟨rfl, rfl, rfl, rfl, rfl, rfl, rfl⟩
  | @move delta single =>
    left
    rcases move_cases s delta with moved | ⟨-, -, moved⟩
    all_goals
      rw [moved]
      exact ⟨rfl, rfl, rfl, rfl, rfl, rfl, rfl⟩
  | advance epoch =>
    left
    rcases advance_cases s epoch with ⟨-, ticked⟩ | ⟨-, -, -, ticked⟩ | ⟨-, -, -, ticked⟩
    all_goals
      rw [ticked]
      exact ⟨rfl, rfl, rfl, rfl, rfl, rfl, rfl⟩

/-- A shift takes no move back. -/
theorem Shift.moves_le (h : Shift s s') : s.moves ≤ s'.moves := by
  cases h with
  | stay => exact Nat.le_refl _
  | start context => exact Nat.le_succ s.moves
  | reset => exact Nat.le_succ s.moves
  | play h =>
    rcases (play_eq_ok h).2 with ⟨-, rfl⟩ | ⟨-, rfl⟩
    all_goals exact Nat.le_refl _
  | pause => exact Nat.le_refl _
  | @move delta single =>
    rcases move_cases s delta with moved | ⟨-, -, moved⟩
    · rw [moved]
      exact Nat.le_refl s.moves
    · rw [moved]
      exact Nat.le_succ s.moves
  | advance epoch =>
    rcases advance_cases s epoch with ⟨-, ticked⟩ | ⟨-, -, -, ticked⟩ | ⟨-, -, -, ticked⟩
    · rw [ticked]
      exact Nat.le_refl s.moves
    all_goals
      rw [ticked]
      exact Nat.le_succ s.moves

/-- An answer takes no move back. -/
theorem moves_le_apply (s : Session) (generation : Nat) (answer : Except Failure Result) :
    s.moves ≤ (s.apply generation answer).1.moves := by
  rcases s.apply_cases generation answer with ⟨result, -, -, committed⟩ |
    ⟨-, calls, holding, status, failure, kept⟩
  · rw [committed]
    exact Nat.le_succ s.moves
  · rw [kept]

end Session

namespace Stage

/-- An act is a shift of the session. -/
theorem shift_act (stage : Stage) (a : Act) :
    Session.Shift stage.session (stage.act a).1.session := by
  cases a with
  | play =>
    simp only [act]
    split
    · exact .stay
    · rename_i played
      exact .play played
  | pause => exact .pause
  | forward => exact .move (Or.inl rfl)
  | back => exact .move (Or.inr rfl)
  | reset => exact .reset

/-- **An act changes nothing but the session**: what it leaves to be seen, it leaves to its tasks. -/
theorem act_eq (stage : Stage) (a : Act) :
    (stage.act a).1 = { stage with session := (stage.act a).1.session } := by
  cases a with
  | play =>
    simp only [act]
    split <;> rfl
  | pause => rfl
  | forward => rfl
  | back => rfl
  | reset => rfl

/-- A listener that acts is gone, and otherwise nothing but the session changes. -/
theorem listen_eq (stage : Stage) (kind : Text) :
    let after := (stage.doTask (.listen kind)).1
    after = { stage with session := after.session, listeners := after.listeners } := by
  simp only [doTask]
  split
  · rfl
  · rename_i a listeners _
    have acted := act_eq { stage with listeners := listeners } a
    rw [acted]

/-- Taking an answer changes nothing but the session. -/
theorem conclude_eq (stage : Stage) (generation : Nat) (answer : Except Failure Result) :
    (stage.conclude generation answer).1 =
      { stage with session := (stage.conclude generation answer).1.session } := by
  simp only [conclude]
  split <;> rfl

/-- Displaying a move leaves the session alone. -/
@[simp] theorem session_present (stage : Stage) (move : Move) :
    (stage.present move).session = stage.session := by
  unfold present clearHighlight highlightNode narrate note
  (repeat' split) <;> rfl

/-- Clearing the highlight leaves the session alone. -/
@[simp] theorem session_clearHighlight (stage : Stage) :
    stage.clearHighlight.session = stage.session := by
  unfold clearHighlight note
  split <;> rfl

/-- A task shifts the session, through the act of a listener, or leaves it alone. -/
theorem shift_doTask (stage : Stage) (task : Task) :
    Session.Shift stage.session (stage.doTask task).1.session := by
  cases task with
  | clearHighlight =>
    rw [doTask, session_clearHighlight]
    exact .stay
  | announce event =>
    simp only [doTask]
    split <;> exact .stay
  | report move =>
    simp only [doTask, display]
    split
    · exact .stay
    · rw [session_present]
      exact .stay
  | listen kind =>
    simp only [doTask]
    split
    · exact .stay
    · rename_i a listeners taken
      -- The listener is used up before it acts, which the session does not see.
      exact shift_act { stage with listeners := listeners } a

end Stage

end FlowTrace
