import FlowTrace.Proofs.Session.Slots
import FlowTrace.Proofs.Session.Tickers

/-! # Outdated tickers

A ticker may tick at any later moment, also after the playback it was made for is over and others
have begun. A ticker is **outdated** once its tick would only end it (`Session.Outdated`); it is
then outdated forever (`Session.Outdated.shift`, `Session.Outdated.commit`). Whatever halts the
playback outdates all tickers made so far: a pause, a move by hand, a reset and a submission by
going on to the next epoch, and a committed result, which stays in the epoch, by leaving the cursor
at rest.

The main statement, `Weave.halted_tickers_idle`, says that a tick of a ticker that was halted once
has no effect, in every interleaving and however often the playback was started again; and that
there is never more than one ticker that can still move the cursor. -/

namespace FlowTrace

namespace Session

variable {s s' : Session} {epoch : Nat}

/-- The epochs of the tickers ever made, the latest first. -/
def epochs (s : Session) : List Nat := s.tickers.map (·.epoch)

/-- A tick of the ticker of an epoch **counts** while its epoch is the current one and the cursor
plays. -/
def Counts (s : Session) (epoch : Nat) : Prop := epoch = s.epoch ∧ s.cursor.playing = true

/-- The ticker of an epoch is **outdated**: it was made, and the current epoch is a later one, or
the cursor is at rest. -/
structure Outdated (s : Session) (epoch : Nat) : Prop where
  /-- The ticker was made. -/
  made : epoch ∈ s.epochs
  /-- Its epoch has begun. -/
  begun : epoch ≤ s.epoch
  /-- Its ticks do not count. -/
  idle : ¬ s.Counts epoch

/-- Tickers are **numbered** when each has an epoch of its own, and none is yet to come. -/
structure Numbered (s : Session) : Prop where
  /-- Every epoch has begun. -/
  begun : ∀ epoch ∈ s.epochs, epoch ≤ s.epoch
  /-- No epoch has two tickers. -/
  distinct : s.epochs.Nodup

/-! ## Epochs -/

/-- Silencing tickers keeps their epochs. -/
theorem epochs_silenced (tickers : List Ticker) (silent : Ticker → Bool) :
    (tickers.map fun ticker =>
        if silent ticker then { ticker with running := false } else ticker).map (·.epoch) =
      tickers.map (·.epoch) := by
  rw [List.map_map]
  refine List.map_congr_left fun ticker _ => ?_
  rw [Function.comp_apply]
  split <;> rfl

/-- Stopping keeps the epochs. -/
@[simp] theorem epochs_stopPlayback (s : Session) : s.stopPlayback.epochs = s.epochs :=
  epochs_silenced ..

/-- The end of a ticker keeps the epochs. -/
@[simp] theorem epochs_endTicker (s : Session) (ended : Nat) :
    (s.endTicker ended).epochs = s.epochs :=
  epochs_silenced ..

/-- A new ticker begins an epoch. -/
@[simp] theorem epochs_startTicker (s : Session) :
    s.startTicker.epochs = (s.epoch + 1) :: s.epochs := rfl

/-- **What a shift does to the epochs.** A ticker of the next epoch is started; or there are the
tickers as before, in a later epoch, or in the same one with the cursor at rest unless it played
before. -/
theorem Shift.epochs (h : Shift s s') :
    (s'.epochs = (s.epoch + 1) :: s.epochs ∧ s'.epoch = s.epoch + 1) ∨
      (s'.epochs = s.epochs ∧ (s.epoch < s'.epoch ∨
        s'.epoch = s.epoch ∧ (s'.cursor.playing = true → s.cursor.playing = true))) := by
  have made {s s'' : Session} (same : s.playback = s''.playback) :
      s.epochs = s''.epochs ∧ s.epoch = s''.epoch ∧ s.cursor.playing = s''.cursor.playing := by
    simp only [Session.playback, Prod.mk.injEq] at same
    exact ⟨congrArg (List.map _) same.2.2.1, same.1, same.2.2.2⟩
  rcases h.playback with same | same | ⟨-, same⟩ | ⟨ended, -, same⟩ | ⟨playing, same⟩
  all_goals obtain ⟨epochs, epoch, playing'⟩ := made same
  · exact Or.inr ⟨epochs, Or.inr ⟨epoch, by rw [playing']; exact id⟩⟩
  · right
    rw [epochs_stopPlayback] at epochs
    exact ⟨epochs, Or.inl (by rw [epoch]; exact Nat.lt_succ_self _)⟩
  · exact Or.inl ⟨epochs, epoch⟩
  · right
    rw [epochs_endTicker] at epochs
    exact ⟨epochs, Or.inr ⟨epoch, by rw [playing']; exact id⟩⟩
  · exact Or.inr ⟨epochs.trans (epochs_endTicker ..), Or.inr ⟨epoch, fun _ => playing⟩⟩

/-- Each ticker that is started has the next epoch, so that tickers stay numbered. -/
theorem Numbered.shift (h : s.Numbered) (shifted : Shift s s') : s'.Numbered := by
  rcases shifted.epochs with ⟨epochs, epoch⟩ | ⟨epochs, later⟩
  · constructor
    · intro other member
      rw [epochs] at member
      rcases List.mem_cons.1 member with rfl | old
      · exact epoch.ge
      · exact (h.begun other old).trans (by omega)
    · rw [epochs]
      refine List.nodup_cons.2 ⟨fun member => ?_, h.distinct⟩
      exact absurd (h.begun _ member) (Nat.not_succ_le_self _)
  · constructor
    · intro other member
      rw [epochs] at member
      exact (h.begun other member).trans (by omega)
    · rw [epochs]
      exact h.distinct

/-! ## Outdated forever -/

/-- A tick of an outdated ticker only ends the ticker. -/
theorem Outdated.advance (h : s.Outdated epoch) : s.advance epoch = (s.endTicker epoch, none) := by
  rcases s.advance_cases epoch with ⟨-, ticked⟩ | ⟨same, playing, -⟩ | ⟨same, playing, -⟩
  · exact ticked
  all_goals exact absurd ⟨same, playing⟩ h.idle

/-- What goes on to a later epoch outdates all tickers. -/
theorem outdated_of_lt (made : epoch ∈ s'.epochs) (past : epoch < s'.epoch) :
    s'.Outdated epoch :=
  ⟨made, past.le, fun counts => past.ne counts.1⟩

/-- A shift leaves outdated tickers outdated. -/
theorem Outdated.shift (h : s.Outdated epoch) (shifted : Shift s s') : s'.Outdated epoch := by
  have begun := h.begun
  rcases shifted.epochs with ⟨epochs, next⟩ | ⟨epochs, later | ⟨same, still⟩⟩
  · exact outdated_of_lt (epochs ▸ List.mem_cons_of_mem _ h.made) (by omega)
  · exact outdated_of_lt (epochs ▸ h.made) (by omega)
  · refine ⟨epochs ▸ h.made, same ▸ begun, fun counts => h.idle ⟨same ▸ counts.1, ?_⟩⟩
    exact still counts.2

/-- A committed result leaves the cursor at rest, which outdates all tickers. -/
theorem outdated_commit (made : epoch ∈ s.epochs) (begun : epoch ≤ s.epoch) (result : Result) :
    (s.commit result).Outdated epoch :=
  ⟨made, begun, fun counts => absurd counts.2 nofun⟩

/-- An answer leaves outdated tickers outdated. -/
theorem Outdated.apply (h : s.Outdated epoch) (generation : Nat)
    (answer : Except Failure Result) : (s.apply generation answer).1.Outdated epoch := by
  rcases s.apply_cases generation answer with ⟨result, -, -, committed⟩ |
    ⟨-, calls, holding, status, failure, kept⟩
  · rw [committed]
    exact outdated_commit h.made h.begun result
  · rw [kept]
    exact ⟨h.made, h.begun, h.idle⟩

end Session

namespace Stage

/-- Every act but playing goes on to a later epoch, with the tickers as before. -/
theorem epoch_lt_act (stage : Stage) {a : Act} (halting : a ≠ .play) :
    (stage.act a).1.session.epochs = stage.session.epochs ∧
      stage.session.epoch < (stage.act a).1.session.epoch := by
  have manual (delta : Int) : (stage.session.move delta).1.epochs = stage.session.epochs ∧
      stage.session.epoch < (stage.session.move delta).1.epoch := by
    rcases stage.session.move_cases delta with moved | ⟨-, -, moved⟩
    all_goals
      rw [moved]
      exact ⟨Session.epochs_silenced .., Nat.lt_succ_self _⟩
  cases a with
  | play => exact absurd rfl halting
  | pause => exact ⟨Session.epochs_silenced .., Nat.lt_succ_self _⟩
  | forward => exact manual 1
  | back => exact manual (-1)
  | reset => exact ⟨Session.epochs_silenced .., Nat.lt_succ_self _⟩

end Stage

namespace Weave

variable {first w : Weave} {turns : List Turn} {t : Turn} {a : Act} {epoch : Nat}

/-! ## Acts of users and of listeners -/

/-- A turn **does** an act, its own or that of a listener. -/
def Does (w : Weave) (t : Turn) (a : Act) : Prop :=
  t = .act a ∨ ∃ place kind rest sequel listeners, t = .work place ∧
    w.strands[place]? = some (.busy (.listen kind :: rest) sequel) ∧
    Stage.takeListener w.stage.listeners kind = some (a, listeners)

/-- The session after an act. -/
theorem session_of_does (does : w.Does t a) :
    ∃ stage : Stage, stage.session = w.session ∧ (w.turn t).session = (stage.act a).1.session := by
  rcases does with rfl | ⟨place, kind, rest, sequel, listeners, rfl, found, taken⟩
  · exact ⟨w.stage, rfl, rfl⟩
  · -- The listener is used up before it acts.
    refine ⟨{ w.stage with listeners := listeners }, rfl, ?_⟩
    simp only [turn, found, doTask, Stage.doTask, taken]
    rfl

/-- A turn **starts** the ticker of an epoch: it plays, and the playback did not run. -/
def Starts (w : Weave) (t : Turn) (epoch : Nat) : Prop :=
  w.Does t .play ∧ epoch = w.session.epoch + 1 ∧ ∃ s, w.session.play = .ok (s, true)

/-- A turn **halts** the playback: it pauses, moves the cursor by hand, resets the session, makes a
submission or commits a result. -/
def Halts (w : Weave) (t : Turn) : Prop :=
  (∃ a, a ≠ .play ∧ w.Does t a) ∨ Submits t ∨ w.Commits t

/-- The ticker of an epoch was **halted** in a run: it was started by some turn, and a later one
halted the playback. -/
def Halted (first : Weave) (turns : List Turn) (epoch : Nat) : Prop :=
  ∃ before start between halt after, turns = before ++ start :: (between ++ halt :: after) ∧
    (first.run before).Starts start epoch ∧
    (first.run (before ++ start :: between)).Halts halt

/-! ## What a turn does to tickers -/

/-- A ticker that is started is made, and its epoch has begun. -/
theorem Starts.made (starts : w.Starts t epoch) :
    epoch ∈ (w.turn t).session.epochs ∧ epoch ≤ (w.turn t).session.epoch := by
  obtain ⟨does, rfl, s, played⟩ := starts
  obtain ⟨stage, same, session⟩ := session_of_does does
  have started : (w.turn t).session = w.session.startTicker := by
    rw [session, Stage.act, same, played]
    rcases (Session.play_eq_ok played).2 with ⟨playing, -⟩ | ⟨-, rfl⟩
    · -- A cursor that plays already starts no ticker.
      have stays : w.session.play = .ok (w.session, false) ∨ ∃ e, w.session.play = .error e := by
        unfold Session.play
        rw [playing]
        split
        · exact Or.inr ⟨_, rfl⟩
        · exact Or.inl rfl
      rcases stays with stays | ⟨e, stays⟩
      all_goals
        rw [played] at stays
        cases stays
    · rfl
  rw [started]
  exact ⟨List.mem_cons_self .., Nat.le_refl _⟩

/-- A turn leaves outdated tickers outdated. -/
theorem outdated_turn (w : Weave) (t : Turn) (outdated : w.session.Outdated epoch) :
    (w.turn t).session.Outdated epoch := by
  rcases w.session_turn t with ⟨place, generation, answer, concludes⟩ | ⟨-, shifted⟩
  · rw [session_conclude concludes]
    exact outdated.apply generation answer
  · exact outdated.shift shifted

/-- Made tickers stay made. -/
theorem made_turn (w : Weave) (t : Turn)
    (made : epoch ∈ w.session.epochs ∧ epoch ≤ w.session.epoch) :
    epoch ∈ (w.turn t).session.epochs ∧ epoch ≤ (w.turn t).session.epoch := by
  rcases w.session_turn t with ⟨place, generation, answer, concludes⟩ | ⟨-, shifted⟩
  · rw [session_conclude concludes]
    rcases w.session.apply_cases generation answer with ⟨result, -, -, committed⟩ |
      ⟨-, calls, holding, status, failure, kept⟩
    · rw [committed]
      exact made
    · rw [kept]
      exact made
  · rcases shifted.epochs with ⟨epochs, next⟩ | ⟨epochs, later⟩
    · exact ⟨epochs ▸ List.mem_cons_of_mem _ made.1, by omega⟩
    · exact ⟨epochs ▸ made.1, by omega⟩

/-- **What halts the playback outdates every ticker made so far.** -/
theorem Halts.outdated (halts : w.Halts t)
    (made : epoch ∈ w.session.epochs ∧ epoch ≤ w.session.epoch) :
    (w.turn t).session.Outdated epoch := by
  rcases halts with ⟨a, halting, does⟩ | ⟨code, language, context, rfl, accepted⟩ |
    ⟨place, result, concludes⟩
  · obtain ⟨stage, same, session⟩ := session_of_does does
    obtain ⟨epochs, later⟩ := stage.epoch_lt_act halting
    rw [session]
    rw [same] at epochs later
    exact Session.outdated_of_lt (epochs ▸ made.1) (Nat.lt_of_le_of_lt made.2 later)
  · rw [session_submit accepted]
    exact Session.outdated_of_lt (by
      show epoch ∈ Session.epochs _
      rw [show (w.session.start context).epochs = w.session.epochs from
        Session.epochs_silenced ..]
      exact made.1) (Nat.lt_succ_of_le made.2)
  · rw [session_conclude concludes, Session.apply_ok]
    exact Session.outdated_commit made.1 made.2 result

/-- A ticker that was halted is outdated for the rest of the run. -/
theorem Halted.outdated (halted : Halted first turns epoch) :
    (first.run turns).session.Outdated epoch := by
  obtain ⟨before, start, between, halt, after, rfl, starts, halts⟩ := halted
  have made := run_of_turn (P := fun w => epoch ∈ w.session.epochs ∧ epoch ≤ w.session.epoch)
    made_turn starts.made between
  rw [run_append, run_cons] at halts
  have outdated := halts.outdated made
  rw [run_append, run_cons, run_append, run_cons]
  exact run_of_turn (P := fun w => w.session.Outdated epoch) outdated_turn outdated after

/-- The tickers of a run are numbered. -/
theorem numbered_run (start : first.session.Numbered) (turns : List Turn) :
    (first.run turns).session.Numbered :=
  session_run (P := Session.Numbered) (fun _ _ shifted h => h.shift shifted)
    (fun s generation answer h => by
      rcases s.apply_cases generation answer with ⟨result, -, -, committed⟩ |
        ⟨-, calls, holding, status, failure, kept⟩
      · rw [committed]
        exact ⟨h.begun, h.distinct⟩
      · rw [kept]
        exact ⟨h.begun, h.distinct⟩) start turns

/-! ## Ticks -/

/-- A tick of an outdated ticker ends the ticker and does nothing else: the session stays as it is,
and the operation has no task to do. -/
theorem turn_tick_of_outdated (outdated : w.session.Outdated epoch) :
    w.turn (.tick epoch) =
      w.begin { w.stage with session := w.session.endTicker epoch } (.busy [] .nothing) := by
  have found : w.session.tickers.any (·.epoch == epoch) = true := by
    obtain ⟨ticker, member, rfl⟩ := List.mem_map.1 outdated.made
    exact List.any_eq_true.2 ⟨ticker, member, beq_self_eq_true _⟩
  simp only [turn, found, if_true, Stage.advance, outdated.advance]
  rfl

/-- The ticker of an epoch **can move the cursor** with its next tick. -/
def CanMove (w : Weave) (epoch : Nat) : Prop :=
  (w.turn (.tick epoch)).session.cursor ≠ w.session.cursor

/-- Only a tick that counts moves the cursor. -/
theorem CanMove.counts (moves : w.CanMove epoch) : w.session.Counts epoch := by
  unfold CanMove at moves
  simp only [turn] at moves
  split at moves
  · rcases w.session.advance_cases epoch with ⟨-, ticked⟩ | ⟨same, playing, -⟩ |
      ⟨same, playing, -⟩
    · refine absurd ?_ moves
      show (w.session.advance epoch).1.cursor = _
      rw [ticked]
      rfl
    all_goals exact ⟨same, playing⟩
  · exact absurd rfl moves

/-- **Halted tickers stay idle**, in every interleaving of submissions, answers, acts and ticks.
Once the playback was halted, by a pause, a move by hand, a reset, a submission or a committed
result, a tick of a ticker started before only ends that ticker: no field of the session changes,
nothing is noted, and nothing is left to do. Every ticker has an epoch of its own, and at most one
of them can still move the cursor. -/
theorem halted_tickers_idle (policy : ClearPolicy) (surroundings : Surroundings)
    (listeners : List (Text × Act)) (turns : List Turn) :
    let first := fresh policy surroundings listeners
    let w := first.run turns
    (∀ epoch, Halted first turns epoch →
      w.turn (.tick epoch) =
        { w with
          stage := { w.stage with session := { w.session with
            tickers := w.session.tickers.map fun ticker =>
              if ticker.epoch == epoch then { ticker with running := false } else ticker } }
          strands := w.strands ++ [.busy [] .nothing] }) ∧
    w.session.epochs.Nodup ∧
    ∀ epoch other, w.CanMove epoch → w.CanMove other → epoch = other := by
  intro first w
  have start : first.session.Numbered := ⟨nofun, List.nodup_nil⟩
  refine ⟨fun epoch halted => turn_tick_of_outdated halted.outdated,
    (numbered_run start turns).distinct, fun epoch other moves moves' => ?_⟩
  exact moves.counts.1.trans moves'.counts.1.symm

/-- The ticker that a committed result abandons is **halted**. -/
theorem halted_playedOn : Halted (fresh .preserveOnFailure {} []) playedOn 3 :=
  ⟨[.submit "x" "python" .live] ++ asking 0 ++ completing 0 ++
      [.submit "y" "python" .live] ++ asking 1,
    .act .play, [.work 2, .work 2, .reply 1 .live (.ok (some oneStep))], .conclude 1,
    [.work 1, .work 1], rfl, ⟨Or.inl rfl, rfl, _, rfl⟩, Or.inr (Or.inr ⟨1, _, rfl, rfl⟩)⟩

/-- A tick of that ticker leaves the cursor alone; when the new result is played, it is the new
ticker that can move the cursor. -/
theorem halted_tickers_idle_playedOn :
    Halted (fresh .preserveOnFailure {} []) playedOn 3 ∧
      (((fresh .preserveOnFailure {} []).run playedOn).turn (.tick 3)).session.cursor =
        ((fresh .preserveOnFailure {} []).run playedOn).session.cursor ∧
      ((fresh .preserveOnFailure {} []).run (playedOn ++ [.act .play])).CanMove 4 := by
  refine ⟨halted_playedOn, ?_, ?_⟩
  · rw [(halted_tickers_idle .preserveOnFailure {} [] playedOn).1 3 halted_playedOn]
  · show ¬ (_ : Cursor) = _
    decide

end Weave

end FlowTrace
