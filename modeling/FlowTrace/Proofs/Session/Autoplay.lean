import FlowTrace.Proofs.Session.Broadcast
import Mathlib.Data.List.TakeDrop
import Mathlib.Logic.Function.Iterate

/-! # Playing to the end

A play lets a ticker run, and every tick of it goes one step on. When nothing else happens, the
steps behind the cursor are shown one after the other, each once and with its own event, until the
last one is there; then the playback is over, and a further tick does nothing (`Stage.autoplay`).

The induction is on the ticks. What it carries is that some first steps of the result have been
shown, and that the playback runs as long as there are more of them (`Stage.Plays`). -/

namespace FlowTrace

/-- The steps that a playback **shows** when it goes on behind the first ones: some of those that
are left, each with its index. -/
def Result.shown (result : Result) (first count : Nat) : List (Step × Nat) :=
  (result.steps.zipIdx.drop first).take count

/-- The event of a step with its index. -/
def shownEvent (generation : Nat) (entry : Step × Nat) : Event :=
  Stage.event Event.playbackStep generation
    (.moved entry.2 entry.1.nodeId entry.1.description)

/-- The texts of steps: their descriptions, as far as there are any. -/
def shownTexts (entries : List (Step × Nat)) : List Text :=
  (entries.map fun entry => entry.1.description).filter fun text => !text.isEmpty

/-- The event at the end of a playback. -/
def finishedEvent (generation : Nat) : Event :=
  Stage.event Event.playbackFinished generation .nothing

namespace Result

variable {result : Result} {first : Nat}

/-- In no ticks nothing is shown. -/
@[simp] theorem shown_zero : result.shown first 0 = [] := List.take_zero

/-- One step more is shown, as long as there is one. -/
theorem shown_succ {count : Nat} (inside : first + count < result.steps.length) :
    result.shown first (count + 1) =
      result.shown first count ++ [(result.steps[first + count], first + count)] := by
  have found : (result.steps.zipIdx.drop first)[count]? =
      some (result.steps[first + count], first + count) := by
    rw [List.getElem?_drop, List.getElem?_zipIdx, List.getElem?_eq_getElem inside]
    simp
  rw [shown, shown, List.take_add_one, found]
  rfl

/-- No more than all steps are shown. -/
theorem shown_of_le {count : Nat} (beyond : result.steps.length ≤ first + count) :
    result.shown first count = result.shown first (result.steps.length - first) := by
  have length : (result.steps.zipIdx.drop first).length = result.steps.length - first := by simp
  rw [shown, shown, List.take_of_length_le (by omega), List.take_of_length_le (by omega)]

end Result

namespace Stage

variable {stage stage' : Stage} {result : Result} {first : Nat}

/-- No listener answers what a playback tells while it runs. -/
def Undisturbed (stage : Stage) : Prop :=
  ∀ kind ∈ [Event.playbackStarted, Event.playbackStep, Event.playbackFinished],
    stage.Unanswered kind

/-- What is broadcast leaves a stage undisturbed. -/
theorem Broadcasts.undisturbed {events : List Event} {texts : List Text}
    (h : Broadcasts stage events texts stage') (quiet : stage.Undisturbed) : stage'.Undisturbed :=
  fun kind member => h.unanswered (quiet kind member)

/-- On an undisturbed stage the report of a move is heedless. -/
theorem Undisturbed.heedless (quiet : stage.Undisturbed) (move : Move) :
    ∀ task ∈ [Task.report move], stage.Heedless task := by
  intro task member
  rw [List.mem_singleton.1 member]
  intro event member
  unfold Task.events moveEvents at member
  rcases List.mem_cons.1 member with rfl | last
  · exact quiet _ (by simp [stepEvent, Stage.event])
  · split at last
    · rw [List.mem_singleton.1 last]
      exact quiet _ (by simp [Stage.event])
    · cases last

/-! ## One tick -/

/-- The move to a step of the result. -/
theorem lastMove_eq {s : Session} {m : Nat} (ready : s.result = some result)
    (here : s.cursor.step = m) (inside : m < result.steps.length) :
    s.lastMove = ⟨s.generation, m, result.steps[m], result.flowchart, false, s.moves⟩ := by
  have step : result.step? (m : Int) = some result.steps[m] := by
    rw [Result.step?, if_neg (by omega), Int.toNat_natCast, List.getElem?_eq_getElem inside]
  rw [Session.lastMove, Session.currentStep?, ready, here, Option.bind_some, step]
  rfl

/-- The move to a step broadcasts the event of the step and its text. -/
theorem broadcasts_shown {move : Move} (entry : Step × Nat) (index : move.index = entry.2)
    (step : move.step = entry.1) :
    stepEvent move = shownEvent move.generation entry ∧ moveTexts move = shownTexts [entry] := by
  constructor
  · rw [stepEvent, shownEvent, index, step]
  · rw [moveTexts, shownTexts, index, step]
    by_cases empty : entry.1.description = []
    · simp [empty]
    · simp [empty]

/-- A tick that moves the cursor reports the move. -/
theorem tick_of_move {epoch : Nat} {s : Session} {move : Move}
    (ticked : stage.session.advance epoch = (s, some move)) :
    stage.tick epoch = ({ stage with session := s } : Stage).carryOut [.report move] := by
  unfold tick advance
  rw [ticked]
  rfl

/-- A tick that moves nothing changes the session at most. -/
theorem tick_of_none {epoch : Nat} {s : Session}
    (ticked : stage.session.advance epoch = (s, none)) :
    stage.tick epoch = { stage with session := s } := by
  unfold tick advance
  rw [ticked]
  exact carryOut.eq_1 _

/-- A ticker that has ended ends no further. -/
theorem endTicker_finish (s : Session) (epoch : Nat) :
    (s.finish epoch).endTicker epoch = s.finish epoch := by
  simp only [Session.finish, Session.endTicker, List.map_map, Session.mk.injEq, true_and, and_true]
  refine List.map_congr_left fun ticker _ => ?_
  simp only [Function.comp_apply]
  split <;> rfl

/-- A tick of a ticker that has ended does nothing when nothing plays. -/
theorem tick_of_over {epoch : Nat} (resting : stage.session.cursor.playing = false)
    (ended : stage.session.endTicker epoch = stage.session) : stage.tick epoch = stage := by
  rcases stage.session.advance_cases epoch with ⟨-, ticked⟩ | ⟨-, playing, -⟩ | ⟨-, playing, -⟩
  · rw [tick_of_none ticked, ended]
  all_goals
    rw [resting] at playing
    cases playing

/-- A playback that began on a stage **plays** up to another one: so many steps behind the first
ones have been shown, and it runs as long as there are more. -/
structure Plays (stage : Stage) (result : Result) (first count : Nat) (stage' : Stage) : Prop where
  /-- The result is there. -/
  ready : stage'.session.result = some result
  /-- The generation is the same. -/
  generation : stage'.session.generation = stage.session.generation
  /-- The epoch is the same. -/
  epoch : stage'.session.epoch = stage.session.epoch
  /-- The cursor is on the last step that was shown. -/
  step : stage'.session.cursor.step = ((first + count : Nat) : Int) - 1
  /-- It plays as long as there are more steps. -/
  playing : stage'.session.cursor.playing = decide (first + count < result.steps.length)
  /-- The steps are broadcast, and the end of the playback with the last one. -/
  broadcasts : Broadcasts stage
    ((result.shown first count).map (shownEvent stage.session.generation) ++
      if first + count = result.steps.length then [finishedEvent stage.session.generation] else [])
    (shownTexts (result.shown first count)) stage'
  /-- When it is over, its ticker has come to its end. -/
  done : first + count = result.steps.length → stage'.tick stage.session.epoch = stage'

namespace Plays

variable {count : Nat}

/-- At the beginning nothing was played. -/
theorem start (ready : stage.session.result = some result)
    (here : stage.session.cursor = ⟨(first : Int) - 1, true⟩)
    (inside : first < result.steps.length) : Plays stage result first 0 stage where
  ready := ready
  generation := rfl
  epoch := rfl
  step := by rw [here]; rfl
  playing := by rw [here, Nat.add_zero, decide_eq_true inside]
  broadcasts := by
    rw [Result.shown_zero, Nat.add_zero, if_neg (Nat.ne_of_lt inside)]
    exact .refl stage
  done last := absurd last (Nat.ne_of_lt inside)

/-- **The report of the next step**, once the session has gone to it. -/
theorem report (h : Plays stage result first count stage') (quiet : stage.Undisturbed)
    (inside : first + count < result.steps.length) {s : Session} {move : Move}
    (ready : s.result = some result) (generation : s.generation = stage.session.generation)
    (epoch : s.epoch = stage.session.epoch) (here : s.cursor.step = ((first + count : Nat) : Int))
    (playing : s.cursor.playing = decide (first + (count + 1) < result.steps.length))
    (moved : move = { s.lastMove with
      finished := decide (first + (count + 1) = result.steps.length) })
    (ended : first + (count + 1) = result.steps.length → s.endTicker stage.session.epoch = s) :
    Plays stage result first (count + 1)
      (({ stage' with session := s } : Stage).carryOut [.report move]) := by
  have reached := h.broadcasts.trans (.transit stage' s)
  rw [lastMove_eq ready here inside] at moved
  obtain ⟨session, broadcasts⟩ := carryOut_heedless ((reached.undisturbed quiet).heedless move)
    (fun other member => by
      cases List.mem_singleton.1 member
      rw [moved])
  generalize ({ stage' with session := s } : Stage).carryOut [.report move] = final
    at session broadcasts ⊢
  refine ⟨?_, ?_, ?_, ?_, ?_, ?_, fun last => tick_of_over ?_ ?_⟩
  · rw [session, ready]
  · rw [session, generation]
  · rw [session, epoch]
  · rw [session, here]
    omega
  · rw [session, playing]
  · obtain ⟨event, text⟩ := broadcasts_shown (result.steps[first + count], first + count)
      (congrArg Move.index moved) (congrArg Move.step moved)
    have told := reached.trans broadcasts
    have unfinished : first + count ≠ result.steps.length := Nat.ne_of_lt inside
    rw [List.flatMap_singleton, List.flatMap_singleton, Task.events, Task.texts, moveEvents, event,
      text, congrArg Move.generation moved, congrArg Move.finished moved, generation] at told
    rw [Result.shown_succ inside]
    simpa [unfinished, shownTexts, finishedEvent] using told
  · rw [session, playing, decide_eq_false (by omega)]
  · rw [session]
    exact ended last

/-- **A tick shows the next step**, if there is one. -/
theorem tick (h : Plays stage result first count stage') (quiet : stage.Undisturbed)
    (inside : first + count < result.steps.length) :
    Plays stage result first (count + 1) (stage'.tick stage.session.epoch) := by
  have playing : stage'.session.cursor.playing = true := by rw [h.playing, decide_eq_true inside]
  have steps : stage'.session.stepCount = result.steps.length := by
    rw [Session.stepCount, h.ready, stepCount_some]
  have next : stage'.session.nextStep = ((first + count : Nat) : Int) := by
    rw [Session.nextStep, steps, h.step, if_pos (by omega)]
    omega
  rcases stage'.session.advance_cases stage.session.epoch with
    ⟨outdated | resting, -⟩ | ⟨-, -, before, ticked⟩ | ⟨-, -, last, ticked⟩
  · exact absurd h.epoch.symm outdated
  · rw [resting] at playing
    cases playing
  · -- There are more steps behind the one that is shown.
    rw [next, steps] at before
    rw [tick_of_move ticked]
    refine h.report quiet inside h.ready h.generation h.epoch next ?_ ?_ (fun last => by omega)
    · rw [decide_eq_true (by omega)]
      exact playing
    · rw [decide_eq_false (by omega)]
      rfl
  · -- It is the last one, and a further tick finds a playback that is over.
    rw [next, steps] at last
    rw [tick_of_move ticked]
    refine h.report quiet inside h.ready h.generation h.epoch next ?_ ?_
      (fun _ => endTicker_finish _ _)
    · rw [decide_eq_false (by omega)]
      rfl
    · rw [decide_eq_true (by omega)]

/-- **Any number of ticks**: the steps are shown one by one, and with the last one it is over. -/
theorem ticks (h : Plays stage result first 0 stage) (quiet : stage.Undisturbed)
    (inside : first < result.steps.length) (count : Nat) :
    Plays stage result first (min count (result.steps.length - first))
      ((Stage.tick · stage.session.epoch)^[count] stage) := by
  induction count with
  | zero =>
    rw [Nat.zero_min]
    exact h
  | succ count ih =>
    rw [Function.iterate_succ_apply']
    by_cases more : first + count < result.steps.length
    · rw [Nat.min_eq_left (by omega)] at ih ⊢
      exact ih.tick quiet more
    · rw [Nat.min_eq_right (by omega)] at ih ⊢
      rw [ih.done (by omega)]
      exact ih

end Plays

/-! ## Autoplay -/

/-- Before the last step there is something to play. A ticker is started, unless one runs. -/
theorem play_eq {s : Session} (low : -1 ≤ s.cursor.step)
    (before : s.cursor.step < (s.stepCount : Int) - 1) :
    s.play = .ok (if s.cursor.playing then (s, false) else (s.startTicker, true)) := by
  have possible : ¬ ((((s.stepCount : Int) - 1 ≤ s.cursor.step) || s.stepCount == 0) = true) := by
    rw [Bool.or_eq_true, decide_eq_true_eq, beq_iff_eq]
    omega
  unfold Session.play
  rw [if_neg possible]
  split <;> rfl

/-- **Playing** makes the playback run. It is announced, unless the playback runs already. -/
theorem plays_perform (ready : stage.session.result = some result)
    (here : stage.session.cursor.step = (first : Int) - 1) (inside : first < result.steps.length)
    (quiet : stage.Undisturbed) :
    (stage.perform .play).2 = none ∧
      (stage.session.cursor.playing = false →
        (stage.perform .play).1.latestTicker? = some (stage.perform .play).1.session.epoch) ∧
      (stage.perform .play).1.session.generation = stage.session.generation ∧
      Plays (stage.perform .play).1 result first 0 (stage.perform .play).1 ∧
      Broadcasts stage
        (if stage.session.cursor.playing then []
          else [event Event.playbackStarted stage.session.generation .nothing]) []
        (stage.perform .play).1 := by
  have steps : stage.session.stepCount = result.steps.length := by
    rw [Session.stepCount, ready, stepCount_some]
  have played := play_eq (s := stage.session) (by rw [here]; omega) (by rw [steps, here]; omega)
  cases playing : stage.session.cursor.playing with
  | true =>
    rw [playing, if_pos rfl] at played
    have same : stage.perform .play = (stage, none) := by
      simp only [perform, act, played, Bool.false_eq_true, if_false, carryOut]
    rw [same]
    exact ⟨rfl, by simp, rfl, .start ready (by rw [← here, ← playing]) inside, .refl stage⟩
  | false =>
    rw [playing, if_neg Bool.false_ne_true] at played
    -- A ticker is started first, and then the event is announced.
    obtain ⟨begun, is_begun⟩ : ∃ begun : Stage,
        begun = { stage with session := stage.session.startTicker } := ⟨_, rfl⟩
    have heedless : ∀ task ∈ [Task.announce
        (event Event.playbackStarted stage.session.generation .nothing)], begun.Heedless task := by
      intro task member
      rw [List.mem_singleton.1 member, is_begun]
      intro event member
      rw [List.mem_singleton.1 member]
      exact quiet _ (by simp [Stage.event])
    obtain ⟨session, broadcasts⟩ := carryOut_heedless heedless (by simp)
    have same : stage.perform .play = (begun.carryOut
        [.announce (event Event.playbackStarted stage.session.generation .nothing)], none) := by
      simp only [perform, act, played, if_true, is_begun]
      rfl
    rw [same]
    generalize begun.carryOut _ = announced at session broadcasts ⊢
    rw [is_begun] at session
    refine ⟨rfl, fun _ => ?_, ?_, .start ?_ ?_ inside, ?_⟩
    · rw [latestTicker?, session]
      rfl
    · rw [session]
      rfl
    · rw [session]
      exact ready
    · rw [session, ← here]
      rfl
    · have begins := Broadcasts.transit stage stage.session.startTicker
      rw [← is_begun] at begins
      exact begins.trans broadcasts

/-- **Autoplay.** A play behind some step but the last and any number of ticks, with nothing else in
between, show as many of the steps behind the cursor, as far as there are so many. What is published
is the beginning of the playback (unless it runs already), then the steps in order, each once and
with its own id and description, and then the end of the playback exactly when the last step is
among them; the descriptions are narrated in the same order, those that are empty apart. A tick
after the last step does nothing. -/
theorem autoplay (stage : Stage) (result : Result) (cursor : Int) (count : Nat)
    (ready : stage.session.result = some result) (here : stage.session.cursor.step = cursor)
    (low : -1 ≤ cursor) (inside : cursor < (result.steps.length : Int) - 1)
    (quiet : stage.Undisturbed) :
    let played := (stage.perform .play).1
    let final := (Stage.tick · played.session.epoch)^[count] played
    let last := (result.steps.length : Int) - 1
    let shown := result.shown (cursor + 1).toNat count
    let generation := stage.session.generation
    (stage.perform .play).2 = none ∧
    (stage.session.cursor.playing = false → played.latestTicker? = some played.session.epoch) ∧
    final.session.cursor.step = min (cursor + count) last ∧
    (final.session.cursor.playing = true ↔ cursor + count < last) ∧
    final.published = stage.published ++ (if stage.surroundings.announces then
      (if stage.session.cursor.playing then []
        else [event Event.playbackStarted generation .nothing]) ++
      shown.map (shownEvent generation) ++
      (if last ≤ cursor + count then [event Event.playbackFinished generation .nothing] else [])
      else []) ∧
    final.narrated =
      stage.narrated ++ (if stage.surroundings.narrates then shownTexts shown else []) ∧
    (last ≤ cursor + count → final.tick played.session.epoch = final) := by
  -- The cursor stands at -1 in front of the steps, so it is one less than the first step shown.
  obtain ⟨first, rfl⟩ : ∃ first : Nat, cursor = (first : Int) - 1 :=
    ⟨(cursor + 1).toNat, by omega⟩
  have within : first < result.steps.length := by omega
  obtain ⟨accepted, ticker, generation, plays, told⟩ := plays_perform ready here within quiet
  have final := plays.ticks (told.undisturbed quiet) within count
  -- Ticks behind the last step show nothing more.
  have shown : result.shown first (min count (result.steps.length - first)) =
      result.shown first count := by
    rcases Nat.le_total count (result.steps.length - first) with few | many
    · rw [Nat.min_eq_left few]
    · rw [Nat.min_eq_right many]
      exact (Result.shown_of_le (by omega)).symm
  have finished : first + min count (result.steps.length - first) = result.steps.length ↔
      (result.steps.length : Int) - 1 ≤ (first : Int) - 1 + count := by
    omega
  have broadcasts := told.trans final.broadcasts
  rw [generation, shown] at broadcasts
  simp only [finished] at broadcasts
  have behind : ((first : Int) - 1 + 1).toNat = first := by omega
  simp only [behind]
  refine ⟨accepted, ticker, ?_, ?_, ?_, broadcasts.narrated,
    fun last => final.done (finished.2 last)⟩
  · rw [final.step]
    omega
  · rw [final.playing, decide_eq_true_eq]
    omega
  · rw [broadcasts.published, finishedEvent, List.append_assoc]

/-- A result with three steps, the second of them without a description. -/
def trio : Result where
  flowchart := "<svg>"
  steps := [{ nodeId := "n1", description := "one" }, { nodeId := "n2" },
    { nodeId := "n3", description := "three" }]
  complexity := .placeholder
  advice := .placeholder
  memory := .placeholder

/-- A stage that is ready to play three steps. -/
def rehearsal : Stage where
  session := { generation := 1, status := .ready, result := some trio }

/-- Five ticks are more than the three steps need. -/
theorem rehearsal_plays :
    let played := (rehearsal.perform .play).1
    let final := (Stage.tick · played.session.epoch)^[5] played
    rehearsal.session.result = some trio ∧ rehearsal.session.cursor.step = -1 ∧
      rehearsal.Undisturbed ∧ final.session.cursor.step = 2 ∧
      final.session.cursor.playing = false ∧
      final.published.map (·.kind) = [Event.playbackStarted, Event.playbackStep,
        Event.playbackStep, Event.playbackStep, Event.playbackFinished] ∧
      final.narrated = (["one", "three"] : List Text) ∧
      final.tick played.session.epoch = final := by
  have quiet : rehearsal.Undisturbed := fun kind _ => unanswered_of_nil rfl kind
  obtain ⟨-, -, step, playing, published, narrated, still⟩ :=
    autoplay rehearsal trio (-1) 5 rfl rfl (by decide) (by decide) quiet
  refine ⟨rfl, rfl, quiet, step, ?_, ?_, ?_, still (by decide)⟩
  · rw [Bool.eq_false_iff, ne_eq, playing]
    decide
  · rw [published]
    decide
  · rw [narrated]
    decide

end Stage

end FlowTrace
