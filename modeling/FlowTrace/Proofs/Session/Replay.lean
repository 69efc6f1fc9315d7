import FlowTrace.Proofs.Session.Broadcast
import FlowTrace.Proofs.Session.CursorRange
import FlowTrace.Proofs.Session.Record
import Mathlib.Data.List.Chain

/-! # Following the cursor

Whoever watches the events of a session can follow its cursor. Some events **open** a segment: a
request is made, a request is completed, or the session starts over; then the cursor stands before
the first step. From there on every move of the cursor is told by a step event, and a step event
tells nothing but a move. So the events of a segment **replay** to the cursor (`Session.Replays`):
they go from one place to a neighbouring one, end where the cursor is, and each names the step of
the result that is there now, for within a segment the result is never swapped.

Operations are done one after the other, and what one of them announces is one of three things
(`Session.Reports`): nothing about the cursor, the opening of a segment, or one step to a
neighbouring place. -/

namespace FlowTrace

/-- An **operation** on a stage that is done to its end before the next one begins. A submission is
made in one operation, or in two with others in between. -/
inductive Operation where
  /-- An act. -/
  | act (a : Act)
  /-- A tick of the ticker of an epoch. -/
  | tick (epoch : Nat)
  /-- A submission with its answer; the second context is the one of the request then. -/
  | submit (code language : Text) (context later : Context) (reply : Except Failure (Option Report))
  /-- A submission up to the call of the service. -/
  | begin (code language : Text) (context : Context)
  /-- The answer to the submission of a generation. -/
  | answer (generation : Nat) (context : Context) (reply : Except Failure (Option Report))

namespace Event

/-- Whether an event **opens** a segment. -/
def isOpening (event : Event) : Bool :=
  [analysisSubmitted, analysisCompleted, sessionReset].contains event.kind

/-- Whether an event tells of a step. -/
def isStep (event : Event) : Bool := event.kind == playbackStep

/-- The index that an event tells, if it tells one. -/
def index? (event : Event) : Option Int :=
  match event.news with
  | .moved index _ _ => some index
  | _ => none

/-- The step events since the latest opening. -/
def segment (events : List Event) : List Event :=
  (events.reverse.takeWhile fun event => !event.isOpening).reverse.filter isStep

/-- The indices that the step events since the latest opening tell. -/
def indices (events : List Event) : List Int := (segment events).filterMap index?

variable {events : List Event} {event : Event}

/-- An event is **aside** when it neither opens a segment nor tells of a step. -/
def Aside (event : Event) : Prop := event.isOpening = false ∧ event.isStep = false

/-- An opening event begins a segment. -/
theorem segment_opening (opening : event.isOpening = true) : segment (events ++ [event]) = [] := by
  simp [segment, opening]

/-- A step belongs to the segment. -/
theorem segment_step (inner : event.isOpening = false) (step : event.isStep = true) :
    segment (events ++ [event]) = segment events ++ [event] := by
  simp [segment, inner, step]

/-- An event aside leaves the segment as it is. -/
theorem segment_aside (aside : event.Aside) : segment (events ++ [event]) = segment events := by
  simp [segment, aside.1, aside.2]

/-- Events aside leave the segment as it is. -/
theorem segment_append_aside {others : List Event} (aside : ∀ event ∈ others, event.Aside) :
    segment (events ++ others) = segment events := by
  induction others generalizing events with
  | nil => rw [List.append_nil]
  | cons event others ih =>
    rw [List.forall_mem_cons] at aside
    rw [List.append_cons, ih aside.2, segment_aside aside.1]

end Event

open Event (segment indices)

namespace Session

variable {s s' : Session} {events news : List Event}

/-- What the event of a step tells, by the result that is there. -/
def stepNews (s : Session) (index : Int) : News :=
  let step := (s.result.bind (·.step? index)).getD {}
  .moved index step.nodeId step.description

/-- Places in front of and on the steps that are next to each other. -/
def Neighbours (i j : Int) : Prop := j = i + 1 ∨ i = j + 1

/-- The events **replay** to the cursor: the indices of the segment lead from before the first step
to where the cursor is, one place at a time, and each of its events tells what there is to tell of a
step of the result. -/
structure Replays (s : Session) (events : List Event) : Prop where
  /-- The cursor is where the segment ends. -/
  arrives : s.cursor.step = (indices events).getLastD (-1)
  /-- The segment goes one place at a time. -/
  walks : List.IsChain Neighbours (-1 :: indices events)
  /-- It stays within the steps. -/
  within : ∀ index ∈ indices events, -1 ≤ index ∧ index ≤ (s.stepCount : Int) - 1
  /-- Its events tell of the steps of the result. -/
  tells : (segment events).map (·.news) = (indices events).map s.stepNews

/-- What a transition has to **report** of the cursor. -/
inductive Reports (s s' : Session) : List Event → Prop
  /-- Nothing: neither the cursor nor the result has changed. -/
  | rests {events : List Event} (step : s'.cursor.step = s.cursor.step)
      (result : s'.result = s.result) (aside : ∀ event ∈ events, event.Aside) : Reports s s' events
  /-- A segment is opened. -/
  | opens {event : Event} (step : s'.cursor.step = -1) (opening : event.isOpening = true) :
      Reports s s' [event]
  /-- The cursor has gone to a neighbouring place. -/
  | goes (before after : List Event) (near : Neighbours s.cursor.step s'.cursor.step)
      (result : s'.result = s.result) (aside : ∀ event ∈ before, event.Aside)
      (aside' : ∀ event ∈ after, event.Aside) :
      Reports s s' (before ++ Stage.stepEvent s'.lastMove :: after)

/-- What replays a session replays every one with the same step and result. -/
theorem Replays.congr (h : Replays s events) (step : s'.cursor.step = s.cursor.step)
    (result : s'.result = s.result) {events' : List Event}
    (same : segment events' = segment events) : Replays s' events' := by
  have told : s'.stepNews = s.stepNews := by
    funext index
    rw [stepNews, stepNews, result]
  have steps : s'.stepCount = s.stepCount := by rw [stepCount, stepCount, result]
  have places : indices events' = indices events := by rw [indices, indices, same]
  constructor
  · rw [step, places]
    exact h.arrives
  · rw [places]
    exact h.walks
  · rw [places, steps]
    exact h.within
  · rw [same, places, told]
    exact h.tells

/-- An opened segment replays to the place before the first step. -/
theorem replays_of_opening {event : Event} (step : s.cursor.step = -1)
    (opening : event.isOpening = true) : Replays s (events ++ [event]) := by
  have empty : segment (events ++ [event]) = [] := Event.segment_opening opening
  have unnumbered : indices (events ++ [event]) = [] := by rw [indices, empty]; rfl
  constructor
  · rw [step, unnumbered]
    rfl
  · rw [unnumbered]
    exact List.isChain_singleton _
  · rw [unnumbered]
    exact List.forall_mem_nil _
  · rw [empty, unnumbered]
    rfl

/-- **A step event replays** the move to a neighbouring place. -/
theorem Replays.goes (h : Replays s events) (near : Neighbours s.cursor.step s'.cursor.step)
    (result : s'.result = s.result) (range : s'.InRange) :
    Replays s' (events ++ [Stage.stepEvent s'.lastMove]) := by
  have longer : segment (events ++ [Stage.stepEvent s'.lastMove]) =
      segment events ++ [Stage.stepEvent s'.lastMove] := Event.segment_step rfl rfl
  have index : indices (events ++ [Stage.stepEvent s'.lastMove]) =
      indices events ++ [s'.cursor.step] := by
    rw [indices, longer, List.filterMap_append]
    rfl
  have told : s'.stepNews = s.stepNews := by
    funext index
    rw [stepNews, stepNews, result]
  have steps : s'.stepCount = s.stepCount := by rw [stepCount, stepCount, result]
  constructor
  · rw [index, List.getLastD_concat]
  · rw [index, ← List.cons_append, List.isChain_append]
    refine ⟨h.walks, List.isChain_singleton _, fun last is_last next is_next => ?_⟩
    -- The segment ended where the cursor was.
    rw [List.getLast?_cons, ← List.getLastD_eq_getLast?, ← h.arrives] at is_last
    cases is_last
    cases is_next
    exact near
  · rw [index, steps, List.forall_mem_append]
    refine ⟨h.within, fun other member => ?_⟩
    rw [List.mem_singleton.1 member, ← steps]
    exact ⟨range.lower, range.upper⟩
  · rw [longer, index, List.map_append, List.map_append, h.tells, told]
    congr 1
    rw [List.map_singleton, List.map_singleton, ← told]
    rfl

/-- **What a transition reports** continues the replay. -/
theorem Replays.reports (h : Replays s events) (reports : Reports s s' news) (range : s'.InRange) :
    Replays s' (events ++ news) := by
  cases reports with
  | rests step result aside => exact h.congr step result (Event.segment_append_aside aside)
  | opens step opening => exact replays_of_opening step opening
  | goes before after near result aside aside' =>
    have reached : Replays s (events ++ before) :=
      h.congr rfl rfl (Event.segment_append_aside aside)
    have moved := reached.goes near result range
    rw [List.append_cons, ← List.append_assoc, ← List.append_assoc]
    exact moved.congr rfl rfl (Event.segment_append_aside aside')

/-! ## What transitions leave to report -/

/-- A transition **leaves** tasks that report it. -/
structure Leaves (s s' : Session) (tasks : List Task) : Prop where
  /-- The cursor stays in range. -/
  range : s.InRange → s'.InRange
  /-- The tasks announce what there is to report. -/
  reports : s.InRange → Reports s s' (tasks.flatMap Task.events)
  /-- A move is reported before the next one. -/
  last : ∀ move, .report move ∈ tasks → move.number = s'.moves

variable {tasks : List Task}

/-- A transition that has nothing to do with the cursor. -/
theorem leaves_rest (news : List Event) (range : s.InRange → s'.InRange)
    (step : s'.cursor.step = s.cursor.step) (result : s'.result = s.result)
    (aside : ∀ event ∈ news, event.Aside) :
    Leaves s s' (news.map Task.announce) := by
  have events : (news.map Task.announce).flatMap Task.events = news := by
    rw [List.flatMap_map]
    exact List.flatMap_singleton' news
  refine ⟨range, fun _ => ?_, by simp⟩
  rw [events]
  exact .rests step result aside

/-- A transition that opens a segment. -/
theorem leaves_opening {event : Event} (range : s.InRange → s'.InRange)
    (step : s'.cursor.step = -1) (opening : event.isOpening = true)
    (quiet : tasks.flatMap Task.events = [event]) (silent : ∀ move, .report move ∉ tasks) :
    Leaves s s' tasks := by
  refine ⟨range, fun _ => ?_, fun move member => absurd member (silent move)⟩
  rw [quiet]
  exact .opens step opening

end Session

namespace Stage

open Session (Leaves leaves_rest leaves_opening)

variable {stage : Stage} {s : Session} {tasks : List Task}

/-- Pausing announces only events aside. -/
theorem aside_paused (s : Session) :
    ∃ events : List Event, pausedTasks s = events.map Task.announce ∧
      ∀ event ∈ events, event.Aside := by
  unfold pausedTasks
  split
  · exact ⟨[_], rfl, List.forall_mem_singleton.2 ⟨rfl, rfl⟩⟩
  · exact ⟨[], rfl, List.forall_mem_nil _⟩

/-- A step by hand leaves the cursor next to where it was. -/
theorem leaves_manual (stage : Stage) {delta : Int} (single : delta = 1 ∨ delta = -1) :
    Leaves stage.session (act.manual stage delta).1.session (act.manual stage delta).2.1 := by
  obtain ⟨events, paused, aside⟩ := aside_paused stage.session
  have range (range : stage.session.InRange) : (stage.session.move delta).1.InRange :=
    range.shift (.move single)
  simp only [act.manual, paused]
  rcases stage.session.move_cases delta with moved | ⟨low, high, moved⟩
  · rw [moved] at range ⊢
    rw [Option.map_none, Option.toList_none, List.append_nil]
    exact leaves_rest _ range rfl rfl aside
  · rw [moved] at range ⊢
    have announced : (events.map Task.announce).flatMap Task.events = events := by
      rw [List.flatMap_map]
      exact List.flatMap_singleton' events
    refine ⟨range, fun _ => ?_, fun move member => ?_⟩
    · rw [List.flatMap_append, announced]
      refine .goes events [] ?_ rfl aside (List.forall_mem_nil _)
      show Session.Neighbours stage.session.cursor.step (stage.session.cursor.step + delta)
      unfold Session.Neighbours
      omega
    · rcases List.mem_append.1 member with other | here
      · simp at other
      · cases List.mem_singleton.1 here
        rfl

/-- **Acts.** -/
theorem leaves_act (stage : Stage) (a : Act) :
    Leaves stage.session (stage.act a).1.session (stage.act a).2.1 := by
  have range (range : stage.session.InRange) : (stage.act a).1.session.InRange :=
    range.shift (stage.shift_act a)
  cases a with
  | play =>
    simp only [act] at range ⊢
    split at range
    · exact leaves_rest [] range rfl rfl (List.forall_mem_nil _)
    · rename_i s started played
      have aside : ∃ news : List Event, (if started then
          [.announce (event Event.playbackStarted s.generation .nothing)] else []) =
            news.map Task.announce ∧ ∀ event ∈ news, event.Aside := by
        cases started with
        | true =>
          exact ⟨[_], rfl, List.forall_mem_singleton.2 ⟨rfl, rfl⟩⟩
        | false => exact ⟨[], rfl, List.forall_mem_nil _⟩
      obtain ⟨news, announces, aside⟩ := aside
      rw [announces]
      rcases (Session.play_eq_ok played).2 with ⟨-, rfl⟩ | ⟨-, rfl⟩
      all_goals exact leaves_rest _ range rfl rfl aside
  | pause =>
    obtain ⟨events, paused, aside⟩ := aside_paused stage.session
    simp only [act, paused]
    exact leaves_rest _ range rfl rfl aside
  | forward => exact leaves_manual stage (Or.inl rfl)
  | back => exact leaves_manual stage (Or.inr rfl)
  | reset => exact leaves_opening range rfl rfl rfl (by simp [act])

/-- **Ticks.** In range, a tick that counts has a step to go to. -/
theorem leaves_advance (stage : Stage) (epoch : Nat) :
    Leaves stage.session (stage.advance epoch).1.session (stage.advance epoch).2 := by
  have range (range : stage.session.InRange) : (stage.session.advance epoch).1.InRange :=
    range.shift (.advance epoch)
  have near (range : stage.session.InRange) (playing : stage.session.cursor.playing = true) :
      Session.Neighbours stage.session.cursor.step stage.session.nextStep := by
    rw [Session.nextStep, if_pos (range.playing playing)]
    exact Or.inl rfl
  simp only [advance]
  rcases stage.session.advance_cases epoch with ⟨-, ticked⟩ | ⟨-, playing, -, ticked⟩ |
    ⟨-, playing, -, ticked⟩
  · rw [ticked] at range ⊢
    exact leaves_rest [] range rfl rfl (List.forall_mem_nil _)
  · rw [ticked] at range ⊢
    refine ⟨range, fun within => ?_, fun move member => ?_⟩
    · exact .goes [] [] (near within playing) rfl (List.forall_mem_nil _) (List.forall_mem_nil _)
    · cases List.mem_singleton.1 member
      rfl
  · rw [ticked] at range ⊢
    refine ⟨range, fun within => ?_, fun move member => ?_⟩
    · exact .goes [] [event Event.playbackFinished _ .nothing] (near within playing) rfl
        (List.forall_mem_nil _) (List.forall_mem_singleton.2 ⟨rfl, rfl⟩)
    · cases List.mem_singleton.1 member
      rfl

/-- **Submissions.** -/
theorem leaves_commence (stage : Stage) (code language : Text) (context : Context) :
    Leaves stage.session (stage.commence code language context).1.session
      (stage.commence code language context).2.1 :=
  leaves_opening (fun range => range.shift (.start context)) rfl rfl rfl (by simp [commence])

/-- The conclusion of an analysis changes the session only. -/
theorem session_conclude_eq (stage : Stage) (generation : Nat) (answer : Except Failure Result) :
    (stage.conclude generation answer).1 =
      { stage with session := (stage.session.apply generation answer).1 } := by
  simp only [conclude]
  split <;> rfl

/-- **Answers.** Only a result that is committed opens a segment. -/
theorem leaves_conclude (stage : Stage) (generation : Nat) (answer : Except Failure Result) :
    Leaves stage.session (stage.conclude generation answer).1.session
      (stage.conclude generation answer).2.1 := by
  have range (range : stage.session.InRange) :
      (stage.session.apply generation answer).1.InRange := range.apply generation answer
  rw [tasks_conclude, session_conclude_eq]
  rcases stage.session.apply_cases generation answer with ⟨result, rfl, rfl, committed⟩ |
    ⟨uncommitted, calls, holding, status, failure, kept⟩
  · rw [committed] at range ⊢
    exact leaves_opening range rfl (by simp [fate, Stage.event, Event.isOpening]) rfl (by simp)
  · rw [kept] at range ⊢
    refine leaves_rest [_] range rfl rfl (List.forall_mem_singleton.2 ?_)
    unfold fate
    split
    · rename_i current
      cases answer with
      | error failure => exact ⟨rfl, rfl⟩
      | ok result => exact absurd ⟨current, rfl⟩ (uncommitted result)
    · exact ⟨rfl, rfl⟩

/-! ## Operations -/

/-- Does an operation, and all that follows from it. -/
def operate (stage : Stage) : Operation → Stage
  | .act a => (stage.perform a).1
  | .tick epoch => stage.tick epoch
  | .submit code language context later reply =>
    match stage.submit code language context with
    | .error _ => stage
    | .ok (begun, generation) => (begun.answer generation later reply).1
  | .begin code language context =>
    match stage.submit code language context with
    | .error _ => stage
    | .ok (begun, _) => begun
  | .answer generation context reply => (stage.answer generation context reply).1

/-- Does operations one after the other. -/
def operateAll (stage : Stage) (operations : List Operation) : Stage :=
  operations.foldl operate stage

/-- A stage is **followed**: its events are published, no listener acts on them, and they replay to
the cursor. -/
structure Followed (stage : Stage) : Prop where
  /-- No listener acts. -/
  alone : stage.listeners = []
  /-- Events are published. -/
  watched : stage.surroundings.announces = true
  /-- The cursor is in range. -/
  range : stage.session.InRange
  /-- The events replay to the cursor. -/
  replays : stage.session.Replays stage.published

namespace Followed

/-- **A transition and its tasks** keep a stage followed. -/
theorem carryOut (h : Followed stage) (leaves : Leaves stage.session s tasks) :
    Followed (({ stage with session := s } : Stage).carryOut tasks) := by
  obtain ⟨moved, is_moved⟩ : ∃ moved : Stage, moved = { stage with session := s } := ⟨_, rfl⟩
  have transit := Broadcasts.transit stage s
  have session : moved.session = s := by rw [is_moved]
  rw [← is_moved] at transit ⊢
  have quiet (kind : Text) : moved.Unanswered kind :=
    unanswered_of_nil (transit.listeners.trans h.alone) kind
  have heedless : ∀ task ∈ tasks, moved.Heedless task := by
    intro task _
    cases task with
    | listen kind => exact quiet kind
    | _ => exact fun event _ => quiet event.kind
  obtain ⟨stays, told⟩ := carryOut_heedless heedless fun move member => by
    rw [session]
    exact leaves.last move member
  have broadcasts := transit.trans told
  have published := broadcasts.published
  rw [h.watched, if_pos rfl, List.nil_append] at published
  have range := leaves.range h.range
  have replays := h.replays.reports (leaves.reports h.range) range
  rw [← session, ← stays] at range replays
  refine ⟨broadcasts.listeners.trans h.alone, ?_, range, ?_⟩
  · rw [broadcasts.surroundings]
    exact h.watched
  · rw [published]
    exact replays

/-- A request that is handed to the service is not published. -/
theorem note (h : Followed stage) (request : Request) :
    Followed (stage.note (.requested request)) := by
  refine ⟨h.alone, h.watched, h.range, ?_⟩
  rw [published_note]
  show stage.session.Replays (stage.published ++ [])
  rw [List.append_nil]
  exact h.replays

/-- A session stays followed when an analysis is submitted. -/
theorem submit (h : Followed stage) {code language : Text} {context : Context} {begun : Stage}
    {generation : Nat} (submitted : stage.submit code language context = .ok (begun, generation)) :
    Followed begun := by
  unfold Stage.submit at submitted
  split at submitted
  · cases submitted
  · cases submitted
    exact (h.carryOut (stage.leaves_commence code language context)).note _

/-- A session stays followed when an analysis is answered. -/
theorem answer (h : Followed stage) (generation : Nat) (context : Context)
    (reply : Except Failure (Option Report)) :
    Followed (stage.answer generation context reply).1 := by
  have left := stage.leaves_conclude generation (outcome context reply)
  rw [session_conclude_eq] at left
  have concluded := h.carryOut left
  rw [← session_conclude_eq] at concluded
  exact concluded

/-- **Every operation keeps a stage followed.** -/
theorem operate (h : Followed stage) (operation : Operation) :
    Followed (stage.operate operation) := by
  cases operation with
  | act a =>
    have left := stage.leaves_act a
    have acted : (stage.act a).1 = { stage with session := (stage.act a).1.session } := by
      cases a <;> simp only [act, act.manual]
      split <;> rfl
    have done := h.carryOut left
    rw [← acted] at done
    exact done
  | tick epoch => exact h.carryOut (stage.leaves_advance epoch)
  | submit code language context later reply =>
    simp only [Stage.operate]
    split
    · exact h
    · rename_i submitted
      exact (h.submit submitted).answer _ _ _
  | begin code language context =>
    simp only [Stage.operate]
    split
    · exact h
    · rename_i submitted
      exact h.submit submitted
  | answer generation context reply => exact h.answer generation context reply

/-- A session stays followed by any operations. -/
theorem operateAll (h : Followed stage) (operations : List Operation) :
    Followed (stage.operateAll operations) := by
  induction operations generalizing stage with
  | nil => exact h
  | cons operation operations ih => exact ih (h.operate operation)

end Followed

/-- **The step events replay to the cursor**, under either policy and after any operations done one
after the other, with handlers that do not act: since the latest event that opens a segment, the
step events lead from before the first step to where the cursor is, one place at a time, and each
carries the node id and the description of its step of the result that is there (both are empty
before the first step). -/
theorem steps_replay_to_cursor (policy : ClearPolicy) (highlights narrates : Bool)
    (operations : List Operation) :
    let first : Stage :=
      { session := { policy := policy }, surroundings := { highlights, narrates } }
    let stage := first.operateAll operations
    let events := Event.segment stage.published
    let indices := events.filterMap Event.index?
    stage.session.cursor.step = indices.getLastD (-1) ∧
    List.IsChain (fun i j : Int => j = i + 1 ∨ i = j + 1) (-1 :: indices) ∧
    (∀ index ∈ indices, -1 ≤ index ∧ index ≤ (stage.session.stepCount : Int) - 1) ∧
    events.map (·.news) = indices.map fun index =>
      let step := (stage.session.result.bind (·.step? index)).getD {}
      .moved index step.nodeId step.description := by
  have fresh : Followed
      { session := { policy := policy }, surroundings := { highlights, narrates } } := by
    refine ⟨rfl, rfl, Session.inRange_of_idle rfl, ⟨rfl, ?_, ?_, rfl⟩⟩
    · exact List.isChain_singleton _
    · exact List.forall_mem_nil _
  have followed := fresh.operateAll operations
  exact ⟨followed.replays.arrives, followed.replays.walks, followed.replays.within,
    followed.replays.tells⟩

end Stage

end FlowTrace
