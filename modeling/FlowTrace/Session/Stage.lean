import FlowTrace.Event.Basic
import FlowTrace.Playback.Highlight
import FlowTrace.Session.Basic

/-! # Sessions on a stage

What a session makes known: it announces events, moves a highlight and narrates steps. A **stage**
is a session with these surroundings. After each transition there are **tasks** left to do, in
order; an event may be answered by further **acts** of whoever listens to it, which are done to
their end before the next task (`Stage.carryOut`).

* A task to report a move is dropped, except for its event, when the cursor has moved on.
* Every observable effect is a **notice** in the log of the stage. -/

namespace FlowTrace

/-- What a user may do to the playback. -/
inductive Act where
  /-- Let it run. -/
  | play
  /-- Stop it. -/
  | pause
  /-- Go one step ahead. -/
  | forward
  /-- Go one step back. -/
  | back
  /-- Start over. -/
  | reset
  deriving DecidableEq, Repr

/-- An observable effect. -/
inductive Notice where
  /-- An event was announced. -/
  | announced (event : Event)
  /-- The highlight moved to a node; it was cleared when the id is empty. -/
  | highlighted (nodeId : Text)
  /-- A text was narrated. -/
  | narrated (text : Text)
  /-- A request was handed to the service. -/
  | requested (request : Request)
  deriving Repr

/-- Something left to do after a transition. -/
inductive Task where
  /-- Clear the highlight. -/
  | clearHighlight
  /-- Announce an event. -/
  | announce (event : Event)
  /-- Let the listeners to a kind of event act. -/
  | listen (kind : Text)
  /-- Report a move. -/
  | report (move : Move)
  deriving Repr

/-- Which surroundings a session has. -/
structure Surroundings where
  /-- Whether events are announced. -/
  announces : Bool := true
  /-- Whether there is a highlight. -/
  highlights : Bool := true
  /-- Whether steps are narrated. -/
  narrates : Bool := true
  deriving DecidableEq, Repr

/-- A **stage**: a session with its surroundings. -/
structure Stage where
  /-- The session. -/
  session : Session := {}
  /-- Which surroundings there are. -/
  surroundings : Surroundings := {}
  /-- The highlight. -/
  highlight : Highlight := {}
  /-- The listeners: each answers the next event of a kind with an act. -/
  listeners : List (Text × Act) := []
  /-- What was observable so far, the latest first. -/
  log : List Notice := []
  deriving Repr

namespace Stage

/-- The event of a kind, as the session announces it. -/
def event (kind : Text) (generation : Nat) (news : News) : Event :=
  { kind := kind, source := "analysis_session", generation := generation, news := news }

/-- Adds a notice to the log. -/
def note (stage : Stage) (notice : Notice) : Stage := { stage with log := notice :: stage.log }

/-! ## Acts -/

/-- The task to announce that the playback was stopped, if it was running. -/
def pausedTasks (before : Session) : List Task :=
  if before.cursor.playing then
    [.announce (event Event.playbackPaused before.generation .nothing)]
  else []

/-- Does an act. The tasks it leaves are given. -/
def act (stage : Stage) : Act → Stage × List Task × Option Failure
  | .play =>
    match stage.session.play with
    | .error failure => (stage, [], some failure)
    | .ok (session, started) =>
      ({ stage with session := session },
        if started then
          [.announce (event Event.playbackStarted session.generation .nothing)]
        else [],
        none)
  | .pause =>
    ({ stage with session := stage.session.stopPlayback }, pausedTasks stage.session, none)
  | .forward => manual 1
  | .back => manual (-1)
  | .reset =>
    let session := stage.session.reset
    ({ stage with session := session },
      [.clearHighlight, .announce (event Event.sessionReset session.generation .nothing)], none)
where
  /-- A move by hand. -/
  manual (delta : Int) : Stage × List Task × Option Failure :=
    let (session, move?) := stage.session.move delta
    ({ stage with session := session },
      pausedTasks stage.session ++ (move?.map Task.report).toList, none)

/-! ## Tasks -/

/-- The effort that a task may still cause, listeners apart. -/
def effort : Task → Nat
  | .clearHighlight => 1
  | .listen _ => 1
  | .announce _ => 2
  | .report _ => 5

/-- The effort of several tasks. -/
def totalEffort : List Task → Nat
  | [] => 0
  | task :: tasks => effort task + totalEffort tasks

/-- The efforts of two lists of tasks add up. -/
@[simp] theorem totalEffort_append (tasks others : List Task) :
    totalEffort (tasks ++ others) = totalEffort tasks + totalEffort others := by
  induction tasks with
  | nil => simp [totalEffort]
  | cons task tasks ih =>
    rw [List.cons_append, totalEffort, totalEffort, ih]
    omega

/-- Takes the first listener to a kind of event. -/
def takeListener : List (Text × Act) → Text → Option (Act × List (Text × Act))
  | [], _ => none
  | (other, act) :: rest, kind =>
    if other == kind then some (act, rest)
    else (takeListener rest kind).map fun (found, rest) => (found, (other, act) :: rest)

/-- One listener is taken away. -/
theorem length_takeListener {listeners : List (Text × Act)} {kind : Text} {act : Act}
    {rest : List (Text × Act)} (h : takeListener listeners kind = some (act, rest)) :
    rest.length + 1 = listeners.length := by
  induction listeners generalizing rest with
  | nil => simp [takeListener] at h
  | cons entry others ih =>
    obtain ⟨other, otherAct⟩ := entry
    unfold takeListener at h
    split at h
    · simp only [Option.some.injEq, Prod.mk.injEq] at h
      simp [← h.2]
    · obtain ⟨⟨found, rest'⟩, h₁, h₂⟩ := Option.map_eq_some_iff.1 h
      simp only [Prod.mk.injEq] at h₂
      rw [← h₂.2, List.length_cons, ih (h₂.1 ▸ h₁), List.length_cons]

/-- An act keeps the listeners. -/
theorem listeners_act (stage : Stage) (a : Act) : (stage.act a).1.listeners = stage.listeners := by
  cases a <;> simp only [act, act.manual]
  split <;> rfl

/-- An act leaves little to do. -/
theorem totalEffort_act (stage : Stage) (a : Act) : totalEffort (stage.act a).2.1 ≤ 7 := by
  have paused : totalEffort (pausedTasks stage.session) ≤ 2 := by
    unfold pausedTasks
    split <;> simp [totalEffort, effort]
  have manual (delta : Int) : totalEffort (act.manual stage delta).2.1 ≤ 7 := by
    have h : totalEffort (Option.map Task.report (stage.session.move delta).2).toList ≤ 5 := by
      cases (stage.session.move delta).2 <;> simp [totalEffort, effort]
    simp only [act.manual, totalEffort_append]
    omega
  cases a with
  | play =>
    simp only [act]
    split
    · simp [totalEffort]
    · split <;> simp [totalEffort, effort]
  | pause => exact Nat.le_trans paused (by omega)
  | forward => exact manual 1
  | back => exact manual (-1)
  | reset => simp [act, totalEffort, effort]

/-- Clears the highlight. -/
def clearHighlight (stage : Stage) : Stage :=
  if stage.surroundings.highlights then
    { stage with highlight := .clear }.note (.highlighted [])
  else stage

/-- Moves the highlight to a node, if the flowchart has it. -/
def highlightNode (stage : Stage) (flowchart id : Text) : Stage :=
  if stage.surroundings.highlights && hasNode flowchart id then
    { stage with highlight := (stage.highlight.moveTo flowchart id).1 }.note (.highlighted id)
  else stage

/-- Narrates a text, unless it is empty. -/
def narrate (stage : Stage) (text : Text) : Stage :=
  if stage.surroundings.narrates && !text.isEmpty then stage.note (.narrated text) else stage

/-- Presents a move: the highlight and the narration. -/
def present (stage : Stage) (move : Move) : Stage :=
  if move.index < 0 then stage.clearHighlight
  else (stage.highlightNode move.flowchart move.step.nodeId).narrate move.step.description

/-- Displays a move: it is presented, unless the cursor has moved on. -/
def display (stage : Stage) (move : Move) : Stage :=
  if move.number != stage.session.moves then stage else stage.present move

/-- The events of a move. -/
def moveTasks (move : Move) : List Task :=
  .announce (event Event.playbackStep move.generation
      (.moved move.index move.step.nodeId move.step.description)) ::
    (if move.finished then
      [.announce (event Event.playbackFinished move.generation .nothing)]
    else [])

/-- Clearing the highlight leaves the subscriptions alone. -/
@[simp] theorem listeners_clearHighlight (stage : Stage) :
    stage.clearHighlight.listeners = stage.listeners := by
  unfold clearHighlight
  split <;> rfl

/-- Highlighting a node leaves the subscriptions alone. -/
@[simp] theorem listeners_highlightNode (stage : Stage) (flowchart id : Text) :
    (stage.highlightNode flowchart id).listeners = stage.listeners := by
  unfold highlightNode
  split <;> rfl

/-- Narrating leaves the subscriptions alone. -/
@[simp] theorem listeners_narrate (stage : Stage) (text : Text) :
    (stage.narrate text).listeners = stage.listeners := by
  unfold narrate
  split <;> rfl

/-- Presenting a move leaves the subscriptions alone. -/
@[simp] theorem listeners_present (stage : Stage) (move : Move) :
    (stage.present move).listeners = stage.listeners := by
  unfold present
  split <;> simp

/-- Displaying a move keeps the listeners. -/
@[simp] theorem listeners_display (stage : Stage) (move : Move) :
    (stage.display move).listeners = stage.listeners := by
  unfold display
  split <;> simp

/-- **Does a task.** Given are also the tasks that take its place: an announced event is listened
to, and a listener acts before the other listeners are asked. -/
def doTask (stage : Stage) : Task → Stage × List Task
  | .clearHighlight => (stage.clearHighlight, [])
  | .announce event =>
    if stage.surroundings.announces then
      (stage.note (.announced event), [.listen event.kind])
    else (stage, [])
  | .report move => (stage.display move, moveTasks move)
  | .listen kind =>
    match takeListener stage.listeners kind with
    | none => (stage, [])
    | some (a, listeners) =>
      let step := { stage with listeners := listeners }.act a
      (step.1, step.2.1 ++ [.listen kind])

/-- What is left after a task costs less than the task: a listener that acts is used up. -/
theorem doTask_effort_lt (stage : Stage) (task : Task) :
    8 * (stage.doTask task).1.listeners.length + totalEffort (stage.doTask task).2 <
      8 * stage.listeners.length + effort task := by
  cases task with
  | clearHighlight => simp [doTask, totalEffort, effort]
  | announce event =>
    simp only [doTask]
    split <;> simp [totalEffort, effort, note]
  | report move =>
    simp only [doTask, listeners_display, moveTasks]
    split <;> simp [totalEffort, effort]
  | listen kind =>
    simp only [doTask]
    split
    · simp [totalEffort, effort]
    · rename_i a listeners taken
      have bound := totalEffort_act { stage with listeners := listeners } a
      have kept := listeners_act { stage with listeners := listeners } a
      have fewer := length_takeListener taken
      simp only [kept, totalEffort_append, totalEffort, effort]
      omega

/-- **Carries out** tasks in order. What listeners do in answer to an event comes before the next
task. -/
def carryOut (stage : Stage) (tasks : List Task) : Stage :=
  match tasks with
  | [] => stage
  | task :: rest =>
    let next := stage.doTask task
    next.1.carryOut (next.2 ++ rest)
termination_by 8 * stage.listeners.length + totalEffort tasks
decreasing_by
  have less := doTask_effort_lt stage task
  simp only [totalEffort_append, totalEffort]
  omega

/-- Does an act and all that follows from it. -/
def perform (stage : Stage) (a : Act) : Stage × Option Failure :=
  let (stage, tasks, failure?) := stage.act a
  (stage.carryOut tasks, failure?)

/-- A tick of the ticker of an epoch. The tasks it leaves are given. -/
def advance (stage : Stage) (epoch : Nat) : Stage × List Task :=
  let (session, move?) := stage.session.advance epoch
  ({ stage with session := session }, (move?.map Task.report).toList)

/-- A tick of the ticker of an epoch and all that follows from it. -/
def tick (stage : Stage) (epoch : Nat) : Stage :=
  let (stage, tasks) := stage.advance epoch
  stage.carryOut tasks

/-- The epoch of the latest ticker, if it is running. -/
def latestTicker? (stage : Stage) : Option Nat :=
  stage.session.tickers.head?.bind fun ticker => if ticker.running then some ticker.epoch else none

end Stage

end FlowTrace
