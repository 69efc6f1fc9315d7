import FlowTrace.Proofs.Session.Transition

/-! # What a stage broadcasts

Of all that is in the log of a stage, its **published** events and its **narrated** texts are what
those who watch and those who listen get, each in the order in which it came. One stage
**broadcasts** events and texts after another (`Stage.Broadcasts`), and when no listener answers,
what it broadcasts can be read off the tasks that a transition leaves: they are settled one by one,
and the session stays as the transition left it (`Stage.carryOut_heedless`). -/

namespace FlowTrace

/-- The event of a notice, if one was announced. -/
@[simp] def Notice.event? : Notice → Option Event
  | announced event => some event
  | highlighted _ => none
  | narrated _ => none
  | requested _ => none

/-- The text of a notice, if one was narrated. -/
@[simp] def Notice.narration? : Notice → Option Text
  | announced _ => none
  | highlighted _ => none
  | narrated text => some text
  | requested _ => none

namespace Stage

variable {stage stage' stage'' : Stage} {events events' : List Event} {texts texts' : List Text}
  {event : Event} {move : Move} {rest : List Task}

/-- The events that were **published**, the earliest first. -/
def published (stage : Stage) : List Event := (stage.log.filterMap Notice.event?).reverse

/-- The texts that were **narrated**, the earliest first. -/
def narrated (stage : Stage) : List Text := (stage.log.filterMap Notice.narration?).reverse

/-- A notice that goes to the log. -/
@[simp] theorem published_note (stage : Stage) (notice : Notice) :
    (stage.note notice).published = stage.published ++ notice.event?.toList := by
  cases notice <;> simp [published, note, List.filterMap_cons]

/-- A notice adds its narration. -/
@[simp] theorem narrated_note (stage : Stage) (notice : Notice) :
    (stage.note notice).narrated = stage.narrated ++ notice.narration?.toList := by
  cases notice <;> simp [narrated, note, List.filterMap_cons]

/-- Another session and another highlight change nothing of what was published. -/
@[simp] theorem published_mk (stage : Stage) (session : Session) (highlight : Highlight) :
    ({ stage with session := session, highlight := highlight } : Stage).published =
      stage.published := rfl

/-- What was narrated does not depend on the session and the highlight. -/
@[simp] theorem narrated_mk (stage : Stage) (session : Session) (highlight : Highlight) :
    ({ stage with session := session, highlight := highlight } : Stage).narrated =
      stage.narrated := rfl

/-! ## Broadcasts -/

/-- One stage **broadcasts** events and texts after another: those to be published are published if
there is anyone to watch, and those to be narrated are narrated if there is anyone to listen. Who is
there does not change. -/
structure Broadcasts (stage : Stage) (events : List Event) (texts : List Text) (stage' : Stage) :
    Prop where
  /-- The surroundings are the same. -/
  surroundings : stage'.surroundings = stage.surroundings
  /-- The listeners are the same. -/
  listeners : stage'.listeners = stage.listeners
  /-- The events are published. -/
  published : stage'.published =
    stage.published ++ if stage.surroundings.announces then events else []
  /-- The texts are narrated. -/
  narrated : stage'.narrated =
    stage.narrated ++ if stage.surroundings.narrates then texts else []

namespace Broadcasts

/-- A stage that stays broadcasts nothing. -/
theorem refl (stage : Stage) : Broadcasts stage [] [] stage := ⟨rfl, rfl, by simp, by simp⟩

/-- A transition of the session alone broadcasts nothing. -/
theorem transit (stage : Stage) (session : Session) :
    Broadcasts stage [] [] { stage with session := session } :=
  ⟨rfl, rfl, by simp [Stage.published], by simp [Stage.narrated]⟩

/-- Stages broadcast one after the other. -/
theorem trans (first : Broadcasts stage events texts stage')
    (second : Broadcasts stage' events' texts' stage'') :
    Broadcasts stage (events ++ events') (texts ++ texts') stage'' where
  surroundings := second.surroundings.trans first.surroundings
  listeners := second.listeners.trans first.listeners
  published := by
    rw [second.published, first.published, first.surroundings, List.append_assoc]
    split <;> rfl
  narrated := by
    rw [second.narrated, first.narrated, first.surroundings, List.append_assoc]
    split <;> rfl

end Broadcasts

/-- Clearing the highlight broadcasts nothing. -/
theorem broadcasts_clearHighlight (stage : Stage) :
    Broadcasts stage [] [] stage.clearHighlight := by
  unfold clearHighlight
  split
  · exact ⟨rfl, rfl, by simp, by simp⟩
  · exact .refl stage

/-- Highlighting a node broadcasts nothing. -/
theorem broadcasts_highlightNode (stage : Stage) (flowchart id : Text) :
    Broadcasts stage [] [] (stage.highlightNode flowchart id) := by
  unfold highlightNode
  split
  · exact ⟨rfl, rfl, by simp, by simp⟩
  · exact .refl stage

/-- An empty text is not narrated. -/
theorem broadcasts_narrate (stage : Stage) (text : Text) :
    Broadcasts stage [] (if text = [] then [] else [text]) (stage.narrate text) := by
  unfold narrate
  by_cases empty : text = []
  · subst empty
    rw [List.isEmpty_nil, Bool.not_true, Bool.and_false]
    exact .refl stage
  · rw [if_neg empty, List.isEmpty_eq_false_iff.2 empty, Bool.not_false, Bool.and_true]
    split
    · rename_i narrates
      exact ⟨rfl, rfl, by simp, by simp [narrates]⟩
    · rename_i silent
      exact ⟨rfl, rfl, by simp, by simp [silent]⟩

/-! ## Moves -/

/-- The texts of a move that is displayed: the description of its step, unless it is empty. -/
def moveTexts (move : Move) : List Text :=
  if move.index < 0 ∨ move.step.description = [] then [] else [move.step.description]

/-- The event of a move. -/
def stepEvent (move : Move) : Event :=
  Stage.event Event.playbackStep move.generation
    (.moved move.index move.step.nodeId move.step.description)

/-- The events of a move, the end of the playback included. -/
def moveEvents (move : Move) : List Event :=
  stepEvent move ::
    if move.finished then [Stage.event Event.playbackFinished move.generation .nothing] else []

/-- A move is announced event by event. -/
theorem moveTasks_eq (move : Move) : moveTasks move = (moveEvents move).map Task.announce := by
  unfold moveTasks moveEvents stepEvent
  split <;> rfl

/-- The last move is displayed. -/
theorem broadcasts_display (last : move.number = stage.session.moves) :
    Broadcasts stage [] (moveTexts move) (stage.display move) := by
  have current : (move.number != stage.session.moves) = false := by simp [last]
  unfold display present moveTexts
  rw [current, if_neg Bool.false_ne_true]
  by_cases before : move.index < 0
  · rw [if_pos before, if_pos (Or.inl before)]
    exact broadcasts_clearHighlight stage
  · have narrated := (broadcasts_highlightNode stage move.flowchart move.step.nodeId).trans
      (broadcasts_narrate _ move.step.description)
    simpa [before] using narrated

/-- The display of a move does not change the session. -/
@[simp] theorem session_display (stage : Stage) (move : Move) :
    (stage.display move).session = stage.session := by
  unfold display
  split
  · rfl
  · exact session_present stage move

/-! ## Carrying out tasks unanswered -/

/-- **No listener answers** events of a kind. -/
def Unanswered (stage : Stage) (kind : Text) : Prop := takeListener stage.listeners kind = none

/-- Without listeners no event is answered. -/
theorem unanswered_of_nil (alone : stage.listeners = []) (kind : Text) :
    stage.Unanswered kind := by
  unfold Unanswered
  rw [alone]
  rfl

/-- An event that nobody answers is answered by nobody later. -/
theorem Broadcasts.unanswered {kind : Text} (h : Broadcasts stage events texts stage')
    (quiet : stage.Unanswered kind) : stage'.Unanswered kind := by
  unfold Unanswered
  rw [h.listeners]
  exact quiet

/-- Announces an event. -/
def announced (stage : Stage) (event : Event) : Stage :=
  if stage.surroundings.announces then stage.note (.announced event) else stage

/-- An event does not change the session when it is announced. -/
@[simp] theorem session_announced (stage : Stage) (event : Event) :
    (stage.announced event).session = stage.session := by
  unfold announced
  split <;> rfl

/-- An event that is announced is broadcast. -/
theorem broadcasts_announced (stage : Stage) (event : Event) :
    Broadcasts stage [event] [] (stage.announced event) := by
  unfold announced
  split
  · rename_i announces
    exact ⟨rfl, rfl, by simp [announces], by simp⟩
  · rename_i silent
    exact ⟨rfl, rfl, by simp [silent], by simp⟩

/-- Announces events in order. -/
def announceAll (stage : Stage) (events : List Event) : Stage := events.foldl announced stage

/-- Events do not change the session when they are announced. -/
@[simp] theorem session_announceAll (stage : Stage) (events : List Event) :
    (stage.announceAll events).session = stage.session := by
  induction events generalizing stage with
  | nil => rfl
  | cons event later ih => exact (ih _).trans (session_announced stage event)

/-- Events that are announced are broadcast in their order. -/
theorem broadcasts_announceAll (stage : Stage) (events : List Event) :
    Broadcasts stage events [] (stage.announceAll events) := by
  induction events generalizing stage with
  | nil => exact .refl stage
  | cons event later ih => exact (broadcasts_announced stage event).trans (ih _)

/-- An event that no listener answers is announced, and nothing else happens. -/
theorem carryOut_announce (quiet : stage.Unanswered event.kind) (rest : List Task) :
    stage.carryOut (.announce event :: rest) = (stage.announced event).carryOut rest := by
  rw [carryOut]
  unfold announced
  simp only [doTask]
  split
  · -- The listeners are asked, and none of them is taken.
    rw [List.singleton_append, carryOut]
    have none_taken : takeListener (stage.note (.announced event)).listeners event.kind = none :=
      quiet
    simp only [doTask, none_taken, List.nil_append]
  · rfl

/-- Announcements that nobody answers are carried out one after the other. -/
theorem carryOut_announceAll (quiet : ∀ event ∈ events, stage.Unanswered event.kind)
    (rest : List Task) : stage.carryOut (events.map Task.announce ++ rest) =
      (stage.announceAll events).carryOut rest := by
  induction events generalizing stage with
  | nil => rfl
  | cons event later ih =>
    rw [List.forall_mem_cons] at quiet
    rw [List.map_cons, List.cons_append, carryOut_announce quiet.1]
    exact ih fun other member =>
      (broadcasts_announced stage event).unanswered (quiet.2 other member)

end Stage

/-- The events that a task announces. -/
def Task.events : Task → List Event
  | clearHighlight => []
  | announce event => [event]
  | listen _ => []
  | report move => Stage.moveEvents move

/-- The texts that a task narrates. -/
def Task.texts : Task → List Text
  | report move => Stage.moveTexts move
  | clearHighlight => []
  | announce _ => []
  | listen _ => []

namespace Stage

variable {stage : Stage} {task : Task} {tasks rest : List Task}

/-- **No listener answers a task**: there is none to the events that it announces. -/
def Heedless (stage : Stage) : Task → Prop
  | .listen kind => stage.Unanswered kind
  | task => ∀ event ∈ task.events, stage.Unanswered event.kind

/-- What a task comes to when no listener answers it. -/
def settle (stage : Stage) : Task → Stage
  | .clearHighlight => stage.clearHighlight
  | .announce event => stage.announced event
  | .listen _ => stage
  | .report move => (stage.display move).announceAll (moveEvents move)

/-- A task that is settled does not change the session. -/
@[simp] theorem session_settle (stage : Stage) (task : Task) :
    (stage.settle task).session = stage.session := by
  cases task <;> simp [settle]

/-- A task that is settled broadcasts what it announces. -/
theorem broadcasts_settle
    (last : ∀ move, task = .report move → move.number = stage.session.moves) :
    Broadcasts stage task.events task.texts (stage.settle task) := by
  cases task with
  | clearHighlight => exact broadcasts_clearHighlight stage
  | announce event => exact broadcasts_announced stage event
  | listen kind => exact .refl stage
  | report move =>
    have told :=
      (broadcasts_display (last move rfl)).trans (broadcasts_announceAll _ (moveEvents move))
    rw [List.append_nil] at told
    exact told

/-- A task that no listener answers is settled before the next one. -/
theorem carryOut_cons (heedless : stage.Heedless task) (rest : List Task) :
    stage.carryOut (task :: rest) = (stage.settle task).carryOut rest := by
  cases task with
  | announce event => exact carryOut_announce (heedless event (List.mem_singleton_self _)) rest
  | clearHighlight =>
    rw [carryOut]
    rfl
  | listen kind =>
    have none_taken : takeListener stage.listeners kind = none := heedless
    rw [carryOut]
    simp only [doTask, none_taken, List.nil_append]
    rfl
  | report move =>
    rw [carryOut]
    show (stage.display move).carryOut (moveTasks move ++ rest) = _
    rw [moveTasks_eq]
    refine carryOut_announceAll (fun event member => ?_) rest
    unfold Unanswered
    rw [listeners_display]
    exact heedless event member

/-- A heedless task stays so while others are broadcast. -/
theorem Broadcasts.heedless {stage' : Stage} {events : List Event} {texts : List Text}
    (h : Broadcasts stage events texts stage') (heedless : stage.Heedless task) :
    stage'.Heedless task := by
  cases task with
  | listen kind =>
    have quiet : stage.Unanswered kind := heedless
    exact h.unanswered quiet
  | _ => exact fun event member => h.unanswered (heedless event member)

/-- **Tasks that no listener answers** leave the session alone, and broadcast their events and texts
in order. -/
theorem carryOut_heedless (heedless : ∀ task ∈ tasks, stage.Heedless task)
    (last : ∀ move, .report move ∈ tasks → move.number = stage.session.moves) :
    (stage.carryOut tasks).session = stage.session ∧
      Broadcasts stage (tasks.flatMap Task.events) (tasks.flatMap Task.texts)
        (stage.carryOut tasks) := by
  induction tasks generalizing stage with
  | nil =>
    rw [carryOut]
    exact ⟨rfl, .refl stage⟩
  | cons task rest ih =>
    rw [List.forall_mem_cons] at heedless
    have settled := broadcasts_settle fun move same => last move (same ▸ List.mem_cons_self)
    have later_heedless : ∀ other ∈ rest, (stage.settle task).Heedless other :=
      fun other member => settled.heedless (heedless.2 other member)
    have later := ih later_heedless fun move member => by
      rw [session_settle]
      exact last move (List.mem_cons_of_mem _ member)
    rw [carryOut_cons heedless.1]
    exact ⟨later.1.trans (session_settle stage task), settled.trans later.2⟩

end Stage

end FlowTrace
