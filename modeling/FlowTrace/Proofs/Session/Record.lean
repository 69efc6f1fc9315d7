import FlowTrace.Proofs.Session.Sequential
import FlowTrace.Proofs.Session.Slots

/-! # The record of the submissions

Of all that a stage makes known, the **milestones** are what tells of its submissions: that one was
made, that the service was asked, and what became of it. In an interleaving the milestones of
different submissions are mixed. The **record** of a run (`Weave.record`) is the list of them with
the place of the strand that each comes from, and it accounts for every milestone in the log
(`Weave.milestones_run`).

A strand has milestones left to tell, in the order of its tasks (`Strand.untold`). The law that
carries everything is that nothing is lost and nothing is added on the way
(`Weave.toldBy_append_untold`): what a turn tells for a strand, followed by what the strand then has
left, is what it had left before, unless it takes its answer with that turn. -/

namespace FlowTrace

/-- Whether an event tells of a submission. -/
def Event.isAnalysis (event : Event) : Bool :=
  [analysisSubmitted, analysisCompleted, analysisFailed, analysisDiscarded].contains event.kind

/-- Whether a notice is a **milestone**: an event that tells of a submission, or a request. -/
def Notice.isMilestone : Notice → Bool
  | announced event => event.isAnalysis
  | highlighted _ => false
  | narrated _ => false
  | requested _ => true

/-! ## Milestones that are left -/

/-- The milestones of a task. -/
def Task.milestones : Task → List Notice
  | announce event => if event.isAnalysis then [.announced event] else []
  | clearHighlight => []
  | listen _ => []
  | report _ => []

/-- The milestones of several tasks. -/
def milestones (tasks : List Task) : List Notice := tasks.flatMap Task.milestones

/-- No tasks tell no milestones. -/
@[simp] theorem milestones_nil : milestones [] = [] := rfl

/-- The milestones of tasks are told one after the other. -/
@[simp] theorem milestones_cons (task : Task) (tasks : List Task) :
    milestones (task :: tasks) = task.milestones ++ milestones tasks := rfl

/-- The milestones of tasks put together are told one after the other. -/
@[simp] theorem milestones_append (tasks others : List Task) :
    milestones (tasks ++ others) = milestones tasks ++ milestones others :=
  List.flatMap_append

/-- The milestones of a sequel. -/
def Sequel.milestones : Sequel → List Notice
  | ask _ request => [.requested request]
  | nothing => []
  | back _ => []

namespace Strand

/-- The milestones that a strand has left to tell, its answer apart. -/
def untold : Strand → List Notice
  | busy tasks sequel => milestones tasks ++ sequel.milestones
  | waiting _ => []
  | answered _ _ => []

/-- The milestones that a strand tells with the next piece of its work. -/
def spoken : Strand → List Notice
  | busy (task :: _) _ => task.milestones
  | busy [] sequel => sequel.milestones
  | waiting _ => []
  | answered _ _ => []

end Strand

namespace Stage

/-- The tasks of a move have no milestones. -/
theorem milestones_moveTasks (move : Move) : milestones (moveTasks move) = [] := by
  unfold moveTasks
  split <;> rfl

/-- Nor have the tasks of an act. -/
theorem milestones_act (stage : Stage) (a : Act) : milestones (stage.act a).2.1 = [] := by
  have paused : milestones (pausedTasks stage.session) = [] := by
    unfold pausedTasks
    split <;> rfl
  have manual (delta : Int) : milestones (act.manual stage delta).2.1 = [] := by
    simp only [act.manual, milestones_append, paused, List.nil_append]
    cases (stage.session.move delta).2 <;> rfl
  cases a with
  | play =>
    simp only [act]
    split
    · rfl
    · split <;> rfl
  | pause => exact paused
  | forward => exact manual 1
  | back => exact manual (-1)
  | reset => rfl

/-- The **fate** of a submission, as it is announced: its answer came too late, or it failed, or it
was completed. -/
def fate (current generation : Nat) (answer : Except Failure Result) : Event :=
  if generation = current then
    match answer with
    | .error failure => event Event.analysisFailed generation (.failed failure)
    | .ok result => event Event.analysisCompleted generation (.completed result)
  else event Event.analysisDiscarded generation .nothing

/-- A submission that takes its answer has its fate to announce, and nothing else. -/
theorem tasks_conclude (stage : Stage) (generation : Nat) (answer : Except Failure Result) :
    (stage.conclude generation answer).2.1 =
      [.announce (fate stage.session.generation generation answer)] := by
  by_cases current : generation = stage.session.generation
  · subst current
    cases answer with
    | error failure => simp [conclude, Session.apply_error, fate]
    | ok result => simp [conclude, Session.apply_ok, fate]
  · simp [conclude, Session.apply_of_ne current, fate, current]

/-- A fate is about an analysis. -/
theorem isAnalysis_fate (current generation : Nat) (answer : Except Failure Result) :
    (fate current generation answer).isAnalysis = true := by
  unfold fate
  split
  · cases answer <;> rfl
  · rfl

/-- A fate is about the generation that it is decided for. -/
theorem generation_fate (current generation : Nat) (answer : Except Failure Result) :
    (fate current generation answer).generation = generation := by
  unfold fate
  split
  · cases answer <;> rfl
  · rfl

/-! ## Milestones in the log -/

/-- The milestones in the log, the earliest first. -/
def milestones (stage : Stage) : List Notice := (stage.log.filter Notice.isMilestone).reverse

/-- Between two stages nothing was told of submissions. -/
structure Quiet (stage stage' : Stage) : Prop where
  /-- The surroundings are the same. -/
  surroundings : stage'.surroundings = stage.surroundings
  /-- There are no new milestones in the log. -/
  milestones : stage'.milestones = stage.milestones

/-- A stage that stays is quiet. -/
theorem Quiet.refl (stage : Stage) : Quiet stage stage := ⟨rfl, rfl⟩

/-- Clearing the highlight is quiet. -/
theorem quiet_clearHighlight (stage : Stage) : Quiet stage stage.clearHighlight := by
  unfold clearHighlight
  split <;> exact ⟨rfl, rfl⟩

/-- Presenting a move is quiet. -/
theorem quiet_present (stage : Stage) (move : Move) : Quiet stage (stage.present move) := by
  unfold present clearHighlight highlightNode narrate
  (repeat' split) <;> exact ⟨rfl, rfl⟩

/-- An act on the cursor is quiet. -/
theorem quiet_act (stage : Stage) (a : Act) : Quiet stage (stage.act a).1 := by
  rw [act_eq]
  exact ⟨rfl, rfl⟩

/-- A new listener is quiet. -/
theorem quiet_listen (stage : Stage) (kind : Text) :
    Quiet stage (stage.doTask (.listen kind)).1 := by
  rw [listen_eq]
  exact ⟨rfl, rfl⟩

/-- The conclusion of an analysis is quiet. -/
theorem quiet_conclude (stage : Stage) (generation : Nat) (answer : Except Failure Result) :
    Quiet stage (stage.conclude generation answer).1 := by
  rw [conclude_eq]
  exact ⟨rfl, rfl⟩

/-- A notice that goes to the log. -/
theorem milestones_note (stage : Stage) (notice : Notice) :
    (stage.note notice).milestones =
      stage.milestones ++ if notice.isMilestone then [notice] else [] := by
  unfold milestones note
  rw [List.filter_cons]
  split <;> simp

end Stage

namespace Weave

variable {first w : Weave} {turns : List Turn} {t : Turn} {place : Nat} {task : Task}
  {rest : List Task} {sequel : Sequel}

/-! ## The record -/

/-- The milestones that a turn **tells**, with the place of the strand that they come from. -/
def tells (w : Weave) : Turn → List (Nat × Notice)
  | .work place =>
    match w.strands[place]? with
    | some strand => strand.spoken.map (place, ·)
    | none => []
  | _ => []

/-- The **record** of a run. -/
def record (w : Weave) : List Turn → List (Nat × Notice)
  | [] => []
  | t :: turns => w.tells t ++ (w.turn t).record turns

/-- The record goes on with what the last turn tells. -/
theorem record_concat (w : Weave) (turns : List Turn) (t : Turn) :
    w.record (turns ++ [t]) = w.record turns ++ (w.run turns).tells t := by
  induction turns generalizing w with
  | nil => simp [record]
  | cons u turns ih => rw [List.cons_append, record, ih, record, run_cons, List.append_assoc]

/-- The stage has **heard** some milestones between two weaves. -/
structure Heard (w w' : Weave) (notices : List Notice) : Prop where
  /-- The surroundings are the same. -/
  surroundings : w'.stage.surroundings = w.stage.surroundings
  /-- The milestones have come to the log. -/
  milestones : w'.stage.milestones = w.stage.milestones ++ notices

/-- After a quiet step nothing more was heard. -/
theorem heard_of_quiet {w' : Weave} (h : w.stage.Quiet w'.stage) : Heard w w' [] :=
  ⟨h.surroundings, by rw [h.milestones, List.append_nil]⟩

/-- A task that is done is heard, when events are announced. -/
theorem heard_doTask (loud : w.stage.surroundings.announces = true) (place : Nat)
    (rest : List Task) (sequel : Sequel) (task : Task) :
    Heard w (w.doTask place rest sequel task) task.milestones := by
  cases task with
  | clearHighlight =>
    refine heard_of_quiet ?_
    simp only [doTask]
    split
    · exact w.stage.quiet_clearHighlight
    · exact .refl _
  | announce event =>
    simp only [doTask, Stage.doTask, loud, if_true]
    exact ⟨rfl, Stage.milestones_note _ _⟩
  | listen kind => exact heard_of_quiet (w.stage.quiet_listen kind)
  | report move =>
    refine heard_of_quiet ?_
    simp only [doTask]
    split
    · split <;> exact .refl _
    · split
      · exact w.stage.quiet_present move
      · exact .refl _

/-- **What a turn tells is heard**, and nothing else is. -/
theorem heard_turn (loud : w.stage.surroundings.announces = true) (t : Turn) :
    Heard w (w.turn t) ((w.tells t).map Prod.snd) := by
  cases t with
  | submit code language context =>
    refine heard_of_quiet ?_
    simp only [turn]
    split <;> exact ⟨rfl, rfl⟩
  | act a => exact heard_of_quiet (w.stage.quiet_act a)
  | tick epoch =>
    refine heard_of_quiet ?_
    simp only [turn]
    split <;> exact ⟨rfl, rfl⟩
  | reply place context reply =>
    refine heard_of_quiet ?_
    simp only [turn]
    split <;> exact ⟨rfl, rfl⟩
  | conclude place =>
    refine heard_of_quiet ?_
    simp only [turn]
    split
    · exact w.stage.quiet_conclude _ _
    · exact .refl _
  | work place =>
    simp only [turn, tells]
    split
    · rename_i task rest sequel found
      simpa [found, Strand.spoken] using heard_doTask loud place rest sequel task
    · rename_i generation request found
      simp only [found, Strand.spoken, Sequel.milestones]
      exact ⟨rfl, Stage.milestones_note _ _⟩
    · -- A strand that has nothing to do, or waits, is not heard.
      rename_i no_task no_request
      cases found : w.strands[place]? with
      | none => exact heard_of_quiet (.refl _)
      | some strand =>
        have silent : strand.spoken = [] := by
          cases strand with
          | busy tasks sequel =>
            cases tasks with
            | cons task rest => exact absurd found (no_task task rest sequel)
            | nil =>
              cases sequel with
              | ask generation request => exact absurd found (no_request generation request)
              | nothing => rfl
              | back value => rfl
          | waiting generation => rfl
          | answered generation answer => rfl
        simp only [silent, List.map_nil]
        exact heard_of_quiet (.refl _)

/-- Events are announced forever when they are at first. -/
theorem announces_run (loud : w.stage.surroundings.announces = true) (turns : List Turn) :
    (w.run turns).stage.surroundings.announces = true :=
  run_of_turn (P := fun w => w.stage.surroundings.announces = true)
    (fun w t kept => by rw [(heard_turn kept t).surroundings]; exact kept) loud turns

/-- **The record accounts for every milestone in the log.** -/
theorem milestones_run (loud : w.stage.surroundings.announces = true) (turns : List Turn) :
    (w.run turns).stage.milestones = w.stage.milestones ++ (w.record turns).map Prod.snd := by
  induction turns using List.reverseRecOn with
  | nil => simp [record]
  | append_singleton turns t ih =>
    rw [run_concat, (heard_turn (announces_run loud turns) t).milestones, ih,
      record_concat, List.map_append, List.append_assoc]

/-! ## What is told for one strand -/

/-- The milestones that the strand at a place has **told** in a run. -/
def told (w : Weave) (turns : List Turn) (place : Nat) : List Notice :=
  ((w.record turns).filter (·.1 == place)).map Prod.snd

/-- What a turn tells for the strand at a place. -/
def toldBy (w : Weave) (t : Turn) (place : Nat) : List Notice :=
  ((w.tells t).filter (·.1 == place)).map Prod.snd

/-- What was told at a place goes on with what the last turn tells there. -/
theorem told_concat (w : Weave) (turns : List Turn) (t : Turn) (place : Nat) :
    w.told (turns ++ [t]) place = w.told turns place ++ (w.run turns).toldBy t place := by
  rw [told, record_concat, List.filter_append, List.map_append]
  rfl

/-- What was told at a place is in the record. -/
theorem mem_told {notice : Notice} :
    notice ∈ w.told turns place ↔ (place, notice) ∈ w.record turns := by
  simp [told]

/-- A strand is told of only when it works. -/
theorem toldBy_eq_nil (other : t ≠ .work place) : w.toldBy t place = [] := by
  cases t with
  | work worker =>
    have ne : worker ≠ place := fun same => other (congrArg Turn.work same)
    simp only [toldBy, tells]
    split <;> simp [ne]
  | submit code language context => rfl
  | act a => rfl
  | tick epoch => rfl
  | reply place context reply => rfl
  | conclude place => rfl

/-- Nothing is told of a strand that is not there. -/
theorem toldBy_of_absent (absent : w.strands[place]? = none) (t : Turn) :
    w.toldBy t place = [] := by
  by_cases works : t = .work place
  · subst works
    simp [toldBy, tells, absent]
  · exact toldBy_eq_nil works

/-- A strand that works is told of. -/
theorem toldBy_work {strand : Strand} (found : w.strands[place]? = some strand) :
    w.toldBy (.work place) place = strand.spoken := by
  simp only [toldBy, tells, found]
  rw [List.filter_eq_self.2 (by simp), List.map_map]
  exact List.map_id _

/-- A task is done in place of its milestones: those that take its place have none. -/
theorem untold_doTask (loud : w.stage.surroundings.announces = true)
    (found : w.strands[place]? = some (.busy (task :: rest) sequel)) :
    ∃ tasks, (w.doTask place rest sequel task).strands[place]? = some (.busy tasks sequel) ∧
      task.milestones ++ milestones tasks = milestones (task :: rest) := by
  cases task with
  | clearHighlight =>
    simp only [doTask]
    split
    · exact ⟨rest, strand_put found _ _, rfl⟩
    · exact ⟨_, found, rfl⟩
  | announce event =>
    -- In its place comes the task of calling the listener, which tells nothing by itself.
    refine ⟨.listen event.kind :: rest, ?_, rfl⟩
    simp only [doTask, Stage.doTask, loud, if_true]
    exact strand_put found _ _
  | listen kind =>
    simp only [doTask, Stage.doTask]
    split
    · exact ⟨rest, strand_put found _ _, rfl⟩
    · refine ⟨_, strand_put found _ _, ?_⟩
      simp only [milestones_append, Stage.milestones_act]
      rfl
  | report move =>
    have moved : milestones (Stage.moveTasks move ++ rest) = milestones rest := by
      rw [milestones_append, Stage.milestones_moveTasks, List.nil_append]
    simp only [doTask]
    split
    · split
      · exact ⟨_, strand_put found _ _, moved⟩
      · exact ⟨_, found, rfl⟩
    · split
      · exact ⟨_, strand_put found w.stage _, moved⟩
      · exact ⟨_, found, rfl⟩

/-- A strand that works tells the first of what it has left. -/
theorem spoken_append_untold (loud : w.stage.surroundings.announces = true) {strand : Strand}
    (found : w.strands[place]? = some strand) :
    ∃ next, (w.turn (.work place)).strands[place]? = some next ∧
      strand.spoken ++ next.untold = strand.untold := by
  match strand, found with
  | .busy (task :: rest) sequel, found =>
    obtain ⟨tasks, next, conserved⟩ := untold_doTask loud found
    refine ⟨.busy tasks sequel, ?_, ?_⟩
    · simp only [turn, found]
      exact next
    · rw [Strand.untold, Strand.untold, ← conserved, List.append_assoc]
      rfl
  | .busy [] (.ask generation request), found =>
    refine ⟨.waiting generation, ?_, rfl⟩
    simp only [turn, found]
    exact strand_put found _ _
  | .busy [] .nothing, found => exact ⟨.busy [] .nothing, by simp only [turn, found], rfl⟩
  | .busy [] (.back value), found => exact ⟨.busy [] (.back value), by simp only [turn, found], rfl⟩
  | .waiting generation, found => exact ⟨.waiting generation, by simp only [turn, found], rfl⟩
  | .answered generation answer, found =>
    exact ⟨.answered generation answer, by simp only [turn, found], rfl⟩

/-- **Nothing is lost and nothing is added**: what a turn tells for a strand, followed by what the
strand has left after it, is what it had left before, unless it takes its answer. -/
theorem toldBy_append_untold (loud : w.stage.surroundings.announces = true) {strand : Strand}
    (found : w.strands[place]? = some strand)
    (no_answer : ∀ generation answer, ¬ w.Concludes t place generation answer) :
    ∃ next, (w.turn t).strands[place]? = some next ∧
      w.toldBy t place ++ next.untold = strand.untold := by
  by_cases works : t = .work place
  · subst works
    rw [toldBy_work found]
    exact spoken_append_untold loud found
  · -- Without working, a strand goes on only when it gets an answer, and it had nothing left then.
    rw [toldBy_eq_nil works]
    obtain ⟨next, next_found, same | goes⟩ := strand_persists found t
    · exact ⟨next, next_found, by rw [same]; rfl⟩
    · refine ⟨next, next_found, ?_⟩
      cases goes with
      | worked h => exact absurd h works
      | asked h => exact absurd h works
      | replied h => rfl
      | @concluded generation answer h => exact absurd ⟨h, found⟩ (no_answer generation answer)

end Weave

end FlowTrace
