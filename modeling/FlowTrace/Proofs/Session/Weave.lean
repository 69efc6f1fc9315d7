import FlowTrace.Proofs.Session.Transition
import Mathlib.Data.List.Induction

/-! # Interleaved operations on a session

The operations on a session overlap. Each of them takes the lock of the session for one transition
and does the rest of its work outside: it announces events, reports a move or clears the highlight,
and a submission waits for its answer in between. A **strand** is one operation with what is left of
it; a **weave** is a stage with all strands ever begun on it. A weave changes by **turns**, each of
them one indivisible piece of one operation (`Weave.turn`), and a **run** takes any turns in any
order (`Weave.run`), so that the runs are all the interleavings:

* A submission is begun, asks the service, is answered at any later moment, and takes its answer at
  a moment later still. Any number of submissions may be on their way at once.
* An act and a tick are begun at any moment; ticks may come from every ticker ever made.
* A report has two parts. The strand first looks whether the cursor has moved on, and presents its
  move later. In between no other strand reports or clears the highlight, but the session may
  change.

The turns are made of the very transitions that the stage makes when one operation is done to its
end before the next one begins (`Stage.act`, `Stage.doTask`, `Stage.commence`, `Stage.conclude`,
`Stage.advance`); `FlowTrace.Proofs.Session.Sequential` says so. A turn for which nothing is ready
changes nothing. -/

namespace FlowTrace

/-- What an operation does once its tasks are done. -/
inductive Sequel where
  /-- It is over. -/
  | nothing
  /-- It asks the service. -/
  | ask (generation : Nat) (request : Request)
  /-- It comes back with a value. -/
  | back (value : Except Failure Result)

/-- A **strand**: an operation and what is left of it. -/
inductive Strand where
  /-- There are tasks to do, and then a sequel. -/
  | busy (tasks : List Task) (sequel : Sequel)
  /-- A submission waits for the service. -/
  | waiting (generation : Nat)
  /-- A submission has its answer, but has not taken it. -/
  | answered (generation : Nat) (answer : Except Failure Result)

namespace Strand

/-- The tasks that are left. -/
def tasks : Strand → List Task
  | busy tasks _ => tasks
  | waiting _ => []
  | answered _ _ => []

/-- The generation of a submission that has not taken its answer. -/
def inFlight? : Strand → Option Nat
  | busy _ (.ask generation _) => some generation
  | busy _ _ => none
  | waiting generation => some generation
  | answered generation _ => some generation

/-- The tasks of a strand at work are those that are left. -/
@[simp] theorem tasks_busy (tasks : List Task) (sequel : Sequel) :
    (busy tasks sequel).tasks = tasks := rfl

/-- A strand that waits has no tasks. -/
@[simp] theorem tasks_waiting (generation : Nat) : (waiting generation).tasks = [] := rfl

/-- A strand with its answer has no tasks. -/
@[simp] theorem tasks_answered (generation : Nat) (answer : Except Failure Result) :
    (answered generation answer).tasks = [] := rfl

end Strand

/-- A **weave**: a stage with the operations on it. -/
structure Weave where
  /-- The stage. -/
  stage : Stage
  /-- The strands, in the order in which they were begun. -/
  strands : List Strand := []
  /-- The strand that has looked at the cursor and will present its move next. -/
  reporting : Option Nat := none

/-- A **turn**: one indivisible piece of an operation. -/
inductive Turn where
  /-- A submission is made, in some context. -/
  | submit (code language : Text) (context : Context)
  /-- An act is done. -/
  | act (a : Act)
  /-- The ticker of an epoch ticks. -/
  | tick (epoch : Nat)
  /-- The strand at a place does its next task, or else its sequel. -/
  | work (place : Nat)
  /-- The service answers the submission at a place; the context is the one of the request then. -/
  | reply (place : Nat) (context : Context) (reply : Except Failure (Option Report))
  /-- The submission at a place takes its answer. -/
  | conclude (place : Nat)

namespace Weave

/-- The session. -/
abbrev session (w : Weave) : Session := w.stage.session

/-- The weave before the first turn. -/
def fresh (policy : ClearPolicy) (surroundings : Surroundings) (listeners : List (Text × Act)) :
    Weave where
  stage := { session := { policy := policy }, surroundings := surroundings, listeners := listeners }

/-- Begins a strand. -/
def begin (w : Weave) (stage : Stage) (strand : Strand) : Weave :=
  { w with stage := stage, strands := w.strands ++ [strand] }

/-- Goes on with the strand at a place. -/
def put (w : Weave) (place : Nat) (stage : Stage) (strand : Strand) : Weave :=
  { w with stage := stage, strands := w.strands.set place strand }

/-- A busy strand does its first task. While one strand is reporting, the others neither report nor
clear the highlight. -/
def doTask (w : Weave) (place : Nat) (rest : List Task) (sequel : Sequel) : Task → Weave
  | .clearHighlight =>
    match w.reporting with
    | none => w.put place w.stage.clearHighlight (.busy rest sequel)
    | some _ => w
  | .report move =>
    match w.reporting with
    | none =>
      if move.number != w.session.moves then
        w.put place w.stage (.busy (Stage.moveTasks move ++ rest) sequel)
      else { w with reporting := some place }
    | some other =>
      if other = place then
        { w.put place (w.stage.present move) (.busy (Stage.moveTasks move ++ rest) sequel) with
          reporting := none }
      else w
  | .announce event =>
    let (stage, more) := w.stage.doTask (.announce event)
    w.put place stage (.busy (more ++ rest) sequel)
  | .listen kind =>
    let (stage, more) := w.stage.doTask (.listen kind)
    w.put place stage (.busy (more ++ rest) sequel)

/-- Takes a turn. -/
def turn (w : Weave) : Turn → Weave
  | .submit code language context =>
    match Stage.objection? code language with
    | some failure => w.begin w.stage (.busy [] (.back (.error failure)))
    | none =>
      let (stage, tasks, generation) := w.stage.commence code language context
      w.begin stage (.busy tasks (.ask generation ⟨code, language, true⟩))
  | .act a =>
    let (stage, tasks, _) := w.stage.act a
    w.begin stage (.busy tasks .nothing)
  | .tick epoch =>
    if w.session.tickers.any (·.epoch == epoch) then
      let (stage, tasks) := w.stage.advance epoch
      w.begin stage (.busy tasks .nothing)
    else w
  | .work place =>
    match w.strands[place]? with
    | some (.busy (task :: rest) sequel) => w.doTask place rest sequel task
    | some (.busy [] (.ask generation request)) =>
      w.put place (w.stage.note (.requested request)) (.waiting generation)
    | _ => w
  | .reply place context reply =>
    match w.strands[place]? with
    | some (.waiting generation) =>
      w.put place w.stage (.answered generation (Stage.outcome context reply))
    | _ => w
  | .conclude place =>
    match w.strands[place]? with
    | some (.answered generation answer) =>
      let (stage, tasks, value) := w.stage.conclude generation answer
      w.put place stage (.busy tasks (.back value))
    | _ => w

/-- A **run**: turns taken one after the other. -/
def run (w : Weave) (turns : List Turn) : Weave := turns.foldl turn w

/-- A weave stays without turns. -/
@[simp] theorem run_nil (w : Weave) : w.run [] = w := rfl

/-- A run takes its first turn first. -/
@[simp] theorem run_cons (w : Weave) (t : Turn) (turns : List Turn) :
    w.run (t :: turns) = (w.turn t).run turns := rfl

/-- A run goes on where another one has ended. -/
@[simp] theorem run_append (w : Weave) (turns others : List Turn) :
    w.run (turns ++ others) = (w.run turns).run others := by
  simp [run]

/-- A longer run takes its last turn where the shorter one leaves off. -/
theorem run_concat (first : Weave) (turns : List Turn) (last : Turn) :
    first.run (turns ++ [last]) = (first.run turns).turn last := by
  rw [run_append, run_cons, run_nil]

/-- Whether a turn was taken in a run, and in which weave. -/
def Took (first : Weave) (turns : List Turn) (w : Weave) (t : Turn) : Prop :=
  ∃ before after, turns = before ++ t :: after ∧ first.run before = w

/-- No turn was taken in an empty run. -/
@[simp] theorem not_took_nil (first w : Weave) (t : Turn) : ¬ Took first [] w t := by
  rintro ⟨before, after, h, -⟩
  simp at h

/-- The turns taken in a longer run: those before, and the last one. -/
theorem took_concat {first : Weave} {turns : List Turn} {last t : Turn} {w : Weave} :
    Took first (turns ++ [last]) w t ↔
      Took first turns w t ∨ (w = first.run turns ∧ t = last) := by
  constructor
  · rintro ⟨before, after, h, rfl⟩
    -- The turn is the last one itself when nothing comes after it.
    rcases List.eq_nil_or_concat after with rfl | ⟨others, x, rfl⟩
    · obtain ⟨rfl, h'⟩ := List.append_inj' h rfl
      exact Or.inr ⟨rfl, (List.cons.inj h').1.symm⟩
    · rw [List.concat_eq_append, ← List.cons_append, ← List.append_assoc] at h
      obtain ⟨rfl, -⟩ := List.append_inj' h rfl
      exact Or.inl ⟨before, others, rfl, rfl⟩
  · rintro (⟨before, after, rfl, rfl⟩ | ⟨rfl, rfl⟩)
    · exact ⟨before, after ++ [last], by simp, rfl⟩
    · exact ⟨turns, [], rfl, rfl⟩

/-- What every turn keeps holds at the end of a run. -/
theorem run_of_turn {P : Weave → Prop} (kept : ∀ w t, P w → P (w.turn t)) {w : Weave} (h : P w)
    (turns : List Turn) : P (w.run turns) := by
  induction turns generalizing w with
  | nil => exact h
  | cons t turns ih => exact ih (kept w t h)

/-! ## What a turn does to the session -/

/-- A task of a strand shifts the session. -/
theorem shift_doTask (w : Weave) (place : Nat) (rest : List Task) (sequel : Sequel) (task : Task) :
    Session.Shift w.session (w.doTask place rest sequel task).session := by
  cases task with
  | clearHighlight =>
    simp only [doTask]
    split
    · show Session.Shift w.session w.stage.clearHighlight.session
      rw [Stage.session_clearHighlight]
      exact .stay
    · exact .stay
  | announce event => exact Stage.shift_doTask w.stage (.announce event)
  | listen kind => exact Stage.shift_doTask w.stage (.listen kind)
  | report move =>
    simp only [doTask]
    split
    · split <;> exact .stay
    · split
      · show Session.Shift w.session (w.stage.present move).session
        rw [Stage.session_present]
        exact .stay
      · exact .stay

/-- A turn **concludes** a submission when the strand at its place has an answer to take. -/
def Concludes (w : Weave) (t : Turn) (place generation : Nat) (answer : Except Failure Result) :
    Prop :=
  t = .conclude place ∧ w.strands[place]? = some (.answered generation answer)

/-- A turn **commits** a result: the answer that is taken is a result, and a current one. -/
def Commits (w : Weave) (t : Turn) : Prop :=
  ∃ place result, w.Concludes t place w.session.generation (.ok result)

/-- The session after an answer was taken. -/
theorem session_conclude {w : Weave} {t : Turn} {place generation : Nat}
    {answer : Except Failure Result} (h : w.Concludes t place generation answer) :
    (w.turn t).session = (w.session.apply generation answer).1 := by
  obtain ⟨rfl, found⟩ := h
  simp only [turn, found, Stage.conclude]
  split <;> rfl

/-- A turn concludes one submission only. -/
theorem Concludes.unique {w : Weave} {t : Turn} {place other generation generation' : Nat}
    {answer answer' : Except Failure Result} (h : w.Concludes t place generation answer)
    (h' : w.Concludes t other generation' answer') :
    place = other ∧ generation = generation' ∧ answer = answer' := by
  obtain ⟨rfl, found⟩ := h
  obtain ⟨same, found'⟩ := h'
  cases same
  rw [found] at found'
  cases found'
  exact ⟨rfl, rfl, rfl⟩

/-- **The session after a turn**: the turn takes the answer of a submission, or it is a shift. -/
theorem session_turn (w : Weave) (t : Turn) :
    (∃ place generation answer, w.Concludes t place generation answer) ∨
      ((∀ place generation answer, ¬ w.Concludes t place generation answer) ∧
        Session.Shift w.session (w.turn t).session) := by
  by_cases concludes : ∃ place generation answer, w.Concludes t place generation answer
  · exact Or.inl concludes
  · right
    refine ⟨fun place generation answer h => concludes ⟨place, generation, answer, h⟩, ?_⟩
    cases t with
    | submit code language context =>
      simp only [turn]
      split
      · exact .stay
      · exact .start context
    | act a => exact Stage.shift_act w.stage a
    | tick epoch =>
      simp only [turn]
      split
      · exact .advance epoch
      · exact .stay
    | work place =>
      simp only [turn]
      split
      · exact shift_doTask ..
      · exact .stay
      · exact .stay
    | reply place context reply =>
      simp only [turn]
      split <;> exact .stay
    | conclude place =>
      simp only [turn]
      split
      · rename_i generation answer found
        exact absurd ⟨place, generation, answer, rfl, found⟩ concludes
      · exact .stay

/-- What every shift and every answer keeps of a session holds at the end of a run. -/
theorem session_run {P : Session → Prop} (shift : ∀ s s', Session.Shift s s' → P s → P s')
    (apply : ∀ s generation answer, P s → P (s.apply generation answer).1) {w : Weave}
    (h : P w.session) (turns : List Turn) : P (w.run turns).session := by
  refine run_of_turn (P := fun w => P w.session) (fun w t kept => ?_) h turns
  rcases w.session_turn t with ⟨place, generation, answer, concludes⟩ | ⟨-, shifted⟩
  · rw [session_conclude concludes]
    exact apply _ _ _ kept
  · exact shift _ _ shifted kept

/-! ## What a turn does to the strands -/

/-- How the strand at a place **goes on** with a turn. -/
inductive GoesOn (w : Weave) (t : Turn) (place : Nat) : Strand → Strand → Prop
  /-- It does a task. -/
  | worked {task : Task} {rest tasks : List Task} {sequel : Sequel} (h : t = .work place) :
    GoesOn w t place (.busy (task :: rest) sequel) (.busy tasks sequel)
  /-- It asks the service. -/
  | asked {generation : Nat} {request : Request} (h : t = .work place) :
    GoesOn w t place (.busy [] (.ask generation request)) (.waiting generation)
  /-- It is answered. -/
  | replied {generation : Nat} {context : Context} {reply : Except Failure (Option Report)}
      (h : t = .reply place context reply) :
    GoesOn w t place (.waiting generation) (.answered generation (Stage.outcome context reply))
  /-- It takes its answer. -/
  | concluded {generation : Nat} {answer : Except Failure Result} (h : t = .conclude place) :
    GoesOn w t place (.answered generation answer)
      (.busy (w.stage.conclude generation answer).2.1
        (.back (w.stage.conclude generation answer).2.2))

/-- A turn **submits** a request that there is nothing wrong with. -/
def Submits (t : Turn) : Prop :=
  ∃ code language context, t = .submit code language context ∧
    Stage.objection? code language = none

/-- How a strand is **begun** by a turn: it asks the service later only when the turn submits. -/
def Begins (w : Weave) (t : Turn) (strand : Strand) : Prop :=
  ∃ tasks sequel, strand = .busy tasks sequel ∧
    ∀ generation request, sequel = .ask generation request →
      Submits t ∧ generation = w.session.generation + 1

/-- What becomes of the **strands** with a turn: they stay, or one of them goes on, or one is begun
behind them. -/
def Woven (w : Weave) (t : Turn) (strands : List Strand) : Prop :=
  strands = w.strands ∨
    (∃ place old strand, w.strands[place]? = some old ∧ GoesOn w t place old strand ∧
      strands = w.strands.set place strand) ∨
    (∃ strand, Begins w t strand ∧ strands = w.strands ++ [strand])

/-- The strands after a task. -/
theorem strands_doTask {w : Weave} {place : Nat} {task : Task} {rest : List Task}
    {sequel : Sequel} (found : w.strands[place]? = some (.busy (task :: rest) sequel)) :
    Woven w (.work place) (w.doTask place rest sequel task).strands := by
  -- In every case in which something is done, the strand goes on with other tasks.
  have gone (tasks : List Task) :
      Woven w (.work place) (w.strands.set place (.busy tasks sequel)) :=
    Or.inr (Or.inl ⟨place, _, _, found, .worked rfl, rfl⟩)
  have same : Woven w (.work place) w.strands := Or.inl rfl
  cases task with
  | clearHighlight =>
    simp only [doTask]
    split
    · exact gone rest
    · exact same
  | announce event => exact gone _
  | listen kind => exact gone _
  | report move =>
    simp only [doTask]
    split
    · split
      · exact gone _
      · exact same
    · split
      · exact gone _
      · exact same

/-- **The strands after a turn.** -/
theorem strands_turn (w : Weave) (t : Turn) : Woven w t (w.turn t).strands := by
  cases t with
  | submit code language context =>
    right; right
    simp only [turn]
    split
    · rename_i failure _
      exact ⟨_, ⟨[], .back (.error failure), rfl, by simp⟩, rfl⟩
    -- An accepted submission begins a strand that will ask, with the generation it was given.
    · rename_i accepted
      refine ⟨_, ⟨_, _, rfl, fun generation request same => ?_⟩, rfl⟩
      cases same
      exact ⟨⟨code, language, context, rfl, accepted⟩, rfl⟩
  | act a => exact Or.inr (Or.inr ⟨_, ⟨_, _, rfl, by simp⟩, rfl⟩)
  | tick epoch =>
    simp only [turn]
    split
    · exact Or.inr (Or.inr ⟨_, ⟨_, _, rfl, by simp⟩, rfl⟩)
    · exact Or.inl rfl
  | work place =>
    simp only [turn]
    split
    · rename_i found
      exact strands_doTask found
    · rename_i found
      exact Or.inr (Or.inl ⟨place, _, _, found, .asked rfl, rfl⟩)
    · exact Or.inl rfl
  | reply place context reply =>
    simp only [turn]
    split
    · rename_i found
      exact Or.inr (Or.inl ⟨place, _, _, found, .replied rfl, rfl⟩)
    · exact Or.inl rfl
  | conclude place =>
    simp only [turn]
    split
    · rename_i found
      exact Or.inr (Or.inl ⟨place, _, _, found, .concluded rfl, rfl⟩)
    · exact Or.inl rfl

/-- The strand at a place after a turn is as it was, or goes on, or was begun by the turn. -/
theorem strand_turn {w : Weave} {t : Turn} {place : Nat} {strand : Strand}
    (h : (w.turn t).strands[place]? = some strand) :
    w.strands[place]? = some strand ∨
      (∃ old, w.strands[place]? = some old ∧ GoesOn w t place old strand) ∨
      (place = w.strands.length ∧ Begins w t strand) := by
  rcases w.strands_turn t with same | ⟨other, old, next, found, goes, set⟩ | ⟨begun, begins, added⟩
  · rw [same] at h
    exact Or.inl h
  · rw [set, List.getElem?_set] at h
    split at h
    · rename_i here
      subst here
      split at h
      · -- It is the strand that goes on.
        cases h
        exact Or.inr (Or.inl ⟨old, found, goes⟩)
      · exact absurd h (by simp)
    · exact Or.inl h
  · rw [added, List.getElem?_append] at h
    split at h
    · exact Or.inl h
    · rename_i beyond
      obtain ⟨last, rfl⟩ : place - w.strands.length = 0 ∧ begun = strand := by
        simpa [List.getElem?_singleton] using h
      exact Or.inr (Or.inr ⟨by omega, begins⟩)

/-- No strand is ever taken away. -/
theorem length_strands_le_turn (w : Weave) (t : Turn) :
    w.strands.length ≤ (w.turn t).strands.length := by
  rcases w.strands_turn t with same | ⟨other, old, next, -, -, set⟩ | ⟨begun, -, added⟩
  · exact Nat.le_of_eq (congrArg List.length same.symm)
  · rw [set, List.length_set]
  · rw [added, List.length_append]
    exact Nat.le_add_right _ _

/-- A strand stays as it is or goes on. -/
theorem strand_persists {w : Weave} {place : Nat} {strand : Strand}
    (found : w.strands[place]? = some strand) (t : Turn) :
    ∃ next, (w.turn t).strands[place]? = some next ∧
      (next = strand ∨ GoesOn w t place strand next) := by
  obtain ⟨inside, -⟩ := List.getElem?_eq_some_iff.1 found
  have still : place < (w.turn t).strands.length :=
    Nat.lt_of_lt_of_le inside (length_strands_le_turn w t)
  refine ⟨(w.turn t).strands[place], List.getElem?_eq_getElem still, ?_⟩
  rcases strand_turn (List.getElem?_eq_getElem still) with same | ⟨old, old_found, next⟩ | ⟨last, -⟩
  · rw [found] at same
    exact Or.inl (Option.some.inj same).symm
  · rw [found] at old_found
    cases old_found
    exact Or.inr next
  · omega

/-- The strand at a place after it has taken its answer. -/
theorem strand_conclude {w : Weave} {t : Turn} {place generation : Nat}
    {answer : Except Failure Result} (concludes : w.Concludes t place generation answer) :
    (w.turn t).strands[place]? = some (.busy (w.stage.conclude generation answer).2.1
      (.back (w.stage.conclude generation answer).2.2)) := by
  obtain ⟨rfl, found⟩ := concludes
  obtain ⟨inside, -⟩ := List.getElem?_eq_some_iff.1 found
  simp only [turn, found, put]
  exact List.getElem?_set_self inside

/-! ## A submission from beginning to end -/

/-- A report with one step, whose node is there. -/
def oneStep : Report where
  flowchart := "<g id=\"n1\">"
  steps := some [{ nodeId := "n1" }]

/-- The turns of a submission until it waits: the highlight is cleared, the event is announced and
listened to, and the service is asked. -/
def asking (place : Nat) : List Turn := List.replicate 4 (.work place)

/-- The turns of a submission that waits until it comes back, with a result of one step. -/
def completing (place : Nat) : List Turn :=
  [.reply place .live (.ok (some oneStep)), .conclude place, .work place, .work place]

end Weave

end FlowTrace
