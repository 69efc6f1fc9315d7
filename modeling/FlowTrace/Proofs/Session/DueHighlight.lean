import FlowTrace.Proofs.Session.Weave

/-! # The highlight that is due

The cursor of a session asks for a highlight (`Session.due?`): none in front of the first step, and
on a step the node of that step, if the flowchart has it. What is due depends on the **view** of the
session only: the number of its last move, the position of the cursor and the result.

A transition that leaves the view alone has nothing to be displayed. Every other one numbers a new
move and leaves a task that brings about what is due then: the report of that move, or the clearing
of the highlight. `Session.Follows` says so for the tasks that a transition leaves; a result that is
committed is the one exception. -/

namespace FlowTrace

/-! ## Tasks that are still to be done

What the strands of a weave have left to do, whichever strand it is. A task **pends** when some
strand has it left (`Weave.Pends`). A turn takes some tasks away and puts others in their place, and
all the rest stays (`Weave.Swaps`); that much is enough to follow the reports and the clearings that
are still to come, without knowing which strand they belong to. -/

/-- Whether a task touches the highlight. -/
def Task.displays : Task → Bool
  | .clearHighlight => true
  | .announce _ => false
  | .listen _ => false
  | .report _ => true

namespace Weave

variable {w w' : Weave} {place : Nat} {stage : Stage} {strand old : Strand} {task : Task}

/-- A task **pends**: some strand has it left. -/
def Pends (w : Weave) (task : Task) : Prop :=
  ∃ (place : Nat) (strand : Strand), w.strands[place]? = some strand ∧ task ∈ strand.tasks

/-- A weave is **settled** when no report and no clearing of the highlight pends. -/
def Settled (w : Weave) : Prop := ∀ task, w.Pends task → task.displays = false

/-- Whether a weave is settled can be read off its strands. -/
theorem settled_iff : w.Settled ↔
    ∀ strand ∈ w.strands, ∀ task ∈ strand.tasks, task.displays = false := by
  constructor
  · intro settled strand member task left
    obtain ⟨place, found⟩ := List.getElem?_of_mem member
    exact settled task ⟨place, strand, found, left⟩
  · rintro quiet task ⟨place, strand, found, left⟩
    exact quiet strand (List.mem_of_getElem? found) task left

instance : Decidable w.Settled := decidable_of_iff _ settled_iff.symm

/-- Between two weaves some tasks are gone and others are new, and the rest is the same. -/
def Swaps (w w' : Weave) (gone new : List Task) : Prop :=
  ∃ rest : Task → Prop, (∀ task, w.Pends task ↔ task ∈ gone ∨ rest task) ∧
    ∀ task, w'.Pends task ↔ task ∈ new ∨ rest task

/-- A strand that is begun brings its tasks. -/
theorem swaps_append (added : w'.strands = w.strands ++ [strand]) :
    Swaps w w' [] strand.tasks := by
  refine ⟨w.Pends, by simp, fun task => ⟨?_, ?_⟩⟩
  · rintro ⟨place, other, found, member⟩
    -- Places do not matter, so that membership is enough.
    rw [added] at found
    rcases List.mem_append.1 (List.mem_of_getElem? found) with inside | last
    · obtain ⟨place, found⟩ := List.getElem?_of_mem inside
      exact Or.inr ⟨place, other, found, member⟩
    · rw [List.mem_singleton.1 last] at member
      exact Or.inl member
  · rintro (member | ⟨place, other, found, member⟩)
    · refine ⟨w.strands.length, strand, ?_, member⟩
      rw [added]
      exact List.getElem?_concat_length
    · refine ⟨place, other, ?_, member⟩
      obtain ⟨inside, -⟩ := List.getElem?_eq_some_iff.1 found
      rw [added, List.getElem?_append_left inside]
      exact found

/-- A strand that goes on has some tasks less and others more. -/
theorem swaps_set {gone new kept : List Task} (found : w.strands[place]? = some old)
    (set : w'.strands = w.strands.set place strand) (before : old.tasks = gone ++ kept)
    (after : strand.tasks = new ++ kept) : Swaps w w' gone new := by
  obtain ⟨inside, -⟩ := List.getElem?_eq_some_iff.1 found
  have here : (w.strands.set place strand)[place]? = some strand := List.getElem?_set_self inside
  have elsewhere {other : Nat} (ne : place ≠ other) :
      (w.strands.set place strand)[other]? = w.strands[other]? := List.getElem?_set_ne ne
  -- The rest: what this strand keeps, and all tasks of the others.
  refine ⟨fun task => task ∈ kept ∨ ∃ (other : Nat) (next : Strand), place ≠ other ∧
    w.strands[other]? = some next ∧ task ∈ next.tasks, fun task => ⟨?_, ?_⟩, fun task => ⟨?_, ?_⟩⟩
  · rintro ⟨other, next, next_found, member⟩
    by_cases same : place = other
    · subst same
      rw [found] at next_found
      cases next_found
      rw [before] at member
      exact (List.mem_append.1 member).imp_right Or.inl
    · exact Or.inr (Or.inr ⟨other, next, same, next_found, member⟩)
  · rintro (member | member | ⟨other, next, -, next_found, member⟩)
    · exact ⟨place, old, found, before ▸ List.mem_append_left kept member⟩
    · exact ⟨place, old, found, before ▸ List.mem_append_right gone member⟩
    · exact ⟨other, next, next_found, member⟩
  · rintro ⟨other, next, next_found, member⟩
    rw [set] at next_found
    by_cases same : place = other
    · subst same
      rw [here] at next_found
      cases next_found
      rw [after] at member
      exact (List.mem_append.1 member).imp_right Or.inl
    · rw [elsewhere same] at next_found
      exact Or.inr (Or.inr ⟨other, next, same, next_found, member⟩)
  · rintro (member | member | ⟨other, next, ne, next_found, member⟩)
    · exact ⟨place, strand, set ▸ here, after ▸ List.mem_append_left kept member⟩
    · exact ⟨place, strand, set ▸ here, after ▸ List.mem_append_right new member⟩
    · refine ⟨other, next, ?_, member⟩
      rw [set, elsewhere ne]
      exact next_found

/-- A task that is neither gone nor new pends after as before. -/
theorem Swaps.pends_iff {gone new : List Task} (h : Swaps w w' gone new) (not_gone : task ∉ gone)
    (not_new : task ∉ new) : w'.Pends task ↔ w.Pends task := by
  obtain ⟨rest, before, after⟩ := h
  rw [before, after, or_iff_right not_gone, or_iff_right not_new]

/-- A new task pends. -/
theorem Swaps.pends_new {gone new : List Task} (h : Swaps w w' gone new) (member : task ∈ new) :
    w'.Pends task := by
  obtain ⟨rest, -, after⟩ := h
  exact (after task).2 (Or.inl member)

/-- A task that pends is new, or pended before. -/
theorem Swaps.new_or_pends {gone new : List Task} (h : Swaps w w' gone new)
    (pends : w'.Pends task) : task ∈ new ∨ w.Pends task := by
  obtain ⟨rest, before, after⟩ := h
  exact ((after task).1 pends).imp_right fun member => (before task).2 (Or.inr member)

end Weave

/-! ## What is due -/

namespace Session

variable {s s' : Session}

/-- The **view** of a session: what the highlight has to follow. -/
def view (s : Session) : Nat × Int × Option Result := (s.moves, s.cursor.step, s.result)

/-- The node that the cursor stands on, if the flowchart has it. -/
def nodeDue? (s : Session) : Option Text :=
  s.result.bind fun result => (result.step? s.cursor.step).bind fun step =>
    if hasNode result.flowchart step.nodeId then some step.nodeId else none

/-- The **highlight that is due**, if the cursor asks for one: none in front of the first step. -/
def due? (s : Session) : Option Text := if s.cursor.step = -1 then some [] else s.nodeDue?

/-- What is due depends on the view only. -/
theorem due?_congr (same : s'.view = s.view) : s'.due? = s.due? := by
  simp only [view, Prod.mk.injEq] at same
  unfold due? nodeDue?
  rw [same.2.1, same.2.2]

/-- The node that is due is that of the step under the cursor. -/
theorem nodeDue?_eq_some {id : Text} :
    s.nodeDue? = some id ↔ ∃ result step, s.result = some result ∧
      result.step? s.cursor.step = some step ∧ hasNode result.flowchart step.nodeId = true ∧
      step.nodeId = id := by
  unfold nodeDue?
  rw [Option.bind_eq_some_iff]
  constructor
  · rintro ⟨result, present, found⟩
    obtain ⟨step, at_cursor, node⟩ := Option.bind_eq_some_iff.1 found
    split at node
    · rename_i there
      exact ⟨result, step, present, at_cursor, there, Option.some.inj node⟩
    · cases node
  · rintro ⟨result, step, present, at_cursor, there, rfl⟩
    refine ⟨result, present, Option.bind_eq_some_iff.2 ⟨step, at_cursor, ?_⟩⟩
    rw [if_pos there]

/-- In front of the first step no node is due. -/
theorem due?_of_idle (h : s.cursor.step = -1) : s.due? = some [] := if_pos h

/-- A step has no index below zero. -/
theorem step_nonneg {result : Result} {step : Step} {index : Int}
    (h : result.step? index = some step) : 0 ≤ index := by
  unfold Result.step? at h
  split at h
  · cases h
  · omega

end Session

/-! ## Moves -/

namespace Move

variable {move : Move} {s s' : Session}

/-- A move **tells** the view of a session: it is the last one, as it has to be told. -/
structure Tells (move : Move) (s : Session) : Prop where
  /-- It is the last move. -/
  number : move.number = s.moves
  /-- Its index is the position of the cursor. -/
  index : move.index = s.cursor.step
  /-- Its step is the one under the cursor. -/
  step : move.step = s.currentStep?.getD {}
  /-- Its flowchart is the one of the result. -/
  flowchart : move.flowchart = (s.result.map (·.flowchart)).getD []

/-- What a move tells depends on the view only. -/
theorem Tells.congr (h : move.Tells s) (same : s'.view = s.view) : move.Tells s' := by
  simp only [Session.view, Prod.mk.injEq] at same
  obtain ⟨moves, position, result⟩ := same
  refine ⟨moves ▸ h.number, position ▸ h.index, ?_, result ▸ h.flowchart⟩
  unfold Session.currentStep?
  rw [position, result]
  exact h.step

/-- The last move tells the session. -/
theorem tells_lastMove (s : Session) : s.lastMove.Tells s := ⟨rfl, rfl, rfl, rfl⟩

/-- The highlight after a move was presented, by the highlight before. -/
def shownOver (move : Move) (current : Text) : Text :=
  if move.index < 0 then []
  else if hasNode move.flowchart move.step.nodeId then move.step.nodeId
  else current

/-- **Presenting the move that tells the session brings about what is due.** -/
theorem Tells.shownOver_eq (h : move.Tells s) {id : Text} (due : s.due? = some id)
    (current : Text) : move.shownOver current = id := by
  unfold Session.due? at due
  unfold shownOver
  split at due
  · rename_i idle
    rw [h.index, if_pos (by omega)]
    exact Option.some.inj due
  · obtain ⟨result, step, present, at_cursor, there, rfl⟩ := Session.nodeDue?_eq_some.1 due
    have onStep := Session.step_nonneg at_cursor
    have told : move.step = step := by
      rw [h.step, Session.currentStep?, present, Option.bind_some, at_cursor]
      rfl
    have drawn : move.flowchart = result.flowchart := by
      rw [h.flowchart, present]
      rfl
    rw [h.index, if_neg (by omega), told, drawn, if_pos there]

end Move

namespace Stage

variable {stage : Stage}

/-- The highlight after it was cleared. -/
theorem current_clearHighlight (lit : stage.surroundings.highlights = true) :
    stage.clearHighlight.highlight.current = [] := by
  unfold clearHighlight
  rw [if_pos lit]
  rfl

/-- The highlight after a move was presented. -/
theorem current_present (lit : stage.surroundings.highlights = true) (move : Move) :
    (stage.present move).highlight.current = move.shownOver stage.highlight.current := by
  -- Narration comes after the highlight and does not touch it.
  have narrated (stage : Stage) (text : Text) :
      (stage.narrate text).highlight = stage.highlight := by
    unfold narrate
    split <;> rfl
  unfold present Move.shownOver
  split
  · exact current_clearHighlight lit
  · rw [narrated]
    unfold highlightNode
    rw [lit, Bool.true_and]
    split
    · rename_i there
      show (stage.highlight.moveTo move.flowchart move.step.nodeId).1.current = _
      rw [Highlight.current_moveTo, if_pos there]
    · rfl

end Stage

/-! ## What a transition leaves to be displayed -/

namespace Session

variable {s s' : Session} {tasks : List Task}

/-- The tasks that a transition leaves **follow** it. -/
inductive Follows (s s' : Session) (tasks : List Task) : Prop
  /-- The view is the same, and there is nothing to be displayed. -/
  | kept (same : s'.view = s.view) (quiet : ∀ task ∈ tasks, task.displays = false)
  /-- There is a new move, and a task brings about what is due. -/
  | renewed (moved : s'.moves = s.moves + 1)
      (tells : ∀ move, .report move ∈ tasks → move.Tells s')
      (shown : (s'.due? = some [] ∧ .clearHighlight ∈ tasks) ∨ ∃ move, .report move ∈ tasks)

/-- Further tasks that do not touch the highlight follow a transition as well. -/
theorem Follows.append (h : Follows s s' tasks) {more : List Task}
    (quiet : ∀ task ∈ more, task.displays = false) : Follows s s' (tasks ++ more) := by
  cases h with
  | kept same silent =>
    refine .kept same fun task member => ?_
    exact (List.mem_append.1 member).elim (silent task) (quiet task)
  | renewed moved tells shown =>
    refine .renewed moved (fun move member => ?_) ?_
    · rcases List.mem_append.1 member with told | other
      · exact tells move told
      · exact absurd (quiet _ other) nofun
    · rcases shown with ⟨idle, clears⟩ | ⟨move, told⟩
      · exact Or.inl ⟨idle, List.mem_append_left _ clears⟩
      · exact Or.inr ⟨move, List.mem_append_left _ told⟩

/-- A report of the move that was made last follows it. -/
theorem follows_report {move : Move} (moved : s'.moves = s.moves + 1) (tells : move.Tells s')
    (before : List Task) (quiet : ∀ task ∈ before, task.displays = false) :
    Follows s s' (before ++ [.report move]) := by
  refine .renewed moved (fun told member => ?_) (Or.inr ⟨move, by simp⟩)
  rcases List.mem_append.1 member with other | last
  · exact absurd (quiet _ other) nofun
  · cases List.mem_singleton.1 last
    exact tells

end Session

namespace Stage

variable (stage : Stage)

/-- The news that the playback was stopped does not touch the highlight. -/
theorem displays_pausedTasks (s : Session) :
    ∀ task ∈ pausedTasks s, task.displays = false := by
  intro task member
  unfold pausedTasks at member
  split at member
  · rw [List.mem_singleton.1 member]
    rfl
  · cases member

/-- The news of a move do not touch the highlight. -/
theorem displays_moveTasks (move : Move) :
    ∀ task ∈ moveTasks move, task.displays = false := by
  intro task member
  unfold moveTasks at member
  split at member
  · simp only [List.mem_cons, List.not_mem_nil, or_false] at member
    rcases member with rfl | rfl <;> rfl
  · simp only [List.mem_cons, List.not_mem_nil, or_false] at member
    rw [member]
    rfl

/-- The tasks of a move by hand follow it. -/
theorem follows_manual (delta : Int) :
    Session.Follows stage.session (act.manual stage delta).1.session
      (act.manual stage delta).2.1 := by
  have quiet := displays_pausedTasks stage.session
  unfold act.manual
  rcases stage.session.move_cases delta with moved | ⟨-, -, moved⟩
  · -- There is no step to go to: the playback stops, and the view is the same.
    rw [moved]
    refine .kept rfl ?_
    simpa using quiet
  · rw [moved]
    exact Session.follows_report rfl (Move.tells_lastMove _) _ quiet

/-- **The tasks of an act follow it.** -/
theorem follows_act (a : Act) :
    Session.Follows stage.session (stage.act a).1.session (stage.act a).2.1 := by
  cases a with
  | play =>
    simp only [act]
    split
    · exact .kept rfl (by simp)
    · rename_i session started played
      have same : session.view = stage.session.view := by
        rcases (Session.play_eq_ok played).2 with ⟨-, rfl⟩ | ⟨-, rfl⟩ <;> rfl
      refine .kept same fun task member => ?_
      split at member
      · rw [List.mem_singleton.1 member]
        rfl
      · cases member
  | pause => exact .kept rfl (displays_pausedTasks stage.session)
  | forward => exact follows_manual stage 1
  | back => exact follows_manual stage (-1)
  | reset =>
    refine .renewed rfl (fun move member => ?_) (Or.inl ⟨Session.due?_of_idle rfl, ?_⟩)
    · simp [act] at member
    · simp [act]

/-- **The tasks of a tick follow it.** -/
theorem follows_advance (epoch : Nat) :
    Session.Follows stage.session (stage.advance epoch).1.session
      (stage.advance epoch).2 := by
  unfold advance
  rcases stage.session.advance_cases epoch with ⟨-, ticked⟩ | ⟨-, -, -, ticked⟩ | ⟨-, -, -, ticked⟩
  · rw [ticked]
    exact .kept rfl (by simp)
  · rw [ticked]
    exact Session.follows_report rfl (Move.tells_lastMove _) [] (by simp)
  · -- That the playback is finished is part of the move, but not of what it tells.
    rw [ticked]
    exact Session.follows_report rfl ⟨rfl, rfl, rfl, rfl⟩ [] (by simp)

/-- **The tasks of a submission follow it.** -/
theorem follows_commence (code language : Text) (context : Context) :
    Session.Follows stage.session (stage.commence code language context).1.session
      (stage.commence code language context).2.1 := by
  refine .renewed rfl (fun move member => ?_) (Or.inl ⟨Session.due?_of_idle rfl, ?_⟩)
  · simp [commence] at member
  · simp [commence]

/-- Announcing an event leaves nothing to be displayed. -/
theorem follows_announce (event : Event) :
    Session.Follows stage.session (stage.doTask (.announce event)).1.session
      (stage.doTask (.announce event)).2 := by
  simp only [doTask]
  split
  · exact .kept rfl (by simp [Task.displays])
  · exact .kept rfl (by simp)

/-- What a listener does is followed by its tasks. -/
theorem follows_listen (kind : Text) :
    Session.Follows stage.session (stage.doTask (.listen kind)).1.session
      (stage.doTask (.listen kind)).2 := by
  simp only [doTask]
  split
  · exact .kept rfl (by simp)
  · rename_i a listeners _
    exact (follows_act { stage with listeners := listeners } a).append (by simp [Task.displays])

end Stage

end FlowTrace
