import FlowTrace.Proofs.Session.Weave

/-! # One operation at a time

Among the runs of a weave there are those in which each operation is done to its end before the next
one begins. They are what the stage does by itself: an act is performed (`Stage.perform`), a ticker
ticks (`Stage.tick`), a request is made (`Stage.submit`) and its answer is taken (`Stage.answer`).
So whatever holds of all runs holds in particular of these operations, in any order. -/

namespace FlowTrace

namespace Weave

variable {w w' w'' : Weave} {place generation : Nat} {stage : Stage} {strand : Strand} {task : Task}
  {rest tasks : List Task} {sequel : Sequel}

/-! ## Strands that go on -/

/-- Going on with a strand twice. -/
@[simp] theorem put_put (w : Weave) (place : Nat) (stage stage' : Stage) (strand strand' : Strand) :
    (w.put place stage strand).put place stage' strand' = w.put place stage' strand' := by
  simp [put]

/-- Going on with a strand that was just begun. -/
@[simp] theorem put_begin (w : Weave) (stage stage' : Stage) (strand strand' : Strand) :
    (w.begin stage strand).put w.strands.length stage' strand' = w.begin stage' strand' := by
  simp [put, begin]

/-- A strand that is left as it is. -/
theorem put_self (found : w.strands[place]? = some strand) : w.put place w.stage strand = w := by
  obtain ⟨inside, rfl⟩ := List.getElem?_eq_some_iff.1 found
  simp [put]

/-- The strand at a place after it went on. -/
theorem strand_put (found : w.strands[place]? = some strand) (stage : Stage) (strand' : Strand) :
    (w.put place stage strand').strands[place]? = some strand' :=
  List.getElem?_set_self (List.getElem?_eq_some_iff.1 found).1

/-- The strand that was just begun. -/
theorem strand_begin (w : Weave) (stage : Stage) (strand : Strand) :
    (w.begin stage strand).strands[w.strands.length]? = some strand :=
  List.getElem?_concat_length

/-! ## Work without interruption -/

/-- A weave **works** up to another one when only the strand at a place takes turns in between. -/
def Works (place : Nat) (w w' : Weave) : Prop :=
  ∃ count, w.run (List.replicate count (.work place)) = w'

/-- A strand that does nothing has worked. -/
theorem Works.refl (place : Nat) (w : Weave) : Works place w w := ⟨0, rfl⟩

/-- A strand works in stages. -/
theorem Works.trans (first : Works place w w') (second : Works place w' w'') :
    Works place w w'' := by
  obtain ⟨count, rfl⟩ := first
  obtain ⟨more, rfl⟩ := second
  refine ⟨count + more, ?_⟩
  rw [← List.replicate_append_replicate, run_append]

/-- One turn of work. -/
theorem works_turn (h : w.turn (.work place) = w') : Works place w w' := ⟨1, h⟩

/-- **A task of a strand is the task of the stage**, when no other strand is reporting. -/
theorem works_doTask (idle : w.reporting = none)
    (found : w.strands[place]? = some (.busy (task :: rest) sequel)) :
    Works place w (w.put place (w.stage.doTask task).1
      (.busy ((w.stage.doTask task).2 ++ rest) sequel)) := by
  have turned : w.turn (.work place) = w.doTask place rest sequel task := by
    simp only [turn, found]
  cases task with
  | clearHighlight =>
    refine works_turn ?_
    simp only [turned, doTask, idle, Stage.doTask, List.nil_append]
  | announce event => exact works_turn turned
  | listen kind => exact works_turn turned
  | report move =>
    by_cases last : move.number = w.session.moves
    · -- The move is the last one: the strand looks, and presents it with its next turn.
      have looked : w.turn (.work place) = { w with reporting := some place } := by
        simp [turned, doTask, idle, last]
      refine (works_turn looked).trans (works_turn ?_)
      simp only [turn, found, doTask, if_true, put, Stage.doTask, Stage.display, last,
        bne_self_eq_false, Bool.false_eq_true, if_false, idle]
    · refine works_turn ?_
      have overtaken : (move.number != w.stage.session.moves) = true := bne_iff_ne.2 last
      simp only [turned, doTask, idle, Stage.doTask, Stage.display, overtaken, if_true]

/-- **A strand without interruption carries out its tasks.** -/
theorem works_carryOut (idle : w.reporting = none)
    (found : w.strands[place]? = some (.busy tasks sequel)) :
    Works place w (w.put place (w.stage.carryOut tasks) (.busy [] sequel)) := by
  generalize same : w.stage = stage
  fun_induction Stage.carryOut stage tasks generalizing w with
  | case1 stage =>
    rw [← same, put_self found]
    exact Works.refl place w
  | case2 stage task rest next =>
    rename_i ih
    subst same
    -- The tasks that take the place of this one come before the rest, here as on the stage.
    refine (works_doTask idle found).trans ?_
    have done := strand_put found next.1 (.busy (next.2 ++ rest) sequel)
    have worked := ih (by exact idle) done rfl
    rw [put_put] at worked
    exact worked

/-- So does a strand that was just begun. -/
theorem works_begin (idle : w.reporting = none) :
    Works w.strands.length (w.begin stage (.busy tasks sequel))
      (w.begin (stage.carryOut tasks) (.busy [] sequel)) := by
  have begun := strand_begin w stage (.busy tasks sequel)
  have worked := works_carryOut (w := w.begin stage (.busy tasks sequel)) idle begun
  rw [put_begin] at worked
  exact worked

/-! ## The operations of a stage -/

/-- An act that is done to its end is **performed**. -/
theorem works_perform (idle : w.reporting = none) (a : Act) :
    Works w.strands.length (w.turn (.act a))
      (w.begin (w.stage.perform a).1 (.busy [] .nothing)) :=
  works_begin idle

/-- A tick that is done to its end is the **tick** of the stage. -/
theorem works_tick (idle : w.reporting = none) {epoch : Nat}
    (made : w.session.tickers.any (·.epoch == epoch) = true) :
    Works w.strands.length (w.turn (.tick epoch))
      (w.begin (w.stage.tick epoch) (.busy [] .nothing)) := by
  simp only [turn, made, if_true]
  exact works_begin idle

/-- A submission that is left alone until it waits for the service is **submitted**. -/
theorem works_submit (idle : w.reporting = none) {code language : Text} {context : Context}
    (submitted : w.stage.submit code language context = .ok (stage, generation)) :
    Works w.strands.length (w.turn (.submit code language context))
      (w.begin stage (.waiting generation)) := by
  unfold Stage.submit at submitted
  split at submitted
  · cases submitted
  · rename_i accepted
    cases submitted
    simp only [turn, accepted]
    refine (works_begin idle).trans (works_turn ?_)
    simp only [turn, strand_begin, put_begin]
    rfl

/-- A submission that takes its answer as soon as it comes, and then is left alone, is
**answered**. -/
theorem works_answer (idle : w.reporting = none)
    (found : w.strands[place]? = some (.waiting generation)) (context : Context)
    (reply : Except Failure (Option Report)) :
    Works place ((w.turn (.reply place context reply)).turn (.conclude place))
      (w.put place (w.stage.answer generation context reply).1
        (.busy [] (.back (w.stage.answer generation context reply).2))) := by
  have answered := strand_put found w.stage (.answered generation (Stage.outcome context reply))
  have concluded := strand_put found
    (w.stage.conclude generation (Stage.outcome context reply)).1
    (.busy (w.stage.conclude generation (Stage.outcome context reply)).2.1
      (.back (w.stage.conclude generation (Stage.outcome context reply)).2.2))
  have worked := works_carryOut (by exact idle) concluded
  rw [put_put] at worked
  simp only [turn, found, answered, put_put]
  exact worked

end Weave

/-! ## Operations come to their end

No operation is ever stuck. A strand has to wait only while another one is reporting, and that one
can always go on with its report (`Weave.Poised`). So every strand can carry out its tasks, whatever
the others have left to do, and a submission comes back once the service has answered it
(`Weave.exists_back`). -/

namespace Weave

variable {w : Weave} {place generation : Nat} {strand : Strand} {task : Task}
  {rest tasks : List Task} {sequel : Sequel}

/-! ### The strand that is reporting -/

/-- The strand that is reporting is **poised** to do so: its report is what it has to do next. -/
def Poised (w : Weave) : Prop :=
  ∀ place, w.reporting = some place →
    ∃ move rest sequel, w.strands[place]? = some (.busy (.report move :: rest) sequel)

/-- It stays so when a strand with no report to do next goes on. -/
theorem Poised.put (h : Poised w) (found : w.strands[place]? = some strand)
    (other : ∀ move rest, strand.tasks ≠ .report move :: rest) (stage : Stage) (next : Strand) :
    Poised (w.put place stage next) := by
  intro reporter reporting
  obtain ⟨move, rest, sequel, head⟩ := h reporter reporting
  have ne : place ≠ reporter := by
    rintro rfl
    rw [found] at head
    cases head
    exact other move rest rfl
  exact ⟨move, rest, sequel, (List.getElem?_set_ne ne).trans head⟩

/-- It stays so when a strand is begun. -/
theorem Poised.begin (h : Poised w) (stage : Stage) (strand : Strand) :
    Poised (w.begin stage strand) := by
  intro reporter reporting
  obtain ⟨move, rest, sequel, head⟩ := h reporter reporting
  obtain ⟨inside, -⟩ := List.getElem?_eq_some_iff.1 head
  exact ⟨move, rest, sequel, (List.getElem?_append_left inside).trans head⟩

/-- A weave where nobody reports is poised. -/
theorem poised_of_idle (idle : w.reporting = none) : Poised w := by
  intro reporter reporting
  rw [idle] at reporting
  cases reporting

/-- Every task keeps the strand that is reporting poised. -/
theorem Poised.doTask (h : Poised w)
    (found : w.strands[place]? = some (.busy (task :: rest) sequel)) :
    Poised (w.doTask place rest sequel task) := by
  cases task with
  | clearHighlight =>
    simp only [Weave.doTask]
    split
    · exact h.put found (fun _ _ same => by cases same) _ _
    · exact h
  | announce event => exact h.put found (fun _ _ same => by cases same) _ _
  | listen kind => exact h.put found (fun _ _ same => by cases same) _ _
  | report move =>
    simp only [Weave.doTask]
    split
    · rename_i idle
      split
      · exact poised_of_idle idle
      · -- The strand has looked at the cursor, and becomes the one that is reporting.
        intro reporter reporting
        cases reporting
        exact ⟨move, rest, sequel, found⟩
    · split
      · exact poised_of_idle rfl
      · exact h

/-- **Every turn keeps the strand that is reporting poised.** -/
theorem Poised.turn (h : Poised w) (t : Turn) : Poised (w.turn t) := by
  cases t with
  | submit code language context =>
    simp only [Weave.turn]
    split <;> exact h.begin _ _
  | act a => exact h.begin _ _
  | tick epoch =>
    simp only [Weave.turn]
    split
    · exact h.begin _ _
    · exact h
  | work place =>
    simp only [Weave.turn]
    split
    · rename_i found
      exact h.doTask found
    · rename_i found
      exact h.put found (fun _ _ same => by cases same) _ _
    · exact h
  | reply place context reply =>
    simp only [Weave.turn]
    split
    · rename_i found
      exact h.put found (fun _ _ same => by cases same) _ _
    · exact h
  | conclude place =>
    simp only [Weave.turn]
    split
    · rename_i found
      exact h.put found (fun _ _ same => by cases same) _ _
    · exact h

/-- A weave stays poised in a run. -/
theorem Poised.run (h : Poised w) (turns : List Turn) : Poised (w.run turns) :=
  run_of_turn (fun _ t kept => kept.turn t) h turns

/-! ### Strands come to their end -/

/-- A strand that has its report to do does it with one turn, and no strand is reporting then. -/
theorem exists_idle (h : Poised w) (found : w.strands[place]? = some (.busy tasks sequel)) :
    ∃ later left, (w.run later).reporting = none ∧
      (w.run later).strands[place]? = some (.busy left sequel) := by
  cases reporting : w.reporting with
  | none => exact ⟨[], tasks, reporting, found⟩
  | some reporter =>
    obtain ⟨move, rest, sequel', head⟩ := h reporter reporting
    have reported : w.turn (.work reporter) =
        { w.put reporter (w.stage.present move)
            (.busy (Stage.moveTasks move ++ rest) sequel') with reporting := none } := by
      simp only [Weave.turn, head, Weave.doTask, reporting, if_true]
    -- The strand itself may be the one that is reporting; if it is not, its tasks stay.
    by_cases same : reporter = place
    · subst same
      rw [found] at head
      cases head
      refine ⟨[.work reporter], Stage.moveTasks move ++ rest, ?_, ?_⟩
      · rw [run_cons, run_nil, reported]
      · rw [run_cons, run_nil, reported]
        exact strand_put found w.stage _
    · refine ⟨[.work reporter], tasks, ?_, ?_⟩
      · rw [run_cons, run_nil, reported]
      · rw [run_cons, run_nil, reported]
        exact (List.getElem?_set_ne same).trans found

/-- **Every strand can carry out its tasks.** -/
theorem exists_done (h : Poised w) (found : w.strands[place]? = some (.busy tasks sequel)) :
    ∃ later, (w.run later).strands[place]? = some (.busy [] sequel) := by
  obtain ⟨soon, left, idle, left_found⟩ := exists_idle h found
  obtain ⟨count, done⟩ := works_carryOut idle left_found
  refine ⟨soon ++ List.replicate count (.work place), ?_⟩
  rw [run_append, done]
  exact strand_put left_found _ _

/-- A submission that has its answer comes back. -/
theorem exists_back_of_answered (h : Poised w) {answer : Except Failure Result}
    (found : w.strands[place]? = some (.answered generation answer)) :
    ∃ later value, (w.run later).strands[place]? = some (.busy [] (.back value)) := by
  have concluded := strand_conclude (t := .conclude place) ⟨rfl, found⟩
  obtain ⟨later, done⟩ := exists_done (h.turn _) concluded
  exact ⟨.conclude place :: later, _, done⟩

/-- A submission that waits comes back once it is answered. -/
theorem exists_back_of_waiting (h : Poised w)
    (found : w.strands[place]? = some (.waiting generation)) :
    ∃ later value, (w.run later).strands[place]? = some (.busy [] (.back value)) := by
  -- Any answer of the service will do.
  have answered : (w.turn (.reply place .live (.ok none))).strands[place]? =
      some (.answered generation (Stage.outcome .live (.ok none))) := by
    simp only [Weave.turn, found]
    exact strand_put found _ _
  obtain ⟨later, value, back⟩ := exists_back_of_answered (h.turn _) answered
  exact ⟨.reply place .live (.ok none) :: later, value, back⟩

/-- **Every submission in flight can come back.** -/
theorem exists_back (h : Poised w) (found : w.strands[place]? = some strand)
    (flies : strand.inFlight? = some generation) :
    ∃ later value, (w.run later).strands[place]? = some (.busy [] (.back value)) := by
  match strand, found, flies with
  | .busy tasks (.ask asked request), found, _ =>
    obtain ⟨soon, done⟩ := exists_done h found
    have waits : ((w.run soon).turn (.work place)).strands[place]? = some (.waiting asked) := by
      simp only [Weave.turn, done]
      exact strand_put done _ _
    obtain ⟨later, value, back⟩ := exists_back_of_waiting ((h.run soon).turn _) waits
    refine ⟨soon ++ .work place :: later, value, ?_⟩
    rw [run_append, run_cons]
    exact back
  | .waiting carried, found, _ => exact exists_back_of_waiting h found
  | .answered carried answer, found, _ => exact exists_back_of_answered h found

end Weave

end FlowTrace
