import FlowTrace.Proofs.Session.DueHighlight

/-! # Covering the highlight that is due

Reports and clearings are done outside the lock of the session, in any order with everything else.
To see what becomes of the highlight one has to look ahead. Its **prospect** (`Weave.prospect`) is
the highlight once a report that is under way is over. A weave is **covered** (`Weave.Covered`) when
the prospect is what is due, or the report of the last move pends, or no node is due and a clearing
pends.

Only two kinds of turns can uncover a weave: a result is committed, or the highlight is cleared for
a submission or a reset. Every other turn is **smooth** (`Weave.smooth_turn`): it makes no move and
leaves the cover as it is, or it makes a move and covers it. -/

namespace FlowTrace

/-! ## What turns leave of the lights -/

namespace Stage

/-- Two stages have the **same lights**: the highlight is where it was, and is there as before. -/
def SameLights (stage stage' : Stage) : Prop :=
  stage'.highlight = stage.highlight ∧ stage'.surroundings = stage.surroundings

variable (stage : Stage)

/-- An act does not touch the highlight by itself. -/
theorem sameLights_act (a : Act) : SameLights stage (stage.act a).1 := by
  rw [act_eq]
  exact ⟨rfl, rfl⟩

/-- Nor does an event that is announced. -/
theorem sameLights_announce (event : Event) :
    SameLights stage (stage.doTask (.announce event)).1 := by
  simp only [doTask]
  split <;> exact ⟨rfl, rfl⟩

/-- Nor does a listener. -/
theorem sameLights_listen (kind : Text) :
    SameLights stage (stage.doTask (.listen kind)).1 := by
  rw [listen_eq]
  exact ⟨rfl, rfl⟩

/-- Nor does an answer. -/
theorem sameLights_conclude (generation : Nat) (answer : Except Failure Result) :
    SameLights stage (stage.conclude generation answer).1 := by
  rw [conclude_eq]
  exact ⟨rfl, rfl⟩

/-- Presenting a move keeps the surroundings. -/
theorem surroundings_present (move : Move) :
    (stage.present move).surroundings = stage.surroundings := by
  unfold present clearHighlight highlightNode narrate note
  (repeat' split) <;> rfl

/-- Clearing the highlight leaves the surroundings alone. -/
theorem surroundings_clearHighlight :
    stage.clearHighlight.surroundings = stage.surroundings := by
  unfold clearHighlight note
  split <;> rfl

/-- An answer that is not committed leaves nothing to be displayed. -/
theorem follows_conclude {generation : Nat} {answer : Except Failure Result}
    (not_committed : ∀ result, ¬ (generation = stage.session.generation ∧ answer = .ok result)) :
    Session.Follows stage.session (stage.conclude generation answer).1.session
      (stage.conclude generation answer).2.1 := by
  by_cases current : generation = stage.session.generation
  · subst current
    cases answer with
    | error failure =>
      simp only [conclude, Session.apply_error]
      exact .kept rfl (by simp [Task.displays])
    | ok result => exact absurd ⟨rfl, rfl⟩ (not_committed result)
  · simp only [conclude, Session.apply_of_ne current]
    exact .kept rfl (by simp [Task.displays])

end Stage

namespace Weave

variable {w w' : Weave} {t : Turn} {place : Nat} {stage : Stage} {strand old : Strand}

/-! ## Cover -/

/-- The move that a strand has looked at and will present next. -/
def reportedMove? (w : Weave) : Option Move :=
  match w.reporting.bind fun place => w.strands[place]? with
  | some (.busy (.report move :: _) _) => some move
  | _ => none

/-- The **prospect** of the highlight: the highlight once the report that is under way is over. -/
def prospect (w : Weave) : Text :=
  match w.reportedMove? with
  | some move => move.shownOver w.stage.highlight.current
  | none => w.stage.highlight.current

/-- The report of the last move pends. -/
def ReportsLast (w : Weave) : Prop :=
  ∃ move, w.Pends (.report move) ∧ move.number = w.session.moves

/-- A weave is **covered**: the prospect is what is due, or a task that pends brings it about. -/
def Covered (w : Weave) : Prop :=
  (∀ id, w.session.due? = some id → w.prospect = id) ∨ w.ReportsLast ∨
    (w.session.due? = some [] ∧ w.Pends .clearHighlight)

/-- A weave is **sound**: the reports that pend tell their moves. -/
structure Sound (w : Weave) : Prop where
  /-- There is a highlight. -/
  lit : w.stage.surroundings.highlights = true
  /-- A report that pends was overtaken, or tells the session. -/
  told : ∀ move, w.Pends (.report move) →
    move.number < w.session.moves ∨ move.Tells w.session
  /-- The strand that is reporting has its report to do next. -/
  head : ∀ place, w.reporting = some place →
    ∃ move rest sequel, w.strands[place]? = some (.busy (.report move :: rest) sequel)

/-- A step is **smooth**: it makes no move, leaves the cover as it is and adds no report of the last
move, or it makes a move and covers it. -/
def Smooth (w w' : Weave) : Prop :=
  (w'.session.moves = w.session.moves ∧ (w'.Covered ↔ w.Covered) ∧
      (w'.ReportsLast → w.ReportsLast)) ∨
    (w'.session.moves = w.session.moves + 1 ∧ w'.Covered)

/-- A turn **clears** the highlight, for a submission or a reset. -/
def Clears (w : Weave) (t : Turn) : Prop :=
  w.reporting = none ∧ ∃ place rest sequel, t = .work place ∧
    w.strands[place]? = some (.busy (.clearHighlight :: rest) sequel)

/-! ## Steps that leave the report under way alone -/

/-- A step is **undisturbed**: the lights are the same, and so is the report that is under way. -/
structure Undisturbed (w w' : Weave) : Prop where
  /-- The lights are the same. -/
  lights : w.stage.SameLights w'.stage
  /-- The strand that is reporting is the same one. -/
  reporting : w'.reporting = w.reporting
  /-- It has the same tasks left. -/
  strand : ∀ place, w.reporting = some place → w'.strands[place]? = w.strands[place]?

/-- An undisturbed step keeps the prospect. -/
theorem Undisturbed.prospect_eq (h : Undisturbed w w') : w'.prospect = w.prospect := by
  have moves : w'.reportedMove? = w.reportedMove? := by
    unfold reportedMove?
    rw [h.reporting]
    cases reporting : w.reporting with
    | none => rfl
    | some place => rw [Option.bind_some, Option.bind_some, h.strand place reporting]
  unfold prospect
  rw [moves, h.lights.1]

/-- While no strand is reporting, the prospect is the highlight. -/
theorem prospect_of_none (idle : w.reporting = none) :
    w.prospect = w.stage.highlight.current := by
  unfold prospect reportedMove?
  rw [idle]
  rfl

/-- While a strand is reporting, the prospect is what its move will show. -/
theorem prospect_of_reporting {move : Move} {rest : List Task} {sequel : Sequel}
    (reporting : w.reporting = some place)
    (found : w.strands[place]? = some (.busy (.report move :: rest) sequel)) :
    w.prospect = move.shownOver w.stage.highlight.current := by
  unfold prospect reportedMove?
  rw [reporting, Option.bind_some, found]

/-- A strand that is begun leaves the report alone. -/
theorem undisturbed_begin (sound : Sound w) (lights : w.stage.SameLights stage) :
    Undisturbed w (w.begin stage strand) := by
  refine ⟨lights, rfl, fun place reporting => ?_⟩
  obtain ⟨move, rest, sequel, found⟩ := sound.head place reporting
  exact List.getElem?_append_left (List.getElem?_eq_some_iff.1 found).1

/-- So does another strand that goes on. -/
theorem undisturbed_put (other : w.reporting ≠ some place) (lights : w.stage.SameLights stage) :
    Undisturbed w (w.put place stage strand) := by
  refine ⟨lights, rfl, fun reporter reporting => List.getElem?_set_ne ?_⟩
  rintro rfl
  exact other reporting

/-- A strand with another task to do next is not reporting. -/
theorem Sound.not_reporting (sound : Sound w) (found : w.strands[place]? = some old)
    (other : ∀ move rest sequel, old ≠ .busy (.report move :: rest) sequel) :
    w.reporting ≠ some place := by
  intro reporting
  obtain ⟨move, rest, sequel, found'⟩ := sound.head place reporting
  rw [found] at found'
  exact other move rest sequel (Option.some.inj found')

/-- The strand that is reporting still has its report to do after an undisturbed step. -/
theorem Undisturbed.head (h : Undisturbed w w') (sound : Sound w)
    (reporting : w'.reporting = some place) :
    ∃ move rest sequel, w'.strands[place]? = some (.busy (.report move :: rest) sequel) := by
  rw [h.reporting] at reporting
  rw [h.strand place reporting]
  exact sound.head place reporting

/-! ## Cover from task to task -/

/-- Tasks are **moot** when dropping them makes no difference: none of them clears the highlight,
and no report among them is that of the last move. -/
def Moot (s : Session) (tasks : List Task) : Prop :=
  .clearHighlight ∉ tasks ∧ ∀ move, .report move ∈ tasks → move.number ≠ s.moves

/-- Tasks that do not touch the highlight are moot. -/
theorem moot_of_quiet {s : Session} {tasks : List Task}
    (quiet : ∀ task ∈ tasks, task.displays = false) : Moot s tasks := by
  refine ⟨fun clears => ?_, fun move told => ?_⟩
  · cases quiet _ clears
  · cases quiet _ told

/-- **The cover depends on the view, the prospect and the tasks that are not moot.** -/
theorem covered_congr {gone new : List Task} (view : w'.session.view = w.session.view)
    (prospect : w'.prospect = w.prospect) (swaps : Swaps w w' gone new)
    (dropped : Moot w.session gone) (quiet : ∀ task ∈ new, task.displays = false) :
    w'.Covered ↔ w.Covered := by
  have added : Moot w.session new := moot_of_quiet quiet
  have moves : w'.session.moves = w.session.moves := congrArg Prod.fst view
  have clears : w'.Pends .clearHighlight ↔ w.Pends .clearHighlight :=
    swaps.pends_iff dropped.1 added.1
  have reports : w'.ReportsLast ↔ w.ReportsLast := by
    unfold ReportsLast
    rw [moves]
    refine exists_congr fun move => and_congr_left fun last => ?_
    exact swaps.pends_iff (fun told => dropped.2 move told last) fun told => added.2 move told last
  unfold Covered
  rw [Session.due?_congr view, prospect, clears, reports]

/-- Reports that pend stay overtaken or told while the view is the same. -/
theorem Sound.told_of_swaps {gone new : List Task} (sound : Sound w)
    (view : w'.session.view = w.session.view) (swaps : Swaps w w' gone new)
    (quiet : ∀ task ∈ new, task.displays = false) (move : Move) (pends : w'.Pends (.report move)) :
    move.number < w'.session.moves ∨ move.Tells w'.session := by
  have moves : w'.session.moves = w.session.moves := congrArg Prod.fst view
  rcases swaps.new_or_pends pends with added | before
  · cases quiet _ added
  · rw [moves]
    exact (sound.told move before).imp_right fun tells => tells.congr view

/-- A report of the last move pends only if it did before. -/
theorem reportsLast_of_swaps {gone new : List Task} (view : w'.session.view = w.session.view)
    (swaps : Swaps w w' gone new) (quiet : ∀ task ∈ new, task.displays = false)
    (reports : w'.ReportsLast) : w.ReportsLast := by
  obtain ⟨move, pends, last⟩ := reports
  have moves : w'.session.moves = w.session.moves := congrArg Prod.fst view
  rcases swaps.new_or_pends pends with added | before
  · cases quiet _ added
  · exact ⟨move, before, last.trans moves⟩

/-- No report is ahead of the moves. -/
theorem Sound.number_le (sound : Sound w) {move : Move} (pends : w.Pends (.report move)) :
    move.number ≤ w.session.moves := by
  rcases sound.told move pends with overtaken | tells
  · exact Nat.le_of_lt overtaken
  · exact Nat.le_of_eq tells.number

/-- **A transition that its tasks follow is smooth.** -/
theorem smooth_of_follows {gone new : List Task} (sound : Sound w) (alone : Undisturbed w w')
    (swaps : Swaps w w' gone new) (dropped : Moot w.session gone)
    (follows : Session.Follows w.session w'.session new) : Sound w' ∧ Smooth w w' := by
  have lit : w'.stage.surroundings.highlights = true := by
    rw [alone.lights.2]
    exact sound.lit
  -- Without a move everything is as before; a new move overtakes all reports that pend.
  cases follows with
  | kept view quiet =>
    refine ⟨⟨lit, ?_, fun place => alone.head sound⟩, Or.inl ⟨?_, ?_, ?_⟩⟩
    · exact sound.told_of_swaps view swaps quiet
    · exact congrArg Prod.fst view
    · exact covered_congr view alone.prospect_eq swaps dropped quiet
    · exact reportsLast_of_swaps view swaps quiet
  | renewed moved tells shown =>
    refine ⟨⟨lit, fun move pends => ?_, fun place => alone.head sound⟩, Or.inr ⟨moved, ?_⟩⟩
    · rcases swaps.new_or_pends pends with added | before
      · exact Or.inr (tells move added)
      · have behind := sound.number_le before
        exact Or.inl (by omega)
    · rcases shown with ⟨idle, clears⟩ | ⟨move, told⟩
      · exact Or.inr (Or.inr ⟨idle, swaps.pends_new clears⟩)
      · exact Or.inr (Or.inl ⟨move, swaps.pends_new told, (tells move told).number⟩)

/-- A weave that stays as it is. -/
theorem smooth_refl (sound : Sound w) : Sound w ∧ Smooth w w :=
  ⟨sound, Or.inl ⟨rfl, Iff.rfl, id⟩⟩

/-! ## Turns that are no slips -/

/-- Beginning a strand is smooth. -/
theorem smooth_begin {tasks : List Task} {sequel : Sequel} (sound : Sound w)
    (lights : w.stage.SameLights stage)
    (follows : Session.Follows w.session stage.session tasks) :
    Sound (w.begin stage (.busy tasks sequel)) ∧
      Smooth w (w.begin stage (.busy tasks sequel)) :=
  smooth_of_follows sound (undisturbed_begin sound lights) (swaps_append rfl)
    (moot_of_quiet (by simp)) follows

/-- A strand that is not reporting does a task that is moot. -/
theorem smooth_task {task : Task} {rest tasks : List Task} {sequel : Sequel} (sound : Sound w)
    (found : w.strands[place]? = some (.busy (task :: rest) sequel))
    (other : w.reporting ≠ some place) (dropped : Moot w.session [task])
    (lights : w.stage.SameLights stage)
    (follows : Session.Follows w.session stage.session tasks) :
    Sound (w.put place stage (.busy (tasks ++ rest) sequel)) ∧
      Smooth w (w.put place stage (.busy (tasks ++ rest) sequel)) :=
  smooth_of_follows sound (undisturbed_put other lights) (swaps_set found rfl rfl rfl) dropped
    follows

/-- A strand without tasks goes on. -/
theorem smooth_sequel (sound : Sound w) (found : w.strands[place]? = some old)
    (done : old.tasks = []) (lights : w.stage.SameLights stage)
    (follows : Session.Follows w.session stage.session strand.tasks) :
    Sound (w.put place stage strand) ∧ Smooth w (w.put place stage strand) := by
  have other : w.reporting ≠ some place := by
    refine sound.not_reporting found ?_
    rintro move rest sequel rfl
    exact List.cons_ne_nil _ _ done
  have swaps : Swaps w (w.put place stage strand) [] strand.tasks :=
    swaps_set found rfl done (List.append_nil _).symm
  exact smooth_of_follows sound (undisturbed_put other lights) swaps (moot_of_quiet (by simp))
    follows

/-- A strand that finds its move to be the last one starts to report it. -/
theorem smooth_look {move : Move} {rest : List Task} {sequel : Sequel} (sound : Sound w)
    (found : w.strands[place]? = some (.busy (.report move :: rest) sequel))
    (last : move.number = w.session.moves) :
    Sound { w with reporting := some place } ∧ Smooth w { w with reporting := some place } := by
  have reports : w.ReportsLast := ⟨move, ⟨place, _, found, List.mem_cons_self⟩, last⟩
  refine ⟨⟨sound.lit, sound.told, fun other reporting => ?_⟩, Or.inl ⟨rfl, ?_, id⟩⟩
  · cases reporting
    exact ⟨move, rest, sequel, found⟩
  · exact iff_of_true (Or.inr (Or.inl reports)) (Or.inr (Or.inl reports))

/-- The strand that is reporting presents its move. -/
theorem smooth_present {move : Move} {rest : List Task} {sequel : Sequel} (sound : Sound w)
    (found : w.strands[place]? = some (.busy (.report move :: rest) sequel))
    (reporting : w.reporting = some place)
    (result : w' = { w.put place (w.stage.present move)
      (.busy (Stage.moveTasks move ++ rest) sequel) with reporting := none }) :
    Sound w' ∧ Smooth w w' := by
  have session : w'.session = w.session := by
    rw [result]
    exact Stage.session_present w.stage move
  have view : w'.session.view = w.session.view := congrArg Session.view session
  have swaps : Swaps w w' [.report move] (Stage.moveTasks move) :=
    swaps_set found (by rw [result]; rfl) rfl rfl
  have quiet := Stage.displays_moveTasks move
  -- The prospect already was what the move shows.
  have prospect : w'.prospect = w.prospect := by
    rw [prospect_of_none (by rw [result]), prospect_of_reporting reporting found, result]
    exact Stage.current_present sound.lit move
  refine ⟨⟨?_, sound.told_of_swaps view swaps quiet, ?_⟩,
    Or.inl ⟨congrArg Prod.fst view, ?_, reportsLast_of_swaps view swaps quiet⟩⟩
  · have same := Stage.surroundings_present w.stage move
    rw [result]
    exact (congrArg Surroundings.highlights same).trans sound.lit
  · intro other reporting'
    rw [result] at reporting'
    cases reporting'
  · have pends : w.Pends (.report move) := ⟨place, _, found, List.mem_cons_self⟩
    rcases sound.told move pends with overtaken | tells
    · -- The cursor moved on in between: another task will bring about what is due.
      refine covered_congr view prospect swaps ⟨by simp, fun told member => ?_⟩ quiet
      cases List.mem_singleton.1 member
      omega
    · have shown : ∀ id, w.session.due? = some id → w.prospect = id := by
        intro id due
        rw [prospect_of_reporting reporting found]
        exact tells.shownOver_eq due _
      refine iff_of_true (Or.inl ?_) (Or.inl shown)
      rw [session, prospect]
      exact shown

/-- A task that does not clear the highlight is smooth. -/
theorem smooth_doTask {task : Task} {rest : List Task} {sequel : Sequel} (sound : Sound w)
    (found : w.strands[place]? = some (.busy (task :: rest) sequel))
    (not_clears : ¬ w.Clears (.work place)) :
    Sound (w.doTask place rest sequel task) ∧ Smooth w (w.doTask place rest sequel task) := by
  cases task with
  | clearHighlight =>
    simp only [doTask]
    split
    · rename_i idle
      exact absurd ⟨idle, place, rest, sequel, rfl, found⟩ not_clears
    · -- Another strand is reporting, and this one has to wait.
      exact smooth_refl sound
  | announce event =>
    refine smooth_task sound found (sound.not_reporting found (by simp)) ?_
      (Stage.sameLights_announce ..) (Stage.follows_announce ..)
    exact moot_of_quiet (by simp [Task.displays])
  | listen kind =>
    refine smooth_task sound found (sound.not_reporting found (by simp)) ?_
      (Stage.sameLights_listen ..) (Stage.follows_listen ..)
    exact moot_of_quiet (by simp [Task.displays])
  | report move =>
    simp only [doTask]
    split
    · rename_i idle
      split
      · rename_i overtaken
        -- The report was overtaken and is dropped, all but its events.
        refine smooth_task sound found (by simp [idle]) ?_ ⟨rfl, rfl⟩
          (.kept rfl (Stage.displays_moveTasks move))
        refine ⟨by simp, fun told member => ?_⟩
        cases List.mem_singleton.1 member
        simpa using overtaken
      · rename_i last
        exact smooth_look sound found (by simpa using last)
    · rename_i reporter reporting
      split
      · rename_i here
        subst here
        exact smooth_present sound found reporting rfl
      · exact smooth_refl sound

/-- **A turn that neither commits nor clears is smooth.** -/
theorem smooth_turn (sound : Sound w) (not_commits : ¬ w.Commits t) (not_clears : ¬ w.Clears t) :
    Sound (w.turn t) ∧ Smooth w (w.turn t) := by
  cases t with
  | submit code language context =>
    simp only [turn]
    split
    · exact smooth_begin sound ⟨rfl, rfl⟩ (.kept rfl (by simp))
    · exact smooth_begin sound ⟨rfl, rfl⟩ (Stage.follows_commence ..)
  | act a => exact smooth_begin sound (Stage.sameLights_act ..) (Stage.follows_act ..)
  | tick epoch =>
    simp only [turn]
    split
    · exact smooth_begin sound ⟨rfl, rfl⟩ (Stage.follows_advance ..)
    · exact smooth_refl sound
  | work place =>
    simp only [turn]
    split
    · rename_i found
      exact smooth_doTask sound found not_clears
    · rename_i found
      exact smooth_sequel sound found rfl ⟨rfl, rfl⟩ (.kept rfl (by simp))
    · exact smooth_refl sound
  | reply place context reply =>
    simp only [turn]
    split
    · rename_i found
      exact smooth_sequel sound found rfl ⟨rfl, rfl⟩ (.kept rfl (by simp))
    · exact smooth_refl sound
  | conclude place =>
    simp only [turn]
    split
    · rename_i generation answer found
      refine smooth_sequel sound found rfl (Stage.sameLights_conclude ..)
        (Stage.follows_conclude w.stage ?_)
      rintro result ⟨rfl, rfl⟩
      exact not_commits ⟨place, result, rfl, found⟩
    · exact smooth_refl sound

end Weave

end FlowTrace
