import FlowTrace.Proofs.Session.Cover
import FlowTrace.Proofs.Session.CursorRange
import FlowTrace.Proofs.Session.Ownership

/-! # The highlight and the cursor

Reports and clearings are done outside the lock of the session, in any order with everything else.
Once none of them pends, the highlight should **agree** with the cursor (`Weave.Agrees`): no node is
highlighted in front of the first step, and on a step its node is, if the flowchart has it.

It does not always agree. There are two **slips** (`Weave.Slips`):

* A result is committed while a node is highlighted, or about to be, and no clearing is still to
  come. The cursor goes back in front of the first step, but the highlight stays.
* The highlight is cleared late, by a submission or a reset that was overtaken: the cursor already
  stands on a step whose node is there, and the report of that move is over.

The main statement, `Weave.highlight_agrees_iff`, says that nothing else goes wrong, and for how
long a slip does: the highlight of a settled weave agrees exactly when the cursor has moved after
each slip. Under the policy that drops results, the first kind of slip does not happen.

The argument follows the cover of a weave from turn to turn (`Weave.covered_turn`). Every turn that
makes a move covers the weave, a slip uncovers it, and every other turn leaves the cover as it is;
once nothing pends, a weave is covered exactly when its highlight agrees. -/

namespace FlowTrace

/-- Without a result only a request and a reset make a move. -/
theorem Session.Shift.moves_eq_of_none {s s' : Session} (h : Session.Shift s s')
    (range : s.InRange) (empty : s.result = none) (same : s'.generation = s.generation) :
    s'.moves = s.moves := by
  obtain ⟨idle, resting⟩ := range.idle_of_none empty
  have count : s.stepCount = 0 := by
    rw [Session.stepCount, empty, stepCount_none]
  cases h with
  | stay => rfl
  | start context => exact absurd same (Nat.succ_ne_self _)
  | reset => exact absurd same (Nat.succ_ne_self _)
  | play played =>
    rcases (Session.play_eq_ok played).2 with ⟨-, rfl⟩ | ⟨-, rfl⟩
    all_goals rfl
  | pause => rfl
  | @move delta single =>
    rcases s.move_cases delta with moved | ⟨lower, upper, -⟩
    · rw [moved]
      rfl
    · -- There is no step to go to, and the cursor does not stay where it is.
      omega
  | advance epoch =>
    rcases s.advance_cases epoch with ⟨-, ticked⟩ | ⟨-, playing, -⟩ | ⟨-, playing, -⟩
    · rw [ticked]
      rfl
    all_goals
      rw [resting] at playing
      cases playing

namespace Weave

variable {w : Weave} {t : Turn}

/-! ## Agreement and slips -/

/-- The highlight **agrees** with the cursor. -/
structure Agrees (w : Weave) : Prop where
  /-- In front of the first step no node is highlighted. -/
  before : w.session.cursor.step = -1 → w.stage.highlight.current = []
  /-- On a step its node is highlighted, if the flowchart has it. -/
  on_step : ∀ result step, w.session.result = some result →
    result.step? w.session.cursor.step = some step →
    hasNode result.flowchart step.nodeId = true → w.stage.highlight.current = step.nodeId

/-- The highlight agrees when it is what is due. -/
theorem agrees_iff :
    w.Agrees ↔ ∀ id, w.session.due? = some id → w.stage.highlight.current = id := by
  constructor
  · intro agrees id due
    unfold Session.due? at due
    split at due
    · rename_i idle
      rw [agrees.before idle]
      exact Option.some.inj due
    · obtain ⟨result, step, present, at_cursor, there, rfl⟩ := Session.nodeDue?_eq_some.1 due
      exact agrees.on_step result step present at_cursor there
  · intro shown
    refine ⟨fun idle => shown [] (Session.due?_of_idle idle), ?_⟩
    intro result step present at_cursor there
    refine shown step.nodeId ?_
    have onStep := Session.step_nonneg at_cursor
    unfold Session.due?
    rw [if_neg (by omega)]
    exact Session.nodeDue?_eq_some.2 ⟨result, step, present, at_cursor, there, rfl⟩

/-- A turn **slips**: it commits a result under a highlight that nobody will clear, or it clears the
highlight of a step that nobody will report again. -/
def Slips (w : Weave) (t : Turn) : Prop :=
  (w.Commits t ∧ w.prospect ≠ [] ∧ ¬ w.Pends .clearHighlight) ∨
    (w.Clears t ∧ (∃ id, w.session.due? = some id ∧ id ≠ []) ∧ ¬ w.ReportsLast)

/-! ## Turns that may slip -/

/-- A turn that commits a result clears nothing. -/
theorem Commits.not_clears (commits : w.Commits t) : ¬ w.Clears t := by
  obtain ⟨place, result, rfl, -⟩ := commits
  rintro ⟨-, other, rest, sequel, same, -⟩
  cases same

/-- A commit makes a move that nobody reports: it is covered when nothing is highlighted, or when a
clearing is still to come. -/
theorem covered_commit (sound : Sound w) (commits : w.Commits t) :
    Sound (w.turn t) ∧ (w.turn t).session.moves = w.session.moves + 1 ∧
      ((w.turn t).Covered ↔ w.prospect = [] ∨ w.Pends .clearHighlight) := by
  obtain ⟨place, result, concludes⟩ := commits
  have session : (w.turn t).session = w.session.commit result := by
    rw [session_conclude concludes, Session.apply_ok]
  have moved : (w.turn t).session.moves = w.session.moves + 1 := by
    rw [session]
    rfl
  have idle : (w.turn t).session.due? = some [] := by
    rw [session]
    exact Session.due?_of_idle rfl
  obtain ⟨rfl, found⟩ := concludes
  have lights := w.stage.sameLights_conclude w.session.generation (.ok result)
  have other := sound.not_reporting found (by simp)
  have alone : Undisturbed w (w.turn (.conclude place)) := by
    simp only [turn, found]
    exact undisturbed_put other lights
  have swaps : Swaps w (w.turn (.conclude place)) []
      (w.stage.conclude w.session.generation (.ok result)).2.1 := by
    simp only [turn, found]
    exact swaps_set found rfl rfl (List.append_nil _).symm
  have quiet : ∀ task ∈ (w.stage.conclude w.session.generation (.ok result)).2.1,
      task.displays = false := by
    simp [Stage.conclude, Session.apply_ok, Task.displays]
  -- The reports that pend are of earlier moves.
  have overtaken (move : Move) (pends : (w.turn (.conclude place)).Pends (.report move)) :
      move.number < (w.turn (.conclude place)).session.moves := by
    rcases swaps.new_or_pends pends with added | before
    · cases quiet _ added
    · have behind := sound.number_le before
      omega
  refine ⟨⟨?_, fun move pends => Or.inl (overtaken move pends), fun place => alone.head sound⟩,
    moved, ?_⟩
  · rw [alone.lights.2]
    exact sound.lit
  · have moot : Moot w.session (w.stage.conclude w.session.generation (.ok result)).2.1 :=
      moot_of_quiet quiet
    rw [← alone.prospect_eq, ← swaps.pends_iff List.not_mem_nil moot.1]
    constructor
    · rintro (shown | ⟨move, pends, last⟩ | ⟨-, clears⟩)
      · exact Or.inl (shown [] idle)
      · exact absurd last (Nat.ne_of_lt (overtaken move pends))
      · exact Or.inr clears
    · rintro (dark | clears)
      · refine Or.inl fun id due => ?_
        rw [idle] at due
        rw [dark]
        exact Option.some.inj due
      · exact Or.inr (Or.inr ⟨idle, clears⟩)

/-- A clearing leaves the highlight covered when no node is due, or when the last move will still be
reported. -/
theorem covered_clear (sound : Sound w) (clears : w.Clears t) :
    Sound (w.turn t) ∧ (w.turn t).session.moves = w.session.moves ∧
      ((w.turn t).ReportsLast ↔ w.ReportsLast) ∧
      ((w.turn t).Covered ↔ (∀ id, w.session.due? = some id → id = []) ∨ w.ReportsLast) := by
  obtain ⟨idle, place, rest, sequel, rfl, found⟩ := clears
  have result : w.turn (.work place) = w.put place w.stage.clearHighlight (.busy rest sequel) := by
    simp only [turn, found, doTask, idle]
  have session : (w.turn (.work place)).session = w.session := by
    rw [result]
    exact Stage.session_clearHighlight w.stage
  have view : (w.turn (.work place)).session.view = w.session.view := congrArg Session.view session
  have silent : (w.turn (.work place)).reporting = none := by
    rw [result]
    exact idle
  have swaps : Swaps w (w.turn (.work place)) [.clearHighlight] [] := by
    rw [result]
    exact swaps_set found rfl rfl rfl
  -- Nothing is being shown, so that the prospect is what is highlighted: no node.
  have dark : (w.turn (.work place)).prospect = [] := by
    rw [prospect_of_none silent, result]
    exact Stage.current_clearHighlight sound.lit
  have reports : (w.turn (.work place)).ReportsLast ↔ w.ReportsLast := by
    unfold ReportsLast
    rw [session]
    exact exists_congr fun move => and_congr_left' (swaps.pends_iff (by simp) (by simp))
  refine ⟨⟨?_, sound.told_of_swaps view swaps (by simp), ?_⟩, congrArg Session.moves session,
    reports, ?_⟩
  · rw [result]
    exact (congrArg Surroundings.highlights w.stage.surroundings_clearHighlight).trans sound.lit
  · intro reporter reporting
    rw [silent] at reporting
    cases reporting
  · unfold Covered
    rw [reports, dark, session]
    constructor
    · rintro (none_due | last | ⟨due, -⟩)
      · exact Or.inl fun id due => (none_due id due).symm
      · exact Or.inr last
      · refine Or.inl fun id due' => ?_
        rw [due] at due'
        exact (Option.some.inj due').symm
    · rintro (none_due | last)
      · exact Or.inl fun id due => (none_due id due).symm
      · exact Or.inr (Or.inl last)

/-! ## Runs -/

/-- No run takes a move back. -/
theorem moves_le_run (w : Weave) (turns : List Turn) :
    w.session.moves ≤ (w.run turns).session.moves := by
  refine session_run (P := fun s => w.session.moves ≤ s.moves) ?_ ?_ (Nat.le_refl _) turns
  · intro s s' shift kept
    exact Nat.le_trans kept shift.moves_le
  · intro s generation answer kept
    exact Nat.le_trans kept (s.moves_le_apply generation answer)

/-- **The cover after a turn**: it makes a move or the weave was covered, and it is no slip. -/
theorem covered_turn (sound : Sound w) (t : Turn) :
    Sound (w.turn t) ∧ ((w.turn t).Covered ↔
      (w.session.moves ≠ (w.turn t).session.moves ∨ w.Covered) ∧ ¬ w.Slips t) := by
  -- A turn that commits or clears covers the weave exactly when it is no slip.
  by_cases commits : w.Commits t
  · obtain ⟨sound', moved, covered⟩ := covered_commit sound commits
    refine ⟨sound', ?_⟩
    have slips : w.Slips t ↔ ¬ (w.turn t).Covered := by
      rw [covered, not_or]
      unfold Slips
      rw [and_iff_right commits]
      exact or_iff_left fun late => commits.not_clears late.1
    rw [slips, not_not, iff_and_self]
    exact fun _ => Or.inl (by omega)
  by_cases clears : w.Clears t
  · obtain ⟨sound', -, -, covered⟩ := covered_clear sound clears
    refine ⟨sound', ?_⟩
    have slips : w.Slips t ↔ ¬ (w.turn t).Covered := by
      rw [covered, not_or]
      unfold Slips
      rw [and_iff_right clears, or_iff_right fun early => commits early.1]
      refine and_congr_left' ?_
      push Not
      rfl
    rw [slips, not_not, iff_and_self, covered]
    -- The clearing itself covered the weave before, unless the report of the last move did.
    rintro (none_due | last)
    · right
      obtain ⟨-, place, rest, sequel, rfl, found⟩ := clears
      cases due : w.session.due? with
      | none => exact Or.inl (by simp [due])
      | some id =>
        rw [none_due id due] at due
        exact Or.inr (Or.inr ⟨due, place, _, found, List.mem_cons_self⟩)
    · exact Or.inr (Or.inr (Or.inl last))
  · obtain ⟨sound', smooth⟩ := smooth_turn sound commits clears
    refine ⟨sound', ?_⟩
    have no_slip : ¬ w.Slips t := by
      rintro (h | h)
      · exact commits h.1
      · exact clears h.1
    rw [and_iff_left no_slip]
    rcases smooth with ⟨kept, covered, -⟩ | ⟨moved, covered⟩
    · rw [covered, or_iff_right (fun moved => moved kept.symm)]
    · exact iff_of_true covered (Or.inl (by omega))

/-- A fresh weave with a highlight is sound. -/
theorem sound_fresh {policy : ClearPolicy} {surroundings : Surroundings}
    {listeners : List (Text × Act)} (lit : surroundings.highlights = true) :
    Sound (fresh policy surroundings listeners) := by
  refine ⟨lit, ?_, nofun⟩
  rintro move ⟨place, strand, found, -⟩
  cases found

/-- It is covered: nothing is highlighted. -/
theorem covered_fresh {policy : ClearPolicy} {surroundings : Surroundings}
    {listeners : List (Text × Act)} : Covered (fresh policy surroundings listeners) := by
  refine Or.inl fun id due => ?_
  rw [Session.due?_of_idle rfl] at due
  exact Option.some.inj due

/-- A run keeps a weave sound. -/
theorem sound_run (sound : Sound w) (turns : List Turn) : Sound (w.run turns) :=
  run_of_turn (P := Sound) (fun _ t sound => (covered_turn sound t).1) sound turns

/-- The moves that are made up to the end of a turn are all made at the end of the run. -/
theorem moves_le_of_took {first : Weave} {turns : List Turn} (took : Took first turns w t) :
    (w.turn t).session.moves ≤ (first.run turns).session.moves := by
  obtain ⟨before, after, rfl, rfl⟩ := took
  rw [run_append, run_cons]
  exact moves_le_run _ after

/-- **The cover after a run**: a move was made after each slip. -/
theorem covered_run {first : Weave} (sound : Sound first) (covered : first.Covered)
    (turns : List Turn) :
    (first.run turns).Covered ↔ ∀ w t, Took first turns w t → w.Slips t →
      (w.turn t).session.moves ≠ (first.run turns).session.moves := by
  -- The induction is on the last turn, because it is the end of the run that a slip has to be
  -- compared with.
  induction turns using List.reverseRecOn with
  | nil => exact iff_of_true covered fun w t took => absurd took (not_took_nil first w t)
  | append_singleton turns last ih =>
    have next := (covered_turn (sound_run sound turns) last).2
    have le : (first.run turns).session.moves ≤ ((first.run turns).turn last).session.moves :=
      moves_le_run (first.run turns) [last]
    simp only [run_concat, took_concat]
    rw [next]
    constructor
    · rintro ⟨renewed, no_slip⟩ w t (took | ⟨rfl, rfl⟩) slips
      · rcases renewed with moved | covered
        · -- The last turn made a move, and with it there is one after every slip.
          have behind := moves_le_of_took took
          omega
        · have behind := moves_le_of_took took
          have moved := ih.1 covered w t took slips
          omega
      · exact absurd slips no_slip
    · intro moved
      refine ⟨?_, fun slips => moved _ _ (Or.inr ⟨rfl, rfl⟩) slips rfl⟩
      by_cases same : (first.run turns).session.moves = ((first.run turns).turn last).session.moves
      · right
        refine ih.2 fun w t took slips => ?_
        rw [same]
        exact moved w t (Or.inl took) slips
      · exact Or.inl same

/-! ## The policy that drops results -/

/-- Without a result, a turn that keeps the generation makes no move, unless it commits one. -/
theorem moves_turn_of_none (range : w.session.InRange) (empty : w.session.result = none)
    (not_commits : ¬ w.Commits t)
    (same : (w.turn t).session.generation = w.session.generation) :
    (w.turn t).session.moves = w.session.moves := by
  rcases w.session_turn t with ⟨place, generation, answer, concludes⟩ | ⟨-, shifted⟩
  · rw [session_conclude concludes]
    rcases w.session.apply_cases generation answer with ⟨result, rfl, rfl, -⟩ |
      ⟨-, calls, holding, status, failure, kept⟩
    · exact absurd ⟨place, result, concludes⟩ not_commits
    · rw [kept]
  · exact shifted.moves_eq_of_none range empty same

/-- A submission covers the weave: the highlight will be cleared, and nobody reports the move. -/
theorem covered_of_submits (sound : Sound w) (submits : Submits t) :
    (w.turn t).Covered ∧ ¬ (w.turn t).ReportsLast := by
  obtain ⟨code, language, context, rfl, accepted⟩ := submits
  have result : w.turn (.submit code language context) =
      w.begin (w.stage.commence code language context).1
        (.busy (w.stage.commence code language context).2.1
          (.ask (w.stage.commence code language context).2.2 ⟨code, language, true⟩)) := by
    simp only [turn, accepted]
  have swaps : Swaps w (w.turn (.submit code language context)) []
      (w.stage.commence code language context).2.1 := swaps_append (congrArg strands result)
  have moved : (w.turn (.submit code language context)).session.moves = w.session.moves + 1 := by
    rw [result]
    rfl
  have idle : (w.turn (.submit code language context)).session.due? = some [] := by
    rw [result]
    exact Session.due?_of_idle rfl
  refine ⟨Or.inr (Or.inr ⟨idle, swaps.pends_new (by simp [Stage.commence])⟩), ?_⟩
  rintro ⟨move, pends, last⟩
  rcases swaps.new_or_pends pends with added | before
  · simp [Stage.commence] at added
  · have behind := sound.number_le before
    omega

/-- Until a result is committed or the generation is over, a session without a result stays covered
without a report. -/
theorem covered_of_waiting (sound : Sound w) (range : w.session.InRange)
    (empty : w.session.result = none) (not_commits : ¬ w.Commits t)
    (same : (w.turn t).session.generation = w.session.generation)
    (before : w.Covered ∧ ¬ w.ReportsLast) :
    (w.turn t).Covered ∧ ¬ (w.turn t).ReportsLast := by
  obtain ⟨covered, unreported⟩ := before
  have due : w.session.due? = some [] := Session.due?_of_idle (range.idle_of_none empty).1
  have kept := moves_turn_of_none range empty not_commits same
  have no_slip : ¬ w.Slips t := by
    rintro (⟨commits, -⟩ | ⟨-, ⟨id, due', bright⟩, -⟩)
    · exact not_commits commits
    · rw [due] at due'
      exact bright (Option.some.inj due').symm
  refine ⟨(covered_turn sound t).2.2 ⟨Or.inr covered, no_slip⟩, fun reports => unreported ?_⟩
  by_cases clears : w.Clears t
  · exact (covered_clear sound clears).2.2.1.1 reports
  · rcases (smooth_turn sound not_commits clears).2 with ⟨-, -, still⟩ | ⟨moved, -⟩
    · exact still reports
    · omega

/-- **Under the policy that drops results, a session that waits for its current submission is
covered without a report**: whatever is highlighted from before will be cleared. -/
theorem covered_of_inFlight {first : Weave} {turns : List Turn} {place : Nat}
    (none_yet : first.strands = []) (drops : first.session.policy = .clearBeforeCall)
    (sound : Sound first) (range : ∀ turns, (first.run turns).session.InRange)
    (h : (first.run turns).InFlight place (first.run turns).session.generation) :
    (first.run turns).Covered ∧ ¬ (first.run turns).ReportsLast := by
  induction turns using List.reverseRecOn with
  | nil =>
    obtain ⟨strand, found, -⟩ := h
    rw [run_nil, none_yet] at found
    cases found
  | append_singleton turns last ih =>
    rw [run_concat] at h ⊢
    rcases inFlight_turn h with earlier | ⟨submits, -, -⟩
    · -- The submission keeps its generation, so that this is still the current one.
      have le := (owns_of_inFlight none_yet earlier).le
      have same := Nat.le_antisymm le (generation_le_turn (first.run turns) last)
      rw [same] at earlier
      refine covered_of_waiting (sound_run sound turns) (range turns)
        (result_eq_none_of_inFlight none_yet drops earlier) ?_ same (ih earlier)
      rintro ⟨other, result, concludes⟩
      have owner := owns_of_inFlight none_yet ⟨_, concludes.2, rfl⟩
      obtain rfl : place = other := (owns_of_inFlight none_yet earlier).unique owner
      exact not_inFlight_of_concludes concludes _ h
    · exact covered_of_submits (sound_run sound turns) submits

/-- Under the policy that drops results **no commit slips**. -/
theorem not_commits_of_slips {surroundings : Surroundings} {listeners : List (Text × Act)}
    {turns : List Turn} (lit : surroundings.highlights = true)
    (took : Took (fresh .clearBeforeCall surroundings listeners) turns w t) (slips : w.Slips t) :
    ¬ w.Commits t := by
  obtain ⟨before, after, -, rfl⟩ := took
  have none_yet : (fresh .clearBeforeCall surroundings listeners).strands = [] := rfl
  have range := inRange_run .clearBeforeCall surroundings listeners
  intro commits
  -- The strand that commits was in flight with the current generation up to now.
  obtain ⟨-, bright, none_clears⟩ := slips.resolve_right fun late => commits.not_clears late.1
  obtain ⟨place, result, concludes⟩ := commits
  have empty := result_eq_none_of_inFlight none_yet rfl ⟨_, concludes.2, rfl⟩
  have due := Session.due?_of_idle ((range before).idle_of_none empty).1
  obtain ⟨shown | reports | ⟨-, clears⟩, unreported⟩ :=
    covered_of_inFlight none_yet rfl (sound_fresh lit) range ⟨_, concludes.2, rfl⟩
  · exact bright (shown [] due)
  · exact unreported reports
  · exact none_clears clears

/-! ## The highlight of a settled weave -/

/-- In a settled weave nothing is to come, so that cover is agreement. -/
theorem covered_iff_agrees (sound : Sound w) (settled : w.Settled) : w.Covered ↔ w.Agrees := by
  have silent : w.reporting = none := by
    cases reporting : w.reporting with
    | none => rfl
    | some place =>
      obtain ⟨move, rest, sequel, found⟩ := sound.head place reporting
      cases settled (.report move) ⟨place, _, found, List.mem_cons_self⟩
  rw [agrees_iff, ← prospect_of_none silent]
  refine ⟨?_, Or.inl⟩
  rintro (shown | ⟨move, pends, -⟩ | ⟨-, pends⟩)
  · exact shown
  · cases settled _ pends
  · cases settled _ pends

/-- **The highlight of a settled weave agrees with the cursor exactly when the cursor has moved
after each slip**, under either policy and in every interleaving. Under the policy that drops
results, only late clearings slip. -/
theorem highlight_agrees_iff (policy : ClearPolicy) (surroundings : Surroundings)
    (listeners : List (Text × Act)) (turns : List Turn)
    (lit : surroundings.highlights = true)
    (settled : ((fresh policy surroundings listeners).run turns).Settled) :
    (((fresh policy surroundings listeners).run turns).Agrees ↔
        ∀ w t, Took (fresh policy surroundings listeners) turns w t → w.Slips t →
          (w.turn t).session.moves ≠
            ((fresh policy surroundings listeners).run turns).session.moves) ∧
      (policy = .clearBeforeCall → ∀ w t, Took (fresh policy surroundings listeners) turns w t →
        w.Slips t → ¬ w.Commits t) := by
  have sound : Sound (fresh policy surroundings listeners) := sound_fresh lit
  constructor
  · rw [← covered_iff_agrees (sound_run sound turns) settled]
    exact covered_run sound covered_fresh turns
  · rintro rfl w t took slips
    exact not_commits_of_slips lit took slips

/-- The cursor goes to a step while a result is on its way, and the result arrives. -/
def movedOn : List Turn :=
  [.submit "x" "python" .live] ++ asking 0 ++ completing 0 ++
    [.submit "y" "python" .live] ++ asking 1 ++
    [.act .forward, .work 2, .work 2, .work 2, .work 2] ++ completing 1

/-- Nothing pends then, and the cursor is in front of the first step, but a node is highlighted. -/
theorem highlight_outlives_result :
    ((fresh .preserveOnFailure {} []).run movedOn).Settled ∧
      ¬ ((fresh .preserveOnFailure {} []).run movedOn).Agrees := by
  refine ⟨by decide, fun agrees => ?_⟩
  have dark := agrees.before (by decide)
  exact absurd dark (by decide)

/-- So the run has a slip that no move came after. -/
theorem slip_of_movedOn :
    ((fresh .preserveOnFailure {} []).run movedOn).Settled ∧
      ∃ w t, Took (fresh .preserveOnFailure {} []) movedOn w t ∧ w.Slips t ∧
        (w.turn t).session.moves =
          ((fresh .preserveOnFailure {} []).run movedOn).session.moves := by
  have settled : ((fresh .preserveOnFailure {} []).run movedOn).Settled := by decide
  refine ⟨settled, ?_⟩
  by_contra none_left
  push Not at none_left
  have agrees := (highlight_agrees_iff .preserveOnFailure {} [] movedOn rfl settled).1.2 none_left
  have dark := agrees.before (by decide)
  exact absurd dark (by decide)

/-- A submission that was overtaken clears the highlight only when the cursor is on a step of the
other one's result. -/
def clearedLate : List Turn :=
  [.submit "x" "python" .live, .submit "y" "python" .live] ++ asking 1 ++ completing 1 ++
    [.act .forward, .work 2, .work 2, .work 2, .work 2] ++ asking 0

/-- Under either policy the cursor is on a step whose node is there, but nothing is highlighted. -/
example (policy : ClearPolicy) :
    let w := (fresh policy {} []).run clearedLate
    w.Settled ∧ w.session.nodeDue? = some "n1" ∧ w.stage.highlight.current = "" := by
  cases policy <;> decide

end Weave

end FlowTrace
