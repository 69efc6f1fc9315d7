import FlowTrace.Proofs.Session.Broadcast
import FlowTrace.Proofs.Session.Record
import FlowTrace.Proofs.Session.Sequential
import FlowTrace.Proofs.Session.Supersession
import Mathlib.Data.List.Basic

/-! # The fate of a submission

Every submission that there is nothing wrong with is announced, asks the service once, and has one
fate, which is announced at the end: it is completed, it failed, or its answer was discarded because
its generation was no longer the current one when the answer was taken (`Stage.fate`). Other
operations do not tell of submissions, so that the events with the generation of a submission are
its own (`Weave.each_submission_has_one_fate`).

Whoever listens to an event may in turn use the session. What a listener does before the next one is
asked is part of the strand that announces; any operation, a submission too, that is begun while
that strand rests is a strand of its own. The runs have both, at every moment.

The proof follows the **story** of a submission: what it has told in the record, followed by what
its strand has left to tell. The story only grows, and only when the submission takes its answer. -/

namespace FlowTrace

/-- The first part of the story of a submission: it is announced, and the service is asked. -/
def opening (generation : Nat) (code language : Text) : List Notice :=
  [.announced (Stage.event Event.analysisSubmitted generation (.submitted language code.length)),
    .requested ⟨code, language, true⟩]

/-- The event of a notice, if it tells of a submission with some generation. -/
def Notice.newsOf? (generation : Nat) : Notice → Option Event
  | announced event =>
    if event.isAnalysis && event.generation == generation then some event else none
  | highlighted _ => none
  | narrated _ => none
  | requested _ => none

/-- The event of a notice has one generation. -/
theorem Notice.generation_eq {notice : Notice} {generation other : Nat}
    (news : notice.newsOf? generation ≠ none) (own : notice.newsOf? other = notice.event?) :
    other = generation := by
  cases notice with
  | announced event =>
    simp only [newsOf?, event?, ne_eq, ite_eq_right_iff, reduceCtorEq, imp_false, Decidable.not_not,
      Bool.and_eq_true, beq_iff_eq, ite_eq_left_iff] at news own
    exact own.2.symm.trans news.2
  | highlighted nodeId => exact absurd rfl news
  | narrated text => exact absurd rfl news
  | requested request => exact absurd rfl news

namespace Stage

/-- The events in the log that tell of submissions with some generation, the earliest first. -/
def newsOf (stage : Stage) (generation : Nat) : List Event :=
  stage.log.reverse.filterMap (Notice.newsOf? generation)

/-- They are among the milestones. -/
theorem newsOf_eq (stage : Stage) (generation : Nat) :
    stage.newsOf generation = stage.milestones.filterMap (Notice.newsOf? generation) := by
  rw [newsOf, milestones, ← List.filter_reverse, List.filterMap_filter]
  refine congrArg (stage.log.reverse.filterMap ·) (funext fun notice => ?_)
  cases notice with
  | announced event =>
    simp only [Notice.newsOf?, Notice.isMilestone]
    by_cases analysis : event.isAnalysis = true <;> simp [analysis]
  | highlighted nodeId => rfl
  | narrated text => rfl
  | requested request => rfl

end Stage

namespace Weave

variable {first w : Weave} {turns : List Turn} {t last : Turn} {place generation : Nat}
  {code language : Text} {context : Context} {strand : Strand} {fate : Event}

/-! ## Fates -/

/-- The submission at a place has met its **fate** in a run: it has taken its answer. -/
def Fated (first : Weave) (turns : List Turn) (place : Nat) (fate : Event) : Prop :=
  ∃ w t generation answer, Took first turns w t ∧ w.Concludes t place generation answer ∧
    fate = Stage.fate w.session.generation generation answer

/-- The fates in a longer run: those before, and the one of the submission that takes its answer
last. -/
theorem fated_concat :
    Fated first (turns ++ [last]) place fate ↔
      Fated first turns place fate ∨
        ∃ generation answer, (first.run turns).Concludes last place generation answer ∧
          fate = Stage.fate (first.run turns).session.generation generation answer := by
  constructor
  · rintro ⟨w, t, generation, answer, took, rest⟩
    rcases took_concat.1 took with earlier | ⟨rfl, rfl⟩
    · exact Or.inl ⟨w, t, generation, answer, earlier, rest⟩
    · exact Or.inr ⟨generation, answer, rest⟩
  · rintro (⟨w, t, generation, answer, took, rest⟩ | ⟨generation, answer, rest⟩)
    · exact ⟨w, t, generation, answer, took_concat.2 (Or.inl took), rest⟩
    · exact ⟨first.run turns, last, generation, answer, took_concat.2 (Or.inr ⟨rfl, rfl⟩), rest⟩

/-- Only strands that are there have told anything, or have met their fate. -/
theorem nothing_yet (absent : (first.run turns).strands[place]? = none) :
    first.told turns place = [] ∧ ∀ fate, ¬ Fated first turns place fate := by
  induction turns using List.reverseRecOn with
  | nil => exact ⟨rfl, fun fate ⟨w, t, generation, answer, took, _⟩ => not_took_nil first w t took⟩
  | append_singleton turns last ih =>
    rw [run_concat] at absent
    have before : (first.run turns).strands[place]? = none := by
      have longer := length_strands_le_turn (first.run turns) last
      rw [List.getElem?_eq_none_iff] at absent ⊢
      omega
    obtain ⟨silent, open_⟩ := ih before
    constructor
    · rw [told_concat, silent, toldBy_of_absent before, List.append_nil]
    · intro fate fated
      rcases fated_concat.1 fated with earlier | ⟨generation, answer, concludes, -⟩
      · exact open_ fate earlier
      · rw [concludes.2] at before
        cases before

/-! ## Stories -/

/-- The fate of a submission is news of its generation. -/
theorem newsOf?_fate (current generation : Nat) (answer : Except Failure Result) :
    (Notice.announced (Stage.fate current generation answer)).newsOf? generation =
      some (Stage.fate current generation answer) := by
  simp [Notice.newsOf?, Stage.isAnalysis_fate, Stage.generation_fate]

/-- The **story** of a submission, from its opening on. -/
inductive Story (first : Weave) (turns : List Turn) (place generation : Nat)
    (opening : List Notice) : Prop
  /-- It is in flight: it has told its opening, or will tell the rest of it. -/
  | flies {strand : Strand} (found : (first.run turns).strands[place]? = some strand)
      (carries : strand.inFlight? = some generation)
      (told : first.told turns place ++ strand.untold = opening)
      (open_ : ∀ fate, ¬ Fated first turns place fate)
  /-- It has met its fate, and has told it or will do so. -/
  | back {tasks : List Task} {value : Except Failure Result} {fate : Event}
      (found : (first.run turns).strands[place]? = some (.busy tasks (.back value)))
      (told : first.told turns place ++ milestones tasks = opening ++ [.announced fate])
      (opened : opening <+: first.told turns place)
      (fated : ∀ other, Fated first turns place other ↔ other = fate)
      (own : (Notice.announced fate).newsOf? generation = some fate)

/-- The story begins when the submission is made. -/
theorem story_submit (accepted : Stage.objection? code language = none) :
    Story first (turns ++ [.submit code language context]) (first.run turns).strands.length
      ((first.run turns).session.generation + 1)
      (opening ((first.run turns).session.generation + 1) code language) := by
  have absent : (first.run turns).strands[(first.run turns).strands.length]? = none :=
    List.getElem?_eq_none_iff.2 (Nat.le_refl _)
  obtain ⟨silent, open_⟩ := nothing_yet absent
  have begun : (first.run (turns ++ [.submit code language context])).strands[
      (first.run turns).strands.length]? =
        some (.busy ((first.run turns).stage.commence code language context).2.1
          (.ask ((first.run turns).session.generation + 1) ⟨code, language, true⟩)) := by
    rw [run_concat]
    simp only [turn, accepted]
    exact strand_begin _ _ _
  refine .flies begun rfl ?_ ?_
  · rw [told_concat, silent, toldBy_eq_nil (by simp)]
    rfl
  · intro fate fated
    rcases fated_concat.1 fated with earlier | ⟨generation, answer, concludes, -⟩
    · exact open_ fate earlier
    · cases concludes.1

/-- **A submission meets its fate** when it takes its answer, and the fate is the only task that it
has then. -/
theorem story_of_concludes {opening : List Notice} {answer : Except Failure Result}
    (concludes : (first.run turns).Concludes t place generation answer)
    (told : first.told turns place = opening) (open_ : ∀ fate, ¬ Fated first turns place fate) :
    Story first (turns ++ [t]) place generation opening := by
  have next := strand_conclude concludes
  rw [Stage.tasks_conclude, ← run_concat] at next
  have all : first.told (turns ++ [t]) place = opening := by
    rw [told_concat, toldBy_eq_nil (by simp [concludes.1]), told, List.append_nil]
  refine .back next ?_ ?_ (fun other => ?_)
    (newsOf?_fate (first.run turns).session.generation generation answer)
  · rw [all, milestones_cons, milestones_nil, List.append_nil, Task.milestones,
      if_pos (Stage.isAnalysis_fate _ _ _)]
  · rewrite [all]
    exact List.prefix_rfl
  · rw [fated_concat]
    constructor
    · rintro (earlier | ⟨generation', answer', concludes', rfl⟩)
      · exact absurd earlier (open_ other)
      · obtain ⟨-, rfl, rfl⟩ := concludes.unique concludes'
        rfl
    · rintro rfl
      exact Or.inr ⟨generation, answer, concludes, rfl⟩

/-- A submission that takes no answer stays in flight. -/
theorem story_of_inFlight {opening : List Notice}
    (loud : first.stage.surroundings.announces = true)
    (found : (first.run turns).strands[place]? = some strand)
    (carries : strand.inFlight? = some generation)
    (told : first.told turns place ++ strand.untold = opening)
    (open_ : ∀ fate, ¬ Fated first turns place fate)
    (no_answer : ∀ carried answer, ¬ (first.run turns).Concludes t place carried answer) :
    Story first (turns ++ [t]) place generation opening := by
  obtain ⟨next, next_found, conserved⟩ :=
    toldBy_append_untold (announces_run loud turns) found no_answer
  have flies : (first.run turns).InFlight place generation := ⟨strand, found, carries⟩
  obtain ⟨next', next_found', carries'⟩ := flies.turn (no_answer generation)
  rw [next_found] at next_found'
  cases next_found'
  refine .flies (run_concat first turns t ▸ next_found) carries' ?_ fun fate fated => ?_
  · rw [told_concat, List.append_assoc, conserved, told]
  · rcases fated_concat.1 fated with earlier | ⟨carried, answer, concludes, -⟩
    · exact open_ fate earlier
    · exact no_answer carried answer concludes

/-- **A story goes on with every turn.** -/
theorem Story.concat {opening : List Notice} (loud : first.stage.surroundings.announces = true)
    (h : Story first turns place generation opening) (t : Turn) :
    Story first (turns ++ [t]) place generation opening := by
  cases h with
  | @flies strand found carries told open_ =>
    by_cases concludes : ∃ carried answer, (first.run turns).Concludes t place carried answer
    · obtain ⟨carried, answer, concludes⟩ := concludes
      rw [concludes.2] at found
      cases found
      cases carries
      rw [Strand.untold, List.append_nil] at told
      exact story_of_concludes concludes told open_
    · exact story_of_inFlight loud found carries told open_ fun carried answer other =>
        concludes ⟨carried, answer, other⟩
  | @back tasks value fate found told opened fated own =>
    -- It has no answer to take any more; what its strand tells is what it had left to tell.
    have no_answer (carried : Nat) (answer : Except Failure Result) :
        ¬ (first.run turns).Concludes t place carried answer := by
      intro other
      rw [other.2] at found
      cases found
    obtain ⟨next, next_found, conserved⟩ :=
      toldBy_append_untold (announces_run loud turns) found no_answer
    obtain ⟨left, left_found⟩ := back_run found [t]
    rw [run_cons, run_nil, next_found] at left_found
    cases left_found
    refine .back (run_concat first turns t ▸ next_found) ?_ ?_ (fun other => ?_) own
    · simp only [Strand.untold, Sequel.milestones, List.append_nil] at conserved
      rw [told_concat, List.append_assoc, conserved, told]
    · rw [told_concat]
      exact opened.trans (List.prefix_append _ _)
    · rw [fated_concat, fated other, or_iff_left]
      rintro ⟨carried, answer, concludes, -⟩
      exact no_answer carried answer concludes

/-- **Every submission that was made has its story.** -/
theorem story_of_made (loud : first.stage.surroundings.announces = true)
    (h : Made first turns place generation code language context) :
    Story first turns place generation (opening generation code language) := by
  induction turns using List.reverseRecOn with
  | nil =>
    obtain ⟨w, took, -⟩ := h
    exact absurd took (not_took_nil first w _)
  | append_singleton turns last ih =>
    rcases made_concat.1 h with earlier | ⟨rfl, accepted, rfl, rfl⟩
    · exact (ih earlier).concat loud last
    · exact story_submit accepted

/-- What a submission has told is news of its generation, as far as it is an event. -/
theorem Story.newsOf?_told
    (h : Story first turns place generation (opening generation code language))
    {notice : Notice} (member : notice ∈ first.told turns place) :
    notice.newsOf? generation = notice.event? := by
  have of_opening (early : notice ∈ opening generation code language) :
      notice.newsOf? generation = notice.event? := by
    simp only [opening, List.mem_cons, List.not_mem_nil, or_false] at early
    rcases early with rfl | rfl
    · exact if_pos (by simp [Event.isAnalysis, Stage.event])
    · rfl
  cases h with
  | flies found carries told open_ =>
    exact of_opening (told ▸ List.mem_append_left _ member)
  | @back tasks value fate found told opened fated own =>
    have inside : notice ∈ opening generation code language ++ [.announced fate] :=
      told ▸ List.mem_append_left _ member
    rcases List.mem_append.1 inside with early | late
    · exact of_opening early
    · rw [List.mem_singleton.1 late]
      exact own

/-! ## Other operations -/

/-- Work on a task begins no strand. -/
theorem length_strands_doTask (w : Weave) (place : Nat) (rest : List Task) (sequel : Sequel)
    (task : Task) : (w.doTask place rest sequel task).strands.length = w.strands.length := by
  cases task with
  | clearHighlight =>
    simp only [doTask]
    split <;> simp [put]
  | announce event => simp [doTask, put]
  | listen kind => simp [doTask, put]
  | report move =>
    simp only [doTask]
    (repeat' split) <;> simp [put]

/-- The strands that turns begin. -/
inductive Begun (w : Weave) : Turn → Strand → Prop
  /-- A submission is turned down. -/
  | turnedDown {code language : Text} {context : Context} {failure : Failure}
      (objection : Stage.objection? code language = some failure) :
      Begun w (.submit code language context) (.busy [] (.back (.error failure)))
  /-- A submission is made. -/
  | submitted {code language : Text} {context : Context}
      (accepted : Stage.objection? code language = none) :
      Begun w (.submit code language context)
        (.busy (w.stage.commence code language context).2.1
          (.ask (w.stage.commence code language context).2.2 ⟨code, language, true⟩))
  /-- An act is done. -/
  | acted (a : Act) : Begun w (.act a) (.busy (w.stage.act a).2.1 .nothing)
  /-- A ticker ticks. -/
  | ticked (epoch : Nat) : Begun w (.tick epoch) (.busy (w.stage.advance epoch).2 .nothing)

/-- A new strand is one that its turn begins. -/
theorem begun_of_new (found : (w.turn t).strands[w.strands.length]? = some strand) :
    Begun w t strand := by
  have begun {stage : Stage} {strand' : Strand}
      (h : (w.begin stage strand').strands[w.strands.length]? = some strand) :
      strand = strand' := by
    rw [strand_begin] at h
    exact (Option.some.inj h).symm
  -- A turn that adds no strand leaves nothing at the place behind the last one.
  have absent (same : (w.turn t).strands.length = w.strands.length) : False := by
    obtain ⟨inside, -⟩ := List.getElem?_eq_some_iff.1 found
    omega
  cases t with
  | submit code language context =>
    cases objection : Stage.objection? code language with
    | none =>
      simp only [turn, objection] at found
      rw [begun found]
      exact .submitted objection
    | some failure =>
      simp only [turn, objection] at found
      rw [begun found]
      exact .turnedDown objection
  | act a =>
    rw [begun found]
    exact .acted a
  | tick epoch =>
    by_cases made : w.session.tickers.any (·.epoch == epoch) = true
    · simp only [turn, made, if_true] at found
      rw [begun found]
      exact .ticked epoch
    · refine (absent ?_).elim
      simp only [turn, made, Bool.false_eq_true, if_false]
  | work place =>
    refine (absent ?_).elim
    simp only [turn]
    split
    · exact length_strands_doTask ..
    · simp [put]
    · rfl
  | reply place context reply =>
    refine (absent ?_).elim
    simp only [turn]
    split
    · simp [put]
    · rfl
  | conclude place =>
    refine (absent ?_).elim
    simp only [turn]
    split
    · simp [put]
    · rfl

/-- A strand that is begun has no milestones to tell, unless it is a submission. -/
theorem begun_silent (found : (w.turn t).strands[w.strands.length]? = some strand)
    (other : ¬ Submits t) : strand.untold = [] := by
  cases begun_of_new found with
  | turnedDown objection => rfl
  | @submitted code language context accepted =>
    exact absurd ⟨code, language, context, rfl, accepted⟩ other
  | acted a => exact congrArg (· ++ []) (w.stage.milestones_act a)
  | ticked epoch =>
    simp only [Strand.untold, Stage.advance]
    cases (w.stage.session.advance epoch).2 <;> rfl

/-- **Only submissions tell of submissions.** -/
theorem silent_of_not_made (none_yet : first.strands = [])
    (loud : first.stage.surroundings.announces = true)
    (unmade : ∀ generation code language context,
      ¬ Made first turns place generation code language context) :
    first.told turns place = [] ∧ ∀ strand, (first.run turns).strands[place]? = some strand →
      strand.untold = [] := by
  -- The induction is on the turns, the last one apart: what it tells is judged by the strand that
  -- was there before it.
  induction turns using List.reverseRecOn with
  | nil =>
    refine ⟨rfl, fun strand found => ?_⟩
    rw [run_nil, none_yet] at found
    cases found
  | append_singleton turns last ih =>
    have before (generation : Nat) (code language : Text) (context : Context) :
        ¬ Made first turns place generation code language context :=
      fun made => unmade _ _ _ _ (made_concat.2 (Or.inl made))
    obtain ⟨silent, rest⟩ := ih before
    rw [told_concat, silent, List.nil_append, run_concat]
    cases found : (first.run turns).strands[place]? with
    | none =>
      refine ⟨toldBy_of_absent found last, fun strand next => ?_⟩
      rcases strand_turn next with same | ⟨old, old_found, -⟩ | ⟨rfl, -⟩
      · rw [found] at same
        cases same
      · rw [found] at old_found
        cases old_found
      · refine begun_silent next ?_
        rintro ⟨code, language, context, rfl, accepted⟩
        exact unmade _ _ _ _ (made_concat.2 (Or.inr ⟨rfl, accepted, rfl, rfl⟩))
    | some strand =>
      -- An answer at this place would belong to a submission that was made there.
      have no_answer (carried : Nat) (answer : Except Failure Result) :
          ¬ (first.run turns).Concludes last place carried answer := by
        intro concludes
        have owns : Owns first turns place carried :=
          owns_of_inFlight none_yet ⟨_, concludes.2, rfl⟩
        obtain ⟨code, language, context, made⟩ := owns_iff_exists_made.1 owns
        exact before _ _ _ _ made
      obtain ⟨next, next_found, conserved⟩ :=
        toldBy_append_untold (announces_run loud turns) found no_answer
      rw [rest strand found, List.append_eq_nil_iff] at conserved
      refine ⟨conserved.1, fun strand' found' => ?_⟩
      rw [next_found] at found'
      cases found'
      exact conserved.2

/-- **The events with the generation of a submission are its own.** -/
theorem newsOf_eq_told (none_yet : first.strands = []) (unheard : first.stage.milestones = [])
    (loud : first.stage.surroundings.announces = true)
    (h : Made first turns place generation code language context) :
    (first.run turns).stage.newsOf generation =
      (first.told turns place).filterMap Notice.event? := by
  -- What others have told is of other generations, since a generation is taken but once.
  have others (other : Nat) (notice : Notice) (member : notice ∈ first.told turns other)
      (elsewhere : other ≠ place) : notice.newsOf? generation = none := by
    by_contra news
    obtain ⟨generation', code', language', context', made⟩ : ∃ generation code language context,
        Made first turns other generation code language context := by
      by_contra unmade
      push Not at unmade
      rw [(silent_of_not_made none_yet loud unmade).1] at member
      cases member
    have own := (story_of_made loud made).newsOf?_told member
    have same : generation' = generation := Notice.generation_eq news own
    subst same
    exact elsewhere (made.unique h).1
  rw [Stage.newsOf_eq, milestones_run loud, unheard, List.nil_append, List.filterMap_map, told,
    List.filterMap_map, List.filterMap_filter]
  refine List.filterMap_congr fun entry member => ?_
  by_cases here : entry.1 = place
  · simp only [here, beq_self_eq_true, if_true]
    exact (story_of_made loud h).newsOf?_told (mem_told.2 (here ▸ member))
  · simp only [beq_iff_eq, here, if_false]
    exact others entry.1 entry.2 (mem_told.2 member) here

/-! ## Submissions that are turned down -/

/-- What is wrong with a submission is a matter of validation. -/
theorem isValidation_of_objection? {failure : Failure}
    (h : Stage.objection? code language = some failure) : failure.isValidation = true := by
  unfold Stage.objection? at h
  split at h
  · cases h
    rfl
  · split at h
    · cases h
      rfl
    · cases h

/-- A strand that is over stays so. -/
theorem over_run {value : Except Failure Result}
    (found : w.strands[place]? = some (.busy [] (.back value))) (turns : List Turn) :
    (w.run turns).strands[place]? = some (.busy [] (.back value)) := by
  refine run_of_turn (P := fun w => w.strands[place]? = some (.busy [] (.back value)))
    (fun w t found => ?_) found turns
  obtain ⟨next, next_found, same | goes⟩ := strand_persists found t
  · rw [← same]
    exact next_found
  · cases goes

/-! ## Generations -/

/-- A turn **takes** a generation: it makes a submission or resets the session. -/
def Takes (w : Weave) (t : Turn) : Prop := Submits t ∨ w.Resets t

/-- **No generation is taken twice**: whoever takes one later takes a greater one. -/
theorem generation_lt_of_takes {between : List Turn} {u : Turn}
    (takes : (((w.turn t).run between).Takes u)) :
    (w.turn t).session.generation < (((w.turn t).run between).turn u).session.generation := by
  have grows : (w.turn t).session.generation ≤ ((w.turn t).run between).session.generation :=
    run_of_turn (P := fun w' => (w.turn t).session.generation ≤ w'.session.generation)
      (fun w' t' kept => Nat.le_trans kept (generation_le_turn w' t')) (Nat.le_refl _) between
  rcases generation_turn ((w.turn t).run between) u with ⟨-, next⟩ | ⟨no_take, -⟩
  · omega
  · exact absurd takes no_take

/-! ## The fate of every submission -/

/-- **Each submission has one fate**, in every interleaving of operations on a session that
announces its events.

* The milestones in the log are those of the record. What a submission has told is first that it was
  made, then its one request to the service, and then its fate: nothing of it twice, and nothing
  else. All of it is told when the submission is over, and it can come to that from everywhere. Its
  fate is the one it met when it took its answer, which it does once; so it is discarded exactly
  when its generation was no longer the current one then. No one else announces such events with its
  generation.
* A submission that is turned down fails validation. It leaves the stage as it is, and never does
  anything else.
* No two submissions or resets take the same generation. -/
theorem each_submission_has_one_fate (policy : ClearPolicy) (highlights narrates : Bool)
    (listeners : List (Text × Act)) (turns : List Turn) :
    let first := fresh policy ⟨true, highlights, narrates⟩ listeners
    let w := first.run turns
    w.stage.milestones = (first.record turns).map Prod.snd ∧
      (∀ place generation code language context,
        Made first turns place generation code language context →
          (w.InFlight place generation ∧
              first.told turns place <+: opening generation code language ∨
            ∃ tasks value fate, w.strands[place]? = some (.busy tasks (.back value)) ∧
              (∀ other, Fated first turns place other ↔ other = fate) ∧
              fate.generation = generation ∧
              (first.told turns place = opening generation code language ∨
                first.told turns place = opening generation code language ++ [.announced fate]) ∧
              (tasks = [] →
                first.told turns place = opening generation code language ++ [.announced fate])) ∧
          w.stage.newsOf generation = (first.told turns place).filterMap Notice.event? ∧
          ∃ later value, (w.run later).strands[place]? = some (.busy [] (.back value))) ∧
      (∀ code language context failure, Stage.objection? code language = some failure →
        failure.isValidation = true ∧
          (w.turn (.submit code language context)).stage = w.stage ∧
          ∀ later, let w' := (w.turn (.submit code language context)).run later
            w'.strands[w.strands.length]? = some (.busy [] (.back (.error failure))) ∧
              w'.turn (.work w.strands.length) = w') ∧
      ∀ before t between u after, turns = before ++ t :: (between ++ u :: after) →
        (first.run before).Takes t → (first.run (before ++ t :: between)).Takes u →
          (first.run (before ++ [t])).session.generation ≠
            (first.run (before ++ t :: (between ++ [u]))).session.generation := by
  intro first w
  have loud : first.stage.surroundings.announces = true := rfl
  refine ⟨milestones_run loud turns, ?_, ?_, ?_⟩
  -- What is said of a submission is read off its story: it is in flight, or it has met its fate.
  · intro place generation code language context made
    have story := story_of_made loud made
    have poised : Poised w := (poised_of_idle (w := first) rfl).run turns
    refine ⟨?_, newsOf_eq_told rfl rfl loud made, ?_⟩
    · cases story with
      | flies found carries told open_ => exact Or.inl ⟨⟨_, found, carries⟩, _, told⟩
      | @back tasks value fate found told opened fated own =>
        refine Or.inr ⟨tasks, value, fate, found, fated, ?_, ?_, ?_⟩
        · simp only [Notice.newsOf?, ite_eq_left_iff, reduceCtorEq, imp_false, Decidable.not_not,
            Bool.and_eq_true, beq_iff_eq] at own
          exact own.2
        · obtain ⟨more, all⟩ := opened
          rw [← all, List.append_assoc, List.append_cancel_left_eq,
            List.append_eq_singleton_iff] at told
          rcases told with ⟨rfl, -⟩ | ⟨rfl, -⟩
          · exact Or.inl (by rw [← all, List.append_nil])
          · exact Or.inr all.symm
        · rintro rfl
          rw [milestones_nil, List.append_nil] at told
          exact told
    · cases story with
      | flies found carries told open_ => exact exists_back poised found carries
      | back found told opened fated own =>
        obtain ⟨later, done⟩ := exists_done poised found
        exact ⟨later, _, done⟩
  · intro code language context failure objection
    have begun : w.turn (.submit code language context) =
        w.begin w.stage (.busy [] (.back (.error failure))) := by
      simp only [turn, objection]
    rw [begun]
    refine ⟨isValidation_of_objection? objection, rfl, fun later => ?_⟩
    have stays := over_run (strand_begin w w.stage (.busy [] (.back (.error failure)))) later
    refine ⟨stays, ?_⟩
    simp only [turn, stays]
  -- The first of the two turns raised the generation to its own, the second raises it further.
  · rintro before t between u after rfl - takes
    rw [run_append, run_cons] at takes
    rw [run_append, run_append, run_cons, run_cons, run_concat, run_nil]
    exact Nat.ne_of_lt (generation_lt_of_takes takes)

end Weave

end FlowTrace
