import FlowTrace.Proofs.Session.Ownership

/-! # Turns that change the slots

The **slots** of a session are its generation, its status, its failure, its result and the calls on
their way. Three kinds of turns change them (`Weave.effect_turn`): a submission is made, the session
is reset, or a submission takes its answer. All other turns are playback, or work outside the lock
of the session, and keep every slot.

A reset is an act of its own, or the act of a listener in the middle of another operation
(`Weave.Resets`). The submissions in flight change with the same turns: one is added when a
submission is made, and one goes when it takes its answer (`Weave.inFlight_turn_iff`). What a
submission was made with can be told from its place or from its generation (`Weave.Made`). -/

namespace FlowTrace

/-- A session has the slots that it has. -/
theorem Session.SameSlots.refl (s : Session) : SameSlots s s :=
  ⟨rfl, rfl, rfl, rfl, rfl, rfl, rfl⟩

/-- An act other than a reset keeps the slots. -/
theorem Stage.sameSlots_act (stage : Stage) {a : Act} (other : a ≠ .reset) :
    Session.SameSlots stage.session (stage.act a).1.session := by
  have manual (delta : Int) : Session.SameSlots stage.session (stage.session.move delta).1 := by
    rcases Session.move_cases stage.session delta with moved | ⟨-, -, moved⟩
    all_goals
      rw [moved]
      exact ⟨rfl, rfl, rfl, rfl, rfl, rfl, rfl⟩
  cases a with
  | play =>
    simp only [act]
    split
    · exact .refl _
    · rename_i played
      rcases (Session.play_eq_ok played).2 with ⟨-, rfl⟩ | ⟨-, rfl⟩
      all_goals exact ⟨rfl, rfl, rfl, rfl, rfl, rfl, rfl⟩
  | pause => exact ⟨rfl, rfl, rfl, rfl, rfl, rfl, rfl⟩
  | forward => exact manual 1
  | back => exact manual (-1)
  | reset => exact absurd rfl other

namespace Weave

variable {first w : Weave} {turns : List Turn} {t : Turn} {place other generation : Nat}
  {answer : Except Failure Result}

/-! ## Resets -/

/-- A turn **resets** the session, by an act of its own or by the act of a listener. -/
def Resets (w : Weave) (t : Turn) : Prop :=
  t = .act .reset ∨ ∃ place kind rest sequel listeners, t = .work place ∧
    w.strands[place]? = some (.busy (.listen kind :: rest) sequel) ∧
    Stage.takeListener w.stage.listeners kind = some (.reset, listeners)

/-- The session after a reset. -/
theorem session_of_resets (h : w.Resets t) : (w.turn t).session = w.session.reset := by
  rcases h with rfl | ⟨place, kind, rest, sequel, listeners, rfl, found, taken⟩
  · rfl
  · simp only [turn, found, doTask, Stage.doTask, taken]
    rfl

/-- A reset makes no submission. -/
theorem Resets.not_submits (h : w.Resets t) : ¬ Submits t := by
  rintro ⟨code, language, context, rfl, -⟩
  rcases h with same | ⟨place, kind, rest, sequel, listeners, same, -⟩
  all_goals cases same

/-- A reset takes no answer. -/
theorem Resets.not_concludes (h : w.Resets t) : ¬ w.Concludes t place generation answer := by
  rintro ⟨rfl, -⟩
  rcases h with same | ⟨place, kind, rest, sequel, listeners, same, -⟩
  all_goals cases same

/-- The session after a submission was made. -/
theorem session_submit {code language : Text} (accepted : Stage.objection? code language = none)
    (context : Context) :
    (w.turn (.submit code language context)).session = w.session.start context := by
  simp only [turn, accepted]
  rfl

/-- A submission that takes its answer is no new one. -/
theorem Concludes.not_submits (h : w.Concludes t place generation answer) : ¬ Submits t := by
  obtain ⟨rfl, -⟩ := h
  rintro ⟨code, language, context, same, -⟩
  cases same

/-! ## The effect of a turn -/

/-- The **effect** of a turn on the slots. -/
inductive Effect (w : Weave) (t : Turn) : Prop
  /-- A submission is made. -/
  | submits {code language : Text} {context : Context} (made : t = .submit code language context)
      (accepted : Stage.objection? code language = none)
      (session : (w.turn t).session = w.session.start context)
  /-- The session is reset. -/
  | resets (reset : w.Resets t) (session : (w.turn t).session = w.session.reset)
  /-- A submission takes its answer. -/
  | concludes {place generation : Nat} {answer : Except Failure Result}
      (concludes : w.Concludes t place generation answer)
      (session : (w.turn t).session = (w.session.apply generation answer).1)
  /-- Nothing of the kind happens. -/
  | keeps (no_answer : ∀ place generation answer, ¬ w.Concludes t place generation answer)
      (same : Session.SameSlots w.session (w.turn t).session)

/-- A task resets the session, through a listener, or keeps the slots. -/
theorem resets_or_sameSlots_doTask {task : Task} {rest : List Task} {sequel : Sequel}
    (found : w.strands[place]? = some (.busy (task :: rest) sequel)) :
    w.Resets (.work place) ∨
      Session.SameSlots w.session (w.doTask place rest sequel task).session := by
  cases task with
  | clearHighlight =>
    right
    simp only [doTask]
    split
    · show Session.SameSlots w.session w.stage.clearHighlight.session
      rw [Stage.session_clearHighlight]
      exact .refl _
    · exact .refl _
  | announce event =>
    right
    simp only [doTask, Stage.doTask]
    split <;> exact .refl _
  | report move =>
    right
    simp only [doTask]
    split
    · split <;> exact .refl _
    · split
      · show Session.SameSlots w.session (w.stage.present move).session
        rw [Stage.session_present]
        exact .refl _
      · exact .refl _
  | listen kind =>
    -- Only a listener can reset the session, as it may do any act.
    cases taken : Stage.takeListener w.stage.listeners kind with
    | none =>
      right
      simp only [doTask, Stage.doTask, taken]
      exact .refl _
    | some listener =>
      obtain ⟨a, listeners⟩ := listener
      by_cases reset : a = .reset
      · subst reset
        exact Or.inl (Or.inr ⟨place, kind, rest, sequel, listeners, rfl, found, taken⟩)
      · right
        simp only [doTask, Stage.doTask, taken]
        exact Stage.sameSlots_act { w.stage with listeners := listeners } reset

/-- **Every turn has one of the four effects.** -/
theorem effect_turn (w : Weave) (t : Turn) : Effect w t := by
  -- Apart from the taking of an answer, only submissions and resets touch the slots.
  by_cases concludes : ∃ place generation answer, w.Concludes t place generation answer
  · obtain ⟨place, generation, answer, concludes⟩ := concludes
    exact .concludes concludes (session_conclude concludes)
  · have no_answer : ∀ place generation answer, ¬ w.Concludes t place generation answer :=
      fun place generation answer h => concludes ⟨place, generation, answer, h⟩
    cases t with
    | submit code language context =>
      cases objection : Stage.objection? code language with
      | none => exact .submits rfl objection (session_submit objection context)
      | some failure =>
        refine .keeps no_answer ?_
        simp only [turn, objection]
        exact .refl _
    | act a =>
      by_cases reset : a = .reset
      · subst reset
        exact .resets (Or.inl rfl) rfl
      · exact .keeps no_answer (Stage.sameSlots_act w.stage reset)
    | tick epoch =>
      refine .keeps no_answer ?_
      simp only [turn]
      split
      · show Session.SameSlots w.session (w.session.advance epoch).1
        rcases Session.advance_cases w.session epoch with
          ⟨-, ticked⟩ | ⟨-, -, -, ticked⟩ | ⟨-, -, -, ticked⟩
        all_goals
          rw [ticked]
          exact ⟨rfl, rfl, rfl, rfl, rfl, rfl, rfl⟩
      · exact .refl _
    | work place =>
      by_cases reset : w.Resets (.work place)
      · exact .resets reset (session_of_resets reset)
      · refine .keeps no_answer ?_
        simp only [turn]
        split
        · rename_i found
          exact (resets_or_sameSlots_doTask found).resolve_left reset
        · exact .refl _
        · exact .refl _
    | reply place context reply =>
      refine .keeps no_answer ?_
      simp only [turn]
      split <;> exact .refl _
    | conclude place =>
      refine .keeps no_answer ?_
      simp only [turn]
      split
      · rename_i generation answer found
        exact absurd ⟨rfl, found⟩ (no_answer place generation answer)
      · exact .refl _

/-- A turn that keeps the generation neither makes a submission nor resets the session. -/
theorem not_takes_of_same (same : (w.turn t).session.generation = w.session.generation) :
    ¬ Submits t ∧ ¬ w.Resets t := by
  constructor
  · intro submits
    have next := generation_of_submits w submits
    omega
  · intro resets
    have next := congrArg Session.generation (session_of_resets resets)
    rw [Session.generation_reset] at next
    omega

/-- **The generation after a turn**: submissions and resets take the next one, and nothing else
does. -/
theorem generation_turn (w : Weave) (t : Turn) :
    ((Submits t ∨ w.Resets t) ∧
        (w.turn t).session.generation = w.session.generation + 1) ∨
      (¬ (Submits t ∨ w.Resets t) ∧
        (w.turn t).session.generation = w.session.generation) := by
  have kept (same : (w.turn t).session.generation = w.session.generation) :
      ¬ (Submits t ∨ w.Resets t) :=
    not_or.2 (not_takes_of_same same)
  cases w.effect_turn t with
  | submits made accepted session =>
    refine Or.inl ⟨Or.inl ⟨_, _, _, made, accepted⟩, ?_⟩
    rw [session, Session.generation_start]
  | resets reset session =>
    refine Or.inl ⟨Or.inr reset, ?_⟩
    rw [session, Session.generation_reset]
  | concludes concludes session =>
    have same : (w.turn t).session.generation = w.session.generation := by
      rw [session, Session.generation_apply]
    exact Or.inr ⟨kept same, same⟩
  | keeps no_answer same => exact Or.inr ⟨kept same.generation, same.generation⟩

/-! ## Submissions in flight -/

/-- The strand of a submission that was just made. -/
theorem inFlight_submit {code language : Text} (accepted : Stage.objection? code language = none)
    (context : Context) :
    (w.turn (.submit code language context)).InFlight w.strands.length
      (w.session.generation + 1) := by
  refine ⟨.busy (w.stage.commence code language context).2.1
    (.ask (w.session.generation + 1) ⟨code, language, true⟩), ?_, rfl⟩
  simp only [turn, accepted, begin]
  exact List.getElem?_concat_length

/-- A submission in flight stays so until it takes its answer. -/
theorem InFlight.turn (h : w.InFlight place generation)
    (no_answer : ∀ answer, ¬ w.Concludes t place generation answer) :
    (w.turn t).InFlight place generation := by
  obtain ⟨strand, found, carries⟩ := h
  obtain ⟨next, next_found, same | goes⟩ := strand_persists found t
  · exact ⟨next, next_found, same ▸ carries⟩
  · refine ⟨next, next_found, ?_⟩
    cases goes with
    | @worked task rest tasks sequel h =>
      cases sequel with
      | nothing => cases carries
      | ask generation request => exact carries
      | back value => cases carries
    | asked h => exact carries
    | replied h => exact carries
    | @concluded carried answer h =>
      cases carries
      exact absurd ⟨h, found⟩ (no_answer answer)

/-- **The submissions in flight after a turn**: those before that do not take their answer, and the
one that the turn makes. -/
theorem inFlight_turn_iff :
    (w.turn t).InFlight place generation ↔
      (w.InFlight place generation ∧ ∀ answer, ¬ w.Concludes t place generation answer) ∨
        (Submits t ∧ w.strands.length = place ∧ w.session.generation + 1 = generation) := by
  constructor
  · intro h
    rcases inFlight_turn h with before | made
    · exact Or.inl ⟨before, fun answer concludes => not_inFlight_of_concludes concludes _ h⟩
    · exact Or.inr made
  · rintro (⟨before, no_answer⟩ | ⟨⟨code, language, context, rfl, accepted⟩, rfl, rfl⟩)
    · exact before.turn no_answer
    · exact inFlight_submit accepted context

/-- A generation is carried by one submission at most. -/
theorem InFlight.unique (none_yet : first.strands = [])
    (h : (first.run turns).InFlight place generation)
    (h' : (first.run turns).InFlight other generation) : place = other :=
  (owns_of_inFlight none_yet h).unique (owns_of_inFlight none_yet h')

/-- No submission in flight is ahead of the session. -/
theorem InFlight.le (none_yet : first.strands = [])
    (h : (first.run turns).InFlight place generation) :
    generation ≤ (first.run turns).session.generation :=
  (owns_of_inFlight none_yet h).le

/-! ## What submissions were made with -/

/-- The submission at a place was **made** with a generation, for some code, language and
context. -/
def Made (first : Weave) (turns : List Turn) (place generation : Nat) (code language : Text)
    (context : Context) : Prop :=
  ∃ w, Took first turns w (.submit code language context) ∧
    Stage.objection? code language = none ∧ w.strands.length = place ∧
    w.session.generation + 1 = generation

variable {last : Turn} {code language : Text} {context : Context}

/-- The submissions made in a longer run: those before, and the one made last. -/
theorem made_concat :
    Made first (turns ++ [last]) place generation code language context ↔
      Made first turns place generation code language context ∨
        (last = .submit code language context ∧ Stage.objection? code language = none ∧
          (first.run turns).strands.length = place ∧
          (first.run turns).session.generation + 1 = generation) := by
  constructor
  · rintro ⟨w, took, rest⟩
    rcases took_concat.1 took with earlier | ⟨rfl, rfl⟩
    · exact Or.inl ⟨w, earlier, rest⟩
    · exact Or.inr ⟨rfl, rest⟩
  · rintro (⟨w, took, rest⟩ | ⟨rfl, rest⟩)
    · exact ⟨w, took_concat.2 (Or.inl took), rest⟩
    · exact ⟨first.run turns, took_concat.2 (Or.inr ⟨rfl, rfl⟩), rest⟩

/-- Without a new submission, those made stay the same. -/
theorem made_concat_of_not_submits (other : ¬ Submits last) :
    Made first (turns ++ [last]) place generation code language context ↔
      Made first turns place generation code language context := by
  rw [made_concat, or_iff_left]
  rintro ⟨submit, accepted, -⟩
  exact other ⟨code, language, context, submit, accepted⟩

/-- The owner of a generation is the submission made with it. -/
theorem owns_iff_exists_made :
    Owns first turns place generation ↔
      ∃ code language context, Made first turns place generation code language context := by
  constructor
  · rintro ⟨w, t, took, ⟨code, language, context, rfl, accepted⟩, rest⟩
    exact ⟨code, language, context, w, took, accepted, rest⟩
  · rintro ⟨code, language, context, w, took, accepted, rest⟩
    exact ⟨w, _, took, ⟨code, language, context, rfl, accepted⟩, rest⟩

/-- A submission that was made owns its generation. -/
theorem Made.owns (h : Made first turns place generation code language context) :
    Owns first turns place generation :=
  owns_iff_exists_made.2 ⟨code, language, context, h⟩

/-- **A generation tells what its submission was made with.** -/
theorem Made.unique (h : Made first turns place generation code language context)
    {code' language' : Text} {context' : Context}
    (h' : Made first turns other generation code' language' context') :
    place = other ∧ code = code' ∧ language = language' ∧ context = context' := by
  refine ⟨h.owns.unique h'.owns, ?_⟩
  induction turns using List.reverseRecOn with
  | nil =>
    obtain ⟨w, took, -⟩ := h
    exact absurd took (not_took_nil first w _)
  | append_singleton turns last ih =>
    -- The submission made last has a generation that was not yet there.
    rcases made_concat.1 h with earlier | ⟨rfl, -, -, next⟩
    · rcases made_concat.1 h' with earlier' | ⟨-, -, -, next'⟩
      · exact ih earlier earlier'
      · have bound := earlier.owns.le
        omega
    · rcases made_concat.1 h' with earlier' | ⟨same, -⟩
      · have bound := earlier'.owns.le
        omega
      · cases same
        exact ⟨rfl, rfl, rfl⟩

end Weave

end FlowTrace
