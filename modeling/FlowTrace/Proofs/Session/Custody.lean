import FlowTrace.Proofs.Session.Status

/-! # Calls that were given up

A session has at most one call that it would give up, the one it holds. It gives that call up when a
newer submission is made or when it is reset, and forgets it when the call is answered. Across all
interleavings this comes to (`Weave.just_superseded_calls_given_up`):

* each submission in flight has one call, and no other call is on its way;
* the context of the call is the one that the submission was made in, except that it was given up
  when the submission was superseded;
* the session holds the call of the submission in flight with the current generation, and holds
  none when there is no such submission.

So the call is handed over without a gap: a session that lets go of a call without giving it up has
its answer. -/

namespace FlowTrace

/-- The context after it is **given up**. A context that has ended stays as it is. -/
def Context.givenUp : Context → Context
  | live => canceled
  | canceled => canceled
  | expired => expired

/-- A context that was given up has ended. -/
theorem Context.givenUp_ne_live (context : Context) : context.givenUp ≠ .live := by
  cases context <;> nofun

namespace Session

/-- Giving up touches the call that the session holds, and no other. -/
theorem calls_giveUp (s : Session) :
    s.giveUp.calls = s.calls.map fun call =>
      if some call.generation = s.holding then { call with context := call.context.givenUp }
      else call := by
  refine List.map_congr_left fun call _ => ?_
  obtain ⟨generation, context⟩ := call
  by_cases held : some generation = s.holding
  · cases context <;> simp [held, Context.givenUp]
  · simp [held]

/-- A start gives all calls up and makes its own. -/
theorem calls_start (s : Session) (context : Context) :
    (s.start context).calls = ⟨s.generation + 1, context⟩ :: s.giveUp.calls := rfl

/-- A reset gives all calls up. -/
theorem calls_reset (s : Session) : s.reset.calls = s.giveUp.calls := rfl

/-- An answer takes the call of its generation away. -/
theorem calls_apply (s : Session) (generation : Nat) (answer : Except Failure Result) :
    (s.apply generation answer).1.calls = s.calls.filter (·.generation != generation) := by
  by_cases current : generation = s.generation
  · subst current
    cases answer with
    | error failure => rw [apply_error]
    | ok result =>
      rw [apply_ok]
      rfl
  · rw [apply_of_ne current]

/-- What the session **leaves** of the context that a submission was made in: all of it while the
generation is the current one. -/
def leaves (s : Session) (generation : Nat) (context : Context) : Context :=
  if generation = s.generation then context else context.givenUp

/-- The call of the current generation is left alone. -/
theorem leaves_current {s : Session} {generation : Nat} (h : generation = s.generation)
    (context : Context) : s.leaves generation context = context := if_pos h

/-- The calls of other generations are given up. -/
theorem leaves_outdated {s : Session} {generation : Nat} (h : generation ≠ s.generation)
    (context : Context) : s.leaves generation context = context.givenUp := if_neg h

end Session

namespace Weave

variable {first : Weave} {turns : List Turn} {t : Turn} {call : Call}

/-- A call is **due** in a run: it is the one of a submission in flight, and its context is what is
left of the one that the submission was made in. -/
def Due (first : Weave) (turns : List Turn) (call : Call) : Prop :=
  ∃ place code language context, (first.run turns).InFlight place call.generation ∧
    Made first turns place call.generation code language context ∧
    call.context = (first.run turns).session.leaves call.generation context

/-- A due call whose generation is given up: the current one was held, all others were given up
before. -/
theorem mem_calls_giveUp (orderly : Orderly (first.run turns))
    (due : ∀ call, call ∈ (first.run turns).session.calls ↔ Due first turns call) :
    call ∈ (first.run turns).session.giveUp.calls ↔
      ∃ place code language context, (first.run turns).InFlight place call.generation ∧
        Made first turns place call.generation code language context ∧
        call.context = context.givenUp := by
  -- The session holds just the current generation, as long as a call of it is on its way.
  have held (place : Nat)
      (flies : (first.run turns).InFlight place (first.run turns).session.generation) :
      (first.run turns).session.holding = some (first.run turns).session.generation := by
    rw [orderly.status.holding, if_pos (orderly.waits.2 ⟨place, flies⟩)]
  have only {generation : Nat} (h : some generation = (first.run turns).session.holding) :
      generation = (first.run turns).session.generation := by
    rw [orderly.status.holding] at h
    split at h <;> cases h
    rfl
  rw [Session.calls_giveUp, List.mem_map]
  constructor
  -- The call that is given up is the current one; the others have been given up before.
  · rintro ⟨before, member, rfl⟩
    obtain ⟨place, code, language, context, flies, made, state⟩ := (due before).1 member
    by_cases current : before.generation = (first.run turns).session.generation
    · rw [Session.leaves_current current] at state
      rw [if_pos (by rw [current] at flies ⊢; exact (held place flies).symm)]
      exact ⟨place, code, language, context, flies, made, congrArg Context.givenUp state⟩
    · rw [Session.leaves_outdated current] at state
      rw [if_neg fun h => current (only h)]
      exact ⟨place, code, language, context, flies, made, state⟩
  · rintro ⟨place, code, language, context, flies, made, state⟩
    refine ⟨⟨call.generation, (first.run turns).session.leaves call.generation context⟩,
      (due _).2 ⟨place, code, language, context, flies, made, rfl⟩, ?_⟩
    obtain ⟨generation, given⟩ := call
    subst state
    by_cases current : generation = (first.run turns).session.generation
    · rw [Session.leaves_current current]
      exact if_pos (by subst current; exact (held place flies).symm)
    · rw [Session.leaves_outdated current]
      exact if_neg fun h => current (only h)

/-- A submission in flight is superseded as soon as the next generation is taken. -/
theorem InFlight.outdated (none_yet : first.strands = []) {place generation : Nat}
    (flies : (first.run turns).InFlight place generation) {s : Session}
    (next : s.generation = (first.run turns).session.generation + 1) :
    generation ≠ s.generation := by
  have bound := flies.le none_yet
  omega

/-- The calls after a turn that makes no submission: those of the submissions that were in flight
and take no answer. -/
theorem due_concat_of_not_submits (other : ¬ Submits t) :
    Due first (turns ++ [t]) call ↔
      ∃ place code language context,
        ((first.run turns).InFlight place call.generation ∧
          ∀ answer, ¬ (first.run turns).Concludes t place call.generation answer) ∧
        Made first turns place call.generation code language context ∧
        call.context = ((first.run turns).turn t).session.leaves call.generation context := by
  unfold Due
  rw [run_concat]
  refine exists_congr fun place => exists_congr fun code => exists_congr fun language =>
    exists_congr fun context => ?_
  rw [made_concat_of_not_submits other, inFlight_turn_iff, or_iff_left fun h => other h.1]

/-- The calls after a submission was made: the new one, and all others given up. -/
theorem due_concat_submit (none_yet : first.strands = []) {code language : Text}
    (accepted : Stage.objection? code language = none) (context : Context) :
    Due first (turns ++ [.submit code language context]) call ↔
      call = ⟨(first.run turns).session.generation + 1, context⟩ ∨
        ∃ place code language context, (first.run turns).InFlight place call.generation ∧
          Made first turns place call.generation code language context ∧
          call.context = context.givenUp := by
  unfold Due
  rw [run_concat]
  have next := generation_of_submits (first.run turns) ⟨code, language, context, rfl, accepted⟩
  constructor
  · rintro ⟨place, code', language', context', flies, made, state⟩
    rcases made_concat.1 made with earlier | ⟨same, -, -, new⟩
    · -- It was made before, so that its generation is not the new one.
      rcases inFlight_turn_iff.1 flies with ⟨before, -⟩ | ⟨-, -, new⟩
      · rw [Session.leaves_outdated (before.outdated none_yet next)] at state
        exact Or.inr ⟨place, code', language', context', before, earlier, state⟩
      · have bound := earlier.owns.le
        omega
    · cases same
      left
      rw [Session.leaves_current (new.symm.trans next.symm)] at state
      rw [← state, new]
  · rintro (rfl | ⟨place, code', language', context', flies, made, state⟩)
    · exact ⟨_, code, language, context, inFlight_submit accepted context,
        made_concat.2 (Or.inr ⟨rfl, accepted, rfl, rfl⟩),
        (Session.leaves_current next.symm context).symm⟩
    · refine ⟨place, code', language', context', flies.turn ?_, made_concat.2 (Or.inl made), ?_⟩
      · rintro answer ⟨same, -⟩
        cases same
      · rw [state, Session.leaves_outdated (flies.outdated none_yet next)]

/-- **Every turn keeps the calls that are due.** -/
theorem due_turn (none_yet : first.strands = []) (orderly : Orderly (first.run turns))
    (due : ∀ call, call ∈ (first.run turns).session.calls ↔ Due first turns call) (t : Turn)
    (call : Call) :
    call ∈ ((first.run turns).turn t).session.calls ↔ Due first (turns ++ [t]) call := by
  cases (first.run turns).effect_turn t with
  | @submits code language context made accepted session =>
    subst made
    rw [due_concat_submit none_yet accepted, session, Session.calls_start, List.mem_cons,
      mem_calls_giveUp orderly due]
  | resets reset session =>
    rw [due_concat_of_not_submits reset.not_submits, session, Session.calls_reset,
      mem_calls_giveUp orderly due]
    refine exists_congr fun place => exists_congr fun code => exists_congr fun language =>
      exists_congr fun context => ?_
    rw [and_iff_left fun answer => reset.not_concludes]
    refine and_congr_right fun flies => ?_
    rw [Session.leaves_outdated (flies.outdated none_yet rfl)]
  | @concludes place generation answer concludes session =>
    rw [due_concat_of_not_submits concludes.not_submits, session, Session.calls_apply,
      List.mem_filter, due call, Due]
    have leaves : ((first.run turns).session.apply generation answer).1.leaves =
        (first.run turns).session.leaves := by
      unfold Session.leaves
      rw [Session.generation_apply]
    rw [leaves]
    -- The generation is carried by the submission that takes its answer, and by no other.
    have others {other : Nat} (flies : (first.run turns).InFlight other call.generation) :
        (call.generation != generation) = true ↔
          ∀ answer, ¬ (first.run turns).Concludes t other call.generation answer := by
      rw [bne_iff_ne]
      constructor
      · intro ne answer' concludes'
        exact ne (concludes.unique concludes').2.1.symm
      · rintro no_answer rfl
        have same : other = place := flies.unique none_yet ⟨_, concludes.2, rfl⟩
        subst same
        exact no_answer answer concludes
    constructor
    · rintro ⟨⟨other, code, language, context, flies, rest⟩, ne⟩
      exact ⟨other, code, language, context, ⟨flies, (others flies).1 ne⟩, rest⟩
    · rintro ⟨other, code, language, context, ⟨flies, no_answer⟩, rest⟩
      exact ⟨⟨other, code, language, context, flies, rest⟩, (others flies).2 no_answer⟩
  | keeps no_answer same =>
    rw [due_concat_of_not_submits (not_takes_of_same same.generation).1, same.calls, due call, Due]
    refine exists_congr fun place => exists_congr fun code => exists_congr fun language =>
      exists_congr fun context => ?_
    rw [and_iff_left fun answer => no_answer _ _ answer]
    unfold Session.leaves
    rw [same.generation]

/-- **The calls on their way are the ones that are due**, at the end of every run. -/
theorem mem_calls_iff_due (policy : ClearPolicy) (surroundings : Surroundings)
    (listeners : List (Text × Act)) (turns : List Turn) (call : Call) :
    call ∈ ((fresh policy surroundings listeners).run turns).session.calls ↔
      Due (fresh policy surroundings listeners) turns call := by
  induction turns using List.reverseRecOn generalizing call with
  | nil =>
    refine iff_of_false nofun ?_
    rintro ⟨place, code, language, context, ⟨strand, found, -⟩, -⟩
    cases found
  | append_singleton turns last ih =>
    rw [run_concat]
    exact due_turn rfl (orderly_run policy surroundings listeners turns) ih last call

/-- **Just the superseded calls are given up**, in every interleaving of submissions and resets.
Each submission in flight has one call on its way; its context was given up when its generation is
no longer the current one, and is the one it was made in when it still is. The session holds a call
exactly while a submission with the current generation is in flight, and it is the call of that
submission. -/
theorem just_superseded_calls_given_up (policy : ClearPolicy) (surroundings : Surroundings)
    (listeners : List (Text × Act)) (turns : List Turn) :
    let first := fresh policy surroundings listeners
    let w := first.run turns
    let s := w.session
    (∀ place generation, w.InFlight place generation →
      ∃ code language context, Made first turns place generation code language context ∧
        (generation ≠ s.generation → context.givenUp ≠ .live ∧
          ∀ call, call ∈ s.calls ∧ call.generation = generation ↔
            call = ⟨generation, context.givenUp⟩) ∧
        (generation = s.generation →
          ∀ call, call ∈ s.calls ∧ call.generation = generation ↔
            call = ⟨generation, context⟩)) ∧
      (∀ call ∈ s.calls, ∃ place, w.InFlight place call.generation) ∧
      ∀ generation, s.holding = some generation ↔
        generation = s.generation ∧ ∃ place, w.InFlight place generation := by
  intro first w s
  have orderly : Orderly w := orderly_run policy surroundings listeners turns
  have due (call : Call) : call ∈ s.calls ↔ Due first turns call :=
    mem_calls_iff_due policy surroundings listeners turns call
  refine ⟨?_, ?_, ?_⟩
  · intro place generation flies
    obtain ⟨code, language, context, made⟩ := owns_iff_exists_made.1 (owns_of_inFlight rfl flies)
    have calls (call : Call) : call ∈ s.calls ∧ call.generation = generation ↔
        call = ⟨generation, s.leaves generation context⟩ := by
      rw [due call]
      constructor
      · rintro ⟨⟨other, code', language', context', -, made', state⟩, rfl⟩
        obtain ⟨-, -, -, rfl⟩ := made.unique made'
        rw [← state]
      · rintro rfl
        exact ⟨⟨place, code, language, context, flies, made, rfl⟩, rfl⟩
    refine ⟨code, language, context, made, fun outdated => ⟨context.givenUp_ne_live, ?_⟩,
      fun current => ?_⟩
    · rw [Session.leaves_outdated outdated] at calls
      exact calls
    · rw [Session.leaves_current current] at calls
      exact calls
  · intro call member
    obtain ⟨place, code, language, context, flies, -⟩ := (due call).1 member
    exact ⟨place, flies⟩
  · intro generation
    rw [show s.holding = _ from orderly.status.holding]
    constructor
    · intro held
      split at held
      · rename_i loading
        cases held
        exact ⟨rfl, orderly.waits.1 loading⟩
      · cases held
    · rintro ⟨rfl, flies⟩
      exact if_pos (orderly.waits.2 flies)

end Weave

end FlowTrace
