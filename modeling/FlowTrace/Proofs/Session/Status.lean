import FlowTrace.Proofs.Session.CursorRange
import FlowTrace.Proofs.Session.Slots

/-! # What the status tells

The status of a session, in one word, tells which of its slots are filled: an idle session is empty,
a loading one waits for just one submission and has no failure, a ready one has a result, and a
failed one has a failure (`Weave.status_tells_slots`). What happens to the result depends on the
policy:

* a policy that drops the result with each request leaves one exactly while the session is ready;
* a policy that preserves it leaves the result that was committed last since the last reset
  (`Weave.CommittedLast`), whatever failed or was superseded in between.

Status, failure and result are set together, in one transition each; what has to be carried through
a run is that a session is loading exactly while the submission that owns its generation is in
flight (`Weave.Orderly`). -/

namespace FlowTrace

namespace Session

variable {s s' : Session}

/-- The **status is true** to the slots. -/
structure TrueStatus (s : Session) : Prop where
  /-- An idle session is empty. -/
  idle : s.status = .idle → s.result = none ∧ s.failure = none
  /-- A loading session has no failure. -/
  loading : s.status = .loading → s.failure = none
  /-- A ready session has a result and no failure. -/
  ready : s.status = .ready → s.result.isSome = true ∧ s.failure = none
  /-- A failed session has a failure. -/
  failed : s.status = .failed → s.failure.isSome = true
  /-- Under the policy that drops results, only a ready session has one. -/
  dropped : s.policy = .clearBeforeCall → s.status ≠ .ready → s.result = none
  /-- A loading session holds its call, and no other session holds one. -/
  holding : s.holding = if s.status = .loading then some s.generation else none

/-- Sessions with the same slots have the same status for the same reasons. -/
theorem TrueStatus.congr (h : TrueStatus s) (same : SameSlots s s') : TrueStatus s' := by
  obtain ⟨policy, generation, status, failure, result, holding, -⟩ := same
  constructor
  · rw [status, result, failure]
    exact h.idle
  · rw [status, failure]
    exact h.loading
  · rw [status, result, failure]
    exact h.ready
  · rw [status, failure]
    exact h.failed
  · rw [policy, status, result]
    exact h.dropped
  · rw [holding, status, generation]
    exact h.holding

/-- A start clears the result if the policy says so. -/
theorem result_start (s : Session) (context : Context) :
    (s.start context).result = if s.policy == .clearBeforeCall then none else s.result := rfl

/-- The status is true at a start. -/
theorem trueStatus_start (s : Session) (context : Context) : TrueStatus (s.start context) where
  idle := nofun
  loading _ := rfl
  ready := nofun
  failed := nofun
  dropped policy _ := by
    rw [result_start, show s.policy = .clearBeforeCall from policy]
    rfl
  holding := rfl

/-- The status is true after a reset. -/
theorem trueStatus_reset (s : Session) : TrueStatus s.reset where
  idle _ := ⟨rfl, rfl⟩
  loading := nofun
  ready := nofun
  failed := nofun
  dropped _ _ := rfl
  holding := rfl

/-- The answer to the call that a loading session waits for. -/
theorem TrueStatus.apply (h : TrueStatus s) (loading : s.status = .loading)
    (answer : Except Failure Result) : TrueStatus (s.apply s.generation answer).1 := by
  cases answer with
  | error failure =>
    rw [apply_error]
    refine ⟨nofun, nofun, nofun, fun _ => rfl, fun policy _ => ?_, rfl⟩
    exact h.dropped policy (by rw [loading]; nofun)
  | ok result =>
    rw [apply_ok]
    exact ⟨nofun, nofun, fun _ => ⟨rfl, rfl⟩, nofun, fun _ other => absurd rfl other, rfl⟩

/-- The status after the answer to the current call is no longer that of a loading session. -/
theorem status_apply_ne_loading (s : Session) (answer : Except Failure Result) :
    (s.apply s.generation answer).1.status ≠ .loading := by
  cases answer with
  | error failure =>
    rw [apply_error]
    nofun
  | ok result =>
    rw [apply_ok]
    nofun

end Session

namespace Weave

variable {first w : Weave} {turns : List Turn} {t last : Turn} {result : Result}

/-! ## Order -/

/-- A weave is **orderly**: the status of its session is true to the slots, and the session is
loading exactly while the submission that carries its generation is in flight. -/
structure Orderly (w : Weave) : Prop where
  /-- The status is true to the slots. -/
  status : w.session.TrueStatus
  /-- A loading session is waiting for a submission, and no other session is. -/
  waits : w.session.status = .loading ↔ ∃ place, w.InFlight place w.session.generation

/-- Submissions in flight with the current generation, while the generation stays. -/
theorem exists_inFlight_turn
    (same : (w.turn t).session.generation = w.session.generation)
    (no_answer : ∀ place answer, ¬ w.Concludes t place w.session.generation answer) :
    (∃ place, (w.turn t).InFlight place (w.turn t).session.generation) ↔
      ∃ place, w.InFlight place w.session.generation := by
  rw [same]
  refine exists_congr fun place => ?_
  rw [inFlight_turn_iff, or_iff_left]
  · exact and_iff_left (no_answer place)
  · rintro ⟨submits, -⟩
    exact (not_takes_of_same same).1 submits

/-- **Every turn keeps the order.** -/
theorem orderly_turn (none_yet : first.strands = []) (h : Orderly (first.run turns)) (t : Turn) :
    Orderly ((first.run turns).turn t) := by
  cases (first.run turns).effect_turn t with
  | @submits code language context made accepted session =>
    subst made
    constructor
    · rw [session]
      exact Session.trueStatus_start _ _
    · rw [session]
      exact iff_of_true rfl ⟨_, inFlight_submit accepted context⟩
  | resets reset session =>
    constructor
    · rw [session]
      exact Session.trueStatus_reset _
    · -- The generation is a new one that no submission carries.
      refine iff_of_false (by rw [session]; nofun) ?_
      rintro ⟨place, flies⟩
      rcases inFlight_turn_iff.1 flies with ⟨before, -⟩ | ⟨submits, -⟩
      · have bound := before.le none_yet
        rw [session, Session.generation_reset] at bound
        omega
      · exact reset.not_submits submits
  | @concludes place generation answer concludes session =>
    have same : ((first.run turns).turn t).session.generation =
        (first.run turns).session.generation := by
      rw [session, Session.generation_apply]
    by_cases current : generation = (first.run turns).session.generation
    · -- The submission that takes its answer was the only one to carry the generation.
      subst current
      have flies : (first.run turns).InFlight place (first.run turns).session.generation :=
        ⟨_, concludes.2, rfl⟩
      constructor
      · rw [session]
        exact h.status.apply (h.waits.2 ⟨place, flies⟩) answer
      · refine iff_of_false (by rw [session]; exact Session.status_apply_ne_loading _ _) ?_
        rintro ⟨other, others⟩
        rw [same] at others
        rcases inFlight_turn_iff.1 others with ⟨before, no_answer⟩ | ⟨submits, -⟩
        · cases flies.unique none_yet before
          exact no_answer answer concludes
        · exact concludes.not_submits submits
    · -- The answer comes too late: nothing but the list of calls changes.
      have no_answer (place : Nat) (answer : Except Failure Result) :
          ¬ (first.run turns).Concludes t place (first.run turns).session.generation answer :=
        fun other => current (concludes.unique other).2.1
      constructor
      · rw [session, Session.apply_of_ne current]
        exact ⟨h.status.idle, h.status.loading, h.status.ready, h.status.failed,
          h.status.dropped, h.status.holding⟩
      · rw [exists_inFlight_turn same no_answer, ← h.waits, session, Session.apply_of_ne current]
  | keeps no_answer same =>
    constructor
    · exact h.status.congr same
    · rw [same.status, h.waits]
      exact (exists_inFlight_turn same.generation fun place => no_answer place _).symm

/-- **Every run from the start is orderly.** -/
theorem orderly_run (policy : ClearPolicy) (surroundings : Surroundings)
    (listeners : List (Text × Act)) (turns : List Turn) :
    Orderly ((fresh policy surroundings listeners).run turns) := by
  induction turns using List.reverseRecOn with
  | nil =>
    constructor
    · exact ⟨fun _ => ⟨rfl, rfl⟩, nofun, nofun, nofun, fun _ _ => rfl, rfl⟩
    · refine iff_of_false nofun ?_
      rintro ⟨place, strand, found, -⟩
      cases found
  | append_singleton turns last ih =>
    rw [run_concat]
    exact orderly_turn rfl ih last

/-! ## The result committed last -/

/-- A result was **committed last** in a run: some turn committed it, and no turn after that one
committed another or reset the session. -/
def CommittedLast (first : Weave) (turns : List Turn) (result : Result) : Prop :=
  ∃ before t after place, turns = before ++ t :: after ∧
    (first.run before).Concludes t place (first.run before).session.generation (.ok result) ∧
    ∀ w u, Took ((first.run before).turn t) after w u → ¬ w.Commits u ∧ ¬ w.Resets u

/-- The result committed last in a longer run: the last turn commits it, or it was committed before
and the last turn neither commits nor resets. -/
theorem committedLast_concat :
    CommittedLast first (turns ++ [last]) result ↔
      (∃ place, (first.run turns).Concludes last place (first.run turns).session.generation
        (.ok result)) ∨
      (CommittedLast first turns result ∧ ¬ (first.run turns).Commits last ∧
        ¬ (first.run turns).Resets last) := by
  constructor
  · rintro ⟨before, t, after, place, split, commits, quiet⟩
    rcases List.eq_nil_or_concat after with rfl | ⟨others, x, rfl⟩
    · obtain ⟨rfl, same⟩ := List.append_inj' split rfl
      cases same
      exact Or.inl ⟨place, commits⟩
    · rw [List.concat_eq_append, ← List.cons_append, ← List.append_assoc] at split
      obtain ⟨rfl, same⟩ := List.append_inj' split rfl
      cases same
      rw [List.concat_eq_append] at quiet
      refine Or.inr ⟨⟨before, t, others, place, rfl, commits, fun w u took => ?_⟩, ?_⟩
      · exact quiet w u (took_concat.2 (Or.inl took))
      · rw [run_append, run_cons]
        exact quiet _ _ (took_concat.2 (Or.inr ⟨rfl, rfl⟩))
  · rintro (⟨place, commits⟩ |
      ⟨⟨before, t, after, place, rfl, commits, quiet⟩, no_commit, no_reset⟩)
    · exact ⟨turns, last, [], place, rfl, commits, fun w u took => absurd took (not_took_nil _ w u)⟩
    · refine ⟨before, t, after ++ [last], place, by simp, commits, fun w u took => ?_⟩
      rcases took_concat.1 took with earlier | ⟨rfl, rfl⟩
      · exact quiet w u earlier
      · rw [run_append, run_cons] at no_commit no_reset
        exact ⟨no_commit, no_reset⟩

/-- A turn that neither commits nor resets keeps the result, under the policy that preserves it. -/
theorem result_turn_of_preserves (preserves : w.session.policy = .preserveOnFailure)
    (no_commit : ¬ w.Commits t) (no_reset : ¬ w.Resets t) :
    (w.turn t).session.result = w.session.result := by
  cases w.effect_turn t with
  | submits made accepted session =>
    rw [session, Session.result_start, preserves]
    rfl
  | resets reset session => exact absurd reset no_reset
  | @concludes place generation answer concludes session =>
    rw [session]
    rcases w.session.apply_cases generation answer with ⟨result, rfl, rfl, -⟩ |
      ⟨-, calls, holding, status, failure, kept⟩
    · exact absurd ⟨place, result, concludes⟩ no_commit
    · rw [kept]
  | keeps no_answer same => exact same.result

/-- **The result is the one committed last**, under the policy that preserves it. -/
theorem result_eq_some_iff (empty : first.session.result = none)
    (preserves : first.session.policy = .preserveOnFailure) (turns : List Turn) (result : Result) :
    (first.run turns).session.result = some result ↔ CommittedLast first turns result := by
  have policy : ∀ turns, (first.run turns).session.policy = .preserveOnFailure :=
    run_of_turn (fun w t kept => (policy_turn w t).trans kept) preserves
  -- The run is taken apart at its end: whether its last turn commits or resets decides.
  induction turns using List.reverseRecOn generalizing result with
  | nil =>
    refine iff_of_false (by rw [run_nil, empty]; nofun) ?_
    rintro ⟨before, t, after, place, split, -⟩
    simp at split
  | append_singleton turns last ih =>
    rw [committedLast_concat, run_concat]
    by_cases commits : (first.run turns).Commits last
    · obtain ⟨place, committed, concludes⟩ := commits
      have session := session_conclude concludes
      rw [Session.apply_ok] at session
      rw [session]
      constructor
      · intro same
        cases same
        exact Or.inl ⟨place, concludes⟩
      · rintro (⟨other, concludes'⟩ | ⟨-, no_commit, -⟩)
        · cases (concludes.unique concludes').2.2
          rfl
        · exact absurd ⟨place, committed, concludes⟩ no_commit
    · have no_answer : ¬ ∃ place, (first.run turns).Concludes last place
          (first.run turns).session.generation (.ok result) :=
        fun ⟨place, concludes⟩ => commits ⟨place, result, concludes⟩
      rw [or_iff_right no_answer]
      by_cases reset : (first.run turns).Resets last
      · rw [session_of_resets reset]
        exact iff_of_false nofun fun kept => kept.2.2 reset
      · rw [result_turn_of_preserves (policy turns) commits reset]
        exact (ih result).trans (and_iff_left ⟨commits, reset⟩).symm

/-! ## What the status tells -/

/-- **The status tells which slots are filled**, in every interleaving of submissions, resets,
answers and playback. An idle session has neither a result nor a failure, and its cursor is in front
of the first step; a loading one has no failure, and exactly one submission in flight carries the
current generation, the one that owns it; a ready one has a result and no failure; and a failed one
has a failure. Under the policy that drops results there is one exactly while the session is ready,
and under the policy that preserves them it is the one committed last since the last reset. -/
theorem status_tells_slots (policy : ClearPolicy) (surroundings : Surroundings)
    (listeners : List (Text × Act)) (turns : List Turn) :
    let first := fresh policy surroundings listeners
    let w := first.run turns
    let s := w.session
    (s.status = .idle → s.result = none ∧ s.failure = none ∧ s.cursor = {}) ∧
      (s.status = .loading → s.failure = none ∧ ∃ place, Owns first turns place s.generation ∧
        ∀ other, w.InFlight other s.generation ↔ other = place) ∧
      (s.status = .ready → s.result.isSome = true ∧ s.failure = none) ∧
      (s.status = .failed → s.failure.isSome = true) ∧
      (policy = .clearBeforeCall → (s.result.isSome = true ↔ s.status = .ready)) ∧
      (policy = .preserveOnFailure →
        ∀ result, s.result = some result ↔ CommittedLast first turns result) := by
  intro first w s
  have orderly : Orderly w := orderly_run policy surroundings listeners turns
  refine ⟨?_, ?_, orderly.status.ready, orderly.status.failed, ?_, ?_⟩
  · intro idle
    obtain ⟨empty, sound⟩ := orderly.status.idle idle
    have range := inRange_run policy surroundings listeners turns
    obtain ⟨step, playing⟩ := range.idle_of_none empty
    refine ⟨empty, sound, ?_⟩
    show s.cursor = ⟨-1, false⟩
    rw [← step, ← playing]
  · intro loading
    obtain ⟨place, flies⟩ := orderly.waits.1 loading
    refine ⟨orderly.status.loading loading, place, owns_of_inFlight rfl flies, fun other => ?_⟩
    constructor
    · intro others
      exact others.unique rfl flies
    · rintro rfl
      exact flies
  · intro drops
    have kept : s.policy = .clearBeforeCall :=
      run_of_turn (P := fun w => w.session.policy = .clearBeforeCall)
        (fun w t kept => (policy_turn w t).trans kept) drops turns
    refine ⟨fun present => ?_, fun ready => (orderly.status.ready ready).1⟩
    by_contra other
    rw [orderly.status.dropped kept other] at present
    cases present
  · intro preserves
    exact result_eq_some_iff rfl preserves turns

end Weave

end FlowTrace
