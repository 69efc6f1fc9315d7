import FlowTrace.Proofs.Session.Ownership

/-! # Answers that were superseded

Any number of submissions may be on their way, and the service may answer them in any order. Only
the answer to the latest one counts (`Weave.only_current_answers_count`):

* An answer whose generation is no longer the current one is dropped. The session keeps all it has,
  and the submission comes back with the news that it was superseded.
* The result of a ready session is the merged reply to the submission that owns the current
  generation, and that submission was given no other reply.
* A result enters the session in no other way.

The proof follows the **replies** of a run: a submission that is not answered yet was given none,
one that is answered was given exactly one, and none is given to a submission that has come back. -/

namespace FlowTrace

namespace Strand

/-- Whether a strand is a submission that has not been answered. -/
def unanswered : Strand → Bool
  | busy _ (.ask _ _) => true
  | busy _ _ => false
  | waiting _ => true
  | answered _ _ => false

end Strand

/-- What the service's reply amounts to is a result only if it is a report that has one. -/
theorem Stage.outcome_eq_ok {context : Context} {reply : Except Failure (Option Report)}
    {result : Result} (h : Stage.outcome context reply = .ok result) :
    ∃ report, reply = .ok (some report) ∧ report.merge? = some result := by
  cases reply with
  | error failure => cases h
  | ok report? =>
    cases report? with
    | none => cases h
    | some report =>
      refine ⟨report, rfl, ?_⟩
      simp only [Stage.outcome, Option.bind_some] at h
      split at h
      · rename_i merged
        cases h
        exact merged
      · cases h

/-- Taking an answer that is not for the current generation: only the call is forgotten, and the
submission comes back with the news that it was superseded. -/
theorem Stage.conclude_of_ne {stage : Stage} {generation : Nat}
    (h : generation ≠ stage.session.generation) (answer : Except Failure Result) :
    stage.conclude generation answer =
      ({ stage with session := { stage.session with
          calls := stage.session.calls.filter (·.generation != generation) } },
        [.announce (Stage.event Event.analysisDiscarded generation .nothing)],
        .error .superseded) := by
  simp only [Stage.conclude, Session.apply_of_ne h]

/-- Taking a current answer that is a result: the submission comes back with it. -/
theorem Stage.conclude_ok (stage : Stage) (result : Result) :
    stage.conclude stage.session.generation (.ok result) =
      ({ stage with session := stage.session.commit result },
        [.announce (Stage.event Event.analysisCompleted stage.session.generation
          (.completed result))],
        .ok result) := by
  simp only [Stage.conclude, Session.apply_ok]

namespace Weave

variable {first w : Weave} {turns later : List Turn} {t last : Turn} {place generation : Nat}
  {reply : Except Failure (Option Report)}

/-! ## Replies -/

/-- The service gave a **reply** to the submission at a place. -/
def Replied (first : Weave) (turns : List Turn) (place : Nat)
    (reply : Except Failure (Option Report)) : Prop :=
  ∃ w context generation, Took first turns w (.reply place context reply) ∧
    w.strands[place]? = some (.waiting generation)

/-- The replies in a longer run: those before, and one given last to a submission that waited. -/
theorem replied_concat :
    Replied first (turns ++ [last]) place reply ↔
      Replied first turns place reply ∨
        ∃ context generation, last = .reply place context reply ∧
          (first.run turns).strands[place]? = some (.waiting generation) := by
  constructor
  · rintro ⟨w, context, generation, took, waits⟩
    rcases took_concat.1 took with earlier | ⟨rfl, rfl⟩
    · exact Or.inl ⟨w, context, generation, earlier, waits⟩
    · exact Or.inr ⟨context, generation, rfl, waits⟩
  · rintro (⟨w, context, generation, took, waits⟩ | ⟨context, generation, rfl, waits⟩)
    · exact ⟨w, context, generation, took_concat.2 (Or.inl took), waits⟩
    · exact ⟨first.run turns, context, generation, took_concat.2 (Or.inr ⟨rfl, rfl⟩), waits⟩

/-- Replies are given to strands that are there. -/
theorem Replied.lt (h : Replied first turns place reply) :
    place < (first.run turns).strands.length := by
  induction turns using List.reverseRecOn with
  | nil =>
    obtain ⟨w, context, generation, took, -⟩ := h
    exact absurd took (not_took_nil first w _)
  | append_singleton turns last ih =>
    rw [run_concat]
    have longer := length_strands_le_turn (first.run turns) last
    rcases replied_concat.1 h with earlier | ⟨context, generation, -, waits⟩
    · exact Nat.lt_of_lt_of_le (ih earlier) longer
    · obtain ⟨inside, -⟩ := List.getElem?_eq_some_iff.1 waits
      exact Nat.lt_of_lt_of_le inside longer

/-- A submission that is given a reply is answered. -/
theorem strand_reply (waits : w.strands[place]? = some (.waiting generation)) (context : Context)
    (reply : Except Failure (Option Report)) :
    (w.turn (.reply place context reply)).strands[place]? =
      some (.answered generation (Stage.outcome context reply)) := by
  obtain ⟨inside, -⟩ := List.getElem?_eq_some_iff.1 waits
  simp only [turn, waits, put]
  exact List.getElem?_set_self inside

/-- A submission that is **not answered** was given no reply. -/
theorem not_replied_of_unanswered (none_yet : first.strands = []) {strand : Strand}
    (found : (first.run turns).strands[place]? = some strand) (open_ : strand.unanswered = true) :
    ¬ Replied first turns place reply := by
  induction turns using List.reverseRecOn generalizing strand with
  | nil =>
    rw [run_nil, none_yet] at found
    exact absurd found (by simp)
  | append_singleton turns last ih =>
    intro replied
    rw [run_concat] at found
    rcases replied_concat.1 replied with earlier | ⟨context, generation, rfl, waits⟩
    · rcases strand_turn found with same | ⟨old, old_found, next⟩ | ⟨new, -⟩
      · exact ih same open_ earlier
      · -- Whatever goes on and is still not answered was not answered before.
        have old_open : old.unanswered = true := by
          cases next with
          | @worked task rest tasks sequel h =>
            cases sequel with
            | nothing => exact open_
            | ask generation request => exact open_
            | back value => exact open_
          | asked h => rfl
          | replied h => cases open_
          | concluded h => cases open_
        exact ih old_found old_open earlier
      · have inside := earlier.lt
        omega
    · rw [strand_reply waits] at found
      cases found
      cases open_

/-- A reply is the **only** one to the submission at a place. -/
def OnlyReply (first : Weave) (turns : List Turn) (place : Nat)
    (reply : Except Failure (Option Report)) : Prop :=
  ∀ given, Replied first turns place given ↔ given = reply

/-- It stays the only one when the submission does not wait. -/
theorem OnlyReply.concat (h : OnlyReply first turns place reply) {strand : Strand}
    (found : (first.run turns).strands[place]? = some strand)
    (answered : strand.unanswered = false) (last : Turn) :
    OnlyReply first (turns ++ [last]) place reply := by
  intro given
  rw [replied_concat, h given]
  constructor
  · rintro (same | ⟨context, generation, -, waits⟩)
    · exact same
    · rw [found] at waits
      cases waits
      cases answered
  · exact Or.inl

/-- A submission that is **answered** was given exactly one reply, and its answer is what that reply
amounts to. -/
theorem only_reply_of_answered (none_yet : first.strands = []) {answer : Except Failure Result}
    (found : (first.run turns).strands[place]? = some (.answered generation answer)) :
    ∃ context reply, answer = Stage.outcome context reply ∧
      OnlyReply first turns place reply := by
  induction turns using List.reverseRecOn with
  | nil =>
    rw [run_nil, none_yet] at found
    exact absurd found (by simp)
  | append_singleton turns last ih =>
    rw [run_concat] at found
    -- Only a reply makes a submission answered; after that it no longer waits for another.
    rcases strand_turn found with same | ⟨old, old_found, next⟩ | ⟨-, tasks, sequel, busy, -⟩
    · obtain ⟨context, reply, amounts, only⟩ := ih same
      exact ⟨context, reply, amounts, only.concat same rfl last⟩
    · cases next with
      | @replied generation context reply h =>
        subst h
        refine ⟨context, reply, rfl, fun given => ?_⟩
        rw [replied_concat]
        constructor
        · rintro (earlier | ⟨context', generation', same, -⟩)
          · exact absurd earlier (not_replied_of_unanswered none_yet old_found rfl)
          · exact (Turn.reply.inj same).2.2.symm
        · rintro rfl
          exact Or.inr ⟨context, generation, rfl, old_found⟩
    · cases busy

/-! ## Submissions that have come back -/

/-- A submission that comes back does so with one value, whatever else happens. -/
theorem back_run {tasks : List Task} {value : Except Failure Result}
    (found : w.strands[place]? = some (.busy tasks (.back value))) (turns : List Turn) :
    ∃ left, (w.run turns).strands[place]? = some (.busy left (.back value)) := by
  induction turns generalizing w tasks with
  | nil => exact ⟨tasks, found⟩
  | cons t turns ih =>
    obtain ⟨next, next_found, same | goes⟩ := strand_persists found t
    · subst same
      exact ih next_found
    · cases goes with
      | worked h => exact ih next_found

/-! ## Ready sessions -/

/-- The owners of a run are owners in every longer run. -/
theorem Owns.concat (h : Owns first turns place generation) (last : Turn) :
    Owns first (turns ++ [last]) place generation :=
  owns_concat.2 (Or.inl h)

/-- The session is ready because the submission at a place came back with a result: it owns the
current generation, the report was the only reply to it, and its result is in the session. -/
structure ReadyBy (first : Weave) (turns : List Turn) (place : Nat) (report : Report)
    (result : Result) : Prop where
  /-- The submission has come back with the result. -/
  back : ∃ tasks, (first.run turns).strands[place]? = some (.busy tasks (.back (.ok result)))
  /-- It owns the current generation. -/
  owns : Owns first turns place (first.run turns).session.generation
  /-- The report was the only reply to it. -/
  only : OnlyReply first turns place (.ok (some report))
  /-- The result is the merged report. -/
  merged : report.merge? = some result
  /-- The session has the result. -/
  holds : (first.run turns).session.result = some result

/-- It stays ready by that submission while the generation and the result stay. -/
theorem ReadyBy.concat {report : Report} {result : Result}
    (h : ReadyBy first turns place report result)
    (generation : ((first.run turns).turn last).session.generation =
      (first.run turns).session.generation)
    (same : ((first.run turns).turn last).session.result = (first.run turns).session.result) :
    ReadyBy first (turns ++ [last]) place report result := by
  obtain ⟨tasks, found⟩ := h.back
  have run_last : first.run (turns ++ [last]) = (first.run turns).turn last := by
    rw [run_concat]
  refine ⟨?_, ?_, h.only.concat found rfl last, h.merged, ?_⟩
  · rw [run_last]
    exact back_run found [last]
  · rw [run_last, generation]
    exact h.owns.concat last
  · rw [run_last, same]
    exact h.holds

/-- The answer that a turn commits makes the session ready by its submission. -/
theorem readyBy_of_commit (none_yet : first.strands = []) {result : Result}
    (concludes : (first.run turns).Concludes last place (first.run turns).session.generation
      (.ok result)) :
    ∃ report, ReadyBy first (turns ++ [last]) place report result := by
  have found := concludes.2
  obtain ⟨context, reply, amounts, only⟩ := only_reply_of_answered none_yet found
  obtain ⟨report, rfl, merged⟩ := Stage.outcome_eq_ok amounts.symm
  have owns : Owns first turns place (first.run turns).session.generation :=
    owns_of_inFlight none_yet ⟨_, found, rfl⟩
  have session := session_conclude concludes
  rw [Session.apply_ok] at session
  refine ⟨report, ?_, ?_, only.concat found rfl last, merged, ?_⟩
  · rw [run_concat]
    have came := strand_conclude concludes
    rw [Stage.conclude_ok] at came
    exact ⟨_, came⟩
  · rw [run_concat, session, Session.generation_commit]
    exact owns.concat last
  · rw [run_concat, session]
    rfl

/-- **A ready session is ready by the submission that owns the current generation.** -/
theorem exists_readyBy (none_yet : first.strands = []) (idle : first.session.status ≠ .ready)
    (turns : List Turn) (ready : (first.run turns).session.status = .ready) :
    ∃ place report result, ReadyBy first turns place report result := by
  induction turns using List.reverseRecOn with
  | nil => exact absurd ready idle
  | append_singleton turns last ih =>
    -- A session becomes ready by a commit only; what else keeps it ready keeps the result.
    rw [run_concat] at ready
    rcases (first.run turns).session_turn last with ⟨place, generation, answer, concludes⟩ |
      ⟨-, shifted⟩
    · have session := session_conclude concludes
      by_cases current : generation = (first.run turns).session.generation
      · subst current
        cases answer with
        | error failure =>
          rw [session, Session.apply_error] at ready
          cases ready
        | ok result =>
          obtain ⟨report, readyBy⟩ := readyBy_of_commit none_yet concludes
          exact ⟨place, report, result, readyBy⟩
      · rw [Session.apply_of_ne current] at session
        rw [session] at ready
        obtain ⟨owner, report, result, readyBy⟩ := ih ready
        exact ⟨owner, report, result, readyBy.concat (by rw [session]) (by rw [session])⟩
    · rcases shifted.slots with same | ⟨context, started⟩ | reset
      · obtain ⟨owner, report, result, readyBy⟩ := ih (same.status ▸ ready)
        exact ⟨owner, report, result, readyBy.concat same.generation same.result⟩
      · rw [started] at ready
        cases ready
      · rw [reset] at ready
        cases ready

/-- **A result enters the session** only as the current answer; apart from that it stays, or it is
dropped by a newer submission or a reset. -/
theorem result_turn (w : Weave) (t : Turn) :
    (w.turn t).session.result = w.session.result ∨
      ((w.turn t).session.result = none ∧
        w.session.generation < (w.turn t).session.generation) ∨
      ∃ place result, w.Concludes t place w.session.generation (.ok result) ∧
        (w.turn t).session.result = some result := by
  rcases w.session_turn t with ⟨place, generation, answer, concludes⟩ | ⟨-, shifted⟩
  · have session := session_conclude concludes
    rcases w.session.apply_cases generation answer with ⟨result, rfl, rfl, committed⟩ |
      ⟨-, calls, holding, status, failure, kept⟩
    · rw [committed] at session
      exact Or.inr (Or.inr ⟨place, result, concludes, by rw [session]; rfl⟩)
    · rw [kept] at session
      exact Or.inl (by rw [session])
  · rcases shifted.slots with same | ⟨context, started⟩ | reset
    · exact Or.inl same.result
    · rw [started, Session.generation_start]
      -- Under one policy the request drops the result, under the other it keeps it.
      by_cases drops : w.session.policy == .clearBeforeCall
      · exact Or.inr (Or.inl ⟨if_pos drops, Nat.lt_succ_self _⟩)
      · exact Or.inl (if_neg drops)
    · rw [reset, Session.generation_reset]
      exact Or.inr (Or.inl ⟨rfl, Nat.lt_succ_self _⟩)

/-- **Only current answers count**, in every interleaving of submissions, resets and playback. An
answer that was superseded changes nothing but the list of calls on their way, and its submission
comes back superseded; the result of a ready session is the merged reply to the submission that owns
the current generation, which got no other reply; and no other answer ever becomes the result. -/
theorem only_current_answers_count (policy : ClearPolicy) (surroundings : Surroundings)
    (listeners : List (Text × Act)) (turns : List Turn) :
    let first := fresh policy surroundings listeners
    let w := first.run turns
    (∀ place generation answer, w.strands[place]? = some (.answered generation answer) →
      generation ≠ w.session.generation →
        (w.turn (.conclude place)).stage =
          { w.stage with session := { w.session with
              calls := w.session.calls.filter (·.generation != generation) } } ∧
        ∀ later, ∃ tasks, ((w.turn (.conclude place)).run later).strands[place]? =
          some (.busy tasks (.back (.error .superseded)))) ∧
    (w.session.status = .ready → ∃ place report result,
      (∀ owner, Owns first turns owner w.session.generation ↔ owner = place) ∧
        (∀ reply, Replied first turns place reply ↔ reply = .ok (some report)) ∧
        report.merge? = some result ∧ w.session.result = some result) ∧
    ∀ t, (w.turn t).session.result = w.session.result ∨
      ((w.turn t).session.result = none ∧
        w.session.generation < (w.turn t).session.generation) ∨
      ∃ place result, w.Concludes t place w.session.generation (.ok result) ∧
        (w.turn t).session.result = some result := by
  intro first w
  refine ⟨?_, ?_, w.result_turn⟩
  · intro place generation answer found outdated
    have came := strand_conclude (t := .conclude place) ⟨rfl, found⟩
    have conclude := Stage.conclude_of_ne outdated answer
    constructor
    · simp only [turn, found, put, conclude]
    · intro later
      rw [conclude] at came
      exact back_run came later
  · intro ready
    have idle : first.session.status ≠ .ready := by
      show Status.idle ≠ Status.ready
      decide
    obtain ⟨place, report, result, readyBy⟩ := exists_readyBy rfl idle turns ready
    refine ⟨place, report, result, fun owner => ⟨fun owns => owns.unique readyBy.owns, ?_⟩,
      readyBy.only, readyBy.merged, readyBy.holds⟩
    rintro rfl
    exact readyBy.owns

/-- The second of two submissions is answered first: its result is there, and the first one comes
back superseded. -/
example (policy : ClearPolicy) :
    let w := (fresh policy {} []).run ([.submit "x" "python" .live, .submit "y" "python" .live] ++
      asking 0 ++ asking 1 ++ completing 1 ++ completing 0)
    w.session.status = .ready ∧ w.session.result = oneStep.merge? ∧
      w.strands[0]? = some (.busy [] (.back (.error .superseded))) := by
  cases policy <;> exact ⟨rfl, rfl, rfl⟩

end Weave

end FlowTrace
