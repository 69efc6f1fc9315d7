import FlowTrace.Proofs.Session.Weave

/-! # Who owns a generation

Each submission and each reset takes a generation of its own, because the generation only grows
(`Weave.generation_le_turn`) and a submission takes the next one (`Weave.generation_of_submits`).
The submission at a place **owns** a generation when it was made with it (`Weave.Owns`):

* a generation has at most one owner (`Weave.Owns.unique`), and it is not a future one
  (`Weave.Owns.le`);
* a submission that is still in flight owns the generation that it carries
  (`Weave.owns_of_inFlight`). -/

namespace FlowTrace

namespace Session

variable {s s' : Session}

/-- A start begins a generation. -/
@[simp] theorem generation_start (s : Session) (context : Context) :
    (s.start context).generation = s.generation + 1 := rfl

/-- A reset begins a generation. -/
@[simp] theorem generation_reset (s : Session) : s.reset.generation = s.generation + 1 := rfl

/-- A commit stays in its generation. -/
@[simp] theorem generation_commit (s : Session) (result : Result) :
    (s.commit result).generation = s.generation := rfl

/-- Playback keeps the generation; a request and a reset take the next one. -/
theorem Shift.generation_le (h : Shift s s') : s.generation ≤ s'.generation := by
  rcases h.slots with same | ⟨context, rfl⟩ | rfl
  · exact Nat.le_of_eq same.generation.symm
  · exact Nat.le_succ _
  · exact Nat.le_succ _

/-- An answer keeps the generation. -/
@[simp] theorem generation_apply (s : Session) (generation : Nat)
    (answer : Except Failure Result) :
    (s.apply generation answer).1.generation = s.generation := by
  rcases s.apply_cases generation answer with ⟨result, -, -, committed⟩ |
    ⟨-, calls, holding, status, failure, kept⟩
  · rw [committed, generation_commit]
  · rw [kept]

end Session

namespace Weave

variable {first w : Weave} {turns : List Turn} {t : Turn} {place other generation : Nat}

/-- The generation only grows. -/
theorem generation_le_turn (w : Weave) (t : Turn) :
    w.session.generation ≤ (w.turn t).session.generation := by
  rcases w.session_turn t with ⟨place, generation, answer, concludes⟩ | ⟨-, shifted⟩
  · rw [session_conclude concludes, Session.generation_apply]
  · exact shifted.generation_le

/-- A submission takes the next generation. -/
theorem generation_of_submits (w : Weave) (h : Submits t) :
    (w.turn t).session.generation = w.session.generation + 1 := by
  obtain ⟨code, language, context, rfl, accepted⟩ := h
  simp only [turn, accepted]
  exact Session.generation_start w.session context

/-! ## Owners -/

/-- The submission at a place **owns** a generation: it was made with it in the run. -/
def Owns (first : Weave) (turns : List Turn) (place generation : Nat) : Prop :=
  ∃ w t, Took first turns w t ∧ Submits t ∧ w.strands.length = place ∧
    w.session.generation + 1 = generation

/-- The owners in a longer run: those before, and the submission made last. -/
theorem owns_concat {last : Turn} :
    Owns first (turns ++ [last]) place generation ↔
      Owns first turns place generation ∨
        (Submits last ∧ (first.run turns).strands.length = place ∧
          (first.run turns).session.generation + 1 = generation) := by
  constructor
  · rintro ⟨w, t, took, submits, atPlace, next⟩
    rcases took_concat.1 took with earlier | ⟨rfl, rfl⟩
    · exact Or.inl ⟨w, t, earlier, submits, atPlace, next⟩
    · exact Or.inr ⟨submits, atPlace, next⟩
  · rintro (⟨w, t, took, rest⟩ | ⟨submits, rest⟩)
    · exact ⟨w, t, took_concat.2 (Or.inl took), rest⟩
    · exact ⟨first.run turns, last, took_concat.2 (Or.inr ⟨rfl, rfl⟩), submits, rest⟩

/-- An owned generation is not a future one. -/
theorem Owns.le (h : Owns first turns place generation) :
    generation ≤ (first.run turns).session.generation := by
  induction turns using List.reverseRecOn with
  | nil =>
    obtain ⟨w, t, took, -⟩ := h
    exact absurd took (not_took_nil first w t)
  | append_singleton turns last ih =>
    rw [run_concat]
    rcases owns_concat.1 h with earlier | ⟨submits, -, rfl⟩
    · exact Nat.le_trans (ih earlier) (generation_le_turn _ _)
    · rw [generation_of_submits _ submits]

/-- **A generation has at most one owner.** -/
theorem Owns.unique (h : Owns first turns place generation)
    (h' : Owns first turns other generation) : place = other := by
  induction turns using List.reverseRecOn with
  | nil =>
    obtain ⟨w, t, took, -⟩ := h
    exact absurd took (not_took_nil first w t)
  | append_singleton turns last ih =>
    -- The submission made last has a generation that was not yet there.
    rcases owns_concat.1 h with earlier | ⟨-, atPlace, next⟩
    · rcases owns_concat.1 h' with earlier' | ⟨-, -, next'⟩
      · exact ih earlier earlier'
      · have bound := earlier.le
        omega
    · rcases owns_concat.1 h' with earlier' | ⟨-, atPlace', -⟩
      · have bound := earlier'.le
        omega
      · rw [← atPlace, ← atPlace']

/-! ## Submissions in flight -/

/-- The submission at a place is **in flight** with a generation. -/
def InFlight (w : Weave) (place generation : Nat) : Prop :=
  ∃ strand, w.strands[place]? = some strand ∧ strand.inFlight? = some generation

/-- A strand that goes on carries the generation that it carried. -/
theorem GoesOn.inFlight? {old strand : Strand} (h : GoesOn w t place old strand)
    (carries : strand.inFlight? = some generation) : old.inFlight? = some generation := by
  cases h with
  | @worked task rest tasks sequel h =>
    cases sequel with
    | nothing => exact absurd carries (by simp [Strand.inFlight?])
    | ask generation request => exact carries
    | back value => exact absurd carries (by simp [Strand.inFlight?])
  | asked h => exact carries
  | replied h => exact carries
  | concluded h => exact absurd carries (by simp [Strand.inFlight?])

/-- A submission in flight was in flight before the turn, or is made by it. -/
theorem inFlight_turn (h : (w.turn t).InFlight place generation) :
    w.InFlight place generation ∨
      (Submits t ∧ w.strands.length = place ∧ w.session.generation + 1 = generation) := by
  obtain ⟨strand, found, carries⟩ := h
  rcases strand_turn found with same | ⟨old, old_found, next⟩ | ⟨last, tasks, sequel, rfl, asks⟩
  · exact Or.inl ⟨strand, same, carries⟩
  · exact Or.inl ⟨old, old_found, next.inFlight? carries⟩
  · cases sequel with
    | nothing => exact absurd carries (by simp [Strand.inFlight?])
    | ask asked request =>
      obtain ⟨submits, next⟩ := asks asked request rfl
      have same : asked = generation := Option.some.inj carries
      exact Or.inr ⟨submits, last.symm, by omega⟩
    | back value => exact absurd carries (by simp [Strand.inFlight?])

/-- **A submission in flight owns its generation.** -/
theorem owns_of_inFlight (none_yet : first.strands = [])
    (h : (first.run turns).InFlight place generation) : Owns first turns place generation := by
  induction turns using List.reverseRecOn with
  | nil =>
    obtain ⟨strand, found, -⟩ := h
    rw [run_nil, none_yet] at found
    exact absurd found (by simp)
  | append_singleton turns last ih =>
    rw [run_concat] at h
    rcases inFlight_turn h with before | made
    · exact owns_concat.2 (Or.inl (ih before))
    · exact owns_concat.2 (Or.inr made)

/-- A submission that takes its answer is no longer in flight. -/
theorem not_inFlight_of_concludes {answer : Except Failure Result}
    (h : w.Concludes t place generation answer) (carried : Nat) :
    ¬ (w.turn t).InFlight place carried := by
  rintro ⟨strand, found, carries⟩
  rw [strand_conclude h] at found
  cases found
  cases carries

/-! ## The policy that drops results -/

/-- The policy never changes. -/
theorem policy_turn (w : Weave) (t : Turn) :
    (w.turn t).session.policy = w.session.policy := by
  rcases w.session_turn t with ⟨place, generation, answer, concludes⟩ | ⟨-, shifted⟩
  · rw [session_conclude concludes]
    rcases w.session.apply_cases generation answer with ⟨result, -, -, committed⟩ |
      ⟨-, calls, holding, status, failure, kept⟩
    · rw [committed]
      rfl
    · rw [kept]
  · rcases shifted.slots with same | ⟨context, started⟩ | reset
    · exact same.policy
    · rw [started]
      rfl
    · rw [reset]
      rfl

/-- Under the policy that drops results, **a session that waits for its current submission has
none**. -/
theorem result_eq_none_of_inFlight (none_yet : first.strands = [])
    (drops : first.session.policy = .clearBeforeCall)
    (h : (first.run turns).InFlight place (first.run turns).session.generation) :
    (first.run turns).session.result = none := by
  have policy : ∀ turns, (first.run turns).session.policy = .clearBeforeCall :=
    run_of_turn (fun w t kept => (policy_turn w t).trans kept) drops
  induction turns using List.reverseRecOn with
  | nil =>
    obtain ⟨strand, found, -⟩ := h
    rw [run_nil, none_yet] at found
    exact absurd found (by simp)
  | append_singleton turns last ih =>
    rw [run_concat] at h ⊢
    -- A submission that was in flight before keeps its generation; a new one has a new generation.
    have before (same : ((first.run turns).turn last).session.generation =
        (first.run turns).session.generation) :
        (first.run turns).InFlight place (first.run turns).session.generation := by
      rcases inFlight_turn h with earlier | ⟨-, -, next⟩
      · rw [same] at earlier
        exact earlier
      · omega
    rcases (first.run turns).session_turn last with ⟨other, generation, answer, concludes⟩ |
      ⟨-, shifted⟩
    · have session := session_conclude concludes
      have earlier := before (by rw [session, Session.generation_apply])
      rcases (first.run turns).session.apply_cases generation answer with
        ⟨result, rfl, rfl, -⟩ | ⟨-, calls, holding, status, failure, kept⟩
      · -- The submission that takes its answer is the current one, and no other is.
        have owner := owns_of_inFlight none_yet ⟨_, concludes.2, rfl⟩
        have same : place = other := (owns_of_inFlight none_yet earlier).unique owner
        subst same
        exact absurd h (not_inFlight_of_concludes concludes _)
      · rw [session, kept]
        exact ih earlier
    · rcases shifted.slots with same | ⟨context, started⟩ | reset
      · rw [same.result]
        exact ih (before same.generation)
      · rw [started]
        exact if_pos (by rw [policy turns]; rfl)
      · rw [reset]
        rfl

end Weave

end FlowTrace
