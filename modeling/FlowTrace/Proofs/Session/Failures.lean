import FlowTrace.Proofs.Session.Fate

/-! # Why submissions fail

A service may fail for any reason: its failure may wrap others, in any shape. What a submission
comes back with is of few kinds all the same (`Failure.IsKnown`), and for each of these kinds there
are words for the user (`Failure.isKnown_iff_userMessage`). Nothing that counts is lost on the way
(`Weave.failures_are_known`): a failure of the service whose answer is current and in time is a
timeout, a matter of validation or of some status exactly when the failure of the submission is. -/

namespace FlowTrace

namespace Failure

variable {failure : Failure} {context : Context}

/-- A failure is **known** when it is, or wraps, a matter of validation, a timeout, a missing
flowchart, a newer request or a failed exchange. -/
def IsKnown (failure : Failure) : Prop :=
  failure.isValidation = true ∨ failure.isTimeout = true ∨ failure.isGenerationFailed = true ∨
    failure.isSuperseded = true ∨ failure.transportStatus?.isSome = true

/-- What a user is told about any other failure. -/
def unknownMessage : Text := "Something went wrong while analyzing the code."

/-- Something is found when one of the members has it. -/
theorem isSome_findSome? {α β : Type} (f : α → Option β) (l : List α) :
    (l.findSome? f).isSome = l.any fun a => (f a).isSome := by
  induction l with
  | nil => rfl
  | cons a l ih =>
    rw [List.findSome?_cons, List.any_cons, ← ih]
    cases f a <;> rfl

/-- There is a field to blame exactly in matters of validation. -/
theorem isSome_validation? (failure : Failure) :
    failure.validation?.isSome = failure.isValidation := by
  rw [validation?, isValidation, isSome_findSome?]
  congr 1
  funext cause
  cases cause <;> rfl

/-- Words that begin with another letter are not those for other failures. -/
theorem append_ne_unknownMessage {opening : Text} {letter : UInt8}
    (starts : opening.head? = some letter) (other : letter ≠ 'S'.toUInt8) (rest : Text) :
    opening ++ rest ≠ unknownMessage := by
  intro same
  have first := congrArg List.head? same
  rw [List.head?_append, starts] at first
  exact other (Option.some.inj first)

/-- **The words for the user** are those for other failures exactly when the failure is not
known. -/
theorem isKnown_iff_userMessage : failure.IsKnown ↔ failure.userMessage ≠ unknownMessage := by
  unfold IsKnown userMessage
  rw [← isSome_validation?]
  cases failure.validation? with
  | some blamed =>
    refine iff_of_true (Or.inl rfl) ?_
    dsimp only
    split
    · decide
    · simp only [List.append_assoc]
      exact @append_ne_unknownMessage "Invalid " 'I'.toUInt8 rfl (by decide) _
  | none =>
    -- The questions are asked one after the other; the first yes decides on the words.
    dsimp only
    split
    · rename_i late
      exact iff_of_true (Or.inr (Or.inl late)) (by decide)
    · split
      · rename_i missing
        exact iff_of_true (Or.inr (Or.inr (Or.inl missing))) (by decide)
      · split
        · rename_i replaced
          exact iff_of_true (Or.inr (Or.inr (Or.inr (Or.inl replaced)))) (by decide)
        · rename_i late missing replaced
          cases failure.transportStatus? with
          | none =>
            exact iff_of_false (by simp [late, missing, replaced]) (by simp [unknownMessage])
          | some status =>
            refine iff_of_true (by simp) ?_
            dsimp only
            split
            · decide
            · split
              · simp only [List.append_assoc]
                exact @append_ne_unknownMessage _ 'T'.toUInt8 rfl (by decide) _
              · decide

/-- The failure of a request is known, whatever the service failed with. -/
theorem isKnown_ofRequest (context : Context) (failure : Failure) :
    (ofRequest context failure).IsKnown := by
  unfold ofRequest
  split
  · rename_i late
    exact Or.inr (Or.inl late)
  · split
    · exact Or.inr (Or.inl rfl)
    · split
      · rename_i sorted
        simp only [Bool.or_eq_true] at sorted
        unfold IsKnown
        tauto
      · exact Or.inr (Or.inr (Or.inr (Or.inr rfl)))

/-- A request whose time ran out has timed out. -/
theorem isTimeout_ofRequest_expired (failure : Failure) :
    (ofRequest .expired failure).isTimeout = true := by
  unfold ofRequest
  split
  · rename_i late
    exact late
  · rfl

/-- A request that is **in time** fails as the service did. -/
theorem ofRequest_in_time (inTime : context ≠ .expired) (failure : Failure) :
    (ofRequest context failure).isTimeout = failure.isTimeout ∧
      (ofRequest context failure).isValidation = failure.isValidation ∧
      (ofRequest context failure).status = failure.status := by
  unfold ofRequest
  split
  · exact ⟨rfl, rfl, rfl⟩
  · rw [if_neg (by simpa using inTime)]
    split
    · exact ⟨rfl, rfl, rfl⟩
    · -- What is now a failed exchange was of no exchange before, so that both have no status.
      rename_i unsorted
      simp only [Bool.or_eq_true, not_or, Option.not_isSome_iff_eq_none] at unsorted
      refine ⟨rfl, rfl, ?_⟩
      rw [status, status, unsorted.1.1]
      rfl

/-- The first status counts, wherever it is. -/
example : (ofRequest .canceled (.several "both" [.plain "first", .transport 503 [] none])).status =
    503 := rfl

end Failure

/-- What an answer amounts to is a result or a known failure. -/
theorem Stage.isKnown_of_outcome {context : Context} {reply : Except Failure (Option Report)}
    {failure : Failure} (h : Stage.outcome context reply = .error failure) : failure.IsKnown := by
  cases reply with
  | error served =>
    cases h
    exact Failure.isKnown_ofRequest context served
  | ok report? =>
    simp only [Stage.outcome] at h
    split at h
    · cases h
    · cases h
      exact Or.inr (Or.inr (Or.inl rfl))

/-- What a submission comes back with: its answer, unless it was superseded. -/
theorem Stage.value_conclude (stage : Stage) (generation : Nat) (answer : Except Failure Result) :
    (stage.conclude generation answer).2.2 =
      if generation = stage.session.generation then answer else .error .superseded := by
  split
  · rename_i current
    subst current
    cases answer with
    | error failure => simp only [Stage.conclude, Session.apply_error]
    | ok result => rw [Stage.conclude_ok]
  · rename_i outdated
    rw [Stage.conclude_of_ne outdated]

namespace Weave

variable {first w : Weave} {turns later : List Turn} {t : Turn} {place generation : Nat}
  {strand : Strand} {context : Context} {answer : Except Failure Result}

/-! ## Every failure is known -/

/-- The failure that a strand carries, if any, is known. -/
def Sorted : Strand → Prop
  | .busy _ (.back (.error failure)) => failure.IsKnown
  | .answered _ (.error failure) => failure.IsKnown
  | _ => True

/-- A strand that begins has sorted failures. -/
theorem sorted_of_begun (h : Begun w t strand) : Sorted strand := by
  cases h with
  | turnedDown objection => exact Or.inl (isValidation_of_objection? objection)
  | submitted accepted => trivial
  | acted a => trivial
  | ticked epoch => trivial

/-- A strand that goes on keeps its failures sorted. -/
theorem sorted_of_goesOn {old : Strand} (h : GoesOn w t place old strand) (sorted : Sorted old) :
    Sorted strand := by
  cases h with
  | @worked task rest tasks sequel h =>
    cases sequel with
    | back value => cases value with
      | error failure => exact sorted
      | ok result => trivial
    | nothing => trivial
    | ask generation request => trivial
  | asked h => trivial
  | @replied generation context reply h =>
    cases amounts : Stage.outcome context reply with
    | error failure => exact Stage.isKnown_of_outcome amounts
    | ok result => trivial
  | @concluded generation answer h =>
    rw [Stage.value_conclude]
    split
    · cases answer with
      | error failure => exact sorted
      | ok result => trivial
    · exact Or.inr (Or.inr (Or.inr (Or.inl rfl)))

/-- In every run the failures that strands carry are known. -/
theorem sorted_run (none_yet : first.strands = []) (turns : List Turn)
    (found : (first.run turns).strands[place]? = some strand) : Sorted strand := by
  refine run_of_turn (P := fun w => ∀ place strand, w.strands[place]? = some strand → Sorted strand)
    (fun w t sorted place strand found => ?_) ?_ turns place strand found
  · rcases strand_turn found with same | ⟨old, old_found, next⟩ | ⟨rfl, -⟩
    · exact sorted place strand same
    · exact sorted_of_goesOn next (sorted place old old_found)
    · exact sorted_of_begun (begun_of_new found)
  · intro place strand found
    rw [none_yet] at found
    cases found

/-! ## From the service's failure to that of the submission -/

/-- A submission that is **answered** either has still to take its answer, or it took the answer at
some moment and has come back with what the answer was worth then. -/
theorem answered_run (found : w.strands[place]? = some (.answered generation answer))
    (later : List Turn) :
    (w.run later).strands[place]? = some (.answered generation answer) ∨
      ∃ before after tasks, later = before ++ .conclude place :: after ∧
        (w.run later).strands[place]? = some (.busy tasks (.back
          (if generation = (w.run before).session.generation then answer
            else .error .superseded))) := by
  induction later generalizing w with
  | nil => exact Or.inl found
  | cons t later ih =>
    -- Either the turn is another strand's, or it is the one in which the answer is taken.
    obtain ⟨next, next_found, same | goes⟩ := strand_persists found t
    · subst same
      rcases ih next_found with still | ⟨before, after, tasks, rfl, came⟩
      · exact Or.inl still
      · exact Or.inr ⟨t :: before, after, tasks, rfl, came⟩
    · cases goes with
      | concluded h =>
        subst h
        rw [Stage.value_conclude] at next_found
        obtain ⟨tasks, came⟩ := back_run next_found later
        exact Or.inr ⟨[], later, tasks, rfl, came⟩

/-- **Why submissions fail**, in every interleaving of operations on a session.

* A failure that a submission comes back with is known, so that there are words for the user.
* When the service fails, then the submission has still to take that answer, or it has come back
  with a failure. If a newer request had replaced it when it took the answer, that is all it says;
  otherwise it has timed out if its time had run out, and fails as the service did if not. -/
theorem failures_are_known (policy : ClearPolicy) (surroundings : Surroundings)
    (listeners : List (Text × Act)) (turns : List Turn) :
    let w := (fresh policy surroundings listeners).run turns
    (∀ (place : Nat) (tasks : List Task) (failure : Failure),
      w.strands[place]? = some (.busy tasks (.back (.error failure))) →
        failure.IsKnown ∧ failure.userMessage ≠ Failure.unknownMessage) ∧
    ∀ (place generation : Nat) (context : Context) (served : Failure) (later : List Turn),
      w.strands[place]? = some (.waiting generation) →
      let w₁ := w.turn (.reply place context (.error served))
      (∃ answer, (w₁.run later).strands[place]? = some (.answered generation answer)) ∨
        ∃ before after tasks failure, later = before ++ .conclude place :: after ∧
          (w₁.run later).strands[place]? = some (.busy tasks (.back (.error failure))) ∧
          (generation ≠ (w₁.run before).session.generation → failure = .superseded) ∧
          (generation = (w₁.run before).session.generation →
            (context = .expired → failure.isTimeout = true) ∧
              (context ≠ .expired → failure.isTimeout = served.isTimeout ∧
                failure.isValidation = served.isValidation ∧ failure.status = served.status)) := by
  intro w
  refine ⟨fun place tasks failure found => ?_, ?_⟩
  · have known : failure.IsKnown := sorted_run rfl turns found
    exact ⟨known, Failure.isKnown_iff_userMessage.1 known⟩
  · intro place generation context served later waits w₁
    have answered : w₁.strands[place]? =
        some (.answered generation (.error (.ofRequest context served))) :=
      strand_reply waits context (.error served)
    -- Once it is answered, a submission stays so until it takes the answer, which it does once.
    rcases answered_run answered later with still | ⟨before, after, tasks, rfl, came⟩
    · exact Or.inl ⟨_, still⟩
    · right
      by_cases current : generation = (w₁.run before).session.generation
      · rw [if_pos current] at came
        refine ⟨before, after, tasks, _, rfl, came, absurd current, fun _ => ⟨?_, ?_⟩⟩
        · rintro rfl
          exact Failure.isTimeout_ofRequest_expired served
        · exact fun inTime => Failure.ofRequest_in_time inTime served
      · rw [if_neg current] at came
        exact ⟨before, after, tasks, _, rfl, came, fun _ => rfl, fun same => absurd same current⟩

/-- One of several failures has a status. -/
theorem failure_of_several :
    let w := (fresh .clearBeforeCall {} []).run (.submit "x" "python" .live :: asking 0)
    let served : Failure := .several "both" [.plain "first", .transport 503 [] none]
    ∃ tasks failure,
      ((w.turn (.reply 0 .canceled (.error served))).turn (.conclude 0)).strands[0]? =
        some (.busy tasks (.back (.error failure))) ∧
      failure.status = 503 := by
  intro w served
  obtain ⟨-, kept⟩ := failures_are_known .clearBeforeCall {} []
    (.submit "x" "python" .live :: asking 0)
  rcases kept 0 1 .canceled served [.conclude 0] rfl with
    ⟨answer, still⟩ | ⟨before, after, tasks, failure, split, came, -, current⟩
  · cases still
  · cases before with
    | cons t before => simp at split
    | nil => exact ⟨tasks, failure, came, ((current rfl).2 (by decide)).2.2⟩

end Weave

end FlowTrace
