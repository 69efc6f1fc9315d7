import FlowTrace.Language
import FlowTrace.Service.Basic
import FlowTrace.Session.Stage
import FlowTrace.Text.Blank

/-! # Submitting code to a session

A submission has two halves: the request is made (`Stage.submit`), and, later, its answer is taken
(`Stage.answer`). Between them anything may happen, further submissions included. -/

namespace FlowTrace

/-- The failure of a request, by the state of its context: a failure that the session does not
know is one of the exchange. -/
def Failure.ofRequest (context : Context) (failure : Failure) : Failure :=
  if failure.isTimeout then failure
  else if context == .expired then .noted .timedOut failure.message
  else if failure.transportStatus?.isSome || failure.isValidation || failure.isGenerationFailed then
    failure
  else .transport 0 [] (some failure)

namespace Stage

/-- What is wrong with a submission. -/
def objection? (code language : Text) : Option Failure :=
  if code.isBlank then some (.validation "code" "must not be blank" none)
  else if (Language.ofName? language).isNone then
    some (.validation "language" "unsupported language" (some language))
  else none

/-- Makes a request, up to the tasks that come before the service is asked. Given are the stage,
these tasks and the generation of the request. -/
def commence (stage : Stage) (code language : Text) (context : Context) :
    Stage × List Task × Nat :=
  let session := stage.session.start context
  ({ stage with session := session },
    [.clearHighlight,
      .announce (event Event.analysisSubmitted session.generation
        (.submitted language code.length))],
    session.generation)

/-- Makes a request. Given are the stage with the request on its way and its generation, or what
is wrong with the submission. -/
def submit (stage : Stage) (code language : Text) (context : Context) :
    Except Failure (Stage × Nat) :=
  match objection? code language with
  | some failure => .error failure
  | none =>
    let (stage, tasks, generation) := stage.commence code language context
    .ok ((stage.carryOut tasks).note (.requested ⟨code, language, true⟩), generation)

/-- The state of the context of a call that is on its way. -/
def contextOf (stage : Stage) (generation : Nat) : Context :=
  ((stage.session.calls.find? (·.generation == generation)).map (·.context)).getD .canceled

/-- What the answer of the service amounts to: a result, or a failure in the words of sessions. The
context is the one of the request at that moment. -/
def outcome (context : Context) : Except Failure (Option Report) → Except Failure Result
  | .error failure => .error (.ofRequest context failure)
  | .ok report? =>
    match report?.bind Report.merge? with
    | some result => .ok result
    | none => .error .generationFailed

/-- Takes what the answer to a request amounts to. Given are the stage, the tasks that are left and
what the submission comes to. -/
def conclude (stage : Stage) (generation : Nat) (answer : Except Failure Result) :
    Stage × List Task × Except Failure Result :=
  let (session, verdict) := stage.session.apply generation answer
  let stage := { stage with session := session }
  match verdict with
  | .discarded =>
    (stage, [.announce (event Event.analysisDiscarded generation .nothing)], .error .superseded)
  | .failed failure =>
    (stage, [.announce (event Event.analysisFailed generation (.failed failure))],
      .error failure)
  | .completed result =>
    (stage, [.announce (event Event.analysisCompleted generation (.completed result))],
      .ok result)

/-- Takes the answer to a request. -/
def answer (stage : Stage) (generation : Nat) (context : Context)
    (reply : Except Failure (Option Report)) : Stage × Except Failure Result :=
  let (stage, tasks, value) := stage.conclude generation (outcome context reply)
  (stage.carryOut tasks, value)

end Stage

end FlowTrace
