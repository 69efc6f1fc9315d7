import FlowTrace.Text.Basic

/-! # Failures

Why a request failed. A **failure** may wrap others, its causes; questions about a failure
(`isTimeout`, `isValidation`, `status`) look through all causes, each before its own causes and
these before the next one (`chain`). -/

namespace FlowTrace

/-- A **failure**. -/
inductive Failure where
  /-- The input is not acceptable; `value` is the offending value, if it is worth showing. -/
  | validation (field message : Text) (value : Option Text)
  /-- The exchange with the analysis service failed. The status is zero when there was no
  response. -/
  | transport (status : Int) (body : Text) (cause : Option Failure)
  /-- The service did not answer in time. -/
  | timedOut
  /-- The service answered without a flowchart. -/
  | generationFailed
  /-- A newer request replaced this one. -/
  | superseded
  /-- There is no step left to play. -/
  | nothingToPlay
  /-- The request was given up. -/
  | canceled
  /-- The time allowed for the request ran out. -/
  | deadlineExceeded
  /-- A path leads out of the storage, or is empty. -/
  | invalidPath
  /-- An export directory is taken. -/
  | exportExists
  /-- The command line is wrong, and the usage was shown. -/
  | usage
  /-- Help was asked for. -/
  | helpRequested
  /-- The analysis broke off at a name that cannot be searched for. -/
  | brokenOff (name : Text)
  /-- Anything else, by its message. -/
  | plain (message : Text)
  /-- A failure with its context in front. -/
  | wrapped (context : Text) (cause : Failure)
  /-- A failure with a note behind it. -/
  | noted (cause : Failure) (note : Text)
  /-- Several failures in one, under a message of its own. -/
  | several (message : Text) (causes : List Failure)
  deriving Repr

namespace Failure

/-- Whether the service answered with success, so that only its body was unusable. -/
def isSuccessStatus (status : Int) : Bool := 200 ≤ status && status < 300

/-- The message of a failure. -/
def message : Failure → Text
  | validation field message none => "validation failed for " ++ field ++ ": " ++ message
  | validation field message (some value) =>
    "validation failed for " ++ field ++ ": " ++ message ++ " (value: " ++ value ++ ")"
  | transport status body cause =>
    if isSuccessStatus status then
      "unreadable analysis response (status " ++ Text.ofInt status ++ "): " ++
        (match cause with
        | some cause => cause.message
        | none => "<nil>")
    else if status != 0 && !body.isEmpty then
      "analysis service error (status " ++ Text.ofInt status ++ "): " ++ body
    else if status != 0 then "analysis service error (status " ++ Text.ofInt status ++ ")"
    else
      match cause with
      | some cause => "analysis service unreachable: " ++ cause.message
      | none => "analysis service error"
  | timedOut => "analysis request timed out"
  | generationFailed => "flowchart generation failed"
  | superseded => "analysis request superseded"
  | nothingToPlay => "no execution steps left to play"
  | canceled => "context canceled"
  | deadlineExceeded => "context deadline exceeded"
  | invalidPath => "invalid path"
  | exportExists => "export directory already exists"
  | usage => "invalid usage"
  | helpRequested => "flag: help requested"
  | brokenOff name => "cannot search for the name " ++ name
  | plain message => message
  | wrapped context cause => context ++ ": " ++ cause.message
  | noted cause note => cause.message ++ ": " ++ note
  | several message _ => message

mutual

/-- A failure, its cause, the cause of that, and so on. -/
def chain : Failure → List Failure
  | transport status body (some cause) => transport status body (some cause) :: cause.chain
  | wrapped context cause => wrapped context cause :: cause.chain
  | noted cause note => noted cause note :: cause.chain
  | several message causes => several message causes :: chainAll causes
  | failure => [failure]

/-- The chains of several failures, one after the other. -/
def chainAll : List Failure → List Failure
  | [] => []
  | failure :: failures => failure.chain ++ chainAll failures

end

/-- Whether the input was not acceptable. -/
def isValidation (failure : Failure) : Bool := failure.chain.any (· matches .validation ..)

/-- Whether the service did not answer in time. -/
def isTimeout (failure : Failure) : Bool := failure.chain.any (· matches .timedOut)

/-- Whether the service answered without a flowchart. -/
def isGenerationFailed (failure : Failure) : Bool :=
  failure.chain.any (· matches .generationFailed)

/-- Whether a newer request replaced this one. -/
def isSuperseded (failure : Failure) : Bool := failure.chain.any (· matches .superseded)

/-- The status of the outermost failed exchange. -/
def transportStatus? (failure : Failure) : Option Int :=
  failure.chain.findSome? fun
    | .transport status _ _ => some status
    | _ => none

/-- The status of the outermost failed exchange, zero if there is none. -/
def status (failure : Failure) : Int := failure.transportStatus?.getD 0

/-- The field that the outermost unacceptable input belongs to, and what is wrong with it. -/
def validation? (failure : Failure) : Option (Text × Text) :=
  failure.chain.findSome? fun
    | .validation field message _ => some (field, message)
    | _ => none

/-- Whether the same request may succeed when it is made again. -/
def isRetryable (failure : Failure) : Bool :=
  failure.isTimeout || failure.isSuperseded ||
    (match failure.transportStatus? with
    | some status => status == 0 || 500 ≤ status || status == 429
    | none => false)

/-- The short message shown to a user. -/
def userMessage (failure : Failure) : Text :=
  match failure.validation? with
  | some (field, message) =>
    if field == "code" then "Please enter some code to analyze."
    else "Invalid " ++ field ++ ": " ++ message ++ "."
  | none =>
    if failure.isTimeout then
      "The analysis service took too long to respond. Please try again."
    else if failure.isGenerationFailed then "Failed to generate a flowchart for this code."
    else if failure.isSuperseded then "A newer analysis replaced this one."
    else
      match failure.transportStatus? with
      | some status =>
        if isSuccessStatus status then
          "The analysis service sent a response that could not be read."
        else if status != 0 then
          "The analysis service returned an error (HTTP " ++ Text.ofInt status ++ ")."
        else "Could not reach the analysis service."
      | none => "Something went wrong while analyzing the code."

end Failure

/-- The state of the **context** in which work is done. -/
inductive Context where
  /-- Work may go on. -/
  | live
  /-- The work was given up. -/
  | canceled
  /-- The time for it ran out. -/
  | expired
  deriving DecidableEq, Repr

/-- Why work may not go on. -/
def Context.failure? : Context → Option Failure
  | live => none
  | canceled => some .canceled
  | expired => some .deadlineExceeded

end FlowTrace
