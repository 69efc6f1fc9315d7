import FlowTrace.Failure
import FlowTrace.Report.Merge

/-! # Sessions

A **session** holds the result of one analysis at a time and plays it back step by step. This file
holds the transitions that happen at one moment; what they make known to the outside follows in
`FlowTrace.Session.Stage`.

* Each request and each reset takes the next **generation**; an answer counts only while its
  generation is the current one (`Session.apply`).
* Each run of the playback has a **ticker** of its own, known by its **epoch**; a tick counts only
  while its epoch is the current one and the cursor is playing (`Session.advance`).
* Each move of the cursor has a number, so that a move that was overtaken can be told. -/

namespace FlowTrace

/-- The state of a session in one word. -/
inductive Status where
  /-- Nothing was asked. -/
  | idle
  /-- A request is on its way. -/
  | loading
  /-- There is a result. -/
  | ready
  /-- The latest request failed. -/
  | failed
  deriving DecidableEq, Repr

/-- The name of a status. -/
def Status.name : Status → Text
  | idle => "idle"
  | loading => "loading"
  | ready => "ready"
  | failed => "failed"

/-- What a request does to the result before it. -/
inductive ClearPolicy where
  /-- The result is dropped as soon as the request is made. -/
  | clearBeforeCall
  /-- The result stays until there is a new one. -/
  | preserveOnFailure
  deriving DecidableEq, Repr

/-- The **cursor** of the playback. -/
structure Cursor where
  /-- The index of the current step, `-1` before the first one. -/
  step : Int := -1
  /-- Whether the playback runs by itself. -/
  playing : Bool := false
  deriving DecidableEq, Repr

/-- A **call**: a request on its way to the service. -/
structure Call where
  /-- The generation of the request. -/
  generation : Nat
  /-- The state of the context of the request. -/
  context : Context
  deriving DecidableEq, Repr

/-- A **ticker** of the playback. -/
structure Ticker where
  /-- The epoch of the ticker. -/
  epoch : Nat
  /-- Whether it was neither told to stop nor has come to its end. -/
  running : Bool
  deriving DecidableEq, Repr

/-- A **session**. -/
structure Session where
  /-- What a request does to the result before it. -/
  policy : ClearPolicy := .clearBeforeCall
  /-- The current generation. -/
  generation : Nat := 0
  /-- The state in one word. -/
  status : Status := .idle
  /-- Why the latest request failed. -/
  failure : Option Failure := none
  /-- The result. -/
  result : Option Result := none
  /-- The cursor of the playback. -/
  cursor : Cursor := {}
  /-- The generation of the call that the session would give up. -/
  holding : Option Nat := none
  /-- The calls on their way, the latest first. -/
  calls : List Call := []
  /-- The current epoch. -/
  epoch : Nat := 0
  /-- The epoch of the ticker that the session would stop. -/
  ticking : Option Nat := none
  /-- The tickers ever made, the latest first. -/
  tickers : List Ticker := []
  /-- The number of the latest move of the cursor. -/
  moves : Nat := 0
  deriving Repr

/-- A **move** of the cursor, as it has to be told. -/
structure Move where
  /-- The generation it belongs to. -/
  generation : Nat
  /-- The index of the step, `-1` before the first one. -/
  index : Int
  /-- The step; an empty one before the first. -/
  step : Step
  /-- The flowchart that the step belongs to. -/
  flowchart : Text
  /-- Whether the playback has come to its end. -/
  finished : Bool
  /-- The number of the move. -/
  number : Nat
  deriving Repr

namespace Session

/-- The number of steps of the result. -/
def stepCount (s : Session) : Nat := FlowTrace.stepCount s.result

/-- The step under the cursor. -/
def currentStep? (s : Session) : Option Step := s.result.bind (·.step? s.cursor.step)

/-! ## Calls and tickers -/

/-- Gives up the call that the session holds. A context that has ended stays as it is. -/
def giveUp (s : Session) : Session :=
  { s with
    calls := s.calls.map fun call =>
      if some call.generation == s.holding && call.context == .live then
        { call with context := .canceled }
      else call
    holding := none }

/-- Stops the ticker that the session knows of, and outdates all tickers. -/
def stopPlayback (s : Session) : Session :=
  { s with
    tickers := s.tickers.map fun ticker =>
      if some ticker.epoch == s.ticking then { ticker with running := false } else ticker
    ticking := none
    epoch := s.epoch + 1
    cursor := { s.cursor with playing := false } }

/-- Puts the cursor before the first step. -/
def rewind (s : Session) : Session := { s with cursor := {}, moves := s.moves + 1 }

/-! ## Requests -/

/-- Makes a request in some context: the call before it is given up and the playback stops. The
new call has the new generation. -/
def start (s : Session) (context : Context) : Session :=
  let s := giveUp { s with generation := s.generation + 1 }
  let s := (stopPlayback { s with
    holding := some s.generation
    calls := ⟨s.generation, context⟩ :: s.calls }).rewind
  { s with
    result := if s.policy == .clearBeforeCall then none else s.result
    status := .loading
    failure := none }

/-- What became of an answer. -/
inductive Verdict where
  /-- It came too late. -/
  | discarded
  /-- It was a failure. -/
  | failed (failure : Failure)
  /-- It was a result. -/
  | completed (result : Result)
  deriving Repr

/-- Takes the answer to the call of a generation. An answer that is not for the current
generation changes nothing. -/
def apply (s : Session) (generation : Nat) (answer : Except Failure Result) : Session × Verdict :=
  let s := { s with calls := s.calls.filter (·.generation != generation) }
  if generation != s.generation then (s, .discarded)
  else
    match answer with
    | .error failure =>
      ({ s with holding := none, status := .failed, failure := some failure }, .failed failure)
    | .ok result =>
      (rewind { s with holding := none, result := some result, status := .ready, failure := none },
        .completed result)

/-- Starts over. -/
def reset (s : Session) : Session :=
  let s := (giveUp { s with generation := s.generation + 1 }).stopPlayback.rewind
  { s with result := none, status := .idle, failure := none }

/-! ## Playback -/

/-- The latest move, as it has to be told. -/
def lastMove (s : Session) : Move where
  generation := s.generation
  index := s.cursor.step
  step := s.currentStep?.getD {}
  flowchart := (s.result.map (·.flowchart)).getD []
  finished := false
  number := s.moves

/-- Lets the playback run by itself. The flag tells whether it did not run before. At the last
step there is nothing to play. -/
def play (s : Session) : Except Failure (Session × Bool) :=
  if (s.stepCount : Int) - 1 ≤ s.cursor.step || s.stepCount == 0 then .error .nothingToPlay
  else if s.cursor.playing then .ok (s, false)
  else
    let epoch := s.epoch + 1
    .ok ({ s with
      cursor := { s.cursor with playing := true }
      epoch := epoch
      ticking := some epoch
      tickers := ⟨epoch, true⟩ :: s.tickers }, true)

/-- Moves the cursor by hand, which stops the playback. There is no move beyond the last step or
to before the place in front of the first one. -/
def move (s : Session) (delta : Int) : Session × Option Move :=
  let s := s.stopPlayback
  let next := s.cursor.step + delta
  if next < -1 || (s.stepCount : Int) - 1 < next then (s, none)
  else
    let s := { s with cursor := { s.cursor with step := next }, moves := s.moves + 1 }
    (s, some s.lastMove)

/-- Ends the ticker of an epoch. -/
def endTicker (s : Session) (epoch : Nat) : Session :=
  { s with
    tickers := s.tickers.map fun ticker =>
      if ticker.epoch == epoch then { ticker with running := false } else ticker }

/-- A tick of the ticker of an epoch. A tick of an outdated ticker, or while nothing plays, only
ends that ticker. With the last step the playback comes to its end. -/
def advance (s : Session) (epoch : Nat) : Session × Option Move :=
  if epoch != s.epoch || !s.cursor.playing then (s.endTicker epoch, none)
  else
    let last : Int := (s.stepCount : Int) - 1
    let step := if s.cursor.step < last then s.cursor.step + 1 else s.cursor.step
    let s := { s with cursor := { s.cursor with step := step }, moves := s.moves + 1 }
    if last ≤ step then
      let s := { s.endTicker epoch with
        cursor := { s.cursor with playing := false }
        ticking := none }
      (s, some { s.lastMove with finished := true })
    else (s, some s.lastMove)

end Session

end FlowTrace
