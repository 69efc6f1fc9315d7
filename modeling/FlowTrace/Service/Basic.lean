import FlowTrace.Failure
import FlowTrace.Report.Basic

/-! # Analysis services

An **analysis service** answers requests with reports. Whatever goes wrong on the way to the
answer is sorted into one of two kinds (`Failure.ofExchange`): the time ran out, or the service
could not be reached. -/

namespace FlowTrace

/-- An **analysis service**, as a function of the state of the context of a call. A service may
answer without a report. -/
structure Service where
  /-- Answers a request for an analysis. -/
  analyze : Context → Request → Except Failure (Option Report)
  /-- Answers a request for the listing of a Python source. -/
  parsePython : Context → Text → Except Failure Listing

/-- Whether a failure is due to a deadline. -/
def Failure.isDeadline (failure : Failure) : Bool :=
  failure.chain.any (· matches .deadlineExceeded)

/-- The failure of an exchange that broke down in some state of its context. When the time ran
out, or the network itself was too `slow`, the service did not answer in time; in every other
case it was not reached. -/
def Failure.ofExchange (context : Context) (slow : Bool) (failure : Failure) : Failure :=
  if context == .expired || failure.isDeadline || slow then .noted .timedOut failure.message
  else .transport 0 [] (some failure)

/-- The **allowance** of a call: whether it may still go on, and for how long. -/
structure Allowance where
  /-- The state of the context at the beginning of the call. -/
  context : Context := .live
  /-- The nanoseconds until the deadline, if there is one. -/
  left : Option Nat := none
  /-- The nanoseconds until the call is given up, if it is. -/
  givenUp : Option Nat := none
  deriving Repr

namespace Allowance

/-- When and how the allowance ends if nothing else happens; `none` when it never ends. -/
def ending? (allowance : Allowance) : Option (Nat × Context) :=
  match allowance.context with
  | .live =>
    match allowance.left, allowance.givenUp with
    | some left, some givenUp =>
      some (if givenUp < left then (givenUp, .canceled) else (left, .expired))
    | some left, none => some (left, .expired)
    | none, some givenUp => some (givenUp, .canceled)
    | none, none => none
  | ended => some (0, ended)

/-- The allowance after some nanoseconds have passed. -/
def after (allowance : Allowance) (passed : Nat) : Allowance where
  context :=
    match allowance.ending? with
    | some (time, ended) => if time ≤ passed then ended else allowance.context
    | none => allowance.context
  left := allowance.left.map (· - passed)
  givenUp := allowance.givenUp.map (· - passed)

end Allowance

end FlowTrace
