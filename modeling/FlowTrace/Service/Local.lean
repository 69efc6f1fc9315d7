import FlowTrace.Engine
import FlowTrace.Service.Basic

/-! # The local service

The service that runs the analysis engine itself. -/

namespace FlowTrace.Service

/-- The failure of a request without code. -/
def missingCode : Failure := .validation "code" "code is required" none

/-- A failure of the engine, as seen by the caller: it is about the exchange when the context of
the call has ended. -/
def localFailure (context : Context) (failure : Failure) : Failure :=
  match context with
  | .live => failure
  | ended => .ofExchange ended false failure

/-- The analysis of a request by the engine. -/
def analyzeLocally (context : Context) (request : Request) : Except Failure Report :=
  if request.code.isBlank then .error missingCode
  else (Engine.analyze context request.language request.code).mapError (localFailure context)

/-- The listing of a Python source by the engine. -/
def parseLocally (context : Context) (code : Text) : Except Failure Listing :=
  if code.isBlank then .error missingCode
  else (Engine.parsePython context code).mapError (localFailure context)

/-- The **local service**. -/
def «local» : Service where
  analyze context request := (analyzeLocally context request).map some
  parsePython := parseLocally

end FlowTrace.Service
