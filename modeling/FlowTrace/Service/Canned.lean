import FlowTrace.Language
import FlowTrace.Service.Basic

/-! # The canned service

A service with prepared answers, one for each language, for demonstrations. It remembers the
requests it was asked, and can be told to fail or to take its time. -/

namespace FlowTrace

/-- A **canned service**. -/
structure Canned where
  /-- The prepared answers, by the name of the language. -/
  answers : List (Text × Option Report)
  /-- The failure to answer with, if any. -/
  failure : Option Failure := none
  /-- The nanoseconds to wait before each answer. -/
  delay : Int := 0
  /-- The requests for an analysis so far, the latest last. -/
  requests : List Request := []

namespace Canned

/-- A flowchart of three nodes without shapes. -/
def chart (first second third : Text) : Text :=
  "<svg xmlns=\"http://www.w3.org/2000/svg\">" ++ node first ++ node second ++ node third ++
    "</svg>"
where
  /-- The group of one node. -/
  node (id : Text) : Text := "<g id=\"" ++ id ++ "\" class=\"node\"/>"

/-- A report of one step. -/
def oneStep (flowchart node description : Text) : Report :=
  { flowchart := flowchart, steps := some [{ nodeId := node, description := description }] }

/-- The answers at the beginning. -/
def initial : Canned where
  answers := [
    (Language.python.name, some (oneStep (chart "Start" "Expr_1" "End") "Expr_1"
      "Evaluate expression: print(1)")),
    (Language.cpp.name, some (oneStep (chart "start" "main" "end") "main" "Enter function main")),
    (Language.java.name, some (oneStep (chart "start" "main" "end") "main" "Enter method main"))]

/-- A service whose answers are all missing. -/
def blank : Canned where
  answers := Language.all.map fun language => (language.name, none)

/-- The prepared answer for a language. -/
def answer? (canned : Canned) (language : Text) : Option Report :=
  ((canned.answers.find? (·.1 == language)).map (·.2)).join

/-- Prepares the answer for a language. -/
def setAnswer (canned : Canned) (language : Text) (report : Option Report) : Canned :=
  { canned with
    answers := (language, report) :: canned.answers.filter fun entry => entry.1 != language }

/-- What keeps the service from answering: the end of the allowance while it waits, or else the
failure it was told to answer with. -/
def refusal? (canned : Canned) (allowance : Allowance) : Option Failure :=
  let interrupted : Option Failure :=
    if canned.delay ≤ 0 then none
    else
      let ending := (allowance.after canned.delay.toNat).context
      ending.failure?.map (Failure.ofExchange ending false)
  interrupted <|> canned.failure

/-- Answers a request for an analysis. -/
def analyze (canned : Canned) (allowance : Allowance) (request : Request) :
    Canned × Except Failure Report :=
  ({ canned with requests := canned.requests ++ [request] },
    match canned.refusal? allowance with
    | some failure => .error failure
    | none => .ok ((canned.answer? request.language).getD {}))

/-- Answers a request for a listing: the steps and estimates prepared for Python. -/
def parsePython (canned : Canned) (allowance : Allowance) : Except Failure Listing :=
  match canned.refusal? allowance with
  | some failure => .error failure
  | none =>
    let report := (canned.answer? Language.python.name).getD {}
    .ok {
      steps := some (report.steps.getD [])
      complexity := report.complexity
      advice := report.advice }

/-- The canned service as a service that remembers nothing. -/
def service (canned : Canned) : Service where
  analyze context request := (canned.analyze { context := context } request).2.map some
  parsePython context _ := canned.parsePython { context := context }

end Canned

end FlowTrace
