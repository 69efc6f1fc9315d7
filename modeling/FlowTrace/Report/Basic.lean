import FlowTrace.Json.Basic

/-! # Analysis reports

What an analysis produces: a flowchart as markup, the **steps** of a simulated execution, and
estimates of running time and memory. A **report** is the envelope in which a service answers;
every part of it may be absent. A **result** is a report whose gaps have been filled
(`Report.merge?`), ready to be shown. -/

namespace FlowTrace

/-- The variables that a step assigns, by name, in the order of their names. -/
abbrev Bindings := List (Text × Json)

/-- The variables with one of them set. -/
def Bindings.set (bindings : Bindings) (name : Text) (value : Json) : Bindings :=
  match bindings with
  | [] => [(name, value)]
  | (other, old) :: rest =>
    if name = other then (name, value) :: rest
    else if name < other then (name, value) :: (other, old) :: rest
    else (other, old) :: Bindings.set rest name value

/-- The variables given by a list of assignments, later ones overriding earlier ones. -/
def Bindings.ofList (assignments : List (Text × Json)) : Bindings :=
  assignments.foldl (fun bindings entry => Bindings.set bindings entry.1 entry.2) []

/-- A **step** of the simulated execution, tied to a node of the flowchart. -/
structure Step where
  /-- The id of the flowchart node. -/
  nodeId : Text := []
  /-- What happens in this step. -/
  description : Text := []
  /-- The variables that the step assigns. -/
  bindings : Bindings := []
  /-- What the step prints. -/
  output : Option Text := none
  /-- The source line; `-1` when there is none to name. -/
  line : Option Int := none
  deriving Inhabited, Repr

/-- An estimate of running time and space. -/
structure Complexity where
  /-- Time, in the notation of growth orders. -/
  time : Text := []
  /-- Space, in the notation of growth orders. -/
  space : Text := []
  /-- The reasons. -/
  details : Option (List Text) := none
  deriving Inhabited, Repr

/-- Advice on making the code faster. -/
structure Advice where
  /-- What could be improved. -/
  suggestions : Option (List Text) := none
  /-- The code after the improvements. -/
  optimizedCode : Text := []
  deriving Inhabited, Repr

/-- One estimated allocation. -/
structure Allocation where
  /-- What holds the memory. -/
  holder : Text := []
  /-- The type it has. -/
  kind : Text := []
  /-- The size, as shown. -/
  size : Text := []
  /-- The source line. -/
  line : Int := 0
  deriving Inhabited, Repr, DecidableEq

/-- A place where memory is wasted. -/
structure Bottleneck where
  /-- The source line. -/
  line : Int := 0
  /-- What is wrong there. -/
  description : Text := []
  deriving Inhabited, Repr, DecidableEq

/-- What could be done about a bottleneck. -/
structure Remedy where
  /-- The source line. -/
  line : Int := 0
  /-- The suggestion. -/
  suggestion : Text := []
  deriving Inhabited, Repr, DecidableEq

/-- An estimate of memory use. -/
structure MemoryUse where
  /-- The total, as shown. -/
  total : Text := []
  /-- The allocations it is made of. -/
  breakdown : List Allocation := []
  /-- Where memory is wasted. -/
  bottlenecks : Option (List Bottleneck) := none
  /-- What could be done about it. -/
  remedies : Option (List Remedy) := none
  deriving Inhabited, Repr

/-- A **report**: the envelope in which a service answers. -/
structure Report where
  /-- The flowchart as markup. -/
  flowchart : Text := []
  /-- The steps of the simulated execution. -/
  steps : Option (List Step) := none
  /-- Running time and space. -/
  complexity : Option Complexity := none
  /-- Advice on speed. -/
  advice : Option Advice := none
  /-- Memory use. -/
  memory : Option MemoryUse := none
  deriving Inhabited, Repr

/-- A **listing**: the statements of a program, and the analyses that need nothing else. -/
structure Listing where
  /-- One step for each statement. -/
  steps : Option (List Step) := none
  /-- Running time and space. -/
  complexity : Option Complexity := none
  /-- Advice on speed. -/
  advice : Option Advice := none
  deriving Inhabited, Repr

/-- A **result**: a report with nothing missing. -/
structure Result where
  /-- The flowchart as markup. -/
  flowchart : Text
  /-- The steps of the simulated execution. -/
  steps : List Step
  /-- Running time and space. -/
  complexity : Complexity
  /-- Advice on speed. -/
  advice : Advice
  /-- Memory use. -/
  memory : MemoryUse
  deriving Inhabited, Repr

/-- A **request** for an analysis. -/
structure Request where
  /-- The source code. -/
  code : Text
  /-- The name of its language. -/
  language : Text
  /-- Whether the estimates are wanted too. -/
  advanced : Bool
  deriving DecidableEq, Repr

end FlowTrace
