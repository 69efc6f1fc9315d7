import FlowTrace.Flowchart.Basic
import FlowTrace.Report.Basic

/-! # Flows

A **flow** is a flowchart in the making, together with the steps that walk it: every node other
than start and end has one step, in creation order. Each language walks its program and adds
nodes to a flow; `Flow.finish` closes it. -/

namespace FlowTrace

/-- A **flow**: a flowchart in the making and the steps that walk it. -/
structure Flow where
  /-- The flowchart so far. -/
  chart : Flowchart
  /-- The steps so far, in order. -/
  steps : List Step
  /-- The number in the next numbered id. -/
  counter : Nat
  deriving Repr

/-- How a node looks, whatever its id. -/
structure Face where
  /-- The text inside the node. -/
  label : Text
  /-- The outline. -/
  shape : Shape
  /-- The name of the colour that fills it. -/
  fill : Text
  /-- The source line. -/
  line : Nat
  deriving Repr

/-- What a step says besides the node it belongs to. -/
structure Note where
  /-- What happens in the step; the label of the node when empty. -/
  description : Text := []
  /-- The variables that the step assigns. -/
  bindings : Bindings := []
  /-- What the step prints. -/
  output : Option Text := none
  deriving Repr

namespace Flow

/-- The flow that has only the start node. -/
def start : Flow := ⟨Flowchart.empty.addNode Flowchart.startNode, [], 1⟩

/-- Adds a node below `parent`, and its step. -/
def add (flow : Flow) (parent id : Text) (face : Face) (note : Note) : Flow :=
  let node : Node := ⟨id, face.label, face.shape, face.fill, face.line⟩
  let step : Step :=
    { nodeId := id
      description := if note.description.isEmpty then face.label else note.description
      bindings := note.bindings
      output := note.output
      line := some face.line }
  { flow with
    chart := (flow.chart.addNode node).addEdge parent id
    steps := flow.steps ++ [step] }

/-- The next numbered id with a stem. -/
def nextId (flow : Flow) (stem : Text) : Text := stem ++ "_" ++ Text.ofNat flow.counter

/-- Adds a node with the next numbered id below `parent`, and its step; returns the id. -/
def addNumbered (flow : Flow) (parent stem : Text) (face : Face) (note : Note := {}) :
    Flow × Text :=
  let id := flow.nextId stem
  ({ flow.add parent id face note with counter := flow.counter + 1 }, id)

/-- Adds an edge. -/
def link (flow : Flow) (source target : Text) : Flow :=
  { flow with chart := flow.chart.addEdge source target }

/-- The step of a program without statements. -/
def defaultStep : Step :=
  { nodeId := "default", description := "No significant statements found", line := some (-1) }

/-- Leads the flow from `last` to the end node. A program without statements still has one
step. -/
def finish (flow : Flow) (last : Text) : Flowchart × List Step :=
  ((flow.chart.addNode Flowchart.endNode).addEdge last Flowchart.endId,
    if flow.steps.isEmpty then [defaultStep] else flow.steps)

/-- The only step of code that is not a program. -/
def errorStep (description : Text) : Step :=
  { nodeId := "error", description, line := some (-1) }

end Flow

end FlowTrace
