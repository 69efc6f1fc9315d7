import FlowTrace.Text.Basic

/-! # Flowcharts

A **flowchart** has nodes in the order in which they were created and directed edges between node
ids. A repeated id keeps the node that had it first; edges are kept as they come, whether their
ends exist or not. -/

namespace FlowTrace

/-- The outline that a node is drawn with. -/
inductive Shape where
  /-- An ellipse. -/
  | oval
  /-- A rectangle. -/
  | rectangle
  /-- A diamond. -/
  | diamond
  /-- A slanted rectangle. -/
  | parallelogram
  /-- Any other name; drawn like a rectangle. -/
  | other (name : Text)
  deriving DecidableEq, Repr

namespace Shape

/-- The name of a shape. -/
def name : Shape → Text
  | oval => "oval"
  | rectangle => "rectangle"
  | diamond => "diamond"
  | parallelogram => "parallelogram"
  | other name => name

/-- The shape with a name. -/
def ofName (text : Text) : Shape :=
  if text == "oval" then oval
  else if text == "rectangle" then rectangle
  else if text == "diamond" then diamond
  else if text == "parallelogram" then parallelogram
  else other text

end Shape

/-- A **node** of a flowchart. -/
structure Node where
  /-- The id, unique in its flowchart. -/
  id : Text
  /-- The text inside the node. -/
  label : Text
  /-- The outline. -/
  shape : Shape
  /-- The name of the colour that fills it; white when empty. -/
  fill : Text
  /-- The source line; zero when there is none. -/
  line : Int
  deriving DecidableEq, Repr

/-- An **edge** between two node ids. -/
structure Edge where
  /-- The id where the edge begins. -/
  source : Text
  /-- The id where the edge ends. -/
  target : Text
  deriving DecidableEq, Repr

/-- A **flowchart**. -/
structure Flowchart where
  /-- The nodes, in creation order. -/
  nodes : List Node
  /-- The edges, in creation order. -/
  edges : List Edge
  deriving DecidableEq, Repr

namespace Flowchart

/-- The flowchart without nodes and edges. -/
def empty : Flowchart := ⟨[], []⟩

/-- The creation index of a node id. -/
def position? (chart : Flowchart) (id : Text) : Option Nat :=
  chart.nodes.findIdx? (·.id == id)

/-- Whether a node has this id. -/
def has (chart : Flowchart) (id : Text) : Bool := chart.nodes.any (·.id == id)

/-- Adds a node. If its id is taken, the flowchart is unchanged. -/
def addNode (chart : Flowchart) (node : Node) : Flowchart :=
  if chart.has node.id then chart else { chart with nodes := chart.nodes ++ [node] }

/-- Adds an edge. -/
def addEdge (chart : Flowchart) (source target : Text) : Flowchart :=
  { chart with edges := chart.edges ++ [⟨source, target⟩] }

/-- A further edge leaves the nodes alone. -/
@[simp] theorem nodes_addEdge (chart : Flowchart) (source target : Text) :
    (chart.addEdge source target).nodes = chart.nodes := rfl

/-- A further edge comes behind those before it. -/
@[simp] theorem edges_addEdge (chart : Flowchart) (source target : Text) :
    (chart.addEdge source target).edges = chart.edges ++ [⟨source, target⟩] := rfl

/-- A further node leaves the edges alone. -/
@[simp] theorem edges_addNode (chart : Flowchart) (node : Node) :
    (chart.addNode node).edges = chart.edges := by
  unfold addNode
  split <;> rfl

/-- The id of the first node of every program. -/
def startId : Text := "Start"

/-- The id of the last node of every program. -/
def endId : Text := "End"

/-- The node where every program begins. -/
def startNode : Node := ⟨startId, "Start", .oval, "lightgreen", 0⟩

/-- The node where every program ends. -/
def endNode : Node := ⟨endId, "End", .oval, "red", 0⟩

/-- The flowchart of code that has no program in it: a message between start and end. -/
def ofMessage (message : Text) : Flowchart :=
  let start := empty.addNode startNode
  if message.isEmpty then (start.addNode endNode).addEdge startId endId
  else
    let told := (start.addNode ⟨"Error", message, .rectangle, "lightcoral", 0⟩).addEdge
      startId "Error"
    (told.addNode endNode).addEdge "Error" endId

end Flowchart

end FlowTrace
