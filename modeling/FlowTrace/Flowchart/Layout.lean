import FlowTrace.Flowchart.Basic
import FlowTrace.Text.Blank

/-! # Layout of flowcharts

Nodes are placed below each other in creation order, all centred on one vertical line. An edge
to the next node is a straight line; an edge that skips nodes runs through a lane of its own on
the left, and an edge that goes back through a lane of its own on the right. All coordinates are
multiples of one half and are kept as whole numbers of halves. -/

namespace FlowTrace

/-- A coordinate, in halves of the unit. -/
abbrev Half := Int

namespace Half

/-- The text of a coordinate, with one decimal place. -/
def text (h : Half) : Text :=
  (if h < 0 then "-" else "") ++ Text.ofNat (h.natAbs / 2) ++
    (if h.natAbs % 2 == 0 then ".0" else ".5")

/-- The coordinate of a whole number of units. -/
def ofNat (n : Nat) : Half := 2 * (n : Int)

end Half

namespace Layout

/-- The space left and right of the drawing. -/
def marginX : Nat := 40

/-- The space above and below the drawing. -/
def marginY : Nat := 30

/-- The distance from one node to the next. -/
def rowHeight : Nat := 72

/-- The height of a node. -/
def nodeHeight : Nat := 40

/-- The width of one character of a label. -/
def charWidth : Nat := 7

/-- The least width of a node. -/
def minNodeWidth : Nat := 80

/-- The longest label, in code points. -/
def maxLabel : Nat := 48

/-- The distance from one lane to the next. -/
def laneGap : Nat := 14

/-- The horizontal slant of a parallelogram. -/
def slant : Half := Half.ofNat 12

/-- A label as it is drawn: on one line, and cut short when it is too long. -/
def shownLabel (label : Text) : Text :=
  let label := label.collapse
  if label.runeCount ≤ maxLabel then label
  else Text.ofRunes (label.runes.take (maxLabel - 3)) ++ "..."

/-- The width of the node that carries a label. -/
def nodeWidth (label : Text) : Nat :=
  max minNodeWidth ((shownLabel label).runeCount * charWidth + 40)

end Layout

/-- A node with its place: the centre and the size of its box. -/
structure PlacedNode where
  /-- The node. -/
  node : Node
  /-- The horizontal centre. -/
  x : Half
  /-- The vertical centre. -/
  y : Half
  /-- The width, in units. -/
  width : Nat
  deriving Repr

namespace PlacedNode

/-- The left border of the box. -/
def left (p : PlacedNode) : Half := p.x - p.width

/-- The right border of the box. -/
def right (p : PlacedNode) : Half := p.x + p.width

/-- The upper border of the box. -/
def top (p : PlacedNode) : Half := p.y - Layout.nodeHeight

/-- The lower border of the box. -/
def bottom (p : PlacedNode) : Half := p.y + Layout.nodeHeight

/-- The corners of the outline: of an ellipse the points where it touches its box. -/
def corners (p : PlacedNode) : List (Half × Half) :=
  match p.node.shape with
  | .oval | .diamond => [(p.x, p.top), (p.right, p.y), (p.x, p.bottom), (p.left, p.y)]
  | .parallelogram =>
    [(p.left + Layout.slant, p.top), (p.right, p.top), (p.right - Layout.slant, p.bottom),
      (p.left, p.bottom)]
  | _ => [(p.left, p.top), (p.right, p.top), (p.right, p.bottom), (p.left, p.bottom)]

end PlacedNode

/-- A **figure**, by the numbers that draw it. -/
inductive Figure where
  /-- An ellipse, by its centre and its radii. -/
  | ellipse (center radii : Half × Half)
  /-- A polygon, by its corners. -/
  | polygon (corners : List (Half × Half))
  /-- A rectangle, by its left upper corner and its width and height. -/
  | rectangle (corner size : Half × Half)
  deriving DecidableEq, Repr

/-- The figure that is drawn for a node. -/
def PlacedNode.figure (p : PlacedNode) : Figure :=
  match p.node.shape with
  | .oval => .ellipse (p.x, p.y) (p.width, Layout.nodeHeight)
  | .diamond | .parallelogram => .polygon p.corners
  | _ => .rectangle (p.left, p.top) (Half.ofNat p.width, Half.ofNat Layout.nodeHeight)

/-- How an edge is led from its source to its target. -/
inductive Route where
  /-- Straight down to the next node. -/
  | straight
  /-- Past other nodes, through a lane on the left. -/
  | skip (lane : Nat)
  /-- Back to the same or an earlier node, through a lane on the right. -/
  | back (lane : Nat)
  deriving DecidableEq, Repr

/-- An edge with its path. -/
structure PlacedEdge where
  /-- The number of the edge among all edges, from one. -/
  number : Nat
  /-- The edge. -/
  edge : Edge
  /-- How it is led. -/
  route : Route
  /-- The corners of the path. -/
  points : List (Half × Half)
  deriving Repr

/-- A **layout**: the canvas and everything placed on it. -/
structure Layout where
  /-- The width of the canvas. -/
  width : Nat
  /-- The height of the canvas. -/
  height : Nat
  /-- The nodes, in creation order. -/
  nodes : List PlacedNode
  /-- The edges whose two ends are nodes. -/
  edges : List PlacedEdge
  deriving Repr

namespace Layout

/-- What the two ends of an edge mean for its path. -/
inductive Span where
  /-- An end is missing, so that the edge is not drawn. -/
  | missing
  /-- From a node to the next one. -/
  | next (source target : Nat)
  /-- From a node to one further down. -/
  | forward (source target : Nat)
  /-- From a node to itself or to one further up. -/
  | backward (source target : Nat)
  deriving DecidableEq, Repr

/-- The span of an edge in a flowchart. -/
def span (chart : Flowchart) (edge : Edge) : Span :=
  match chart.position? edge.source, chart.position? edge.target with
  | some source, some target =>
    if target = source + 1 then .next source target
    else if source < target then .forward source target
    else .backward source target
  | _, _ => .missing

/-- A side of the column of nodes. -/
inductive Side where
  /-- The side on which edges skip nodes. -/
  | left
  /-- The side on which edges go back. -/
  | right
  deriving DecidableEq, Repr

/-- The side on which a lane is set aside for an edge: on the right if it goes back or stays, on
the left if there are nodes between its ends. -/
def laneSide? (chart : Flowchart) (edge : Edge) : Option Side :=
  match chart.position? edge.source, chart.position? edge.target with
  | some source, some target =>
    if target ≤ source then some .right
    else if source + 1 < target then some .left
    else none
  | _, _ => none

/-- The measures that every placement depends on. -/
structure Measures where
  /-- The width of the widest node. -/
  boxWidth : Nat
  /-- The number of lanes on the left. -/
  skipLanes : Nat
  /-- The number of lanes on the right. -/
  backLanes : Nat
  deriving Repr

/-- The measures of a flowchart. -/
def measure (chart : Flowchart) : Measures where
  boxWidth := chart.nodes.foldl (fun width node => max width (nodeWidth node.label)) minNodeWidth
  skipLanes := chart.edges.countP fun edge => laneSide? chart edge == some .left
  backLanes := chart.edges.countP fun edge => laneSide? chart edge == some .right

/-- The vertical line on which all nodes are centred. -/
def Measures.centerX (m : Measures) : Half :=
  Half.ofNat (marginX + m.skipLanes * laneGap + m.boxWidth / 2)

/-- The vertical centre of the node with an index. -/
def rowCenter (index : Nat) : Half := Half.ofNat (marginY + index * rowHeight + nodeHeight / 2)

/-- The place of the node with an index. -/
def placeNode (m : Measures) (index : Nat) (node : Node) : PlacedNode :=
  ⟨node, m.centerX, rowCenter index, nodeWidth node.label⟩

/-- The horizontal position of a lane on the left, counted from one. -/
def Measures.skipLaneX (m : Measures) (lane : Nat) : Half :=
  m.centerX - m.boxWidth - Half.ofNat (lane * laneGap)

/-- The horizontal position of a lane on the right, counted from one. -/
def Measures.backLaneX (m : Measures) (lane : Nat) : Half :=
  m.centerX + m.boxWidth + Half.ofNat (lane * laneGap)

/-- The corners of a straight edge. -/
def straightPath (source target : PlacedNode) : List (Half × Half) :=
  [(source.x, source.bottom), (target.x, target.top)]

/-- The corners of an edge through a lane on the left. -/
def skipPath (laneX : Half) (source target : PlacedNode) : List (Half × Half) :=
  [(source.left, source.y), (laneX, source.y), (laneX, target.y), (target.left, target.y)]

/-- The corners of an edge through a lane on the right. -/
def backPath (laneX : Half) (source target : PlacedNode) : List (Half × Half) :=
  [(source.right, source.y), (laneX, source.y), (laneX, target.y), (target.right, target.y)]

/-- Places the edges one after the other, counting the lanes used on each side. -/
def placeEdges (chart : Flowchart) (m : Measures) (nodes : List PlacedNode) :
    List Edge → (number skips backs : Nat) → List PlacedEdge
  | [], _, _, _ => []
  | edge :: edges, number, skips, backs =>
    let ends (source target : Nat) : Option (PlacedNode × PlacedNode) := do
      return (← nodes[source]?, ← nodes[target]?)
    match span chart edge with
    | .missing => placeEdges chart m nodes edges (number + 1) skips backs
    | .next source target =>
      (ends source target).toList.map (fun (tail, head) =>
          ⟨number, edge, .straight, straightPath tail head⟩) ++
        placeEdges chart m nodes edges (number + 1) skips backs
    | .forward source target =>
      (ends source target).toList.map (fun (tail, head) =>
          ⟨number, edge, .skip (skips + 1), skipPath (m.skipLaneX (skips + 1)) tail head⟩) ++
        placeEdges chart m nodes edges (number + 1) (skips + 1) backs
    | .backward source target =>
      (ends source target).toList.map (fun (tail, head) =>
          ⟨number, edge, .back (backs + 1), backPath (m.backLaneX (backs + 1)) tail head⟩) ++
        placeEdges chart m nodes edges (number + 1) skips (backs + 1)

/-- The **layout** of a flowchart. -/
def of (chart : Flowchart) : Layout :=
  let m := measure chart
  let nodes := chart.nodes.mapIdx (placeNode m)
  { width := marginX * 2 + (m.skipLanes + m.backLanes) * laneGap + m.boxWidth
    height := marginY * 2 + chart.nodes.length * rowHeight
    nodes
    edges := placeEdges chart m nodes chart.edges 1 0 0 }

end Layout

end FlowTrace
