import FlowTrace.Flowchart.Layout
import FlowTrace.Text.Markup

/-! # Drawing flowcharts

A layout written as standalone SVG markup. Every node is a group that carries the node's id, so
that a reader of the markup can find and highlight it (`FlowTrace.Highlight`). -/

namespace FlowTrace

namespace Layout

/-- The markup of one drawn edge. -/
def edgeMarkup (e : PlacedEdge) : Text :=
  let corner (p : Half × Half) : Text := p.1.text ++ " " ++ p.2.text
  let path := "M " ++ Text.joinWith " L " (e.points.map corner)
  "<g id=\"edge" ++ Text.ofNat e.number ++ "\" class=\"edge\"><title>" ++
    e.edge.source.escapeMarkup ++ "&#45;&gt;" ++ e.edge.target.escapeMarkup ++
    "</title><path d=\"" ++ path ++
    "\" fill=\"none\" stroke=\"#333\" marker-end=\"url(#arrow)\"/></g>\n"

/-- A polygon with the given corners. -/
def polygon (corners : List (Half × Half)) (fill : Text) : Text :=
  "<polygon points=\"" ++
    Text.joinWith " " (corners.map fun p => p.1.text ++ "," ++ p.2.text) ++
    "\" fill=\"" ++ fill ++ "\" stroke=\"black\"/>"

/-- A figure as markup. -/
def figureMarkup (figure : Figure) (fill : Text) : Text :=
  match figure with
  | .ellipse center radii =>
    "<ellipse cx=\"" ++ center.1.text ++ "\" cy=\"" ++ center.2.text ++ "\" rx=\"" ++
      radii.1.text ++ "\" ry=\"" ++ radii.2.text ++ "\" fill=\"" ++ fill ++
      "\" stroke=\"black\"/>"
  | .polygon corners => polygon corners fill
  | .rectangle corner size =>
    "<rect x=\"" ++ corner.1.text ++ "\" y=\"" ++ corner.2.text ++ "\" width=\"" ++
      size.1.text ++ "\" height=\"" ++ size.2.text ++ "\" fill=\"" ++ fill ++
      "\" stroke=\"black\"/>"

/-- The outline of a node. -/
def outline (p : PlacedNode) (fill : Text) : Text := figureMarkup p.figure fill

/-- The markup of one node. -/
def nodeMarkup (p : PlacedNode) : Text :=
  let id := p.node.id.escapeMarkup
  let fill : Text := if p.node.fill.isEmpty then "white" else p.node.fill
  "<g id=\"" ++ id ++ "\" class=\"node\"><title>" ++ id ++ "</title>" ++ outline p fill ++
    "<text x=\"" ++ p.x.text ++ "\" y=\"" ++ p.y.text ++
    "\" text-anchor=\"middle\" dominant-baseline=\"middle\" font-family=\"Helvetica,sans-serif\" font-size=\"12\">" ++
    (shownLabel p.node.label).escapeMarkup ++ "</text></g>\n"

/-- The opening of the drawing: the canvas and the head of an arrow. -/
def opening (layout : Layout) : Text :=
  let w := Text.ofNat layout.width
  let h := Text.ofNat layout.height
  "<svg xmlns=\"http://www.w3.org/2000/svg\" width=\"" ++ w ++ "\" height=\"" ++ h ++
    "\" viewBox=\"0 0 " ++ w ++ " " ++ h ++ "\">\n" ++
    "<defs><marker id=\"arrow\" viewBox=\"0 0 10 10\" refX=\"10\" refY=\"5\" markerWidth=\"8\" markerHeight=\"8\" orient=\"auto-start-reverse\"><path d=\"M 0 0 L 10 5 L 0 10 z\" fill=\"#333\"/></marker></defs>\n"

/-- The layout as markup: opening, edges, nodes, closing. -/
def markup (layout : Layout) : Text :=
  layout.opening ++ (layout.edges.flatMap edgeMarkup ++
    (layout.nodes.flatMap nodeMarkup ++ "</svg>\n"))

end Layout

/-- The flowchart as standalone SVG markup. -/
def Flowchart.render (chart : Flowchart) : Text := (Layout.of chart).markup

end FlowTrace
