import FlowTrace.Text.Markup

/-! # The highlighted node

One node of a flowchart may be highlighted. A node is there when the markup has a group with its
id; ids are compared as they are written inside markup. -/

namespace FlowTrace

/-- The beginning of the group of a node, as it stands in the markup. -/
def nodeTag (id : Text) : Text := "<g id=\"" ++ id.escapeMarkup ++ "\""

/-- Whether a flowchart has a node. -/
def hasNode (flowchart id : Text) : Bool := !id.isEmpty && flowchart.includes (nodeTag id)

/-- A **highlight**: the id of the highlighted node, empty when there is none. -/
structure Highlight where
  /-- The id of the node. -/
  current : Text := []
  deriving DecidableEq, Repr

namespace Highlight

/-- Moves the highlight to a node of a flowchart; it stays where it is when the node is not
there. The flag tells whether it moved. -/
def moveTo (highlight : Highlight) (flowchart id : Text) : Highlight × Bool :=
  if hasNode flowchart id then (⟨id⟩, true) else (highlight, false)

/-- No highlight. -/
def clear : Highlight := ⟨[]⟩

@[simp] theorem current_clear : clear.current = [] := rfl

/-- The highlight moves to nodes of the flowchart only. -/
@[simp] theorem current_moveTo (highlight : Highlight) (flowchart id : Text) :
    (highlight.moveTo flowchart id).1.current =
      if hasNode flowchart id then id else highlight.current := by
  unfold moveTo
  split <;> rfl

end Highlight

end FlowTrace
