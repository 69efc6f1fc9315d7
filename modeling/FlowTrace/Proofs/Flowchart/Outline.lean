import FlowTrace.Flowchart.Flow

/-! # Outlines

The **outline** of a flowchart is what is left without the texts inside the nodes: their number and
order, their ids, shapes, colours and lines, and the edges. Whatever adds to a flow adds to its
outline in a way that depends on the outline alone. -/

namespace FlowTrace

/-- A node without its text. -/
def Node.unlabelled (node : Node) : Node := { node with label := [] }

/-- The outline of a flowchart. -/
def Flowchart.outline (chart : Flowchart) : Flowchart :=
  { chart with nodes := chart.nodes.map Node.unlabelled }

/-- A face without its text. -/
def Face.unlabelled (face : Face) : Face := { face with label := [] }

/-- The outline of a flow: that of its flowchart, without the steps. -/
def Flow.outline (flow : Flow) : Flow := { flow with chart := flow.chart.outline, steps := [] }

namespace Flowchart

variable (chart : Flowchart)

/-- A node is added to the outline without its label. -/
theorem outline_addNode (node : Node) :
    (chart.addNode node).outline = chart.outline.addNode node.unlabelled := by
  have same : chart.outline.has node.unlabelled.id = chart.has node.id := by
    simp only [has, outline, List.any_map]
    rfl
  unfold addNode
  rw [same]
  split
  · rfl
  · simp [outline]

/-- An edge is added to the outline. -/
theorem outline_addEdge (source target : Text) :
    (chart.addEdge source target).outline = chart.outline.addEdge source target := rfl

end Flowchart

namespace Flow

variable {flow flow' : Flow}

/-- Nodes with the same looks are added to flows with the same outline. -/
theorem outline_add (same : flow.outline = flow'.outline) (parent id : Text) {face face' : Face}
    (looks : face.unlabelled = face'.unlabelled) (note note' : Note) :
    (flow.add parent id face note).outline = (flow'.add parent id face' note').outline := by
  have added (flow : Flow) (face : Face) (note : Note) : (flow.add parent id face note).outline =
      { flow.outline with
        chart := (flow.outline.chart.addNode ⟨id, face.unlabelled.label, face.unlabelled.shape,
          face.unlabelled.fill, face.unlabelled.line⟩).addEdge parent id } := by
    simp only [outline, add, Flowchart.outline_addEdge, Flowchart.outline_addNode]
    rfl
  rw [added, added, same, looks]

/-- The same link keeps outlines the same. -/
theorem outline_link (same : flow.outline = flow'.outline) (source target : Text) :
    (flow.link source target).outline = (flow'.link source target).outline := by
  have linked (flow : Flow) : (flow.link source target).outline =
      { flow.outline with chart := flow.outline.chart.addEdge source target } := rfl
  rw [linked, linked, same]

/-- Flows with the same outline have counted the same. -/
theorem counter_of_outline (same : flow.outline = flow'.outline) : flow.counter = flow'.counter :=
  calc flow.counter
    _ = flow.outline.counter := rfl
    _ = flow'.outline.counter := by rw [same]
    _ = flow'.counter := rfl

/-- The next numbered id is the same, too. -/
theorem outline_addNumbered (same : flow.outline = flow'.outline) (parent stem : Text)
    {face face' : Face} (looks : face.unlabelled = face'.unlabelled) (note note' : Note) :
    (flow.addNumbered parent stem face note).1.outline =
        (flow'.addNumbered parent stem face' note').1.outline ∧
      (flow.addNumbered parent stem face note).2 = (flow'.addNumbered parent stem face' note').2 := by
  have count := counter_of_outline same
  have id : flow.nextId stem = flow'.nextId stem := by rw [nextId, nextId, count]
  have added := outline_add same parent (flow.nextId stem) looks note note'
  have numbered (flow : Flow) (face : Face) (note : Note) :
      (flow.addNumbered parent stem face note).1.outline =
        { (flow.add parent (flow.nextId stem) face note).outline with
          counter := flow.counter + 1 } := rfl
  refine ⟨?_, id⟩
  rw [numbered, numbered, ← id, added, count]

/-- Flows with the same outline finish with the same outline. -/
theorem outline_finish (same : flow.outline = flow'.outline) (last : Text) :
    (flow.finish last).1.outline = (flow'.finish last).1.outline := by
  have finished (flow : Flow) : (flow.finish last).1.outline =
      (flow.outline.chart.addNode Flowchart.endNode.unlabelled).addEdge last Flowchart.endId := by
    rw [finish, Flowchart.outline_addEdge, Flowchart.outline_addNode]
    rfl
  rw [finished, finished, same]

end Flow

end FlowTrace
