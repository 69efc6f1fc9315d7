import Mathlib.Data.List.Basic
import Mathlib.Data.List.Count
import Mathlib.Data.List.Nodup
import Mathlib.Logic.Relation
import FlowTrace.Flowchart.Basic
import FlowTrace.Flowchart.Flow

/-! # How flowcharts grow

Every flowchart grows from the start node in two ways: a node with a new id is added below a node
that is there (`Grown.addBelow`), or an edge is led back from a node to a loop that was created
before it (`Grown.leadBack`). A flow that has grown so is **sound** (`Flow.Sound`), and when it is
finished its flowchart is **well-formed** (`Flowchart.WellFormed`, `Flow.Sound.wellFormed`). -/

/-! ## Creation order and paths

The nodes of a flowchart are in the order in which they were created, so that each edge leads
**forward**, to a node that was created later, or **back**. A node **leads** to another one when
there is a path of edges between them. This file says how both change while a flowchart grows: the
order of nodes that are there never changes, and paths are never lost. -/

namespace FlowTrace.Flowchart

variable {chart larger : Flowchart} {a b c id : Text}

/-! ## Ids -/

/-- The ids of the nodes, in creation order. -/
def ids (chart : Flowchart) : List Text := chart.nodes.map (·.id)

/-- A chart has the nodes whose ids are listed. -/
theorem has_iff_mem_ids : chart.has id = true ↔ id ∈ chart.ids := by
  simp [has, ids]

/-- A node with a new id is added at the end. -/
theorem nodes_addNode_of_new {node : Node} (new : node.id ∉ chart.ids) :
    (chart.addNode node).nodes = chart.nodes ++ [node] := by
  rw [← has_iff_mem_ids] at new
  rw [addNode, if_neg new]

/-- A new node is listed last. -/
theorem ids_addNode_of_new {node : Node} (new : node.id ∉ chart.ids) :
    (chart.addNode node).ids = chart.ids ++ [node.id] := by
  rw [ids, nodes_addNode_of_new new, List.map_append]
  rfl

/-! ## Creation order -/

/-- Whether both ids belong to nodes, and the first to the one that was created earlier. -/
def createdBefore (chart : Flowchart) (a b : Text) : Bool :=
  match chart.position? a, chart.position? b with
  | some i, some j => i < j
  | _, _ => false

/-- Whether an edge leads to a node that was created before the one it comes from. -/
def goesBack (chart : Flowchart) (edge : Edge) : Bool :=
  chart.createdBefore edge.target edge.source

/-- A node is created before another when its position is smaller. -/
theorem createdBefore_iff : chart.createdBefore a b = true ↔
    ∃ i j, chart.position? a = some i ∧ chart.position? b = some j ∧ i < j := by
  unfold createdBefore
  constructor
  · intro before
    split at before
    · rename_i i j first second
      exact ⟨i, j, first, second, by simpa using before⟩
    · cases before
  · rintro ⟨i, j, first, second, before⟩
    rw [first, second]
    simpa using before

/-- The creation index is the index in the list of ids. -/
theorem position?_eq : chart.position? id = chart.ids.findIdx? (· == id) := by
  rw [ids, List.findIdx?_map]
  rfl

/-- What has a position is listed. -/
theorem mem_ids_of_position? {i : Nat} (h : chart.position? id = some i) : id ∈ chart.ids := by
  rw [position?_eq] at h
  obtain ⟨bound, same, -⟩ := List.findIdx?_eq_some_iff_getElem.1 h
  have found : chart.ids[i] = id := by simpa using same
  exact found ▸ List.getElem_mem bound

/-- What is listed has a position. -/
theorem exists_position? (h : id ∈ chart.ids) :
    ∃ i, chart.position? id = some i ∧ i < chart.ids.length := by
  rw [position?_eq]
  cases found : chart.ids.findIdx? (· == id) with
  | none =>
    have missing := List.findIdx?_eq_none_iff.1 found id h
    simp at missing
  | some i =>
    obtain ⟨bound, -⟩ := List.findIdx?_eq_some_iff_getElem.1 found
    exact ⟨i, rfl, bound⟩

/-- No node is created before itself. -/
theorem createdBefore_irrefl : chart.createdBefore a a = false := by
  rw [Bool.eq_false_iff]
  intro before
  obtain ⟨i, j, first, second, less⟩ := createdBefore_iff.1 before
  rw [first] at second
  cases second
  exact absurd less (Nat.lt_irrefl i)

/-- A node that is created before another is another one. -/
theorem ne_of_createdBefore (h : chart.createdBefore a b = true) : a ≠ b := by
  rintro rfl
  rw [createdBefore_irrefl] at h
  cases h

/-- Of two nodes one at most is created before the other. -/
theorem createdBefore_asymm (h : chart.createdBefore a b = true) :
    chart.createdBefore b a = false := by
  obtain ⟨i, j, first, second, less⟩ := createdBefore_iff.1 h
  rw [Bool.eq_false_iff]
  intro reverse
  obtain ⟨j', i', second', first', less'⟩ := createdBefore_iff.1 reverse
  rw [first] at first'
  rw [second] at second'
  cases first'
  cases second'
  omega

/-- Nodes that are created before others are listed, and so are the others. -/
theorem mem_ids_of_createdBefore (h : chart.createdBefore a b = true) :
    a ∈ chart.ids ∧ b ∈ chart.ids := by
  obtain ⟨i, j, first, second, -⟩ := createdBefore_iff.1 h
  exact ⟨mem_ids_of_position? first, mem_ids_of_position? second⟩

/-! ## Growth -/

/-- A flowchart is **part** of another one that has further nodes behind its own, and all of its
edges. -/
structure PartOf (chart larger : Flowchart) : Prop where
  /-- Its ids come first. -/
  ids : chart.ids <+: larger.ids
  /-- Its edges are there. -/
  edges : chart.edges ⊆ larger.edges

namespace PartOf

/-- A chart is a part of itself. -/
theorem refl (chart : Flowchart) : chart.PartOf chart := ⟨List.prefix_rfl, List.Subset.refl _⟩

/-- A part of a part is a part. -/
theorem trans {middle : Flowchart} (h : chart.PartOf middle) (h' : middle.PartOf larger) :
    chart.PartOf larger := ⟨h.ids.trans h'.ids, List.Subset.trans h.edges h'.edges⟩

/-- A larger chart has the nodes of its parts. -/
theorem mem (h : chart.PartOf larger) (member : id ∈ chart.ids) : id ∈ larger.ids :=
  h.ids.subset member

/-- The creation index of a node stays. -/
theorem position? (h : chart.PartOf larger) (member : id ∈ chart.ids) :
    larger.position? id = chart.position? id := by
  obtain ⟨more, split⟩ := h.ids
  obtain ⟨i, found, -⟩ := exists_position? member
  rw [position?_eq] at found ⊢
  rw [position?_eq, ← split, List.findIdx?_append, found]
  rfl

/-- The order of two nodes stays. -/
theorem createdBefore (h : chart.PartOf larger) (ha : a ∈ chart.ids) (hb : b ∈ chart.ids) :
    larger.createdBefore a b = chart.createdBefore a b := by
  unfold Flowchart.createdBefore
  rw [h.position? ha, h.position? hb]

/-- A node that was there was created before one that came in since. -/
theorem createdBefore_new (h : chart.PartOf larger) (ha : a ∈ chart.ids) (hb : b ∈ larger.ids)
    (new : b ∉ chart.ids) : larger.createdBefore a b = true := by
  obtain ⟨i, first, less⟩ := exists_position? ha
  obtain ⟨j, second, -⟩ := exists_position? hb
  refine createdBefore_iff.2 ⟨i, j, (h.position? ha).trans first, second, ?_⟩
  refine Nat.lt_of_lt_of_le less ?_
  -- The index of the new node cannot lie in the first part, whose ids are other ones.
  by_contra outside
  have inside : j < chart.ids.length := Nat.lt_of_not_le outside
  obtain ⟨more, split⟩ := h.ids
  rw [position?_eq, ← split] at second
  obtain ⟨bound, same, -⟩ := List.findIdx?_eq_some_iff_getElem.1 second
  have found : chart.ids[j] = b := by
    rw [List.getElem_append_left inside] at same
    simpa using same
  exact new (found ▸ List.getElem_mem inside)

end PartOf

/-- A chart is a part of itself with one more edge. -/
theorem partOf_addEdge (source target : Text) : chart.PartOf (chart.addEdge source target) :=
  ⟨List.prefix_rfl, List.subset_append_left _ _⟩

/-- A chart is a part of itself with a new node. -/
theorem partOf_addNode (node : Node) (new : node.id ∉ chart.ids) :
    chart.PartOf (chart.addNode node) := by
  refine ⟨?_, ?_⟩
  · rw [ids_addNode_of_new new]
    exact List.prefix_append _ _
  · rw [edges_addNode]
    exact List.Subset.refl _

/-! ## Paths -/

/-- There is a **path** from one node to another one. -/
def Leads (chart : Flowchart) : Text → Text → Prop :=
  Relation.ReflTransGen fun a b => ⟨a, b⟩ ∈ chart.edges

/-- Every node leads to itself. -/
theorem Leads.refl (chart : Flowchart) (a : Text) : chart.Leads a a := Relation.ReflTransGen.refl

/-- Ways can be put together. -/
theorem Leads.trans (h : chart.Leads a b) (h' : chart.Leads b c) : chart.Leads a c :=
  Relation.ReflTransGen.trans h h'

/-- An edge is a way. -/
theorem Leads.edge (h : ⟨a, b⟩ ∈ chart.edges) : chart.Leads a b := Relation.ReflTransGen.single h

/-- Paths are never lost. -/
theorem Leads.mono (part : chart.PartOf larger) (h : chart.Leads a b) : larger.Leads a b :=
  Relation.ReflTransGen.mono (fun _ _ member => part.edges member) _ _ h

/-- A path does not leave a set of nodes that no edge leaves. -/
theorem Leads.stays (inside : Text → Prop)
    (closed : ∀ edge ∈ chart.edges, inside edge.source → inside edge.target)
    (h : chart.Leads a b) (start : inside a) : inside b := by
  induction h with
  | refl => exact start
  | tail _ step ih => exact closed _ step ih

/-- Every node **leads** to this one: there are no dead ends but it. -/
def AllLead (chart : Flowchart) (goal : Text) : Prop := ∀ id ∈ chart.ids, chart.Leads id goal

end FlowTrace.Flowchart

namespace FlowTrace

/-- Whether an id belongs to a loop: the ids of nodes tell the kinds of their statements. -/
def isLoopId (id : Text) : Bool :=
  ["For_", "While_", "Loop_"].any fun kind => Text.startsWith id (Text.of kind)

/-- Whether a node stands for a loop. -/
def Node.isLoop (node : Node) : Bool := isLoopId node.id

namespace Flowchart

/-- The edges that lead back to a node. -/
def backEdges (chart : Flowchart) (id : Text) : List Edge :=
  chart.edges.filter fun edge => edge.target == id && chart.goesBack edge

/-- A **well-formed** flowchart: one way in, one way out, and edges that go back only to loops. -/
structure WellFormed (chart : Flowchart) : Prop where
  /-- No two nodes share an id. -/
  distinct : chart.ids.Nodup
  /-- The start node is the first one. -/
  first : chart.nodes.head? = some startNode
  /-- The end node is the last one. -/
  last : chart.nodes.getLast? = some endNode
  /-- Both ends of every edge are nodes. -/
  ends : ∀ edge ∈ chart.edges, chart.has edge.source = true ∧ chart.has edge.target = true
  /-- Exactly one edge enters the end node. -/
  into_end : (chart.edges.filter (·.target == endId)).length = 1
  /-- No edge leaves the end node. -/
  out_of_end : ∀ edge ∈ chart.edges, edge.source ≠ endId
  /-- Every node can be reached from the start node. -/
  reached : ∀ node ∈ chart.nodes, chart.Leads startId node.id
  /-- No edge leads from a node to itself. -/
  no_self_edge : ∀ edge ∈ chart.edges, edge.source ≠ edge.target
  /-- An edge that goes back leads to a loop. -/
  back_to_loop : ∀ edge ∈ chart.edges, chart.goesBack edge = true →
    ∃ node ∈ chart.nodes, node.id = edge.target ∧ node.isLoop = true
  /-- At most one edge leads back to a loop. -/
  back_once : ∀ node ∈ chart.nodes, node.isLoop = true → (chart.backEdges node.id).length ≤ 1

/-! ## Flowcharts that grow -/

/-- What holds of a flowchart while it grows. -/
structure Grown (chart : Flowchart) : Prop where
  /-- No two nodes share an id. -/
  distinct : chart.ids.Nodup
  /-- The start node is the first one. -/
  first : chart.nodes.head? = some startNode
  /-- Both ends of every edge are nodes. -/
  ends : ∀ edge ∈ chart.edges, edge.source ∈ chart.ids ∧ edge.target ∈ chart.ids
  /-- Every node can be reached from the start node. -/
  reached : ∀ id ∈ chart.ids, chart.Leads startId id
  /-- Every edge goes forward, or back to a loop. -/
  directed : ∀ edge ∈ chart.edges, chart.createdBefore edge.source edge.target = true ∨
    (chart.goesBack edge = true ∧ isLoopId edge.target = true)
  /-- At most one edge goes back to each node. -/
  back_once : ∀ id, (chart.backEdges id).length ≤ 1

variable {chart larger : Flowchart} {parent id last : Text} {node : Node} {edge : Edge}

namespace Grown

/-- An edge that goes back does so in a larger chart too, and no other edge. -/
theorem goesBack_of_partOf (h : chart.Grown) (part : chart.PartOf larger)
    (member : edge ∈ chart.edges) : larger.goesBack edge = chart.goesBack edge :=
  part.createdBefore (h.ends edge member).2 (h.ends edge member).1

/-- An edge that does not lead back to a node changes nothing in the edges that do. -/
theorem backEdges_concat (h : chart.Grown) (part : chart.PartOf larger)
    (more : larger.edges = chart.edges ++ [edge])
    (other : (edge.target == id && larger.goesBack edge) = false) :
    larger.backEdges id = chart.backEdges id := by
  have old : chart.edges.filter (fun e => e.target == id && larger.goesBack e) =
      chart.backEdges id :=
    List.filter_congr fun e member => by rw [h.goesBack_of_partOf part member]
  rw [backEdges, more, List.filter_append, old, List.filter_cons_of_neg (by simp [other]),
    List.filter_nil, List.append_nil]

/-- A node below another adds the edge to it. -/
theorem edges_addBelow : ((chart.addNode node).addEdge parent node.id).edges =
    chart.edges ++ [⟨parent, node.id⟩] := by
  rw [edges_addEdge, edges_addNode]

/-- **Adding a node** with a new id below a node that is there. -/
theorem addBelow (h : chart.Grown) (below : parent ∈ chart.ids) (new : node.id ∉ chart.ids) :
    ((chart.addNode node).addEdge parent node.id).Grown := by
  set grown := (chart.addNode node).addEdge parent node.id with is_grown
  have edges : grown.edges = chart.edges ++ [⟨parent, node.id⟩] := edges_addBelow
  have ids : grown.ids = chart.ids ++ [node.id] := ids_addNode_of_new new
  have part : chart.PartOf grown := (partOf_addNode node new).trans (partOf_addEdge _ _)
  have present : node.id ∈ grown.ids := by
    rw [ids]
    exact List.mem_append_right _ (List.mem_singleton_self node.id)
  have forward : grown.createdBefore parent node.id = true :=
    part.createdBefore_new below present new
  refine ⟨?_, ?_, ?_, ?_, ?_, ?_⟩
  · rw [ids, ← List.concat_eq_append]
    exact h.distinct.concat new
  · rw [is_grown, nodes_addEdge, nodes_addNode_of_new new, List.head?_append, h.first]
    rfl
  · intro edge member
    rw [edges, List.mem_append, List.mem_singleton] at member
    rcases member with old | rfl
    · exact ⟨part.mem (h.ends edge old).1, part.mem (h.ends edge old).2⟩
    · exact ⟨part.mem below, present⟩
  · intro other member
    rw [ids, List.mem_append, List.mem_singleton] at member
    rcases member with old | rfl
    · exact (h.reached other old).mono part
    · -- The new node is reached through the one that it is added below.
      refine ((h.reached parent below).mono part).trans (Leads.edge ?_)
      rw [edges]
      exact List.mem_append_right _ (List.mem_singleton_self _)
  · intro edge member
    rw [edges, List.mem_append, List.mem_singleton] at member
    rcases member with old | rfl
    · rw [h.goesBack_of_partOf part old,
        part.createdBefore (h.ends edge old).1 (h.ends edge old).2]
      exact h.directed edge old
    · exact Or.inl forward
  · -- The only new edge goes forward, so that none goes back that did not before.
    intro other
    have ahead : grown.goesBack ⟨parent, node.id⟩ = false := createdBefore_asymm forward
    rw [h.backEdges_concat part edges (by rw [ahead, Bool.and_false])]
    exact h.back_once other

/-- **Leading back** to a loop to which nothing leads back yet. -/
theorem leadBack (h : chart.Grown) (before : chart.createdBefore id last = true)
    (loop : isLoopId id = true) (untouched : chart.backEdges id = []) :
    (chart.addEdge last id).Grown := by
  have part : chart.PartOf (chart.addEdge last id) := partOf_addEdge last id
  have members := mem_ids_of_createdBefore before
  refine ⟨h.distinct, h.first, ?_, ?_, ?_, ?_⟩
  · intro edge member
    rcases List.mem_append.1 member with old | fresh
    · exact h.ends edge old
    · rw [List.mem_singleton.1 fresh]
      exact ⟨members.2, members.1⟩
  · intro other member
    exact (h.reached other member).mono part
  · intro edge member
    rcases List.mem_append.1 member with old | fresh
    · exact h.directed edge old
    · rw [List.mem_singleton.1 fresh]
      exact Or.inr ⟨before, loop⟩
  · intro other
    by_cases same : id = other
    · -- Nothing led back to this loop, so that the new edge is the only one.
      have old : (chart.edges.filter fun e =>
          e.target == other && (chart.addEdge last id).goesBack e) = [] := by
        rw [← same, ← untouched]
        exact List.filter_congr fun e member => by rw [h.goesBack_of_partOf part member]
      rw [backEdges, edges_addEdge, List.filter_append, old, List.nil_append]
      exact List.length_filter_le _ _
    · rw [h.backEdges_concat part (edges_addEdge _ _ _) (by simp [same])]
      exact h.back_once other

end Grown

end Flowchart

/-! ## Flows -/

namespace Flow

open Flowchart (startId endId startNode endNode)

variable {flow : Flow} {parent id last : Text} {face : Face} {note : Note}

/-- A **sound** flow: one that has grown from the start node, with a step for each other node. -/
structure Sound (flow : Flow) : Prop where
  /-- The flowchart has grown. -/
  grown : flow.chart.Grown
  /-- Behind the start node there is one node for each step, in order and with the same id. -/
  ids : flow.chart.ids = startId :: flow.steps.map (·.nodeId)
  /-- There is no end node yet. -/
  no_end : endId ∉ flow.chart.ids
  /-- No id is empty. -/
  named : [] ∉ flow.chart.ids

/-- The flow that has only the start node is sound. -/
theorem sound_start : start.Sound where
  grown := by
    refine ⟨by decide, rfl, ?_, ?_, ?_, fun id => Nat.zero_le 1⟩
    · intro edge member
      cases member
    · intro id member
      rw [List.mem_singleton.1 member]
      exact Flowchart.Leads.refl _ _
    · intro edge member
      cases member
  ids := rfl
  no_end := by decide
  named := by decide

/-- A flow with one more node has its id, last. -/
theorem ids_add (new : id ∉ flow.chart.ids) :
    (flow.add parent id face note).chart.ids = flow.chart.ids ++ [id] :=
  Flowchart.ids_addNode_of_new new

/-- A flow with one more node has no other ids than before. -/
theorem mem_ids_add (new : id ∉ flow.chart.ids) {other : Text} :
    other ∈ (flow.add parent id face note).chart.ids ↔ other ∈ flow.chart.ids ∨ other = id := by
  rw [ids_add new, List.mem_append, List.mem_singleton]

/-- A flow with one more node has the edge to it, last. -/
theorem edges_add :
    (flow.add parent id face note).chart.edges = flow.chart.edges ++ [⟨parent, id⟩] :=
  Flowchart.Grown.edges_addBelow

/-- A flow is a part of itself with one more node. -/
theorem partOf_add (new : id ∉ flow.chart.ids) :
    flow.chart.PartOf (flow.add parent id face note).chart :=
  (Flowchart.partOf_addNode _ new).trans (Flowchart.partOf_addEdge _ _)

/-- A flow is a part of itself with one more link. -/
theorem partOf_link (source target : Text) : flow.chart.PartOf (flow.link source target).chart :=
  Flowchart.partOf_addEdge _ _

/-- Adding a node with a new id below a node that is there keeps a flow sound. -/
theorem Sound.add (h : flow.Sound) (below : parent ∈ flow.chart.ids) (new : id ∉ flow.chart.ids)
    (not_end : id ≠ endId) (named : id ≠ []) : (flow.add parent id face note).Sound where
  grown := h.grown.addBelow below new
  ids := by
    show _ = startId :: (flow.steps ++ [_]).map _
    rw [ids_add new, h.ids, List.map_append]
    rfl
  no_end := by
    rw [mem_ids_add new]
    rintro (old | rfl)
    · exact h.no_end old
    · exact not_end rfl
  named := by
    rw [mem_ids_add new]
    rintro (old | rfl)
    · exact h.named old
    · exact named rfl

/-- The counter of a flow does not matter. -/
theorem Sound.count (h : flow.Sound) (counter : Nat) : { flow with counter := counter }.Sound :=
  ⟨h.grown, h.ids, h.no_end, h.named⟩

/-- Leading back to a loop to which nothing leads back yet keeps a flow sound. -/
theorem Sound.link (h : flow.Sound) (before : flow.chart.createdBefore id last = true)
    (loop : isLoopId id = true) (untouched : flow.chart.backEdges id = []) :
    (flow.link last id).Sound :=
  ⟨h.grown.leadBack before loop untouched, h.ids, h.no_end, h.named⟩

/-- To a node that was just added nothing leads back. -/
theorem Sound.backEdges_add (h : flow.Sound) (below : parent ∈ flow.chart.ids)
    (new : id ∉ flow.chart.ids) : (flow.add parent id face note).chart.backEdges id = [] := by
  have part : flow.chart.PartOf (flow.add parent id face note).chart := partOf_add new
  have forward : (flow.add parent id face note).chart.createdBefore parent id = true :=
    part.createdBefore_new below ((mem_ids_add new).2 (Or.inr rfl)) new
  rw [Flowchart.backEdges, List.filter_eq_nil_iff]
  intro edge member into
  rw [Bool.and_eq_true, beq_iff_eq] at into
  rw [edges_add, List.mem_append, List.mem_singleton] at member
  -- An old edge cannot end at a node that was not there, and the new one comes from before it.
  rcases member with old | rfl
  · exact new (into.1 ▸ (h.grown.ends edge old).2)
  · rw [Flowchart.goesBack, Flowchart.createdBefore_asymm forward] at into
    cases into.2

/-! ## Finishing -/

/-- A finished flow has the edge to its end, last. -/
theorem edges_finish : (flow.finish last).1.edges = flow.chart.edges ++ [⟨last, endId⟩] :=
  Flowchart.Grown.edges_addBelow

/-- A finished flow has its end, last. -/
theorem ids_finish (h : flow.Sound) : (flow.finish last).1.ids = flow.chart.ids ++ [endId] :=
  Flowchart.ids_addNode_of_new h.no_end

/-- A flow is a part of itself when it is finished. -/
theorem partOf_finish (h : flow.Sound) : flow.chart.PartOf (flow.finish last).1 :=
  (Flowchart.partOf_addNode endNode h.no_end).trans (Flowchart.partOf_addEdge _ _)

/-- **A finished flow is a well-formed flowchart.** -/
theorem Sound.wellFormed (h : flow.Sound) (present : last ∈ flow.chart.ids) :
    (flow.finish last).1.WellFormed := by
  have grown : (flow.finish last).1.Grown := h.grown.addBelow present h.no_end
  have nodes : (flow.finish last).1.nodes = flow.chart.nodes ++ [endNode] :=
    Flowchart.nodes_addNode_of_new h.no_end
  refine ⟨grown.distinct, grown.first, ?_, ?_, ?_, ?_, ?_, ?_, ?_, ?_⟩
  · rw [nodes, List.getLast?_append]
    rfl
  · intro edge member
    rw [Flowchart.has_iff_mem_ids, Flowchart.has_iff_mem_ids]
    exact grown.ends edge member
  · -- Before the flow is finished there is no end node, so that no edge can enter it.
    have none : flow.chart.edges.filter (·.target == endId) = [] := by
      rw [List.filter_eq_nil_iff]
      intro edge member into
      have target : edge.target = endId := by simpa using into
      exact h.no_end (target ▸ (h.grown.ends edge member).2)
    rw [edges_finish, List.filter_append, none]
    rfl
  · intro edge member
    rw [edges_finish, List.mem_append, List.mem_singleton] at member
    rcases member with old | rfl
    · intro out
      exact h.no_end (out ▸ (h.grown.ends edge old).1)
    · rintro rfl
      exact h.no_end present
  · intro node member
    exact grown.reached node.id (List.mem_map_of_mem member)
  · intro edge member
    rcases grown.directed edge member with ahead | ⟨back, -⟩
    · exact Flowchart.ne_of_createdBefore ahead
    · exact (Flowchart.ne_of_createdBefore back).symm
  · intro edge member back
    obtain ⟨node, found, same⟩ := List.mem_map.1 (grown.ends edge member).2
    refine ⟨node, found, same, ?_⟩
    rcases grown.directed edge member with ahead | ⟨-, loop⟩
    · rw [Flowchart.goesBack, Flowchart.createdBefore_asymm ahead] at back
      cases back
    · rw [Node.isLoop, same]
      exact loop
  · intro node member loop
    exact grown.back_once node.id

/-- **The steps of a finished flow are its nodes** but the first and the last one. -/
theorem Sound.ids_steps (h : flow.Sound) (some_step : flow.steps ≠ []) :
    (flow.finish last).1.ids = startId :: (flow.finish last).2.map (·.nodeId) ++ [endId] := by
  have steps : (flow.finish last).2 = flow.steps := if_neg (by simpa using some_step)
  rw [ids_finish h, steps, h.ids]

end Flow

end FlowTrace
