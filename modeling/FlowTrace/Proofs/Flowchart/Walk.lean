import FlowTrace.Proofs.Flowchart.Growth
import FlowTrace.Proofs.Text.Numeral

/-! # Walks

A program is turned into a flow by a **walk** over its statements: the walk goes on from a node,
adds nodes with consecutive numbers, and comes to the node from which the next statement goes on
(`Flow.Walk`). Walks are put together from few parts: adding one node (`Walk.node`), going on
(`Walk.trans`), turning back to a node passed before (`Walk.turn`), and leading the end of a loop
body back to its loop (`Walk.loop`). What is known of a walk is only that the flow stays sound and
how the new edges lie, which is all that the flow around it needs to know. -/

namespace FlowTrace.Flow

open Flowchart (startId endId)

variable {flow middle after : Flow} {parent last stop id stem : Text} {face : Face} {note : Note}

/-! ## Numbered flows -/

/-- A flow is **numbered** when each id but that of the start node has a number that was already
given. -/
def Numbered (flow : Flow) : Prop :=
  ∀ id ∈ flow.chart.ids, id = startId ∨
    ∃ stem n, n < flow.counter ∧ id = stem ++ "_" ++ Text.ofNat n

/-- A flow that begins is numbered. -/
theorem numbered_start : start.Numbered := by
  intro id member
  exact Or.inl (List.mem_singleton.1 member)

/-- The next id has an underscore in it, which neither the start nor the end node has. -/
theorem nextId_ne (flow : Flow) (stem : Text) {id : Text} (free : Text.underscore ∉ id) :
    flow.nextId stem ≠ id := by
  rintro rfl
  exact free (Text.underscore_mem_numbered stem flow.counter)

/-- The next id is new. -/
theorem Numbered.nextId_notMem (h : flow.Numbered) (stem : Text) :
    flow.nextId stem ∉ flow.chart.ids := by
  intro member
  rcases h _ member with same | ⟨other, n, given, same⟩
  · exact flow.nextId_ne stem (by decide) same
  · have number := Text.number_of_numbered same
    omega

/-! ## Walks -/

/-- A flow that can be gone on from a node. -/
structure Ready (flow : Flow) (parent : Text) : Prop where
  /-- It is sound. -/
  sound : flow.Sound
  /-- It is numbered. -/
  numbered : flow.Numbered
  /-- The node is there. -/
  present : parent ∈ flow.chart.ids

/-- A flow that begins is ready at its start. -/
theorem ready_start : start.Ready startId :=
  ⟨sound_start, numbered_start, List.mem_singleton_self startId⟩

/-- A **walk** from a node of a flow to a node of the flow after it. -/
structure Walk (flow : Flow) (parent : Text) (after : Flow) (last : Text) : Prop where
  /-- The flow after it can be gone on. -/
  ready : after.Ready last
  /-- Nothing is lost. -/
  part : flow.chart.PartOf after.chart
  /-- New edges come from where the walk begins or from new nodes, and lead to new nodes. -/
  edges : ∀ edge ∈ after.chart.edges, edge ∈ flow.chart.edges ∨
    ((edge.source = parent ∨ edge.source ∉ flow.chart.ids) ∧ edge.target ∉ flow.chart.ids)
  /-- The walk ends where it began or at a new node. -/
  arrives : last = parent ∨ last ∉ flow.chart.ids

namespace Walk

/-- Staying where one is. -/
theorem refl (h : flow.Ready parent) : Walk flow parent flow parent :=
  ⟨h, Flowchart.PartOf.refl _, fun _ member => Or.inl member, Or.inl rfl⟩

/-- One walk after the other. -/
theorem trans (h : Walk flow parent middle last) (h' : Walk middle last after stop) :
    Walk flow parent after stop where
  ready := h'.ready
  part := h.part.trans h'.part
  edges := by
    intro edge member
    rcases h'.edges edge member with old | ⟨source, target⟩
    · exact h.edges edge old
    -- An edge of the second walk begins where the first one arrived, or is new to both.
    · refine Or.inr ⟨?_, fun inside => target (h.part.mem inside)⟩
      rcases source with rfl | new
      · exact h.arrives
      · exact Or.inr fun inside => new (h.part.mem inside)
  arrives := by
    rcases h'.arrives with rfl | new
    · exact h.arrives
    · exact Or.inr fun inside => new (h.part.mem inside)

/-- Turning back to where the walk began or to a new node. -/
theorem turn (h : Walk flow parent after last) (present : stop ∈ after.chart.ids)
    (passed : stop = parent ∨ stop ∉ flow.chart.ids) : Walk flow parent after stop :=
  ⟨⟨h.ready.sound, h.ready.numbered, present⟩, h.part, h.edges, passed⟩

/-- Turning back to where the walk began. -/
theorem back (h : Walk flow parent after last) (present : parent ∈ flow.chart.ids) :
    Walk flow parent after parent :=
  h.turn (h.part.mem present) (Or.inl rfl)

/-- A walk leads nothing back to a node that was there. -/
theorem backEdges (h : Walk flow parent after last) (sound : flow.Sound)
    (there : id ∈ flow.chart.ids) (untouched : flow.chart.backEdges id = []) :
    after.chart.backEdges id = [] := by
  rw [Flowchart.backEdges, List.filter_eq_nil_iff] at untouched ⊢
  intro edge member into
  rcases h.edges edge member with old | ⟨-, target⟩
  · rw [sound.grown.goesBack_of_partOf h.part old] at into
    exact untouched edge old into
  · rw [Bool.and_eq_true, beq_iff_eq] at into
    exact target (into.1 ▸ there)

end Walk

/-! ## Nodes -/

/-- A numbered node adds its id, and no other. -/
theorem mem_ids_addNumbered (h : flow.Numbered) :
    id ∈ (flow.addNumbered parent stem face note).1.chart.ids ↔
      id ∈ flow.chart.ids ∨ id = flow.nextId stem := by
  show id ∈ (flow.add parent (flow.nextId stem) face note).chart.ids ↔ _
  exact mem_ids_add (h.nextId_notMem stem)

/-- A numbered node adds the edge to it, last. -/
theorem edges_addNumbered : (flow.addNumbered parent stem face note).1.chart.edges =
    flow.chart.edges ++ [⟨parent, flow.nextId stem⟩] := by
  show (flow.add parent (flow.nextId stem) face note).chart.edges = _
  exact edges_add

/-- A flow is a part of itself with one more numbered node. -/
theorem partOf_addNumbered (h : flow.Numbered) :
    flow.chart.PartOf (flow.addNumbered parent stem face note).1.chart := by
  show flow.chart.PartOf (flow.add parent (flow.nextId stem) face note).chart
  exact partOf_add (h.nextId_notMem stem)

/-- **Adding a node** is a walk to it. -/
theorem Walk.node (h : flow.Ready parent) (stem : Text) (face : Face) (note : Note) :
    Walk flow parent (flow.addNumbered parent stem face note).1 (flow.nextId stem) := by
  have new := h.numbered.nextId_notMem stem
  refine ⟨⟨?_, ?_, (mem_ids_addNumbered h.numbered).2 (Or.inr rfl)⟩,
    partOf_addNumbered h.numbered, ?_, Or.inr new⟩
  · exact (h.sound.add h.present new (flow.nextId_ne stem (by decide))
      (flow.nextId_ne stem List.not_mem_nil)).count _
  · intro id member
    rcases (mem_ids_addNumbered h.numbered).1 member with old | rfl
    · refine (h.numbered id old).imp_right ?_
      rintro ⟨other, n, given, same⟩
      exact ⟨other, n, Nat.lt_succ_of_lt given, same⟩
    · exact Or.inr ⟨stem, flow.counter, Nat.lt_succ_self _, rfl⟩
  · intro edge member
    rw [edges_addNumbered, List.mem_append, List.mem_singleton] at member
    rcases member with old | rfl
    · exact Or.inl old
    · exact Or.inr ⟨Or.inl rfl, new⟩

/-! ## Loops -/

/-- Leads the end of a loop body back to the loop, unless the body has no node. -/
def closeLoop (flow : Flow) (last id : Text) : Flow := if last = id then flow else flow.link last id

/-- The end of a loop adds no nodes. -/
theorem ids_closeLoop : (flow.closeLoop last id).chart.ids = flow.chart.ids := by
  unfold closeLoop
  split <;> rfl

/-- A flow is a part of itself with the end of a loop. -/
theorem partOf_closeLoop : flow.chart.PartOf (flow.closeLoop last id).chart := by
  unfold closeLoop
  split
  · exact Flowchart.PartOf.refl _
  · exact partOf_link last id

/-- The end of a loop adds the edge back at most, and only from another node. -/
theorem mem_edges_closeLoop {edge : Edge} (member : edge ∈ (flow.closeLoop last id).chart.edges) :
    edge ∈ flow.chart.edges ∨ (edge = ⟨last, id⟩ ∧ last ≠ id) := by
  unfold closeLoop at member
  split at member
  · exact Or.inl member
  · rename_i apart
    exact (List.mem_append.1 member).imp_right fun new => ⟨List.mem_singleton.1 new, apart⟩

/-- The ids of loops are told by their kinds. -/
theorem isLoopId_nextId {kind : String} (loop : kind ∈ ["For", "While", "Loop"]) :
    isLoopId (flow.nextId (Text.of kind)) = true := by
  refine List.any_eq_true.2 ⟨kind ++ "_", ?_, ?_⟩
  · rcases loop with _ | ⟨_, _ | ⟨_, _ | ⟨_, ⟨⟩⟩⟩⟩ <;> decide
  · refine List.isPrefixOf_iff_prefix.2 ⟨Text.ofNat flow.counter, ?_⟩
    rcases loop with _ | ⟨_, _ | ⟨_, _ | ⟨_, ⟨⟩⟩⟩⟩ <;> rfl

/-- **A loop**: its node, a walk through its body, and an edge back. The walk ends at the loop. -/
theorem Walk.loop {kind : String} (loop : kind ∈ ["For", "While", "Loop"]) (h : flow.Ready parent)
    (body : Walk (flow.addNumbered parent (Text.of kind) face note).1 (flow.nextId (Text.of kind))
      after last) :
    Walk flow parent (after.closeLoop last (flow.nextId (Text.of kind)))
      (flow.nextId (Text.of kind)) := by
  set id := flow.nextId (Text.of kind) with is_id
  have new : id ∉ flow.chart.ids := h.numbered.nextId_notMem _
  have whole : Walk flow parent after last := (Walk.node h _ face note).trans body
  have there : id ∈ (flow.addNumbered parent (Text.of kind) face note).1.chart.ids :=
    (mem_ids_addNumbered h.numbered).2 (Or.inr rfl)
  refine ⟨⟨?_, ?_, ?_⟩, whole.part.trans partOf_closeLoop, ?_, Or.inr new⟩
  · unfold closeLoop
    split
    · exact whole.ready.sound
    · -- The body has a node, so that its end is younger than the loop; and no walk inside of the
      -- body led back to the loop.
      rename_i apart
      have inner : last ∉ (flow.addNumbered parent (Text.of kind) face note).1.chart.ids :=
        body.arrives.resolve_left apart
      refine whole.ready.sound.link
        (body.part.createdBefore_new there whole.ready.present inner) (isLoopId_nextId loop) ?_
      have untouched : (flow.add parent id face note).chart.backEdges id = [] :=
        h.sound.backEdges_add h.present new
      exact body.backEdges (Walk.node h _ face note).ready.sound there untouched
  · intro other member
    rw [ids_closeLoop] at member
    have counter : (after.closeLoop last id).counter = after.counter := by
      unfold closeLoop
      split <;> rfl
    rw [counter]
    exact whole.ready.numbered other member
  · rw [ids_closeLoop]
    exact body.part.mem there
  · intro edge member
    rcases mem_edges_closeLoop member with old | ⟨rfl, apart⟩
    · exact whole.edges edge old
    · exact Or.inr ⟨whole.arrives, new⟩

/-- A walk from the start node ends in a well-formed flowchart. -/
theorem Walk.wellFormed (h : Walk start startId after last) : (after.finish last).1.WellFormed :=
  h.ready.sound.wellFormed h.ready.present

end FlowTrace.Flow
