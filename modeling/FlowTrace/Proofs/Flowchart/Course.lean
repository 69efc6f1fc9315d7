import FlowTrace.Proofs.Flowchart.Walk

/-! # Ways out

Every node of a flowchart should lead on to the end node. A walk is **clean** when where it begins
and all the nodes that it adds lead on to where it ends (`Flow.Clean`), and it **strands** nodes
when there are some among the new ones that nothing leads out of (`Flow.Strands`).

Which of the two it is can be told from the statements that the walk goes over, and that is what a
**course** says: whether anything is drawn and whether any of it is stranded (`Flow.Course`).
Courses are put together as walks are. All nodes are stranded for one reason: after something was
drawn, the walk turns back and goes on from where it began (`Course.back`, `Course.spur`). -/

namespace FlowTrace.Flow

open Flowchart (startId endId)

variable {flow middle after : Flow} {parent last stop id stem : Text} {face : Face} {note : Note}
  {draws draws' strands strands' : Bool}

/-! ## Clean walks -/

/-- Where a walk begins and all the nodes that it adds **lead on** to where it ends. -/
structure Clean (flow : Flow) (parent : Text) (after : Flow) (last : Text) : Prop where
  /-- It leads on from the beginning. -/
  begins : after.chart.Leads parent last
  /-- It leads on from each new node. -/
  added : ∀ id ∈ after.chart.ids, id ∉ flow.chart.ids → after.chart.Leads id last

/-- A flow that stays takes a clean course. -/
theorem Clean.refl (flow : Flow) (parent : Text) : Clean flow parent flow parent :=
  ⟨Flowchart.Leads.refl _ _, fun _ member new => absurd member new⟩

/-- Clean courses can be put together. -/
theorem Clean.trans (h : Clean flow parent middle last) (h' : Clean middle last after stop)
    (part : middle.chart.PartOf after.chart) : Clean flow parent after stop where
  begins := (h.begins.mono part).trans h'.begins
  added := by
    intro id member new
    by_cases inside : id ∈ middle.chart.ids
    · exact ((h.added id inside new).mono part).trans h'.begins
    · exact h'.added id member inside

/-- One more node is a clean course. -/
theorem Clean.node (h : flow.Numbered) :
    Clean flow parent (flow.addNumbered parent stem face note).1 (flow.nextId stem) where
  begins := by
    refine Flowchart.Leads.edge ?_
    rw [edges_addNumbered]
    exact List.mem_append_right _ (List.mem_singleton_self _)
  added := by
    intro id member new
    have same := ((mem_ids_addNumbered h).1 member).resolve_left new
    rw [same]
    exact Flowchart.Leads.refl _ _

/-- The end of a loop body leads back to the loop. -/
theorem leads_closeLoop (flow : Flow) (last id : Text) :
    (flow.closeLoop last id).chart.Leads last id := by
  unfold closeLoop
  split
  · rename_i same
    rw [same]
    exact Flowchart.Leads.refl _ _
  · exact Flowchart.Leads.edge (List.mem_append_right _ (List.mem_singleton_self _))

/-- The end of a loop is a clean course. -/
theorem Clean.close (h : Clean flow parent after last) :
    Clean flow parent (after.closeLoop last id) id where
  begins := (h.begins.mono partOf_closeLoop).trans (leads_closeLoop after last id)
  added := by
    intro other member new
    rw [ids_closeLoop] at member
    exact ((h.added other member new).mono partOf_closeLoop).trans (leads_closeLoop after last id)

/-! ## Stranded nodes -/

/-- Some of the nodes that a walk adds are **stranded**: no edge leaves them, and the walk does not
end there. -/
def Strands (flow after : Flow) (last : Text) : Prop :=
  ∃ inside : Text → Prop, (∃ id, inside id) ∧
    (∀ id, inside id → id ∈ after.chart.ids ∧ id ∉ flow.chart.ids) ∧ ¬ inside last ∧
    ∀ edge ∈ after.chart.edges, inside edge.source → inside edge.target

namespace Strands

/-- Stranded nodes stay stranded when the walk goes on. -/
theorem goOn (h : Strands flow middle last) (walk : Walk middle last after stop) :
    Strands flow after stop := by
  obtain ⟨inside, some_node, new, ended, closed⟩ := h
  refine ⟨inside, some_node, ?_, ?_, ?_⟩
  · intro id member
    exact ⟨walk.part.mem (new id member).1, (new id member).2⟩
  · intro member
    rcases walk.arrives with rfl | fresh
    · exact ended member
    · exact fresh (new _ member).1
  · -- A new edge leaves the place where the walk goes on, or a new node: neither is stranded.
    intro edge member source
    rcases walk.edges edge member with old | ⟨rfl | fresh, -⟩
    · exact closed edge old source
    · exact absurd source ended
    · exact absurd (new _ source).1 fresh

/-- What a later part of a walk strands is stranded by the whole. -/
theorem ofLater (part : flow.chart.PartOf middle.chart) (h : Strands middle after last) :
    Strands flow after last := by
  obtain ⟨inside, some_node, new, ended, closed⟩ := h
  refine ⟨inside, some_node, ?_, ended, closed⟩
  intro id member
  exact ⟨(new id member).1, fun old => (new id member).2 (part.mem old)⟩

/-- Leading the end of a walk back to a loop around it does not help the stranded nodes. -/
theorem close (h : Strands flow after last) (there : id ∈ flow.chart.ids) :
    Strands flow (after.closeLoop last id) id := by
  obtain ⟨inside, some_node, new, ended, closed⟩ := h
  refine ⟨inside, some_node, ?_, fun member => (new id member).2 there, ?_⟩
  · rw [ids_closeLoop]
    exact new
  · intro edge member source
    rcases mem_edges_closeLoop member with old | ⟨rfl, -⟩
    · exact closed edge old source
    · exact absurd source ended

/-- **Turning back** to where a walk began strands all that it added. -/
theorem ofBack (h : Walk flow parent after last) (ready : flow.Ready parent)
    (moved : ∃ id ∈ after.chart.ids, id ∉ flow.chart.ids) : Strands flow after parent := by
  obtain ⟨added, present, new⟩ := moved
  -- All new nodes together are closed: an edge of theirs is new, and new edges lead to new nodes.
  refine ⟨fun id => id ∈ after.chart.ids ∧ id ∉ flow.chart.ids, ⟨added, present, new⟩,
    fun _ member => member, fun member => member.2 ready.present, ?_⟩
  rintro edge member ⟨-, source⟩
  refine ⟨(h.ready.sound.grown.ends edge member).2, ?_⟩
  rcases h.edges edge member with old | ⟨-, target⟩
  · exact absurd (ready.sound.grown.ends edge old).1 source
  · exact target

end Strands

/-! ## Courses -/

/-- A walk, with whether it **draws** any node and whether it **strands** any. -/
structure Course (flow : Flow) (parent : Text) (after : Flow) (last : Text)
    (draws strands : Bool) : Prop where
  /-- It is a walk. -/
  walk : Walk flow parent after last
  /-- If it draws nothing, then nothing happens. -/
  still : draws = false → after = flow ∧ last = parent
  /-- If it draws something, then there is a new node. -/
  moves : draws = true → ∃ id ∈ after.chart.ids, id ∉ flow.chart.ids
  /-- If it strands nothing, then it is clean. -/
  clean : strands = false → Clean flow parent after last
  /-- If it strands something, then there are stranded nodes. -/
  stranded : strands = true → Strands flow after last

namespace Course

/-- Staying where one is. -/
theorem refl (h : flow.Ready parent) : Course flow parent flow parent false false where
  walk := Walk.refl h
  still _ := ⟨rfl, rfl⟩
  moves := nofun
  clean _ := Clean.refl flow parent
  stranded := nofun

/-- One course after the other. -/
theorem trans (h : Course flow parent middle last draws strands)
    (h' : Course middle last after stop draws' strands') :
    Course flow parent after stop (draws || draws') (strands || strands') where
  walk := h.walk.trans h'.walk
  still none := by
    rw [Bool.or_eq_false_iff] at none
    obtain ⟨rfl, rfl⟩ := h.still none.1
    exact h'.still none.2
  moves some := by
    rcases Bool.or_eq_true_iff.1 some with first | second
    · obtain ⟨id, member, new⟩ := h.moves first
      exact ⟨id, h'.walk.part.mem member, new⟩
    · obtain ⟨id, member, new⟩ := h'.moves second
      exact ⟨id, member, fun old => new (h.walk.part.mem old)⟩
  clean none := by
    rw [Bool.or_eq_false_iff] at none
    exact (h.clean none.1).trans (h'.clean none.2) h'.walk.part
  stranded some := by
    rcases Bool.or_eq_true_iff.1 some with first | second
    · exact (h.stranded first).goOn h'.walk
    · exact (h'.stranded second).ofLater h.walk.part

/-- **Adding a node.** -/
theorem node (h : flow.Ready parent) (stem : Text) (face : Face) (note : Note) :
    Course flow parent (flow.addNumbered parent stem face note).1 (flow.nextId stem) true
      false where
  walk := Walk.node h stem face note
  still := nofun
  moves _ := ⟨flow.nextId stem, (mem_ids_addNumbered h.numbered).2 (Or.inr rfl),
    h.numbered.nextId_notMem stem⟩
  clean _ := Clean.node h.numbered
  stranded := nofun

/-- Adding a node if there is one. -/
theorem leaf (h : flow.Ready parent) (node? : Option (Text × Face × Note)) :
    Course flow parent
      (match node? with
        | some (stem, face, note) => flow.addNumbered parent stem face note
        | none => (flow, parent)).1
      (match node? with
        | some (stem, face, note) => flow.addNumbered parent stem face note
        | none => (flow, parent)).2 node?.isSome false := by
  match node? with
  | some (stem, face, note) => exact node h stem face note
  | none => exact refl h

/-- **A loop** strands what its body strands. -/
theorem loop {kind : String} (isLoop : kind ∈ ["For", "While", "Loop"]) (h : flow.Ready parent)
    (body : Course (flow.addNumbered parent (Text.of kind) face note).1
      (flow.nextId (Text.of kind)) after last draws strands) :
    Course flow parent (after.closeLoop last (flow.nextId (Text.of kind)))
      (flow.nextId (Text.of kind)) true strands := by
  have first := Course.node h (Text.of kind) face note
  refine ⟨Walk.loop isLoop h body.walk, nofun, ?_, ?_, ?_⟩
  · intro _
    obtain ⟨id, member, new⟩ := first.moves rfl
    refine ⟨id, ?_, new⟩
    rw [ids_closeLoop]
    exact body.walk.part.mem member
  · intro none
    exact (first.clean rfl).trans (body.clean none).close (body.walk.part.trans partOf_closeLoop)
  · intro some
    exact ((body.stranded some).close first.walk.ready.present).ofLater first.walk.part

/-- **Turning back** to where a course began strands what it drew. -/
theorem back (h : Course flow parent after last draws strands) (ready : flow.Ready parent) :
    Course flow parent after parent draws draws where
  walk := h.walk.back ready.present
  still none := ⟨(h.still none).1, rfl⟩
  moves := h.moves
  clean none := by
    rw [(h.still none).1]
    exact Clean.refl flow parent
  stranded some := Strands.ofBack h.walk ready (h.moves some)

/-- **A spur**: a node that is added where a course began, while the course goes on from its end.
The node is stranded. -/
theorem spur (h : Course flow parent after last draws strands) (ready : flow.Ready parent)
    (stem : Text) (face : Face) (note : Note) :
    Course flow parent (after.addNumbered parent stem face note).1 last true true := by
  have begun : after.Ready parent := (h.back ready).walk.ready
  have added := Course.node begun stem face note
  have whole : Walk flow parent _ _ := (h.back ready).walk.trans added.walk
  have new := begun.numbered.nextId_notMem stem
  refine ⟨whole.turn (added.walk.part.mem h.walk.ready.present) h.walk.arrives, nofun, ?_, nofun,
    ?_⟩
  · intro _
    exact ⟨_, whole.ready.present, fun old => new (h.walk.part.mem old)⟩
  · -- Only the new node is stranded: it has no edge of its own.
    intro _
    refine ⟨(· = after.nextId stem), ⟨_, rfl⟩, ?_, ?_, ?_⟩
    · rintro _ rfl
      exact ⟨whole.ready.present, fun old => new (h.walk.part.mem old)⟩
    · intro same
      exact new (same ▸ h.walk.ready.present)
    · intro edge member source
      rw [edges_addNumbered, List.mem_append, List.mem_singleton] at member
      rcases member with old | rfl
      · exact absurd (source ▸ (begun.sound.grown.ends edge old).1) new
      · exact absurd (source ▸ begun.present) new

end Course

/-! ## Finished flowcharts -/

/-- If all nodes of a flow lead to the last one, then in the finished flowchart all nodes lead to
the end node. -/
theorem Sound.allLead_finish (h : flow.Sound)
    (lead : ∀ id ∈ flow.chart.ids, flow.chart.Leads id last) :
    (flow.finish last).1.AllLead endId := by
  have final : (flow.finish last).1.Leads last endId := by
    refine Flowchart.Leads.edge ?_
    rw [edges_finish]
    exact List.mem_append_right _ (List.mem_singleton_self _)
  intro id member
  rw [ids_finish h, List.mem_append, List.mem_singleton] at member
  rcases member with old | rfl
  · exact ((lead id old).mono (partOf_finish h)).trans final
  · exact Flowchart.Leads.refl _ _

/-- If some nodes of a flow are stranded, then in the finished flowchart they do not lead to the
end node. -/
theorem Strands.not_allLead_finish (h : Strands flow after last) (sound : after.Sound) :
    ¬ (after.finish last).1.AllLead endId := by
  obtain ⟨inside, ⟨id, member⟩, new, ended, closed⟩ := h
  intro all
  have path := all id ((partOf_finish sound).mem (new id member).1)
  have arrived : inside endId := by
    refine path.stays inside ?_ member
    intro edge present source
    rw [edges_finish, List.mem_append, List.mem_singleton] at present
    rcases present with old | rfl
    · exact closed edge old source
    · exact absurd source ended
  exact sound.no_end (new endId arrived).1

/-- **In the flowchart of a whole course all nodes lead to the end node exactly when nothing is
stranded.** -/
theorem Course.allLead_iff (h : Course start startId after last draws strands) :
    (after.finish last).1.AllLead endId ↔ strands = false := by
  constructor
  · intro all
    cases verdict : strands with
    | false => rfl
    | true => exact absurd all ((h.stranded verdict).not_allLead_finish h.walk.ready.sound)
  · intro none
    have clean := h.clean none
    refine h.walk.ready.sound.allLead_finish ?_
    intro id member
    by_cases first : id ∈ start.chart.ids
    · rw [show id = startId from List.mem_singleton.1 first]
      exact clean.begins
    · exact clean.added id member first

end FlowTrace.Flow
