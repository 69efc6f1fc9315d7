import Mathlib.Data.List.Nodup
import Mathlib.Data.List.Perm.Basic
import FlowTrace.Cpp.Flow
import FlowTrace.Proofs.Flowchart.Course

/-! # Chains of C++ items

No two items of a program have the same id (`Program.nodup_ids_items`): within a kind of
statements the number tells them apart, and the first letter tells the kind. So each item adds a
node of its own, and the chain **holds** together (`Chain.Holds`): its flow is sound, every open
loop still waits for its edge back, and every node leads on to the last one. -/

namespace FlowTrace.Cpp

/-! ## The ids of items -/

/-- An item has the number of its statement in its id, behind a stem that begins with one of the
letters of its kind, and only loops have bodies. -/
structure Item.Proper (letters : List UInt8) (i : Nat) (item : Item) : Prop where
  /-- The id is numbered. -/
  numbered : ∃ letter ∈ letters, ∃ rest, item.id = numbered (letter :: rest) i
  /-- Only loops have bodies. -/
  loop : item.bodyEnd.isSome = true → isLoopId item.id = true

/-- The id of a numbered item has an underscore in it. -/
theorem Item.Proper.underscore_mem {letters : List UInt8} {i : Nat} {item : Item}
    (h : item.Proper letters i) : Text.underscore ∈ item.id := by
  obtain ⟨letter, -, rest, is_id⟩ := h.numbered
  rw [is_id]
  exact Text.underscore_mem_numbered _ i

/-- The item of a function has an id of its kind. -/
theorem Function.item_proper (i : Nat) (f : Function) : (f.item i).Proper [0x46] i :=
  ⟨⟨_, List.mem_singleton_self _, _, rfl⟩, nofun⟩

/-- The item of a declaration has an id of its kind. -/
theorem Declaration.item_proper (i : Nat) (d : Declaration) : (d.item i).Proper [0x56] i :=
  ⟨⟨_, List.mem_singleton_self _, _, rfl⟩, nofun⟩

/-- The item of an array has an id of its kind. -/
theorem ArrayDecl.item_proper (i : Nat) (a : ArrayDecl) : (a.item i).Proper [0x41] i :=
  ⟨⟨_, List.mem_singleton_self _, _, rfl⟩, nofun⟩

/-- The item of a condition has an id of one of its kinds. -/
theorem Condition.item_proper (i : Nat) (c : Condition) : (c.item i).Proper [0x69, 0x65] i := by
  unfold Condition.item
  cases c.branch with
  | first => exact ⟨⟨_, List.mem_cons_self, _, rfl⟩, nofun⟩
  | elseIf => exact ⟨⟨_, List.mem_cons_of_mem _ List.mem_cons_self, _, rfl⟩, nofun⟩
  | otherwise => exact ⟨⟨_, List.mem_cons_of_mem _ List.mem_cons_self, _, rfl⟩, nofun⟩

/-- The item of a loop has an id of its kind. -/
theorem Loop.item_proper (i : Nat) (l : Loop) : (l.item i).Proper [0x4C] i := by
  refine ⟨⟨_, List.mem_singleton_self _, _, rfl⟩, fun _ => ?_⟩
  exact List.any_eq_true.2 ⟨"Loop_", by decide, List.isPrefixOf_iff_prefix.2 ⟨Text.ofNat i, rfl⟩⟩

/-- The item of a call has an id of its kind. -/
theorem callItem_proper (i : Nat) (c : Phrase) : (callItem i c).Proper [0x43] i :=
  ⟨⟨_, List.mem_singleton_self _, _, rfl⟩, nofun⟩

/-- The item of a return has an id of its kind. -/
theorem returnItem_proper (i : Nat) (r : Phrase) : (returnItem i r).Proper [0x52] i :=
  ⟨⟨_, List.mem_singleton_self _, _, rfl⟩, nofun⟩

/-- The item of an output has an id of its kind. -/
theorem printItem_proper (i : Nat) (p : Phrase) : (printItem i p).Proper [0x50] i :=
  ⟨⟨_, List.mem_singleton_self _, _, rfl⟩, nofun⟩

/-- The items of one **kind** of statements, with the letters that their ids begin with. -/
structure Kind where
  /-- The letters. -/
  letters : List UInt8
  /-- The items. -/
  items : List Item
  /-- The items are proper. -/
  proper : ∀ (i : Nat) (bound : i < items.length), items[i].Proper letters i

namespace Kind

variable {item : Item}

/-- The items of statements. -/
def ofList {α : Type} {letters : List UInt8} (item : Nat → α → Item)
    (proper : ∀ i a, (item i a).Proper letters i) (statements : List α) : Kind where
  letters := letters
  items := statements.mapIdx item
  proper i bound := by
    rw [List.getElem_mapIdx]
    exact proper _ _

/-- Every item of a kind has an id of that kind. -/
theorem exists_proper (kind : Kind) (member : item ∈ kind.items) :
    ∃ i, item.Proper kind.letters i := by
  obtain ⟨i, bound, rfl⟩ := List.getElem_of_mem member
  exact ⟨i, kind.proper i bound⟩

/-- The ids of one kind differ in their numbers. -/
theorem nodup_ids (kind : Kind) : (kind.items.map (·.id)).Nodup := by
  rw [List.Nodup, List.pairwise_map, List.pairwise_iff_getElem]
  intro i j first second less same
  obtain ⟨_, -, _, is_first⟩ := (kind.proper i first).numbered
  obtain ⟨_, -, _, is_second⟩ := (kind.proper j second).numbered
  rw [is_first, is_second] at same
  exact Nat.ne_of_lt less (Text.number_of_numbered same)

/-- The ids of two kinds differ in their first letters. -/
theorem disjoint_ids {kind other : Kind} (apart : kind.letters.Disjoint other.letters) :
    (kind.items.map (·.id)).Disjoint (other.items.map (·.id)) := by
  intro id here there
  obtain ⟨item, member, rfl⟩ := List.mem_map.1 here
  obtain ⟨item', member', same⟩ := List.mem_map.1 there
  obtain ⟨_, proper⟩ := kind.exists_proper member
  obtain ⟨_, proper'⟩ := other.exists_proper member'
  obtain ⟨letter, known, _, is_id⟩ := proper.numbered
  obtain ⟨letter', known', _, is_id'⟩ := proper'.numbered
  rw [is_id, is_id'] at same
  have first : letter' = letter := (List.cons.inj same).1
  exact apart known (first ▸ known')

end Kind

/-- The items of a program, kind by kind. -/
def Program.kinds (p : Program) : List Kind :=
  [.ofList _ Function.item_proper p.functions, .ofList _ Declaration.item_proper p.declarations,
    .ofList _ ArrayDecl.item_proper p.arrays, .ofList _ Condition.item_proper p.conditions,
    .ofList _ Loop.item_proper p.loops, .ofList _ callItem_proper p.calls,
    .ofList _ returnItem_proper p.returns, .ofList _ printItem_proper p.prints]

/-- The items of a program are those of its kinds, in another order. -/
theorem Program.items_perm (p : Program) : p.items.Perm (p.kinds.map (·.items)).flatten := by
  refine (List.mergeSort_perm _ _).trans (List.Perm.of_eq ?_)
  simp [kinds, Kind.ofList]

/-- Every item of a program has an id of some kind. -/
theorem Program.exists_proper (p : Program) (item : Item) (member : item ∈ p.items) :
    ∃ letters i, item.Proper letters i := by
  obtain ⟨_, of_kind, inside⟩ := List.mem_flatten.1 (p.items_perm.mem_iff.1 member)
  obtain ⟨kind, -, rfl⟩ := List.mem_map.1 of_kind
  exact ⟨kind.letters, kind.exists_proper inside⟩

/-- **No two items of a program have the same id.** -/
theorem Program.nodup_ids_items (p : Program) : (p.items.map (·.id)).Nodup := by
  rw [(p.items_perm.map _).nodup_iff, List.map_flatten, List.nodup_flatten]
  constructor
  · intro ids member
    rw [List.map_map, List.mem_map] at member
    obtain ⟨kind, -, rfl⟩ := member
    exact kind.nodup_ids
  · -- The letters of the kinds do not depend on the program, and no letter occurs twice.
    rw [List.map_map, List.pairwise_map]
    have apart : p.kinds.Pairwise fun a b => a.letters.Disjoint b.letters := by
      have letters : (p.kinds.map (·.letters)).Pairwise List.Disjoint := by
        show List.Pairwise List.Disjoint
          [[0x46], [0x56], [0x41], [0x69, 0x65], [0x4C], [0x43], [0x52], [0x50]]
        simp
      exact List.pairwise_map.1 letters
    exact apart.imp fun h => Kind.disjoint_ids h

/-! ## Chains -/

section Steps

variable {flow : Flow} {last id : Text} {stop : Nat} {outer : List (Text × Nat)} {chain : Chain}
  {item : Item} {face : Face} {note : Note}

/-- A loop that **waits** for its edge back. -/
structure Waits (flow : Flow) (id : Text) : Prop where
  /-- It is a loop. -/
  loop : isLoopId id = true
  /-- No edge leads back to it yet. -/
  untouched : flow.chart.backEdges id = []

/-- A chain that **holds** together. -/
structure Chain.Holds (chain : Chain) : Prop where
  /-- The flow is sound. -/
  sound : chain.flow.Sound
  /-- The last node is there. -/
  present : chain.last ∈ chain.flow.chart.ids
  /-- Every node leads to the last one. -/
  lead : chain.flow.chart.AllLead chain.last
  /-- The open loops wait for their edges back. -/
  waits : ∀ entry ∈ chain.open_, Waits chain.flow entry.1
  /-- The last node is inside of the open loops, or the innermost of them itself. -/
  inside : ∀ entry ∈ chain.open_,
    entry.1 = chain.last ∨ chain.flow.chart.createdBefore entry.1 chain.last = true
  /-- Each open loop was created inside of the ones around it. -/
  nested : chain.open_.Pairwise fun inner outer =>
    chain.flow.chart.createdBefore outer.1 inner.1 = true

/-- A chain that begins is sound. -/
theorem Chain.holds_start : Chain.Holds ⟨Flow.start, Flowchart.startId, []⟩ where
  sound := Flow.sound_start
  present := List.mem_singleton_self _
  lead := by
    intro id member
    rw [show id = Flowchart.startId from List.mem_singleton.1 member]
    exact Flowchart.Leads.refl _ _
  waits := nofun
  inside := nofun
  nested := List.Pairwise.nil

/-- The open loops are there. -/
theorem Chain.Holds.mem_ids (h : chain.Holds) {entry : Text × Nat} (member : entry ∈ chain.open_) :
    entry.1 ∈ chain.flow.chart.ids := by
  rcases h.inside entry member with same | before
  · rw [same]
    exact h.present
  · exact (Flowchart.mem_ids_of_createdBefore before).1

/-! ## Closing loops -/

/-- **Closing the innermost loop** leads the chain back to it. -/
theorem Chain.Holds.close (h : Chain.Holds ⟨flow, last, (id, stop) :: outer⟩) :
    Chain.Holds ⟨flow.closeLoop last id, id, outer⟩ := by
  obtain ⟨around, nested⟩ := List.pairwise_cons.1 h.nested
  have innermost := h.waits (id, stop) List.mem_cons_self
  have position := h.inside (id, stop) List.mem_cons_self
  have order (a b : Text) : (flow.closeLoop last id).chart.createdBefore a b =
      flow.chart.createdBefore a b := by
    unfold Flow.closeLoop
    split <;> rfl
  refine ⟨?_, ?_, ?_, ?_, ?_, ?_⟩
  · unfold Flow.closeLoop
    split
    · exact h.sound
    · rename_i apart
      exact h.sound.link (position.resolve_left (Ne.symm apart)) innermost.loop innermost.untouched
  · rw [Flow.ids_closeLoop]
    exact h.mem_ids List.mem_cons_self
  · intro other member
    rw [Flow.ids_closeLoop] at member
    refine ((h.lead other member).mono Flow.partOf_closeLoop).trans ?_
    exact Flow.leads_closeLoop flow last id
  · intro entry member
    have waiting := h.waits entry (List.mem_cons_of_mem _ member)
    refine ⟨waiting.loop, ?_⟩
    unfold Flow.closeLoop
    split
    · exact waiting.untouched
    · -- The new edge leads to the innermost loop, which is another one.
      have other : id ≠ entry.1 := (Flowchart.ne_of_createdBefore (around entry member)).symm
      rw [← waiting.untouched]
      exact h.sound.grown.backEdges_concat (Flow.partOf_link last id) rfl (by simp [other])
  · intro entry member
    rw [order]
    exact Or.inr (around entry member)
  · simp only [order]
    exact nested

/-- Closing all loops keeps a chain sound. -/
theorem Chain.Holds.closeAll (offset : Nat) : ∀ {open_ : List (Text × Nat)} {flow : Flow}
    {last : Text}, Chain.Holds ⟨flow, last, open_⟩ → (closeLoops flow last offset open_).Holds
  | [], _, _, h => h
  | (id, stop) :: outer, flow, last, h => by
    unfold closeLoops
    split
    · exact Chain.Holds.closeAll offset h.close
    · exact h

/-- Closing loops adds no nodes. -/
theorem ids_closeLoops (offset : Nat) : ∀ (open_ : List (Text × Nat)) (flow : Flow) (last : Text),
    (closeLoops flow last offset open_).flow.chart.ids = flow.chart.ids
  | [], _, _ => rfl
  | (id, stop) :: outer, flow, last => by
    unfold closeLoops
    split
    · rw [ids_closeLoops offset outer]
      exact Flow.ids_closeLoop
    · rfl

/-! ## Adding items -/

/-- **Adding a node** behind the last one. -/
theorem Chain.Holds.addNode (h : chain.Holds) (new : id ∉ chain.flow.chart.ids)
    (named : Text.underscore ∈ id) :
    Chain.Holds ⟨chain.flow.add chain.last id face note, id, chain.open_⟩ := by
  have part : chain.flow.chart.PartOf (chain.flow.add chain.last id face note).chart :=
    Flow.partOf_add new
  have added : id ∈ (chain.flow.add chain.last id face note).chart.ids :=
    (Flow.mem_ids_add new).2 (Or.inr rfl)
  have not_end : id ≠ Flowchart.endId := by
    rintro rfl
    exact absurd named (by decide)
  refine ⟨h.sound.add h.present new not_end (List.ne_nil_of_mem named), added, ?_, ?_, ?_, ?_⟩
  · have forward : (chain.flow.add chain.last id face note).chart.Leads chain.last id := by
      refine Flowchart.Leads.edge ?_
      rw [Flow.edges_add]
      exact List.mem_append_right _ (List.mem_singleton_self _)
    intro other member
    rcases (Flow.mem_ids_add new).1 member with old | rfl
    · exact ((h.lead other old).mono part).trans forward
    · exact Flowchart.Leads.refl _ _
  · -- The new edge leads to the new node, and so to none of the open loops.
    intro entry member
    have waiting := h.waits entry member
    have other : id ≠ entry.1 := by
      rintro rfl
      exact new (h.mem_ids member)
    refine ⟨waiting.loop, ?_⟩
    rw [← waiting.untouched]
    exact h.sound.grown.backEdges_concat part Flow.edges_add (by simp [other])
  · intro entry member
    exact Or.inr (part.createdBefore_new (h.mem_ids member) added new)
  · refine h.nested.imp ?_
    intro inner outer before
    have members := Flowchart.mem_ids_of_createdBefore before
    rw [part.createdBefore members.1 members.2]
    exact before

/-- **Opening a loop** at the node that was just added. -/
theorem Chain.Holds.openLoop (h : chain.Holds) (new : id ∉ chain.flow.chart.ids)
    (named : Text.underscore ∈ id) (loop : isLoopId id = true) :
    Chain.Holds ⟨chain.flow.add chain.last id face note, id, (id, stop) :: chain.open_⟩ := by
  have added : Chain.Holds ⟨chain.flow.add chain.last id face note, id, chain.open_⟩ :=
    h.addNode new named
  refine ⟨added.sound, added.present, added.lead, ?_, ?_, ?_⟩
  · intro entry member
    rcases List.mem_cons.1 member with rfl | outer
    · exact ⟨loop, h.sound.backEdges_add h.present new⟩
    · exact added.waits entry outer
  · intro entry member
    rcases List.mem_cons.1 member with rfl | outer
    · exact Or.inl rfl
    · exact added.inside entry outer
  · refine List.pairwise_cons.2 ⟨?_, added.nested⟩
    intro entry member
    refine (added.inside entry member).resolve_left ?_
    rintro (same : entry.1 = id)
    exact new (same ▸ h.mem_ids member)

/-- **Adding an item** with a new id keeps a chain together. -/
theorem Chain.Holds.add (h : chain.Holds) (new : item.id ∉ chain.flow.chart.ids)
    {letters : List UInt8} {i : Nat} (proper : item.Proper letters i) : (chain.add item).Holds := by
  have closed : (closeLoops chain.flow chain.last item.offset chain.open_).Holds :=
    Chain.Holds.closeAll item.offset h
  have still_new : item.id ∉
      (closeLoops chain.flow chain.last item.offset chain.open_).flow.chart.ids := by
    rw [ids_closeLoops]
    exact new
  have named := proper.underscore_mem
  unfold Chain.add
  cases body : item.bodyEnd with
  | none => exact closed.addNode still_new named
  | some stop => exact closed.openLoop still_new named (proper.loop (by rw [body]; rfl))

/-- A chain with one more item has its node, and no other new one. -/
theorem mem_ids_chainAdd (new : item.id ∉ chain.flow.chart.ids) :
    id ∈ (chain.add item).flow.chart.ids ↔ id ∈ chain.flow.chart.ids ∨ id = item.id := by
  rw [← ids_closeLoops item.offset chain.open_ chain.flow chain.last] at new ⊢
  exact Flow.mem_ids_add new

/-- **Adding all items**, each with an id of its own. -/
theorem Chain.Holds.addAll (items : List Item) (h : chain.Holds)
    (distinct : (items.map (·.id)).Nodup) (new : ∀ item ∈ items, item.id ∉ chain.flow.chart.ids)
    (proper : ∀ item ∈ items, ∃ letters i, item.Proper letters i) :
    (items.foldl Chain.add chain).Holds := by
  induction items generalizing chain with
  | nil => exact h
  | cons item rest ih =>
    obtain ⟨letters, i, first⟩ := proper item List.mem_cons_self
    have first_new := new item List.mem_cons_self
    rw [List.map_cons, List.nodup_cons] at distinct
    refine ih (h.add first_new first) distinct.2 ?_ ?_
    · intro other member taken
      rcases (mem_ids_chainAdd first_new).1 taken with old | same
      · exact new other (List.mem_cons_of_mem _ member) old
      · exact distinct.1 (List.mem_map.2 ⟨other, member, same⟩)
    · intro other member
      exact proper other (List.mem_cons_of_mem _ member)

end Steps

/-! ## Programs -/

/-- The chain of a whole program, with all loops closed. -/
def Program.chain (p : Program) : Chain :=
  let chain := p.items.foldl Chain.add ⟨Flow.start, Flowchart.startId, []⟩
  closeLoops chain.flow chain.last (p.code.length + 1) chain.open_

/-- The flow of a program is its chain, finished. -/
theorem Program.flow_eq (p : Program) : p.flow = p.chain.flow.finish p.chain.last := rfl

/-- **The chain of every program holds together.** -/
theorem Program.chain_holds (p : Program) : p.chain.Holds := by
  refine Chain.Holds.closeAll _
    (Chain.holds_start.addAll p.items p.nodup_ids_items ?_ p.exists_proper)
  intro item member taken
  obtain ⟨letters, i, proper⟩ := p.exists_proper item member
  have named := proper.underscore_mem
  rw [show item.id = Flowchart.startId from List.mem_singleton.1 taken] at named
  exact absurd named (by decide)

end FlowTrace.Cpp
