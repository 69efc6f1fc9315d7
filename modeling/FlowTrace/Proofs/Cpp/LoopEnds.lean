import FlowTrace.Proofs.Cpp.Chain
import FlowTrace.Proofs.Cpp.LoopNesting
import Mathlib.Data.List.TakeWhile

/-! # Where C++ loops end

The **course** of a program is what its flowchart should follow: each item in source order and,
behind it, the loops whose bodies end in front of the next one, the innermost first. Each loop with
a braced body is so come to twice, once where it begins and once where its body ends
(`courseFrom_perm`).

A chain keeps the loops that are open one inside the other, and closes none before those inside of
it. So its edges lead along the course exactly when no loop ends later than one around it has ended
(`Program.edges_flow_iff`). -/

namespace FlowTrace.Cpp

open Flowchart (startId endId)

/-! ## The course -/

/-- The edges between neighbours on the way from a node along others. No edge leads from a node to
itself. -/
def edgesAlong : Text → List Text → List Edge
  | _, [] => []
  | last, id :: rest =>
    if last = id then edgesAlong id rest else ⟨last, id⟩ :: edgesAlong id rest

/-- The node of a loop with a braced body, and the end of the body. -/
def Item.loop? (item : Item) : Option (Text × Nat) := item.bodyEnd.map (item.id, ·)

/-- The loops with braced bodies among items. -/
def bracedLoops (items : List Item) : List (Text × Nat) := items.filterMap (·.loop?)

/-- Of items that have begun, the last one first, those loops that do not end before an offset. -/
def unended (begun : List Item) (offset : Nat) : List (Text × Nat) :=
  (bracedLoops begun).filter (offset ≤ ·.2)

/-- The nodes of the loops that end before an offset. -/
def endings (loops : List (Text × Nat)) (offset : Nat) : List Text :=
  (loops.filter (·.2 < offset)).map Prod.fst

/-- The course behind items that have begun, the last one first, the last of them at `low`: the
loops among them that end before the next item, then this item, and so on. -/
def courseFrom (finish : Nat) (begun : List Item) (low : Nat) : List Item → List Text
  | [] => endings (unended begun low) finish
  | item :: rest =>
    endings (unended begun low) item.offset ++
      item.id :: courseFrom finish (item :: begun) item.offset rest

/-- The **course** of a program. -/
def Program.course (p : Program) : List Text := courseFrom (p.code.length + 1) [] 0 p.items

/-- A loop that began in another one ends **in turn** with it: before an offset behind the other
one's end, it has ended itself. -/
def InTurn (offset : Nat) (outer inner : Item) : Prop :=
  ∀ stop ∈ outer.bodyEnd, ∀ stop' ∈ inner.bodyEnd,
    inner.offset ≤ stop → stop < offset → stop' < offset

/-- Items as they come behind an offset: in source order, and with bodies that end behind where they
begin and inside the source. -/
structure Ordered (finish low : Nat) (items : List Item) : Prop where
  /-- They are in source order. -/
  sorted : items.Pairwise (·.offset ≤ ·.offset)
  /-- They come behind the offset. -/
  behind : ∀ item ∈ items, low ≤ item.offset
  /-- Their bodies end behind where they begin, and inside the source. -/
  ends : ∀ item ∈ items, ∀ stop ∈ item.bodyEnd, item.offset ≤ stop ∧ stop < finish

section Courses

variable {finish low offset : Nat} {item : Item} {begun rest : List Item}

/-- The items behind the first of ordered ones are ordered from its offset on. -/
theorem Ordered.of_cons (h : Ordered finish low (item :: rest)) :
    low ≤ item.offset ∧ Ordered finish item.offset rest := by
  obtain ⟨before, sorted⟩ := List.pairwise_cons.1 h.sorted
  exact ⟨h.behind item List.mem_cons_self, sorted, before,
    fun other member => h.ends other (List.mem_cons_of_mem _ member)⟩

/-- The loops with a body begin with the first item, if it is one. -/
theorem bracedLoops_cons (item : Item) (rest : List Item) :
    bracedLoops (item :: rest) = item.loop?.toList ++ bracedLoops rest := by
  rw [bracedLoops, List.filterMap_cons]
  cases item.loop? <;> rfl

/-- What holds of the loop of an item holds of its end, if it has one. -/
theorem forall_mem_loop? {holds : Text × Nat → Prop} :
    (∀ loop ∈ item.loop?.toList, holds loop) ↔ ∀ stop ∈ item.bodyEnd, holds (item.id, stop) := by
  simp [Item.loop?]

/-- The loop of an item has its id. -/
theorem id_of_mem_loop? {loop : Text × Nat} (member : loop ∈ item.loop?.toList) :
    loop.1 = item.id := by
  obtain ⟨stop, -, rfl⟩ := Option.map_eq_some_iff.1 (Option.mem_toList.1 member)
  rfl

/-- The loops that have not ended begin with the first item, if it is one. -/
theorem unended_cons (later : ∀ stop ∈ item.bodyEnd, offset ≤ stop) :
    unended (item :: begun) offset = item.loop?.toList ++ unended begun offset := by
  rw [unended, bracedLoops_cons, List.filter_append, List.filter_eq_self.2, unended]
  rw [forall_mem_loop?]
  exact fun stop is_end => decide_eq_true (later stop is_end)

/-- The loops among items are some of them, in order. -/
theorem ids_unended_sublist (begun : List Item) (offset : Nat) :
    ((unended begun offset).map Prod.fst).Sublist (begun.map (·.id)) := by
  have braced : ((bracedLoops begun).map Prod.fst).Sublist (begun.map (·.id)) := by
    induction begun with
    | nil => exact List.Sublist.slnil
    | cons item begun ih =>
      rw [bracedLoops_cons, List.map_append, List.map_cons]
      cases found : item.loop? with
      | none => exact ih.cons _
      | some loop =>
        have same : loop.1 = item.id :=
          id_of_mem_loop? (by rw [found]; exact List.mem_singleton_self _)
        rw [Option.toList_some, List.map_singleton, same]
        exact ih.cons_cons _
  exact (List.filter_sublist.map _).trans braced

/-- What has not ended at one offset, and does not end before a later one, has not ended there. -/
theorem filter_unended (le : low ≤ offset) :
    (unended begun low).filter (fun loop => !decide (loop.2 < offset)) = unended begun offset := by
  rw [unended, unended, List.filter_filter]
  refine List.filter_congr fun loop _ => ?_
  rw [← decide_not, ← Bool.decide_and, decide_eq_decide]
  omega

/-- Loops that end inside the source still do so when the next item has begun. -/
theorem inside_cons (inside : ∀ loop ∈ unended begun low, loop.2 < finish)
    (ordered : Ordered finish low (item :: rest)) :
    ∀ loop ∈ unended (item :: begun) item.offset, loop.2 < finish := by
  have own := ordered.ends item List.mem_cons_self
  rw [unended_cons fun stop is_end => (own stop is_end).1, List.forall_mem_append, forall_mem_loop?,
    ← filter_unended ordered.of_cons.1]
  exact ⟨fun stop is_end => (own stop is_end).2,
    fun loop member => inside loop (List.mem_of_mem_filter member)⟩

/-- **The course** comes to each item, and once more to each loop with a braced body. -/
theorem courseFrom_perm (inside : ∀ loop ∈ unended begun low, loop.2 < finish)
    (ordered : Ordered finish low rest) :
    (courseFrom finish begun low rest).Perm ((unended begun low).map Prod.fst ++
      (rest.map (·.id) ++ (bracedLoops rest).map Prod.fst)) := by
  induction rest generalizing begun low with
  | nil =>
    have all : ∀ loop ∈ unended begun low, decide (loop.2 < finish) = true :=
      fun loop member => decide_eq_true (inside loop member)
    rw [courseFrom, endings, List.filter_eq_self.2 all]
    simp [bracedLoops]
  | cons item rest ih =>
    obtain ⟨le, later⟩ := ordered.of_cons
    have own := ordered.ends item List.mem_cons_self
    have parts := (List.filter_append_perm (fun loop : Text × Nat => decide (loop.2 < item.offset))
      (unended begun low)).map Prod.fst
    have course := ih (inside_cons inside ordered) later
    rw [filter_unended le, List.map_append] at parts
    rw [unended_cons fun stop is_end => (own stop is_end).1] at course
    refine List.perm_iff_count.2 fun id => ?_
    have of_parts := parts.count_eq id
    have of_course := course.count_eq id
    simp only [courseFrom, endings, bracedLoops_cons, List.map_cons, List.map_append,
      List.count_append, List.count_cons] at of_parts of_course ⊢
    omega

end Courses

/-! ## The way of a chain -/

/-- The last node of a walk in two parts. -/
theorem getLastD_append (last : Text) (walk rest : List Text) :
    (walk ++ rest).getLastD last = rest.getLastD (walk.getLastD last) := by
  induction walk generalizing last with
  | nil => rfl
  | cons id walk ih => rw [List.cons_append, List.getLastD_cons, List.getLastD_cons, ih]

/-- The edges along a walk in two parts. -/
theorem edgesAlong_append (last : Text) (walk rest : List Text) :
    edgesAlong last (walk ++ rest) =
      edgesAlong last walk ++ edgesAlong (walk.getLastD last) rest := by
  induction walk generalizing last with
  | nil => rfl
  | cons id walk ih =>
    rw [List.cons_append, edgesAlong, edgesAlong, List.getLastD_cons, ih]
    split <;> rfl

/-- The way that a chain goes: before each item, loops are closed as far as they end before it, the
innermost first, and none behind one that does not. -/
def stackCourse (finish : Nat) (open_ : List (Text × Nat)) : List Item → List Text
  | [] => (open_.takeWhile (·.2 < finish)).map Prod.fst
  | item :: rest =>
    (open_.takeWhile (·.2 < item.offset)).map Prod.fst ++ item.id ::
      stackCourse finish (item.loop?.toList ++ open_.dropWhile (·.2 < item.offset)) rest

/-- A chain has gone **along** a way from the start. -/
structure Chain.Along (chain : Chain) (walk : List Text) : Prop where
  /-- Its edges are those of the way. -/
  edges : chain.flow.chart.edges = edgesAlong startId walk
  /-- It goes on from where the way ends. -/
  last : chain.last = walk.getLastD startId

/-- A chain that begins goes along nothing. -/
theorem Chain.along_start : Chain.Along ⟨Flow.start, startId, []⟩ [] := ⟨rfl, rfl⟩

/-- Loops stay open behind one that does not end before the offset. -/
theorem open_closeLoops (offset : Nat) : ∀ (open_ : List (Text × Nat)) (flow : Flow) (last : Text),
    (closeLoops flow last offset open_).open_ = open_.dropWhile (·.2 < offset)
  | [], _, _ => rfl
  | (id, stop) :: outer, flow, last => by
    rw [closeLoops]
    by_cases ended : stop < offset
    · rw [if_pos ended, List.dropWhile_cons_of_pos (by simpa using ended),
        open_closeLoops offset outer]
    · rw [if_neg ended, List.dropWhile_cons_of_neg (by simpa using ended)]

/-- The loops that are open behind an item. -/
theorem Chain.open_add (chain : Chain) (item : Item) : (chain.add item).open_ =
    item.loop?.toList ++ chain.open_.dropWhile (·.2 < item.offset) := by
  rw [← open_closeLoops item.offset chain.open_ chain.flow chain.last]
  unfold Chain.add Item.loop?
  cases item.bodyEnd <;> rfl

/-- **Closing loops** goes on along those that end before an offset. -/
theorem Chain.Along.closeAll (offset : Nat) :
    ∀ {open_ : List (Text × Nat)} {flow : Flow} {last : Text} {walk : List Text},
      Chain.Along ⟨flow, last, open_⟩ walk →
        (closeLoops flow last offset open_).Along
          (walk ++ (open_.takeWhile (·.2 < offset)).map Prod.fst)
  | [], flow, last, walk, h => by
    rw [closeLoops, List.takeWhile_nil, List.map_nil, List.append_nil]
    exact h
  | (id, stop) :: outer, flow, last, walk, h => by
    rw [closeLoops]
    by_cases ended : stop < offset
    · have back : Chain.Along ⟨if last = id then flow else flow.link last id, id, outer⟩
          (walk ++ [id]) := by
        refine ⟨?_, by simp⟩
        rw [edgesAlong_append, ← h.last, ← h.edges, edgesAlong, edgesAlong]
        split <;> simp [Flow.link]
      rw [if_pos ended, List.takeWhile_cons_of_pos (by simpa using ended), List.map_cons,
        List.append_cons]
      exact back.closeAll offset
    · rw [if_neg ended, List.takeWhile_cons_of_neg (by simpa using ended), List.map_nil,
        List.append_nil]
      exact h

/-- **Adding an item** goes on along the loops that end before it, and to the item. -/
theorem Chain.Along.add {chain : Chain} {walk : List Text} {item : Item} (h : chain.Along walk)
    (other : item.id ∉ chain.last :: chain.open_.map Prod.fst) :
    (chain.add item).Along
      (walk ++ (chain.open_.takeWhile (·.2 < item.offset)).map Prod.fst ++ [item.id]) := by
  have closed := Chain.Along.closeAll item.offset h
  have apart : (closeLoops chain.flow chain.last item.offset chain.open_).last ≠ item.id := by
    rw [closed.last, getLastD_append, ← h.last]
    intro same
    rw [← same] at other
    rcases List.mem_cons.1 List.getLastD_mem_cons with here | ended
    · exact other (here ▸ List.mem_cons_self)
    · exact other (List.mem_cons_of_mem _ (((List.takeWhile_sublist _).map _).mem ended))
  refine ⟨?_, by simp [Chain.add]⟩
  rw [edgesAlong_append, ← closed.last, ← closed.edges, edgesAlong, if_neg apart]
  exact Flow.edges_add

/-- **A chain goes its way.** -/
theorem Chain.Along.addAll (finish : Nat) {rest : List Item} {chain : Chain} {walk : List Text}
    (h : chain.Along walk) (distinct : (rest.map (·.id)).Nodup)
    (fresh : ∀ item ∈ rest, item.id ∉ chain.last :: chain.open_.map Prod.fst) :
    (closeLoops (rest.foldl Chain.add chain).flow (rest.foldl Chain.add chain).last finish
      (rest.foldl Chain.add chain).open_).Along (walk ++ stackCourse finish chain.open_ rest) := by
  induction rest generalizing chain walk with
  | nil => exact Chain.Along.closeAll finish h
  | cons item rest ih =>
    rw [List.map_cons, List.nodup_cons] at distinct
    have added := h.add (fresh item List.mem_cons_self)
    rw [stackCourse, ← Chain.open_add, ← List.append_assoc, List.append_cons]
    refine ih added distinct.2 ?_
    intro other member taken
    rw [Chain.open_add, List.map_append, List.mem_cons, List.mem_append] at taken
    have not_item : other.id ≠ item.id := fun same =>
      distinct.1 (same ▸ List.mem_map_of_mem (f := Item.id) member)
    rcases taken with same | own | older
    · exact not_item same
    · obtain ⟨loop, own, same⟩ := List.mem_map.1 own
      exact not_item (same.symm.trans (id_of_mem_loop? own))
    · refine fresh other (List.mem_cons_of_mem _ member) (List.mem_cons_of_mem _ ?_)
      exact ((List.dropWhile_sublist _).map _).mem older

/-! ## Loops that end in turn -/

/-- What comes first is all there is exactly when nothing else comes before any of it. -/
theorem takeWhile_eq_filter_iff {α : Type} (p : α → Bool) (l : List α) :
    l.takeWhile p = l.filter p ↔ l.Pairwise fun a b => p b = true → p a = true := by
  induction l with
  | nil => simp
  | cons a l ih =>
    rw [List.pairwise_cons]
    by_cases here : p a = true
    · rw [List.takeWhile_cons_of_pos here, List.filter_cons_of_pos here, List.cons_inj_right, ih]
      exact ⟨fun rest => ⟨fun _ _ _ => here, rest⟩, fun h => h.2⟩
    · rw [List.takeWhile_cons_of_neg here, List.filter_cons_of_neg here, eq_comm,
        List.filter_eq_nil_iff]
      constructor
      · intro none
        refine ⟨fun b member there => absurd there (none b member), ?_⟩
        exact List.pairwise_of_forall_mem_list fun _ _ b is_b there => absurd there (none b is_b)
      · exact fun h b member there => here (h.1 b member there)

/-- The first members that a condition holds of are among all of those. -/
theorem takeWhile_prefix_filter {α : Type} (p : α → Bool) (l : List α) :
    l.takeWhile p <+: l.filter p := by
  induction l with
  | nil => exact List.prefix_refl _
  | cons a l ih =>
    by_cases here : p a = true
    · rw [List.takeWhile_cons_of_pos here, List.filter_cons_of_pos here]
      exact (List.prefix_cons_inj a).2 ih
    · rw [List.takeWhile_cons_of_neg here]
      exact List.nil_prefix

/-- The condition holds of the first members only when none of the others meets it. -/
theorem map_takeWhile_eq_iff {α β : Type} (f : α → β) (p : α → Bool) (l : List α) :
    (l.takeWhile p).map f = (l.filter p).map f ↔ l.Pairwise fun a b => p b = true → p a = true := by
  rw [← takeWhile_eq_filter_iff]
  refine ⟨fun same => (takeWhile_prefix_filter p l).eq_of_length ?_, congrArg _⟩
  simpa using congrArg List.length same

/-- If what comes first is all there is, the rest is what is left. -/
theorem dropWhile_eq_filter {α : Type} {p : α → Bool} {l : List α}
    (first : l.takeWhile p = l.filter p) : l.dropWhile p = l.filter (fun a => !p a) := by
  have parts := List.takeWhile_append_dropWhile (p := p) (l := l)
  have none : (l.dropWhile p).filter p = [] := by
    have kept := congrArg (List.filter p) parts
    rw [List.filter_append, first, List.filter_filter] at kept
    simpa using kept
  conv_rhs => rw [← parts, first]
  rw [List.filter_append, List.filter_filter]
  have left : (l.dropWhile p).filter (fun a => !p a) = l.dropWhile p :=
    List.filter_eq_self.2 fun a member => by simpa using List.filter_eq_nil_iff.1 none a member
  rw [left]
  simp

/-- If one way goes on where another has more stops first, their edges differ. -/
theorem edgesAlong_inj {stops more : List Text} {last id : Text} {walk walk' : List Text}
    (part : stops <+: more) (distinct : more.Nodup) (turned : last ∈ more → last ∈ stops)
    (other : last ≠ id) (new : id ∉ more) :
    edgesAlong last (stops ++ id :: walk) = edgesAlong last (more ++ id :: walk') ↔
      stops = more ∧ edgesAlong id walk = edgesAlong id walk' := by
  induction stops generalizing last more with
  | nil =>
    cases more with
    | nil => simp [edgesAlong, other]
    | cons stop more =>
      have left : last ≠ stop := fun same => absurd (turned (same ▸ List.mem_cons_self)) (by simp)
      have apart : id ≠ stop := fun same => new (same ▸ List.mem_cons_self)
      simp [edgesAlong, other, left, apart]
  | cons stop stops ih =>
    obtain ⟨rest, rfl⟩ := part
    rw [List.cons_append, List.nodup_cons] at distinct
    rw [List.cons_append, List.mem_cons, not_or] at new
    have deeper :
        edgesAlong stop (stops ++ id :: walk) = edgesAlong stop (stops ++ rest ++ id :: walk') ↔
          stops = stops ++ rest ∧ edgesAlong id walk = edgesAlong id walk' :=
      ih (List.prefix_append stops rest) distinct.2 (fun again => absurd again distinct.1)
        (Ne.symm new.1) new.2
    simp only [List.cons_append, edgesAlong, List.cons_inj_right]
    split
    · exact deeper
    · rw [List.cons_inj_right, deeper]

section Turns

variable {finish low offset : Nat} {last : Text} {item outer inner : Item} {begun rest : List Item}

/-- What begins later did not begin in a loop that has ended. -/
theorem inTurn_of_le (le : offset ≤ inner.offset) : InTurn offset outer inner := by
  intro stop _ stop' _ inside ended
  exact absurd (Nat.lt_of_lt_of_le ended le) (Nat.not_lt.2 inside)

/-- If loops ended in turn up to some offset, then to see whether they do so further on it is enough
to look at those that have not ended. -/
theorem pairwise_unended_iff (begins : ∀ item ∈ begun, item.offset ≤ low) (le : low ≤ offset)
    (so_far : begun.Pairwise fun inner outer => InTurn low outer inner) :
    ((unended begun low).Pairwise fun loop around =>
        decide (around.2 < offset) = true → decide (loop.2 < offset) = true) ↔
      begun.Pairwise fun inner outer => InTurn offset outer inner := by
  rw [unended, bracedLoops, List.pairwise_filter, List.pairwise_filterMap]
  simp only [Item.loop?, decide_eq_true_eq]
  constructor
  · intro h
    refine (h.and so_far).imp ?_
    rintro inner outer ⟨open_, before⟩ stop is_end stop' is_end' inside ended
    have in_turn := open_ (inner.id, stop') (by simp [Option.mem_def.1 is_end'])
      (outer.id, stop) (by simp [Option.mem_def.1 is_end])
    by_cases early : stop < low
    · exact Nat.lt_of_lt_of_le (before stop is_end stop' is_end' inside early) le
    · by_cases early' : stop' < low
      · exact Nat.lt_of_lt_of_le early' le
      · exact in_turn (Nat.le_of_not_lt early') (Nat.le_of_not_lt early) ended
  · intro h
    refine h.imp_of_mem ?_
    intro inner outer is_inner _ in_turn loop found around found' _ late ended
    obtain ⟨stop', is_end', rfl⟩ := Option.map_eq_some_iff.1 found
    obtain ⟨stop, is_end, rfl⟩ := Option.map_eq_some_iff.1 found'
    exact in_turn stop is_end stop' is_end' (Nat.le_trans (begins inner is_inner) late) ended

/-- A chain **midway**: some items have begun, the last one first, and the rest comes behind. -/
structure Midway (finish low : Nat) (begun rest : List Item) (last : Text) : Prop where
  /-- What has begun is in front of the offset. -/
  begins : ∀ item ∈ begun, item.offset ≤ low
  /-- What has not ended ends inside the source. -/
  inside : ∀ loop ∈ unended begun low, loop.2 < finish
  /-- The rest comes behind the offset. -/
  ordered : Ordered finish low rest
  /-- All items have ids of their own. -/
  distinct : ((begun ++ rest).map (·.id)).Nodup
  /-- The chain goes on from a node that none of the rest has. -/
  fresh : last ∉ rest.map (·.id)
  /-- If that node is a loop that has not ended, it is the innermost one. -/
  innermost : last ∉ (unended begun low).tail.map Prod.fst

/-- An item that has begun is no longer one of the rest. -/
theorem Midway.step (h : Midway finish low begun (item :: rest) last) :
    Midway finish item.offset (item :: begun) rest item.id := by
  obtain ⟨le, later⟩ := h.ordered.of_cons
  have own := h.ordered.ends item List.mem_cons_self
  have distinct : ((item :: (begun ++ rest)).map (·.id)).Nodup :=
    (List.perm_middle.map _).nodup_iff.1 h.distinct
  have apart : item.id ∉ (begun ++ rest).map (·.id) := (List.nodup_cons.1 distinct).1
  rw [List.map_append, List.mem_append, not_or] at apart
  refine ⟨?_, inside_cons h.inside h.ordered, later, distinct, apart.2, ?_⟩
  · exact List.forall_mem_cons.2
      ⟨Nat.le_refl _, fun other member => Nat.le_trans (h.begins other member) le⟩
  · rw [unended_cons fun stop is_end => (own stop is_end).1]
    intro again
    have older : item.id ∈ (unended begun item.offset).map Prod.fst := by
      cases found : item.loop? with
      | none =>
        rw [found] at again
        exact ((List.tail_sublist _).map _).mem again
      | some loop =>
        rw [found] at again
        exact again
    exact apart.1 ((ids_unended_sublist begun item.offset).mem older)

/-- The node that the chain goes on from is left at once if it is a loop that has ended. -/
theorem Midway.turned (h : Midway finish low begun rest last) {p : Text × Nat → Bool}
    (ended : last ∈ ((unended begun low).filter p).map Prod.fst) :
    last ∈ ((unended begun low).takeWhile p).map Prod.fst := by
  obtain ⟨loop', kept, rfl⟩ := List.mem_map.1 ended
  obtain ⟨member, holds⟩ := List.mem_filter.1 kept
  have innermost := h.innermost
  cases open_ : unended begun low with
  | nil =>
    rw [open_] at member
    cases member
  | cons loop older =>
    rw [open_] at member innermost
    rcases List.mem_cons.1 member with rfl | outer
    · rw [List.takeWhile_cons_of_pos holds]
      exact List.mem_cons_self
    · exact absurd (List.mem_map_of_mem outer) innermost

/-- Whether loops end in turn up to an item is seen by those in front of it: what comes later did
not begin in a loop that has ended. -/
theorem Ordered.pairwise_inTurn_iff (ordered : Ordered finish low (item :: rest)) :
    (begun.reverse ++ item :: rest).Pairwise (InTurn item.offset) ↔
      begun.Pairwise fun inner outer => InTurn item.offset outer inner := by
  have vacuous (outer inner : Item) (member : inner ∈ item :: rest) :
      InTurn item.offset outer inner := by
    refine inTurn_of_le ?_
    rcases List.mem_cons.1 member with rfl | later
    · exact Nat.le_refl _
    · exact ordered.of_cons.2.behind inner later
  rw [List.pairwise_append, List.pairwise_reverse]
  refine ⟨fun all => all.1, fun in_turn => ⟨in_turn, ?_, fun outer _ => vacuous outer⟩⟩
  exact List.pairwise_of_forall_mem_list fun outer _ inner => vacuous outer inner

/-- Of the loops that have not ended none is closed twice, and none is the next item. -/
theorem Midway.apart (h : Midway finish low begun (item :: rest) last) (p : Text × Nat → Bool) :
    (((unended begun low).filter p).map Prod.fst).Nodup ∧
      item.id ∉ ((unended begun low).filter p).map Prod.fst := by
  have ids : (((unended begun low).filter p).map Prod.fst).Sublist (begun.map (·.id)) :=
    (List.filter_sublist.map Prod.fst).trans (ids_unended_sublist begun low)
  have distinct := h.distinct
  rw [List.map_append, List.nodup_append'] at distinct
  exact ⟨distinct.1.sublist ids, fun old => distinct.2.2 (ids.mem old) List.mem_cons_self⟩

/-- **A chain goes along the course** exactly when all loops end in turn. -/
theorem Midway.edgesAlong_iff (h : Midway finish low begun rest last)
    (so_far : begun.Pairwise fun inner outer => InTurn low outer inner) :
    edgesAlong last (stackCourse finish (unended begun low) rest ++ [endId]) =
        edgesAlong last (courseFrom finish begun low rest ++ [endId]) ↔
      ∀ item ∈ rest, (begun.reverse ++ rest).Pairwise (InTurn item.offset) := by
  -- by induction on the items to come, along which the loops that have not ended change
  induction rest generalizing begun low last with
  | nil =>
    -- All loops end inside the source.
    have all : ∀ loop ∈ unended begun low, decide (loop.2 < finish) = true :=
      fun loop member => decide_eq_true (h.inside loop member)
    rw [stackCourse, courseFrom, endings, List.filter_eq_self.2 all,
      List.takeWhile_eq_self_iff.2 all]
    simp
  | cons item rest ih =>
    have le := h.ordered.of_cons.1
    have own := h.ordered.ends item List.mem_cons_self
    have part := (takeWhile_prefix_filter (fun loop : Text × Nat => decide (loop.2 < item.offset))
      (unended begun low)).map Prod.fst
    obtain ⟨distinct, new⟩ := h.apart fun loop => loop.2 < item.offset
    -- The loops that the chain closes in front of the item are the first of those that have ended.
    rw [stackCourse, courseFrom, List.append_assoc, List.append_assoc, List.cons_append,
      List.cons_append, endings, edgesAlong_inj part distinct h.turned
        (fun same => h.fresh (same ▸ List.mem_cons_self)) new, List.forall_mem_cons,
      h.ordered.pairwise_inTurn_iff, map_takeWhile_eq_iff, pairwise_unended_iff h.begins le so_far]
    refine and_congr_right fun in_turn => ?_
    have all :=
      (takeWhile_eq_filter_iff _ _).2 ((pairwise_unended_iff h.begins le so_far).2 in_turn)
    -- If they are all of those, the same loops stay open on both sides.
    rw [dropWhile_eq_filter all, filter_unended le,
      ← unended_cons fun stop is_end => (own stop is_end).1, ih h.step ?_]
    · simp
    · exact List.pairwise_cons.2 ⟨fun _ _ => inTurn_of_le (Nat.le_refl _), in_turn⟩

end Turns

/-! ## Programs -/

/-- Items are in source order. -/
theorem Program.sorted_items (p : Program) : p.items.Pairwise (·.offset ≤ ·.offset) := by
  refine (List.pairwise_mergeSort ?_ ?_ _).imp fun le => of_decide_eq_true le
  · intro a b c first second
    exact decide_eq_true (Nat.le_trans (of_decide_eq_true first) (of_decide_eq_true second))
  · intro a b
    rw [Bool.or_eq_true, decide_eq_true_eq, decide_eq_true_eq]
    exact Nat.le_total _ _

/-- The items of a program, kind by kind. -/
def Program.kindItems (p : Program) : List Item := (p.kinds.map (·.items)).flatten

/-- Items that are in source order kind by kind stay as they are. -/
theorem Program.items_eq {p : Program} (sorted : p.kindItems.Pairwise (·.offset ≤ ·.offset)) :
    p.items = p.kindItems := by
  have same : p.items = p.kindItems.mergeSort fun a b => a.offset ≤ b.offset := by
    simp [items, kindItems, kinds, Kind.ofList]
  rw [same]
  exact List.mergeSort_of_pairwise (sorted.imp fun le => decide_eq_true le)

/-- An item with a body is that of a loop. -/
theorem Program.exists_loop {p : Program} {item : Item} (member : item ∈ p.items) {stop : Nat}
    (ends : stop ∈ item.bodyEnd) :
    ∃ loop ∈ p.loops, ∃ start, loop.body = some (start, stop) ∧ item.offset = loop.offset := by
  rw [Program.items, List.mem_mergeSort] at member
  simp only [List.mem_append, List.mem_mapIdx] at member
  rcases member with (((((((⟨i, h, rfl⟩ | ⟨i, h, rfl⟩) | ⟨i, h, rfl⟩) | ⟨i, h, rfl⟩) |
    ⟨i, h, rfl⟩) | ⟨i, h, rfl⟩) | ⟨i, h, rfl⟩) | ⟨i, h, rfl⟩)
  case inl.inl.inl.inr =>
    obtain ⟨body, is_body, rfl⟩ := Option.map_eq_some_iff.1 ends
    exact ⟨p.loops[i], List.getElem_mem h, body.1, is_body, rfl⟩
  all_goals cases ends

/-- **The items of a program** are in source order, and the bodies of its loops end behind where
they begin and inside the source. -/
theorem Program.ordered {source : Text} {p : Program} (parsed : Program.parse source = .ok p) :
    Ordered (p.code.length + 1) 0 p.items where
  sorted := p.sorted_items
  behind _ _ := Nat.zero_le _
  ends := by
    intro item member stop is_end
    obtain ⟨loop, is_loop, start, is_body, at_loop⟩ := Program.exists_loop member is_end
    have between := Program.body_between parsed is_loop is_body
    have behind := Program.body_behind parsed is_loop is_body
    omega

/-- No item has the id of the first or the last node. -/
theorem Program.not_mem_ids (p : Program) {id : Text} (unnamed : Text.underscore ∉ id) :
    id ∉ p.items.map (·.id) := by
  intro taken
  obtain ⟨item, member, rfl⟩ := List.mem_map.1 taken
  obtain ⟨_, _, proper⟩ := p.exists_proper item member
  exact unnamed proper.underscore_mem

/-- At the beginning all items of a program are still to come. -/
theorem Program.midway {source : Text} {p : Program} (parsed : Program.parse source = .ok p) :
    Midway (p.code.length + 1) 0 [] p.items startId where
  begins := nofun
  inside := nofun
  ordered := Program.ordered parsed
  distinct := p.nodup_ids_items
  fresh := p.not_mem_ids (by decide)
  innermost := nofun

/-- **The edges of a program** are those of the way that its chain goes. -/
theorem Program.edges_flow (p : Program) : p.flow.1.edges =
    edgesAlong startId (stackCourse (p.code.length + 1) [] p.items ++ [endId]) := by
  have along : p.chain.Along (stackCourse (p.code.length + 1) [] p.items) := by
    refine Chain.along_start.addAll _ p.nodup_ids_items ?_
    intro item member taken
    rw [List.map_nil, List.mem_singleton] at taken
    have named := List.mem_map_of_mem (f := Item.id) member
    rw [taken] at named
    exact p.not_mem_ids (by decide) named
  have not_end : p.chain.last ≠ endId := fun same =>
    p.chain_holds.sound.no_end (same ▸ p.chain_holds.present)
  rw [Program.flow_eq, Flow.edges_finish, edgesAlong_append, ← along.last, ← along.edges,
    edgesAlong, if_neg not_end, edgesAlong]

/-- Only loops among the items are open. -/
theorem Chain.mem_open_foldl {loop : Text × Nat} : ∀ (rest : List Item) (chain : Chain),
    loop ∈ (rest.foldl Chain.add chain).open_ → loop ∈ chain.open_ ∨ loop ∈ bracedLoops rest
  | [], _, still => .inl still
  | item :: rest, chain, still => by
    rw [bracedLoops_cons, List.mem_append]
    rcases mem_open_foldl rest (chain.add item) still with before | later
    · rw [Chain.open_add, List.mem_append] at before
      rcases before with own | older
      · exact .inr (.inl own)
      · exact .inl ((List.dropWhile_sublist _).mem older)
    · exact .inr (.inr later)

/-- When the source ends, **no loop is open**. -/
theorem Program.open_chain {source : Text} {p : Program} (parsed : Program.parse source = .ok p) :
    p.chain.open_ = [] := by
  rw [Program.chain, open_closeLoops, List.dropWhile_eq_nil_iff]
  intro loop still
  rcases Chain.mem_open_foldl _ _ still with before | braced
  · cases before
  · obtain ⟨item, member, is_loop⟩ := List.mem_filterMap.1 braced
    obtain ⟨stop, is_end, rfl⟩ := Option.map_eq_some_iff.1 is_loop
    exact decide_eq_true ((Program.ordered parsed).ends item member stop is_end).2

/-- Loops in code end in turn. -/
theorem Program.inTurn_of_inCode {source : Text} {p : Program}
    (parsed : Program.parse source = .ok p)
    (in_code : ∀ loop ∈ p.loops, loop.body.isSome = true → Braced.InCode p.code loop.offset)
    (offset : Nat) : p.items.Pairwise (InTurn offset) := by
  refine p.sorted_items.imp_of_mem ?_
  intro outer inner is_outer is_inner order stop is_end stop' is_end' within ended
  obtain ⟨loop, is_loop, start, is_body, at_loop⟩ := Program.exists_loop is_outer is_end
  obtain ⟨loop', is_loop', start', is_body', at_loop'⟩ := Program.exists_loop is_inner is_end'
  have code := in_code loop is_loop (by rw [is_body]; rfl)
  have code' := in_code loop' is_loop' (by rw [is_body']; rfl)
  rw [at_loop, at_loop'] at order
  rw [at_loop'] at within
  have nested :=
    Program.nested_of_inCode parsed is_loop is_loop' code code' order is_body is_body' within
  exact Nat.lt_of_le_of_lt nested ended

/-- **The flow of a program.** The course comes to each node, in source order, and once more to
each loop with a braced body, where its body ends; when the source ends, no loop is open. The edges
lead along the course, from the first node to the last one, exactly when all loops end in turn, and
loops that stand in code always do. -/
theorem Program.edges_flow_iff {source : Text} {p : Program}
    (parsed : Program.parse source = .ok p) :
    p.items.Pairwise (·.offset ≤ ·.offset) ∧
    p.course.Perm (p.items.map (·.id) ++ (bracedLoops p.items).map Prod.fst) ∧
    p.chain.open_ = [] ∧
    (p.flow.1.edges = edgesAlong startId (p.course ++ [endId]) ↔
      ∀ item ∈ p.items, p.items.Pairwise (InTurn item.offset)) ∧
    ((∀ loop ∈ p.loops, loop.body.isSome = true → Braced.InCode p.code loop.offset) →
      p.flow.1.edges = edgesAlong startId (p.course ++ [endId])) := by
  have midway := Program.midway parsed
  have along : p.flow.1.edges = edgesAlong startId (p.course ++ [endId]) ↔
      ∀ item ∈ p.items, p.items.Pairwise (InTurn item.offset) := by
    rw [p.edges_flow, Program.course]
    exact midway.edgesAlong_iff .nil
  refine ⟨p.sorted_items, courseFrom_perm midway.inside midway.ordered, Program.open_chain parsed,
    along, fun in_code => along.2 fun item _ => Program.inTurn_of_inCode parsed in_code item.offset⟩

/-- Two loops, one in the other, that end one behind the other. -/
theorem Program.nested_loops_flow : ∃ p, Program.parse
    "while (x) \x7b for (y) \x7b f(\")\"); \x7d \x7d return;" = .ok p ∧
    p.flow.1.edges = edgesAlong startId ["Loop_0", "Loop_1", "Call_f_0", "Loop_1", "Loop_0",
      "Return_0", endId] := by
  have shown : (Program.parse
      "while (x) \x7b for (y) \x7b f(\")\"); \x7d \x7d return;").toOption.map (fun p =>
        (decide (p.kindItems.Pairwise (·.offset ≤ ·.offset)),
          decide (∀ loop ∈ p.loops, loop.body.isSome = true → Braced.InCode p.code loop.offset),
          courseFrom (p.code.length + 1) [] 0 p.kindItems)) =
      some (true, true, (["Loop_0", "Loop_1", "Call_f_0", "Loop_1", "Loop_0", "Return_0"] :
        List Text)) := by
    decide +kernel
  obtain ⟨p, parsed, known⟩ := exists_of_toOption_map shown
  simp only [Prod.mk.injEq, decide_eq_true_eq] at known
  obtain ⟨sorted, in_code, course⟩ := known
  obtain ⟨-, -, -, -, along⟩ := Program.edges_flow_iff parsed
  refine ⟨p, parsed, ?_⟩
  rw [along in_code, Program.course, Program.items_eq sorted, course]
  rfl

/-- A loop that is picked out of a message may reach beyond the one around the message, and their
bodies still do not meet: the outer loop is then closed too late. -/
theorem Program.crossing_loops_flow : ∃ p, Program.parse
    "while (x) \x7b s = \"for (\"; f(); \x7d \x7b g(); \x7d return;" = .ok p ∧
    p.loops.Pairwise (fun loop loop' =>
      ∀ body ∈ loop.body, ∀ body' ∈ loop'.body, body.2 < body'.1) ∧
    p.course = ["Loop_0", "Loop_1", "Call_f_0", "Loop_0", "Call_g_1", "Loop_1", "Return_0"] ∧
    p.flow.1.edges = edgesAlong startId ["Loop_0", "Loop_1", "Call_f_0", "Call_g_1", "Loop_1",
      "Loop_0", "Return_0", endId] ∧
    p.flow.1.edges ≠ edgesAlong startId (p.course ++ [endId]) := by
  have shown : (Program.parse
      "while (x) \x7b s = \"for (\"; f(); \x7d \x7b g(); \x7d return;").toOption.map (fun p =>
        (decide (p.kindItems.Pairwise (·.offset ≤ ·.offset)),
          decide (p.loops.Pairwise fun loop loop' =>
            ∀ body ∈ loop.body, ∀ body' ∈ loop'.body, body.2 < body'.1),
          courseFrom (p.code.length + 1) [] 0 p.kindItems,
          stackCourse (p.code.length + 1) [] p.kindItems)) =
      some (true, true, (["Loop_0", "Loop_1", "Call_f_0", "Loop_0", "Call_g_1", "Loop_1",
        "Return_0"] : List Text), (["Loop_0", "Loop_1", "Call_f_0", "Call_g_1", "Loop_1", "Loop_0",
        "Return_0"] : List Text)) := by
    decide +kernel
  obtain ⟨p, parsed, known⟩ := exists_of_toOption_map shown
  simp only [Prod.mk.injEq, decide_eq_true_eq] at known
  obtain ⟨sorted, disjoint, course, way⟩ := known
  rw [← Program.items_eq sorted] at course way
  refine ⟨p, parsed, disjoint, course, ?_, ?_⟩
  · rw [p.edges_flow, way]
    rfl
  · rw [p.edges_flow, way, Program.course, course]
    decide

end FlowTrace.Cpp
