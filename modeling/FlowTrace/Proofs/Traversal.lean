import FlowTrace.Flowchart.Flow
import Mathlib.Data.List.Induction
import Mathlib.Data.List.Nodup
import Mathlib.Data.List.Perm.Basic
import Mathlib.Data.List.Shortlex

/-! # Traversals

A tree is given by the children of its nodes, and a node by its **address**: its number in the row
of the roots, then the number of one of its children, and so on. A traversal in preorder visits the
node of each address exactly once (`InPreorder.visitsOnce`), and so does one in level order
(`InLevelOrder.visitsOnce`).

A traversal goes through the source on lines. Lines that do not go back **span** the source from one
line to another. Every step of a flow is on the source line of its node: a flow is **lined** by the
lines of its steps, in order, and these **trail** the lines of statements if they span what those
span. Only the step of a program without statements is on no line of the source. -/

namespace FlowTrace

variable {α : Type}

/-- The node at an address. -/
def nodeAt? (children : α → List α) : List α → List Nat → Option α
  | _, [] => none
  | row, [i] => row[i]?
  | row, i :: j :: address =>
    row[i]?.bind fun node => nodeAt? children (children node) (j :: address)

/-- The nodes of a row of trees in **preorder**: each node in front of what is below it. -/
inductive InPreorder (children : α → List α) : List α → List α → Prop where
  | nil : InPreorder children [] []
  | cons {node : α} {rest below behind : List α}
      (inside : InPreorder children (children node) below)
      (later : InPreorder children rest behind) :
      InPreorder children (node :: rest) (node :: (below ++ behind))

/-- The nodes that are visited are those of the addresses of a row of trees, each **once**. -/
def VisitsOnce (children : α → List α) (row visited : List α) : Prop :=
  ∃ addresses : List (List Nat), addresses.Nodup ∧
    (∀ address, address ∈ addresses ↔ (nodeAt? children row address).isSome = true) ∧
      addresses.map (nodeAt? children row) = visited.map some

/-- The address of a node when a tree is put in front of the row. -/
def shiftAddress : List Nat → List Nat
  | [] => []
  | i :: address => (i + 1) :: address

variable {children : α → List α} {row visited : List α}

/-- Below the first node of a row addresses lead as they do below that node. -/
theorem nodeAt?_zero (node : α) (rest : List α) {address : List Nat} (filled : address ≠ []) :
    nodeAt? children (node :: rest) (0 :: address) = nodeAt? children (children node) address := by
  cases address with
  | nil => exact absurd rfl filled
  | cons j address => rfl

/-- Shifted addresses lead to the nodes of the rest of a row. -/
theorem nodeAt?_shift (node : α) (rest : List α) (address : List Nat) :
    nodeAt? children (node :: rest) (shiftAddress address) = nodeAt? children rest address := by
  cases address with
  | nil => simp [shiftAddress, nodeAt?]
  | cons i address => cases address <;> simp [shiftAddress, nodeAt?]

/-- Addresses that are shifted to the same address are the same. -/
theorem shiftAddress_injective : Function.Injective shiftAddress := by
  intro a b same
  cases a <;> cases b <;> simp_all [shiftAddress]

/-- **A preorder visits each node once.** -/
theorem InPreorder.visitsOnce (order : InPreorder children row visited) :
    VisitsOnce children row visited := by
  induction order with
  | nil =>
    refine ⟨[], List.nodup_nil, fun address => ?_, rfl⟩
    cases address with
    | nil => simp [nodeAt?]
    | cons i address => cases address <;> simp [nodeAt?]
  | @cons node rest below behind inside later ih_inside ih_later =>
    obtain ⟨inner, nodup_inner, mem_inner, map_inner⟩ := ih_inside
    obtain ⟨outer, nodup_outer, mem_outer, map_outer⟩ := ih_later
    -- no node has the empty address
    have filled_inner : [] ∉ inner := by rw [mem_inner]; simp [nodeAt?]
    have filled_outer : [] ∉ outer := by rw [mem_outer]; simp [nodeAt?]
    refine ⟨[0] :: (inner.map (0 :: ·) ++ outer.map shiftAddress), ?_, fun address => ?_, ?_⟩
    · rw [List.nodup_cons, List.nodup_append]
      refine ⟨?_, nodup_inner.map fun a b same => (List.cons.inj same).2,
        nodup_outer.map shiftAddress_injective, ?_⟩
      · rw [List.mem_append, List.mem_map, List.mem_map]
        rintro (⟨address, member, same⟩ | ⟨address, member, same⟩)
        · cases same
          exact filled_inner member
        · cases address <;> cases same
      · rintro a first b second rfl
        obtain ⟨a', -, rfl⟩ := List.mem_map.1 first
        obtain ⟨b', -, same⟩ := List.mem_map.1 second
        cases b' <;> cases same
    · rw [List.mem_cons, List.mem_append, List.mem_map, List.mem_map]
      constructor
      · rintro (rfl | ⟨address, member, rfl⟩ | ⟨address, member, rfl⟩)
        · simp [nodeAt?]
        · rw [nodeAt?_zero _ _ fun empty => filled_inner (empty ▸ member)]
          exact (mem_inner _).1 member
        · rw [nodeAt?_shift]
          exact (mem_outer _).1 member
      · intro there
        cases address with
        | nil => simp [nodeAt?] at there
        | cons i address =>
          cases i with
          | zero =>
            cases address with
            | nil => exact .inl rfl
            | cons j address => exact .inr (.inl ⟨j :: address, (mem_inner _).2 there, rfl⟩)
          | succ i =>
            rw [show (i + 1) :: address = shiftAddress (i :: address) from rfl,
              nodeAt?_shift] at there
            exact .inr (.inr ⟨i :: address, (mem_outer _).2 there, rfl⟩)
    · rw [List.map_cons, List.map_append, List.map_map, List.map_map, List.map_cons,
        List.map_append, ← map_inner, ← map_outer]
      congr 1
      congr 1
      · refine List.map_congr_left fun address member => ?_
        exact nodeAt?_zero _ _ fun empty => filled_inner (empty ▸ member)
      · exact List.map_congr_left fun address member => nodeAt?_shift _ _ _

/-- Rows are visited one after the other. -/
theorem InPreorder.append {row' visited' : List α} (order : InPreorder children row visited)
    (order' : InPreorder children row' visited') :
    InPreorder children (row ++ row') (visited ++ visited') := by
  induction order with
  | nil => exact order'
  | cons inside later _ ih =>
    rw [List.cons_append, List.cons_append, List.append_assoc]
    exact .cons inside ih

/-! ## Level order

A traversal **in level order** visits the nodes of a tree by their addresses, the shorter ones first
(`InLevelOrder`). One that goes from a row of nodes to all nodes directly below them, and so on, is
in level order (`Levelwise.inLevelOrder`): the addresses of one level are all those of some length
in order, and behind each of them come those of its children (`IsLevel.below`). -/

/-- **Two traversals** that visit each node once differ in their order only. -/
theorem VisitsOnce.perm {visited' : List α} (once : VisitsOnce children row visited)
    (once' : VisitsOnce children row visited') : visited.Perm visited' := by
  obtain ⟨addresses, nodup, mem, map⟩ := once
  obtain ⟨addresses', nodup', mem', map'⟩ := once'
  have same : addresses.Perm addresses' :=
    (List.perm_ext_iff_of_nodup nodup nodup').2 fun address => by rw [mem, mem']
  have nodes := same.map (nodeAt? children row)
  rw [map, map'] at nodes
  have shown := nodes.filterMap id
  rwa [List.filterMap_map, List.filterMap_map, Function.id_comp, List.filterMap_some,
    List.filterMap_some] at shown

/-- The nodes are visited **in level order**: by their addresses, and all of them. A node with a
shorter address comes first; of two nodes on one level it is the one whose parent comes first, and
below one parent the one that is the earlier child. -/
def InLevelOrder (children : α → List α) (row visited : List α) : Prop :=
  ∃ addresses : List (List Nat), addresses.Pairwise (List.Shortlex (· < ·)) ∧
    (∀ address, address ∈ addresses ↔ (nodeAt? children row address).isSome = true) ∧
      addresses.map (nodeAt? children row) = visited.map some

/-- A visit in level order is one to every node, and only one. -/
theorem InLevelOrder.visitsOnce (order : InLevelOrder children row visited) :
    VisitsOnce children row visited := by
  obtain ⟨addresses, sorted, mem, map⟩ := order
  refine ⟨addresses, sorted.imp ?_, mem, map⟩
  rintro a _ before rfl
  exact Std.Irrefl.irrefl a before

/-- The nodes of a row and then, level by level, those below them. -/
inductive Levelwise (children : α → List α) : List α → List α → Prop where
  | nil : Levelwise children [] []
  | cons {row below : List α} (deeper : Levelwise children (row.flatMap children) below) :
      Levelwise children row (row ++ below)

/-- A child has the address of its parent, and its number behind it. -/
theorem nodeAt?_concat (row : List α) {address : List Nat} (filled : address ≠ []) (i : Nat) :
    nodeAt? children row (address ++ [i]) =
      (nodeAt? children row address).bind fun node => (children node)[i]? := by
  induction address generalizing row with
  | nil => exact absurd rfl filled
  | cons j address ih =>
    cases address with
    | nil => rfl
    | cons k address =>
      rw [List.cons_append, List.cons_append, nodeAt?, nodeAt?, Option.bind_assoc]
      refine Option.bind_congr fun node _ => ?_
      exact ih (children node) (List.cons_ne_nil _ _)

/-- What stands above a node is there. -/
theorem isSome_nodeAt?_append {address more : List Nat} (filled : address ≠ [])
    (there : (nodeAt? children row (address ++ more)).isSome = true) :
    (nodeAt? children row address).isSome = true := by
  induction more using List.reverseRecOn with
  | nil =>
    rw [List.append_nil] at there
    exact there
  | append_singleton more i ih =>
    rw [← List.append_assoc, nodeAt?_concat row (by simp [filled])] at there
    exact ih (Option.isSome_of_isSome_bind there)

/-- The nodes of one **level**, with their addresses, in order. -/
structure IsLevel (children : α → List α) (row : List α) (depth : Nat)
    (level : List (List Nat × α)) : Prop where
  /-- Their addresses are one longer than the level is deep. -/
  length : ∀ entry ∈ level, entry.1.length = depth + 1
  /-- They are in order. -/
  sorted : (level.map Prod.fst).Pairwise (List.Lex (· < ·))
  /-- They are the nodes at their addresses. -/
  node : ∀ entry ∈ level, nodeAt? children row entry.1 = some entry.2
  /-- All nodes of the level are among them. -/
  complete : ∀ address, address.length = depth + 1 →
    (nodeAt? children row address).isSome = true → address ∈ level.map Prod.fst

/-- Nodes with their addresses below some address. -/
def placedBelow (address : List Nat) (nodes : List α) : List (List Nat × α) :=
  nodes.zipIdx.map fun child => (address ++ [child.2], child.1)

/-- Nodes are placed behind their address by their number in the row. -/
theorem mem_placedBelow {address : List Nat} {nodes : List α} {entry : List Nat × α} :
    entry ∈ placedBelow address nodes ↔
      ∃ i, nodes[i]? = some entry.2 ∧ entry.1 = address ++ [i] := by
  rw [placedBelow, List.mem_map]
  constructor
  · rintro ⟨⟨node, i⟩, member, rfl⟩
    exact ⟨i, List.mk_mem_zipIdx_iff_getElem?.1 member, rfl⟩
  · rintro ⟨i, found, at_i⟩
    exact ⟨(entry.2, i), List.mk_mem_zipIdx_iff_getElem?.2 found, by rw [← at_i]⟩

/-- Nodes that are placed are the nodes of the row. -/
theorem map_snd_placedBelow (address : List Nat) (nodes : List α) :
    (placedBelow address nodes).map Prod.snd = nodes := by
  rw [placedBelow, List.map_map]
  exact List.zipIdx_map_fst 0 nodes

/-- The places of a row stand in their order. -/
theorem sorted_placedBelow (address : List Nat) (nodes : List α) :
    ((placedBelow address nodes).map Prod.fst).Pairwise (List.Lex (· < ·)) := by
  have numbers : (placedBelow address nodes).map Prod.fst =
      (List.range' 0 nodes.length).map fun i => address ++ [i] := by
    rw [placedBelow, List.map_map, ← List.zipIdx_map_snd 0 nodes, List.map_map]
    rfl
  rw [numbers, List.pairwise_map]
  refine (List.pairwise_lt_range' (s := 0) (n := nodes.length)).imp fun less => ?_
  exact List.Lex.append_left _ (List.Lex.rel less) address

/-- The level below a level. -/
def levelBelow (children : α → List α) (level : List (List Nat × α)) : List (List Nat × α) :=
  level.flatMap fun entry => placedBelow entry.1 (children entry.2)

/-- The next level holds the children of all nodes of a level. -/
theorem map_levelBelow (level : List (List Nat × α)) :
    (levelBelow children level).map Prod.snd = (level.map Prod.snd).flatMap children := by
  rw [levelBelow, List.map_flatMap, List.flatMap_map]
  exact List.flatMap_congr fun entry _ => map_snd_placedBelow entry.1 (children entry.2)

/-- The first level is the row itself. -/
theorem isLevel_row (row : List α) : IsLevel children row 0 (placedBelow [] row) where
  length := by
    intro entry member
    obtain ⟨i, -, at_i⟩ := mem_placedBelow.1 member
    rw [at_i]
    rfl
  sorted := sorted_placedBelow [] row
  node := by
    intro entry member
    obtain ⟨i, found, at_i⟩ := mem_placedBelow.1 member
    rw [at_i]
    exact found
  complete := by
    intro address short there
    obtain ⟨i, rfl⟩ := List.length_eq_one_iff.1 short
    obtain ⟨node, found⟩ := Option.isSome_iff_exists.1 there
    exact List.mem_map.2 ⟨([i], node), mem_placedBelow.2 ⟨i, found, rfl⟩, rfl⟩

/-- Addresses of one length stay in order when something is put behind them. -/
theorem lex_append {a b : List Nat} (less : List.Lex (· < ·) a b) (same : a.length = b.length)
    (c d : List Nat) : List.Lex (· < ·) (a ++ c) (b ++ d) := by
  induction less with
  | nil => cases same
  | rel less => exact .rel less
  | cons _ ih => exact .cons (ih (Nat.succ.inj same))

/-- **The level below a level** is one: behind each address come those of its children. -/
theorem IsLevel.below {depth : Nat} {level : List (List Nat × α)}
    (h : IsLevel children row depth level) :
    IsLevel children row (depth + 1) (levelBelow children level) where
  length := by
    intro entry member
    obtain ⟨parent, is_parent, below⟩ := List.mem_flatMap.1 member
    obtain ⟨i, -, at_i⟩ := mem_placedBelow.1 below
    rw [at_i, List.length_append, h.length parent is_parent]
    rfl
  sorted := by
    rw [levelBelow, List.map_flatMap, List.pairwise_flatMap]
    refine ⟨fun entry _ => sorted_placedBelow entry.1 (children entry.2), ?_⟩
    have parents := List.pairwise_map.1 h.sorted
    -- Children of different parents are in the order of the parents: these are equally deep.
    refine parents.imp_of_mem ?_
    intro parent parent' is_parent is_parent' less a below_parent a' below_parent'
    obtain ⟨entry, below, rfl⟩ := List.mem_map.1 below_parent
    obtain ⟨entry', below', rfl⟩ := List.mem_map.1 below_parent'
    obtain ⟨i, -, at_i⟩ := mem_placedBelow.1 below
    obtain ⟨i', -, at_i'⟩ := mem_placedBelow.1 below'
    rw [at_i, at_i']
    refine lex_append less ?_ [i] [i']
    rw [h.length parent is_parent, h.length parent' is_parent']
  node := by
    intro entry member
    obtain ⟨parent, is_parent, below⟩ := List.mem_flatMap.1 member
    obtain ⟨i, found, at_i⟩ := mem_placedBelow.1 below
    have filled : parent.1 ≠ [] := by
      intro empty
      have length := h.length parent is_parent
      rw [empty] at length
      cases length
    rw [at_i, nodeAt?_concat row filled, h.node parent is_parent]
    exact found
  complete := by
    intro address length there
    rcases List.eq_nil_or_concat address with rfl | ⟨above, i, rfl⟩
    · cases length
    rw [List.concat_eq_append] at length there ⊢
    have long : above.length = depth + 1 := by simpa using length
    have filled : above ≠ [] := by
      rintro rfl
      cases long
    obtain ⟨parent, is_parent, rfl⟩ :=
      List.mem_map.1 (h.complete above long (isSome_nodeAt?_append filled there))
    rw [nodeAt?_concat row filled, h.node parent is_parent] at there
    obtain ⟨node, found⟩ := Option.isSome_iff_exists.1 there
    exact List.mem_map.2 ⟨(parent.1 ++ [i], node),
      List.mem_flatMap.2 ⟨parent, is_parent, mem_placedBelow.2 ⟨i, found, rfl⟩⟩, rfl⟩

/-- What stands deeper than a level stands below one of its nodes. -/
theorem IsLevel.take_mem {depth : Nat} {level : List (List Nat × α)}
    (h : IsLevel children row depth level) {address : List Nat} (deep : depth < address.length)
    (there : (nodeAt? children row address).isSome = true) :
    address.take (depth + 1) ∈ level.map Prod.fst := by
  have length : (address.take (depth + 1)).length = depth + 1 := by
    rw [List.length_take]
    omega
  have filled : address.take (depth + 1) ≠ [] := by
    intro empty
    rw [empty] at length
    cases length
  rw [← List.take_append_drop (depth + 1) address] at there
  exact h.complete _ length (isSome_nodeAt?_append filled there)

/-- From some level on, all nodes are visited in order. -/
theorem Levelwise.exists_addresses {first : List α} (order : Levelwise children first visited)
    {depth : Nat} {level : List (List Nat × α)} (h : IsLevel children row depth level)
    (same : level.map Prod.snd = first) :
    ∃ addresses : List (List Nat), addresses.Pairwise (List.Shortlex (· < ·)) ∧
      (∀ address, address ∈ addresses ↔
        depth < address.length ∧ (nodeAt? children row address).isSome = true) ∧
      addresses.map (nodeAt? children row) = visited.map some := by
  induction order generalizing depth level with
  | nil =>
    rw [List.map_eq_nil_iff] at same
    subst same
    refine ⟨[], .nil, fun address => ?_, rfl⟩
    simp only [List.not_mem_nil, false_iff, not_and]
    exact fun deep there => absurd (h.take_mem deep there) List.not_mem_nil
  | @cons first below deeper ih =>
    obtain ⟨addresses, sorted, mem, map⟩ := ih h.below (by rw [map_levelBelow, same])
    have length {address : List Nat} (member : address ∈ level.map Prod.fst) :
        address.length = depth + 1 := by
      obtain ⟨entry, is_entry, rfl⟩ := List.mem_map.1 member
      exact h.length entry is_entry
    -- The addresses of a level are equally long, and all those below it are longer.
    refine ⟨level.map Prod.fst ++ addresses, ?_, fun address => ?_, ?_⟩
    · refine List.pairwise_append.2 ⟨h.sorted.imp_of_mem ?_, sorted, ?_⟩
      · intro a b is_a is_b less
        exact List.Shortlex.of_lex ((length is_a).trans (length is_b).symm) less
      · intro a is_a b is_b
        refine List.Shortlex.of_length_lt ?_
        rw [length is_a]
        exact ((mem b).1 is_b).1
    · rw [List.mem_append, mem]
      constructor
      · rintro (member | ⟨deep, there⟩)
        · obtain ⟨entry, is_entry, rfl⟩ := List.mem_map.1 member
          refine ⟨(length member).symm ▸ Nat.lt_succ_self depth, ?_⟩
          rw [h.node entry is_entry]
          rfl
        · exact ⟨Nat.lt_of_succ_lt deep, there⟩
      · rintro ⟨deep, there⟩
        rcases Nat.eq_or_lt_of_le (Nat.succ_le_of_lt deep) with exact_length | deeper
        · exact .inl (h.complete address exact_length.symm there)
        · exact .inr ⟨deeper, there⟩
    · have nodes : (level.map Prod.fst).map (nodeAt? children row) = first.map some := by
        rw [← same, List.map_map, List.map_map]
        exact List.map_congr_left h.node
      rw [List.map_append, List.map_append, nodes, map]

/-- **What goes from level to level is in level order.** -/
theorem Levelwise.inLevelOrder (order : Levelwise children row visited) :
    InLevelOrder children row visited := by
  obtain ⟨addresses, sorted, mem, map⟩ :=
    order.exists_addresses (isLevel_row row) (map_snd_placedBelow [] row)
  refine ⟨addresses, sorted, fun address => ?_, map⟩
  rw [mem]
  cases address with
  | nil => simp [nodeAt?]
  | cons i address => simp

/-! ## Spans of lines -/

/-- Line numbers **span** from one number to another: they do not decrease, and lie between. -/
structure Spans (low high : Nat) (lines : List Nat) : Prop where
  /-- The ends are in order. -/
  le : low ≤ high
  /-- The numbers do not decrease. -/
  ordered : lines.Pairwise (· ≤ ·)
  /-- They lie between the ends. -/
  within : ∀ n ∈ lines, low ≤ n ∧ n ≤ high

namespace Spans

variable {low middle high n : Nat} {lines later : List Nat}

/-- No lines span any range. -/
theorem nil (le : low ≤ high) : Spans low high [] := ⟨le, .nil, by simp⟩

/-- A line inside the range may come before lines that span the rest of it. -/
theorem cons (le : low ≤ n) (spans : Spans n high lines) : Spans low high (n :: lines) where
  le := Nat.le_trans le spans.le
  ordered := List.pairwise_cons.2 ⟨fun m member => (spans.within m member).1, spans.ordered⟩
  within := List.forall_mem_cons.2 ⟨⟨le, spans.le⟩, fun m member =>
    ⟨Nat.le_trans le (spans.within m member).1, (spans.within m member).2⟩⟩

/-- The first line is in the range, and the others span the rest of it. -/
theorem of_cons (spans : Spans low high (n :: lines)) : low ≤ n ∧ Spans n high lines := by
  obtain ⟨before, ordered⟩ := List.pairwise_cons.1 spans.ordered
  obtain ⟨here, within⟩ := List.forall_mem_cons.1 spans.within
  exact ⟨here.1, here.2, ordered, fun m member => ⟨before m member, (within m member).2⟩⟩

/-- Lines that span neighbouring ranges span both together. -/
theorem append (first : Spans low middle lines) (second : Spans middle high later) :
    Spans low high (lines ++ later) where
  le := Nat.le_trans first.le second.le
  ordered := List.pairwise_append.2 ⟨first.ordered, second.ordered, fun n member m member' =>
    Nat.le_trans (first.within n member).2 (second.within m member').1⟩
  within := List.forall_mem_append.2
    ⟨fun n member => ⟨(first.within n member).1, Nat.le_trans (first.within n member).2 second.le⟩,
      fun m member => ⟨Nat.le_trans first.le (second.within m member).1, (second.within m member).2⟩⟩

/-- A span can be divided anywhere. -/
theorem split (spans : Spans low high (lines ++ later)) :
    ∃ middle, Spans low middle lines ∧ Spans middle high later := by
  induction lines generalizing low with
  | nil => exact ⟨low, .nil (Nat.le_refl _), spans⟩
  | cons n lines ih =>
    obtain ⟨le, rest⟩ := spans.of_cons
    obtain ⟨middle, first, second⟩ := ih rest
    exact ⟨middle, first.cons le, second⟩

/-- Lines that span a range span every larger one. -/
theorem widen {low' high' : Nat} (spans : Spans low high lines) (le : low' ≤ low)
    (le' : high ≤ high') : Spans low' high' lines where
  le := Nat.le_trans le (Nat.le_trans spans.le le')
  ordered := spans.ordered
  within := fun n member =>
    ⟨Nat.le_trans le (spans.within n member).1, Nat.le_trans (spans.within n member).2 le'⟩

/-- Some of the lines that span a range span it as well. -/
theorem sublist (spans : Spans low high later) (part : lines.Sublist later) :
    Spans low high lines :=
  ⟨spans.le, spans.ordered.sublist part, fun n member => spans.within n (part.mem member)⟩

end Spans

/-- Numbers **trail** others when they span whatever those span. -/
def Trails (lines others : List Nat) : Prop :=
  ∀ low high, Spans low high others → Spans low high lines

namespace Trails

variable {lines lines' others others' : List Nat} {n : Nat}

/-- No lines trail any others. -/
theorem nil (others : List Nat) : Trails [] others := fun _ _ spans => .nil spans.le

/-- Lines trail others part by part. -/
theorem append (first : Trails lines others) (second : Trails lines' others') :
    Trails (lines ++ lines') (others ++ others') := by
  intro low high spans
  obtain ⟨middle, front, back⟩ := spans.split
  exact (first _ _ front).append (second _ _ back)

/-- A line of its own is trailed by itself. -/
theorem cons (n : Nat) (rest : Trails lines others) : Trails (n :: lines) (n :: others) := by
  intro low high spans
  obtain ⟨le, later⟩ := spans.of_cons
  exact (rest _ _ later).cons le

/-- A number may come twice. -/
theorem again (first : Trails lines (n :: others)) : Trails (n :: lines) (n :: others) := by
  intro low high spans
  obtain ⟨le, later⟩ := spans.of_cons
  exact (first _ _ (later.cons (Nat.le_refl n))).cons le

/-- Lines that trail others trail more of them. -/
theorem mono (trails : Trails lines others) (part : others.Sublist others') :
    Trails lines others' := fun _ _ spans => trails _ _ (spans.sublist part)

end Trails

/-! ## Lines of steps -/

namespace Flow

/-- The steps of a flow are on the given lines. -/
def Lined (flow : Flow) (lines : List Nat) : Prop :=
  flow.steps.map (·.line) = lines.map fun (line : Nat) => some (line : Int)

variable {flow : Flow} {lines : List Nat} {parent stem : Text} {face : Face} {note : Note}

/-- A flow that begins has no lines. -/
theorem lined_start : start.Lined [] := by rw [Lined, start, List.map_nil, List.map_nil]

/-- A numbered node adds its line. -/
theorem Lined.addNumbered (lined : flow.Lined lines) :
    (flow.addNumbered parent stem face note).1.Lined (lines ++ [face.line]) := by
  have same : flow.steps.map (·.line) = lines.map fun (line : Nat) => some (line : Int) := lined
  show (flow.steps ++ [_]).map _ = _
  rw [List.map_append, List.map_append, same]
  rfl

/-- A link adds no line. -/
theorem Lined.link (lined : flow.Lined lines) (source target : Text) :
    (flow.link source target).Lined lines := lined

/-- An edge leads back to a loop, if anything is below it. -/
theorem Lined.closeLoop (lined : flow.Lined lines) (last id : Text) :
    (if last = id then flow else flow.link last id).Lined lines := by
  split
  · exact lined
  · exact lined.link last id

/-- Only a program without steps has the step that is on no line. -/
theorem Lined.finish (lined : flow.Lined lines) (last : Text) :
    (flow.finish last).2 = if lines = [] then [defaultStep] else flow.steps := by
  have same : flow.steps.map (·.line) = lines.map fun (line : Nat) => some (line : Int) := lined
  rw [Flow.finish]
  by_cases empty : lines = []
  · rw [empty, List.map_nil, List.map_eq_nil_iff] at same
    rw [same, if_pos empty]
    rfl
  · have filled : flow.steps ≠ [] := by
      intro none
      rw [none, List.map_nil, eq_comm, List.map_eq_nil_iff] at same
      exact empty same
    rw [if_neg empty, if_neg (by simpa using filled)]

end Flow

end FlowTrace
