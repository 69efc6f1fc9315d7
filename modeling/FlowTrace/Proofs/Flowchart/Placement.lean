import Mathlib.Algebra.Order.Ring.Abs
import Mathlib.Data.List.Basic
import Mathlib.Data.List.Nodup
import Mathlib.Tactic.Positivity
import FlowTrace.Flowchart.Svg
import FlowTrace.Proofs.Flowchart.Growth

/-! # Where everything is placed

A layout measures the flowchart first: how wide the widest box is, and how many lanes are needed on
either side. Only then are the edges placed, one after the other, and each that needs a lane takes
the next one. The two passes look at the ends of an edge in different ways, and that they agree is
what keeps the drawing together:

* **`Layout.Places`**: what placing the edges does, one constructor for each way an edge is led.
* **`Layout.Places.skipLanes`**, **`Layout.Places.backLanes`**: the lanes that are taken are just
  those that were set aside, in order.
* **`layout_sound`**: everything lies on the canvas, and lanes collide neither with each other nor
  with a box. -/

namespace FlowTrace

namespace Flowchart

variable {chart : Flowchart} {id : Text} {i : Nat}

/-- Whether an edge **joins** two nodes of the flowchart; only such edges are drawn. -/
def joins (chart : Flowchart) (edge : Edge) : Bool := chart.has edge.source && chart.has edge.target

/-- An edge **leads to the next** node when it comes from the node just before. -/
def LeadsToNext (chart : Flowchart) (edge : Edge) : Prop :=
  ∃ i, chart.position? edge.source = some i ∧ chart.position? edge.target = some (i + 1)

/-- A node has a position when it is in the chart. -/
theorem isSome_position? (chart : Flowchart) (id : Text) :
    (chart.position? id).isSome = chart.has id := by
  rw [position?, List.findIdx?_isSome, has]

/-- The creation index of an id is that of a node which has it. -/
theorem exists_node_of_position? (found : chart.position? id = some i) :
    ∃ node, chart.nodes[i]? = some node ∧ node.id = id := by
  obtain ⟨bound, same, -⟩ := List.findIdx?_eq_some_iff_getElem.1 found
  exact ⟨chart.nodes[i], List.getElem?_eq_getElem bound, by simpa using same⟩

end Flowchart

namespace Route

/-- The lane that an edge takes on the left. -/
def skipLane? : Route → Option Nat
  | skip lane => some lane
  | _ => none

/-- The lane that an edge takes on the right. -/
def backLane? : Route → Option Nat
  | back lane => some lane
  | _ => none

/-- A straight course takes no lane on the side of skips. -/
@[simp] theorem skipLane?_straight : straight.skipLane? = none := rfl

/-- A course that skips nodes takes its lane. -/
@[simp] theorem skipLane?_skip (lane : Nat) : (skip lane).skipLane? = some lane := rfl

/-- A course that goes back takes no lane on the side of skips. -/
@[simp] theorem skipLane?_back (lane : Nat) : (back lane).skipLane? = none := rfl

/-- A straight course takes no lane on the side of backs. -/
@[simp] theorem backLane?_straight : straight.backLane? = none := rfl

/-- A course that skips nodes takes no lane on the side of backs. -/
@[simp] theorem backLane?_skip (lane : Nat) : (skip lane).backLane? = none := rfl

/-- A course that goes back takes its lane. -/
@[simp] theorem backLane?_back (lane : Nat) : (back lane).backLane? = some lane := rfl

end Route

/-- The horizontal position of the lane through which an edge is led; none if it is straight. -/
def PlacedEdge.laneX? (e : PlacedEdge) : Option Half :=
  match e.points with
  | [_, (x, _), (x', _), _] => if x = x' then some x else none
  | _ => none

/-- Whether a point lies on the canvas. -/
def Layout.Contains (layout : Layout) (point : Half × Half) : Prop :=
  (0 ≤ point.1 ∧ point.1 ≤ Half.ofNat layout.width) ∧
    (0 ≤ point.2 ∧ point.2 ≤ Half.ofNat layout.height)

/-- The points where a figure reaches furthest. -/
def Figure.extremes : Figure → List (Half × Half)
  | ellipse (x, y) (across, down) => [(x, y - down), (x + across, y), (x, y + down), (x - across, y)]
  | polygon corners => corners
  | rectangle (x, y) (width, height) =>
    [(x, y), (x + width, y), (x + width, y + height), (x, y + height)]

/-- Whether a figure **covers** a point; a polygon covers at most what lies between its corners. -/
def Figure.Covers (figure : Figure) (point : Half × Half) : Prop :=
  match figure with
  | ellipse (x, y) (across, down) =>
    (point.1 - x) ^ 2 * down ^ 2 + (point.2 - y) ^ 2 * across ^ 2 ≤ across ^ 2 * down ^ 2
  | polygon corners =>
    ((∃ a ∈ corners, a.1 ≤ point.1) ∧ ∃ b ∈ corners, point.1 ≤ b.1) ∧
      (∃ a ∈ corners, a.2 ≤ point.2) ∧ ∃ b ∈ corners, point.2 ≤ b.2
  | rectangle (x, y) (width, height) =>
    (x ≤ point.1 ∧ point.1 ≤ x + width) ∧ y ≤ point.2 ∧ point.2 ≤ y + height

/-- A layout is **sound** when everything lies on its canvas, and when each lane is apart from all
other lanes and from all boxes. -/
structure Layout.Sound (layout : Layout) : Prop where
  /-- The outlines of the nodes lie on the canvas. -/
  nodes_inside : ∀ p ∈ layout.nodes, ∀ corner ∈ p.corners, layout.Contains corner
  /-- The corners of an outline are where the figure that is drawn reaches furthest. -/
  extremes : ∀ p ∈ layout.nodes, p.figure.extremes = p.corners
  /-- All that is covered by what is drawn for the nodes lies on the canvas. -/
  figures_inside : ∀ p ∈ layout.nodes, ∀ point, p.figure.Covers point → layout.Contains point
  /-- Each node is drawn below those in front of it. -/
  nodes_apart : layout.nodes.Pairwise fun p q => p.bottom < q.top
  /-- The paths of the edges lie on the canvas. -/
  edges_inside : ∀ e ∈ layout.edges, ∀ corner ∈ e.points, layout.Contains corner
  /-- No two edges share a lane. -/
  lanes_apart : (layout.edges.filterMap (·.laneX?)).Nodup
  /-- Each lane passes all boxes on one side. -/
  lanes_outside : ∀ x ∈ layout.edges.filterMap (·.laneX?), ∀ p ∈ layout.nodes,
    x < p.left ∨ p.right < x

namespace Layout

variable {chart : Flowchart} {edge : Edge} {edges : List Edge} {placed : List PlacedEdge}
  {number skips backs : Nat}

/-! ## The two passes -/

/-- The lane that is set aside for an edge, in terms of what its ends mean for its path. -/
theorem laneSide?_eq (chart : Flowchart) (edge : Edge) : laneSide? chart edge =
    match span chart edge with
    | .forward _ _ => some .left
    | .backward _ _ => some .right
    | _ => none := by
  rw [laneSide?, span]
  cases chart.position? edge.source with
  | none => rfl
  | some source =>
    cases chart.position? edge.target with
    | none => rfl
    | some target =>
      simp only
      rcases Nat.lt_trichotomy target (source + 1) with before | next | behind
      · rw [if_pos (by omega), if_neg (by omega), if_neg (by omega)]
      · rw [if_neg (by omega), if_neg (by omega), if_pos next]
      · rw [if_neg (by omega), if_pos behind, if_neg (by omega), if_pos (by omega)]

/-- An edge joins nodes when it spans something. -/
theorem joins_eq (chart : Flowchart) (edge : Edge) :
    chart.joins edge = !decide (span chart edge = .missing) := by
  rw [Flowchart.joins, ← Flowchart.isSome_position?, ← Flowchart.isSome_position?, span]
  cases chart.position? edge.source with
  | none => rfl
  | some source =>
    cases chart.position? edge.target with
    | none => rfl
    | some target =>
      simp only
      split_ifs <;> rfl

/-- No lane is set aside for an edge to the next node. -/
theorem laneSide?_of_leadsToNext (next : chart.LeadsToNext edge) : laneSide? chart edge = none := by
  obtain ⟨i, source, target⟩ := next
  simp only [laneSide?, source, target]
  rw [if_neg (by omega), if_neg (by omega)]

/-- The nodes of a flowchart at their places. -/
def placedNodes (chart : Flowchart) : List PlacedNode :=
  chart.nodes.mapIdx (placeNode (measure chart))

/-- What **placing** edges does: the edges still to be placed, the number of the next one, the lanes
taken on the left and on the right, and the edges placed. -/
inductive Places (chart : Flowchart) : List Edge → Nat → Nat → Nat → List PlacedEdge → Prop where
  | done {number skips backs : Nat} : Places chart [] number skips backs []
  /-- An edge without one of its ends. -/
  | missing {edge : Edge} {edges : List Edge} {number skips backs : Nat} {placed : List PlacedEdge}
      (apart : chart.joins edge = false) (side : laneSide? chart edge = none)
      (later : Places chart edges (number + 1) skips backs placed) :
      Places chart (edge :: edges) number skips backs placed
  /-- An edge to the next node. -/
  | straight {edge : Edge} {edges : List Edge} {number skips backs : Nat}
      {placed : List PlacedEdge} {tail head : PlacedNode}
      (joined : chart.joins edge = true) (next : chart.LeadsToNext edge)
      (from_ : tail ∈ placedNodes chart) (onto : head ∈ placedNodes chart)
      (later : Places chart edges (number + 1) skips backs placed) :
      Places chart (edge :: edges) number skips backs
        (⟨number, edge, .straight, straightPath tail head⟩ :: placed)
  /-- An edge that takes the next lane on the left. -/
  | skip {edge : Edge} {edges : List Edge} {number skips backs : Nat} {placed : List PlacedEdge}
      {tail head : PlacedNode} (joined : chart.joins edge = true)
      (side : laneSide? chart edge = some .left) (from_ : tail ∈ placedNodes chart)
      (onto : head ∈ placedNodes chart)
      (later : Places chart edges (number + 1) (skips + 1) backs placed) :
      Places chart (edge :: edges) number skips backs
        (⟨number, edge, .skip (skips + 1),
          skipPath ((measure chart).skipLaneX (skips + 1)) tail head⟩ :: placed)
  /-- An edge that takes the next lane on the right. -/
  | back {edge : Edge} {edges : List Edge} {number skips backs : Nat} {placed : List PlacedEdge}
      {tail head : PlacedNode} (joined : chart.joins edge = true)
      (side : laneSide? chart edge = some .right) (from_ : tail ∈ placedNodes chart)
      (onto : head ∈ placedNodes chart)
      (later : Places chart edges (number + 1) skips (backs + 1) placed) :
      Places chart (edge :: edges) number skips backs
        (⟨number, edge, .back (backs + 1),
          backPath ((measure chart).backLaneX (backs + 1)) tail head⟩ :: placed)

/-- There is a place for each index at which an id was found. -/
theorem exists_placed {id : Text} {i : Nat} (found : chart.position? id = some i) :
    ∃ p ∈ placedNodes chart, (placedNodes chart)[i]? = some p := by
  obtain ⟨node, is_node, -⟩ := Flowchart.exists_node_of_position? found
  have at_i : (placedNodes chart)[i]? = some (placeNode (measure chart) i node) := by
    simp [placedNodes, is_node]
  exact ⟨_, List.mem_of_getElem? at_i, at_i⟩

/-- The edges of a layout are placed so. -/
theorem places_placeEdges (chart : Flowchart) (edges : List Edge) (number skips backs : Nat) :
    Places chart edges number skips backs
      (placeEdges chart (measure chart) (placedNodes chart) edges number skips backs) := by
  induction edges generalizing number skips backs with
  | nil => exact .done
  | cons edge edges ih =>
    have side := laneSide?_eq chart edge
    have joined := joins_eq chart edge
    rw [placeEdges]
    simp only [span] at side joined ⊢
    -- an end that is missing leaves nothing to draw
    cases first : chart.position? edge.source with
    | none =>
      simp only [first] at side joined ⊢
      exact .missing joined side (ih ..)
    | some source =>
      cases second : chart.position? edge.target with
      | none =>
        simp only [first, second] at side joined ⊢
        exact .missing joined side (ih ..)
      | some target =>
        obtain ⟨tail, from_, is_tail⟩ := exists_placed first
        obtain ⟨head, onto, is_head⟩ := exists_placed second
        simp only [first, second] at side joined ⊢
        split_ifs at side joined ⊢ with next forward
        · simp only [is_tail, is_head]
          exact .straight joined ⟨source, first, next ▸ second⟩ from_ onto (ih ..)
        · simp only [is_tail, is_head]
          exact .skip joined side from_ onto (ih ..)
        · simp only [is_tail, is_head]
          exact .back joined side from_ onto (ih ..)

/-- The edges of a layout are placed from the first lanes on. -/
theorem places_of (chart : Flowchart) : Places chart chart.edges 1 0 0 (Layout.of chart).edges :=
  places_placeEdges chart chart.edges 1 0 0

/-- The edges that are drawn are those that join two nodes, under their numbers among all edges. -/
theorem Places.numbered (places : Places chart edges number skips backs placed) :
    placed.map (fun e => (e.edge, e.number)) =
      (edges.zipIdx number).filter fun entry => chart.joins entry.1 := by
  induction places with
  | done => rfl
  | missing apart _ _ ih => rw [List.zipIdx_cons, List.filter_cons_of_neg (by simp [apart]), ih]
  | straight joined _ _ _ _ ih | skip joined _ _ _ _ ih | back joined _ _ _ _ ih =>
    rw [List.zipIdx_cons, List.filter_cons_of_pos (by simpa using joined), List.map_cons, ih]

/-! ## Lanes -/

/-- The number of lanes that edges need on a side. -/
def lanesNeeded (chart : Flowchart) (side : Side) (edges : List Edge) : Nat :=
  edges.countP fun edge => laneSide? chart edge == some side

/-- An edge needs a lane on one side at most. -/
theorem lanesNeeded_cons (side : Side) : lanesNeeded chart side (edge :: edges) =
    lanesNeeded chart side edges + if laneSide? chart edge = some side then 1 else 0 := by
  simp only [lanesNeeded, List.countP_cons, beq_iff_eq]

/-- Lanes on the left are taken in order, from those taken before up to as many as are needed. -/
theorem Places.skipLanes (places : Places chart edges number skips backs placed) :
    placed.filterMap (·.route.skipLane?) =
      List.range' (skips + 1) (lanesNeeded chart .left edges) := by
  induction places with
  | done => rfl
  | missing _ side _ ih | back _ side _ _ _ ih =>
    simp [lanesNeeded_cons, side, ih, List.filterMap_cons]
  | straight _ next _ _ _ ih =>
    simp [lanesNeeded_cons, laneSide?_of_leadsToNext next, ih, List.filterMap_cons]
  | skip _ side _ _ _ ih => simp [lanesNeeded_cons, side, ih, List.range'_succ]

/-- Lanes on the right, too. -/
theorem Places.backLanes (places : Places chart edges number skips backs placed) :
    placed.filterMap (·.route.backLane?) =
      List.range' (backs + 1) (lanesNeeded chart .right edges) := by
  induction places with
  | done => rfl
  | missing _ side _ ih | skip _ side _ _ _ ih =>
    simp [lanesNeeded_cons, side, ih, List.filterMap_cons]
  | straight _ next _ _ _ ih =>
    simp [lanesNeeded_cons, laneSide?_of_leadsToNext next, ih, List.filterMap_cons]
  | back _ side _ _ _ ih => simp [lanesNeeded_cons, side, ih, List.range'_succ]

/-- How an edge is **led** between two nodes when the lanes above `skips` and `backs` are free, and
`lefts` and `rights` of them are needed. -/
inductive Led (chart : Flowchart) (skips lefts backs rights : Nat) (e : PlacedEdge) : Prop where
  /-- Straight to the next node. -/
  | straight {tail head : PlacedNode} (next : chart.LeadsToNext e.edge)
      (from_ : tail ∈ placedNodes chart) (onto : head ∈ placedNodes chart)
      (path : e.points = straightPath tail head)
  /-- Through a lane on the left. -/
  | skip {tail head : PlacedNode} (lane : Nat) (side : laneSide? chart e.edge = some .left)
      (free : skips < lane) (needed : lane ≤ skips + lefts) (from_ : tail ∈ placedNodes chart)
      (onto : head ∈ placedNodes chart)
      (path : e.points = skipPath ((measure chart).skipLaneX lane) tail head)
  /-- Through a lane on the right. -/
  | back {tail head : PlacedNode} (lane : Nat) (side : laneSide? chart e.edge = some .right)
      (free : backs < lane) (needed : lane ≤ backs + rights) (from_ : tail ∈ placedNodes chart)
      (onto : head ∈ placedNodes chart)
      (path : e.points = backPath ((measure chart).backLaneX lane) tail head)

/-- More free lanes, and more that are needed. -/
theorem Led.mono {skips' lefts lefts' backs' rights rights' : Nat} {e : PlacedEdge}
    (led : Led chart skips lefts backs rights e) (fewer : skips' ≤ skips ∧ backs' ≤ backs)
    (more : skips + lefts ≤ skips' + lefts' ∧ backs + rights ≤ backs' + rights') :
    Led chart skips' lefts' backs' rights' e := by
  cases led with
  | straight next from_ onto path => exact .straight next from_ onto path
  | skip lane side free needed from_ onto path =>
    exact .skip lane side (by omega) (by omega) from_ onto path
  | back lane side free needed from_ onto path =>
    exact .back lane side (by omega) (by omega) from_ onto path

/-- Each edge that is placed is led so. -/
theorem Places.led (places : Places chart edges number skips backs placed) :
    ∀ e ∈ placed, Led chart skips (lanesNeeded chart .left edges) backs
      (lanesNeeded chart .right edges) e := by
  -- An edge is led through the next free lane; the ones behind it need those further out.
  induction places with
  | done => simp
  | missing _ side _ ih =>
    simp only [lanesNeeded_cons, side]
    exact ih
  | straight _ next from_ onto _ ih =>
    simp only [lanesNeeded_cons, laneSide?_of_leadsToNext next]
    exact List.forall_mem_cons.2 ⟨.straight next from_ onto rfl, ih⟩
  | skip _ side from_ onto _ ih =>
    simp only [lanesNeeded_cons, side]
    refine List.forall_mem_cons.2 ⟨.skip _ side (by omega) ?_ from_ onto rfl, fun e member => ?_⟩
    · simp
    · exact (ih e member).mono (by omega) (by simp; omega)
  | back _ side from_ onto _ ih =>
    simp only [lanesNeeded_cons, side]
    refine List.forall_mem_cons.2 ⟨.back _ side (by omega) ?_ from_ onto rfl, fun e member => ?_⟩
    · simp
    · exact (ih e member).mono (by omega) (by simp; omega)

/-- A lane through which an edge is led is free and needed. -/
theorem Led.exists_lane {lefts rights : Nat} {e : PlacedEdge} {x : Half}
    (led : Led chart skips lefts backs rights e) (through : e.laneX? = some x) :
    (∃ lane, (skips < lane ∧ lane ≤ skips + lefts) ∧ x = (measure chart).skipLaneX lane) ∨
      ∃ lane, (backs < lane ∧ lane ≤ backs + rights) ∧ x = (measure chart).backLaneX lane := by
  cases led with
  | straight next from_ onto path => simp [PlacedEdge.laneX?, path, straightPath] at through
  | skip lane side free needed from_ onto path =>
    simp only [PlacedEdge.laneX?, path, skipPath, if_true, Option.some.injEq] at through
    exact .inl ⟨lane, ⟨free, needed⟩, through.symm⟩
  | back lane side free needed from_ onto path =>
    simp only [PlacedEdge.laneX?, path, backPath, if_true, Option.some.injEq] at through
    exact .inr ⟨lane, ⟨free, needed⟩, through.symm⟩

/-- An edge is led through no lane exactly when it leads to the next node. -/
theorem Led.laneX?_eq_none_iff {lefts rights : Nat} {e : PlacedEdge}
    (led : Led chart skips lefts backs rights e) :
    e.laneX? = none ↔ chart.LeadsToNext e.edge := by
  cases led with
  | straight next from_ onto path => simp [PlacedEdge.laneX?, path, straightPath, next]
  | skip lane side free needed from_ onto path =>
    refine iff_of_false (by simp [PlacedEdge.laneX?, path, skipPath]) fun next => ?_
    rw [laneSide?_of_leadsToNext next] at side
    cases side
  | back lane side free needed from_ onto path =>
    refine iff_of_false (by simp [PlacedEdge.laneX?, path, backPath]) fun next => ?_
    rw [laneSide?_of_leadsToNext next] at side
    cases side

/-- Lanes on the left are left of those on the right. -/
theorem skipLaneX_lt_backLaneX (m : Measures) {lane lane' : Nat} (counted : 0 < lane) :
    m.skipLaneX lane < m.backLaneX lane' := by
  simp only [Measures.skipLaneX, Measures.backLaneX, Half.ofNat, laneGap, Half]
  omega

/-- **No two edges share a lane**: lanes on either side are further out the later they are taken. -/
theorem Places.nodup_lanes (places : Places chart edges number skips backs placed) :
    (placed.filterMap (·.laneX?)).Nodup := by
  induction places with
  | done => exact List.nodup_nil
  | missing _ _ _ ih => exact ih
  | straight _ _ _ _ _ ih =>
    rw [List.filterMap_cons_none rfl]
    exact ih
  | @skip edge edges number skips backs placed tail head _ _ _ _ later ih =>
    rw [List.filterMap_cons_some (f := fun e : PlacedEdge => e.laneX?)
      (b := (measure chart).skipLaneX (skips + 1)) (by simp [PlacedEdge.laneX?, skipPath])]
    -- The lanes taken later are further out on the same side, or on the other side.
    refine List.nodup_cons.2 ⟨fun taken => ?_, ih⟩
    obtain ⟨e, member, through⟩ := List.mem_filterMap.1 taken
    rcases (later.led e member).exists_lane through with ⟨lane, free, same⟩ | ⟨lane, free, same⟩
    · simp only [Measures.skipLaneX, Half.ofNat, laneGap, Half] at same
      omega
    · exact absurd same (Int.ne_of_lt (skipLaneX_lt_backLaneX _ (Nat.succ_pos skips)))
  | @back edge edges number skips backs placed tail head _ _ _ _ later ih =>
    rw [List.filterMap_cons_some (f := fun e : PlacedEdge => e.laneX?)
      (b := (measure chart).backLaneX (backs + 1)) (by simp [PlacedEdge.laneX?, backPath])]
    refine List.nodup_cons.2 ⟨fun taken => ?_, ih⟩
    obtain ⟨e, member, through⟩ := List.mem_filterMap.1 taken
    rcases (later.led e member).exists_lane through with ⟨lane, free, same⟩ | ⟨lane, free, same⟩
    · exact absurd same.symm (Int.ne_of_lt (skipLaneX_lt_backLaneX _ (Nat.zero_lt_of_lt free.1)))
    · simp only [Measures.backLaneX, Half.ofNat, laneGap, Half] at same
      omega

/-! ## Measures -/

/-- A maximum that is taken step by step is above all that it is taken of. -/
theorem le_foldl_max {α : Type} (f : α → Nat) (as : List α) (start : Nat) :
    start ≤ as.foldl (fun width a => max width (f a)) start ∧
      ∀ a ∈ as, f a ≤ as.foldl (fun width a => max width (f a)) start := by
  induction as generalizing start with
  | nil => simp
  | cons a as ih =>
    obtain ⟨above, all⟩ := ih (max start (f a))
    refine ⟨by rw [List.foldl_cons]; omega, List.forall_mem_cons.2 ⟨?_, all⟩⟩
    rw [List.foldl_cons]
    omega

/-- Where a placed node is: on the middle line, not wider than the widest box, and in its row. -/
theorem mem_placedNodes {p : PlacedNode} (member : p ∈ placedNodes chart) :
    p.x = (measure chart).centerX ∧
      (minNodeWidth ≤ p.width ∧ p.width ≤ (measure chart).boxWidth) ∧
      ∃ row, row < chart.nodes.length ∧ p.y = rowCenter row := by
  obtain ⟨row, bound, rfl⟩ := List.mem_mapIdx.1 member
  have wide := (le_foldl_max (fun node : Node => nodeWidth node.label) chart.nodes minNodeWidth).2 _
    (List.getElem_mem bound)
  exact ⟨rfl, ⟨Nat.le_max_left .., wide⟩, row, bound, rfl⟩

/-- Every node has a place. -/
theorem map_node_placedNodes (chart : Flowchart) :
    (placedNodes chart).map (·.node) = chart.nodes := by
  refine List.ext_getElem (by simp [placedNodes]) fun i _ _ => ?_
  simp [placedNodes, placeNode]

/-- The rows of the nodes lie below each other. -/
theorem pairwise_placedNodes (chart : Flowchart) :
    (placedNodes chart).Pairwise fun p q => p.bottom < q.top := by
  rw [List.pairwise_iff_getElem]
  intro i j first second before
  simp only [placedNodes, List.getElem_mapIdx, placeNode, PlacedNode.bottom, PlacedNode.top,
    rowCenter, Half.ofNat, marginY, rowHeight, nodeHeight, Half]
  omega

/-- The same in numbers of halves. -/
theorem bounds_of_mem {p : PlacedNode} (member : p ∈ placedNodes chart) :
    p.x = 80 + 28 * ((measure chart).skipLanes : Int) + 2 * ((measure chart).boxWidth / 2 : Int) ∧
      (80 ≤ (p.width : Int) ∧ (p.width : Int) ≤ (measure chart).boxWidth) ∧
      100 ≤ p.y ∧ p.y + 104 ≤ Half.ofNat (Layout.of chart).height := by
  obtain ⟨x, ⟨least, wide⟩, row, bound, y⟩ := mem_placedNodes member
  simp only [x, y, Measures.centerX, rowCenter, Half.ofNat, Layout.of, marginX, marginY, laneGap,
    rowHeight, nodeHeight, minNodeWidth, Half] at least ⊢
  omega

/-! ## The canvas -/

/-- The width of a layout is that of its margins, lanes and boxes. -/
theorem width_of (chart : Flowchart) : Half.ofNat (Layout.of chart).width =
    160 + 28 * ((measure chart).skipLanes + (measure chart).backLanes : Int) +
      2 * ((measure chart).boxWidth : Int) := by
  simp only [Half.ofNat, Layout.of, marginX, laneGap, Half]
  omega

/-- The outline of a node fills its box. -/
theorem within_of_mem_corners {p : PlacedNode} (wide : 80 ≤ (p.width : Int)) :
    ∀ corner ∈ p.corners, (p.left ≤ corner.1 ∧ corner.1 ≤ p.right) ∧
      (p.top ≤ corner.2 ∧ corner.2 ≤ p.bottom) := by
  intro corner member
  simp only [PlacedNode.corners] at member
  split at member <;>
    simp only [List.mem_cons, List.not_mem_nil, or_false] at member <;>
    rcases member with rfl | rfl | rfl | rfl <;>
    simp only [PlacedNode.left, PlacedNode.right, PlacedNode.top, PlacedNode.bottom, slant,
      nodeHeight, Half.ofNat, Half] <;>
    omega

/-- What is drawn for a node reaches just as far as its corners. -/
theorem extremes_figure (p : PlacedNode) : p.figure.extremes = p.corners := by
  have right : p.left + Half.ofNat p.width = p.right := by
    simp only [PlacedNode.left, PlacedNode.right, Half.ofNat, Half]
    omega
  have bottom : p.top + Half.ofNat nodeHeight = p.bottom := by
    simp only [PlacedNode.top, PlacedNode.bottom, Half.ofNat, Half]
    omega
  cases shape : p.node.shape <;>
    simp only [PlacedNode.figure, PlacedNode.corners, Figure.extremes, shape, right, bottom]
  rfl

/-- A square that is not larger tells a distance that is not larger. -/
theorem near_of_sq {distance radius weight : Half} (some_weight : 0 < weight) (some_radius : 0 ≤ radius)
    (within : distance ^ 2 * weight ^ 2 ≤ radius ^ 2 * weight ^ 2) :
    -radius ≤ distance ∧ distance ≤ radius :=
  abs_le_of_sq_le_sq' (le_of_mul_le_mul_right within (pow_pos some_weight 2)) some_radius

/-- All that is drawn for a node lies in its box. -/
theorem within_of_covers {p : PlacedNode} (wide : 80 ≤ (p.width : Int)) {point : Half × Half}
    (covers : p.figure.Covers point) :
    (p.left ≤ point.1 ∧ point.1 ≤ p.right) ∧ (p.top ≤ point.2 ∧ point.2 ≤ p.bottom) := by
  have inside := within_of_mem_corners wide
  cases shape : p.node.shape <;> simp only [PlacedNode.figure, shape] at covers
  case oval =>
    -- Neither term of the sum is negative, so each is below the bound alone.
    have down : (0 : Half) < nodeHeight := by decide
    have across : (0 : Half) < p.width := Int.lt_of_lt_of_le (by decide) wide
    have first := near_of_sq down (Int.le_of_lt across)
      (le_trans (le_add_of_nonneg_right (by positivity)) covers)
    have second := near_of_sq across (Int.le_of_lt down)
      (le_trans (le_add_of_nonneg_left (by positivity)) (covers.trans_eq (mul_comm _ _)))
    simp only [PlacedNode.left, PlacedNode.right, PlacedNode.top, PlacedNode.bottom, Half] at *
    omega
  case diamond | parallelogram =>
    obtain ⟨⟨⟨a, a_mem, a_le⟩, b, b_mem, b_le⟩, ⟨c, c_mem, c_le⟩, d, d_mem, d_le⟩ := covers
    exact ⟨⟨(inside a a_mem).1.1.trans a_le, b_le.trans (inside b b_mem).1.2⟩,
      (inside c c_mem).2.1.trans c_le, d_le.trans (inside d d_mem).2.2⟩
  case rectangle | other =>
    obtain ⟨⟨left, right⟩, top, bottom⟩ := covers
    simp only [PlacedNode.left, PlacedNode.right, PlacedNode.top, PlacedNode.bottom, Half.ofNat,
      Half] at *
    omega

/-- Boxes lie on the canvas. -/
theorem contains_of_within {p : PlacedNode} (member : p ∈ placedNodes chart) {point : Half × Half}
    (across : p.left ≤ point.1 ∧ point.1 ≤ p.right) (down : p.top ≤ point.2 ∧ point.2 ≤ p.bottom) :
    (Layout.of chart).Contains point := by
  obtain ⟨x, wide, y⟩ := bounds_of_mem member
  rw [Layout.Contains, width_of]
  simp only [PlacedNode.left, PlacedNode.right, PlacedNode.top, PlacedNode.bottom, nodeHeight,
    Half] at *
  omega

/-- Where the lanes are: on the canvas, and past all boxes. -/
theorem skipLane_bounds {lane : Nat} (taken : 0 < lane ∧ lane ≤ (measure chart).skipLanes) :
    (0 ≤ (measure chart).skipLaneX lane ∧
      (measure chart).skipLaneX lane ≤ Half.ofNat (Layout.of chart).width) ∧
      ∀ p ∈ placedNodes chart, (measure chart).skipLaneX lane < p.left := by
  rw [width_of]
  refine ⟨?_, fun p member => ?_⟩
  · simp only [Measures.skipLaneX, Measures.centerX, marginX, laneGap, Half.ofNat, Half]
    omega
  · obtain ⟨x, wide, -⟩ := bounds_of_mem member
    simp only [Measures.skipLaneX, Measures.centerX, PlacedNode.left, marginX, laneGap, Half.ofNat,
      Half] at *
    omega

/-- A lane for going back is inside of the drawing, and to the right of all boxes. -/
theorem backLane_bounds {lane : Nat} (taken : 0 < lane ∧ lane ≤ (measure chart).backLanes) :
    (0 ≤ (measure chart).backLaneX lane ∧
      (measure chart).backLaneX lane ≤ Half.ofNat (Layout.of chart).width) ∧
      ∀ p ∈ placedNodes chart, p.right < (measure chart).backLaneX lane := by
  rw [width_of]
  refine ⟨?_, fun p member => ?_⟩
  · simp only [Measures.backLaneX, Measures.centerX, marginX, laneGap, Half.ofNat, Half]
    omega
  · obtain ⟨x, wide, -⟩ := bounds_of_mem member
    simp only [Measures.backLaneX, Measures.centerX, PlacedNode.right, marginX, laneGap, Half.ofNat,
      Half] at *
    omega

/-- A lane lies on the canvas beside every row. -/
theorem contains_lane {x : Half} (across : 0 ≤ x ∧ x ≤ Half.ofNat (Layout.of chart).width)
    {p : PlacedNode} (member : p ∈ placedNodes chart) : (Layout.of chart).Contains (x, p.y) := by
  obtain ⟨-, -, y⟩ := bounds_of_mem member
  simp only [Layout.Contains, Half] at *
  omega

/-- The middle of each border of a box lies on the canvas. -/
theorem contains_borders {p : PlacedNode} (member : p ∈ placedNodes chart) :
    (Layout.of chart).Contains (p.left, p.y) ∧ (Layout.of chart).Contains (p.right, p.y) ∧
      (Layout.of chart).Contains (p.x, p.top) ∧ (Layout.of chart).Contains (p.x, p.bottom) := by
  have inside := within_of_mem_corners (bounds_of_mem member).2.1.1
  refine ⟨contains_of_within member ?_ ?_, contains_of_within member ?_ ?_,
      contains_of_within member ?_ ?_, contains_of_within member ?_ ?_⟩ <;>
    simp only [PlacedNode.left, PlacedNode.right, PlacedNode.top, PlacedNode.bottom, nodeHeight,
      Half] <;>
    omega

/-- The path of an edge lies on the canvas. -/
theorem Led.inside {e : PlacedEdge}
    (led : Led chart 0 (measure chart).skipLanes 0 (measure chart).backLanes e) :
    ∀ corner ∈ e.points, (Layout.of chart).Contains corner := by
  cases led with
  | straight next from_ onto path =>
    rw [path, straightPath]
    simp only [List.forall_mem_cons, List.not_mem_nil, false_imp_iff, implies_true, and_true]
    exact ⟨(contains_borders from_).2.2.2, (contains_borders onto).2.2.1⟩
  | skip lane side free needed from_ onto path =>
    have taken : 0 < lane ∧ lane ≤ (measure chart).skipLanes := by omega
    have across := (skipLane_bounds taken).1
    rw [path, skipPath]
    simp only [List.forall_mem_cons, List.not_mem_nil, false_imp_iff, implies_true, and_true]
    exact ⟨(contains_borders from_).1, contains_lane across from_, contains_lane across onto,
      (contains_borders onto).1⟩
  | back lane side free needed from_ onto path =>
    have taken : 0 < lane ∧ lane ≤ (measure chart).backLanes := by omega
    have across := (backLane_bounds taken).1
    rw [path, backPath]
    simp only [List.forall_mem_cons, List.not_mem_nil, false_imp_iff, implies_true, and_true]
    exact ⟨(contains_borders from_).2.1, contains_lane across from_, contains_lane across onto,
      (contains_borders onto).2.1⟩

/-- Edges of a layout are led through the lanes that were set aside. -/
theorem led_of_mem {e : PlacedEdge} (member : e ∈ (Layout.of chart).edges) :
    Led chart 0 (measure chart).skipLanes 0 (measure chart).backLanes e :=
  (places_of chart).led e member

end Layout

open Layout

/-- **The layout of every flowchart is sound.** Everything lies on the canvas, and no lane touches
another lane or a box. All nodes are drawn. The edges that join two nodes are drawn, under their
numbers; each of them is led through a lane unless it leads to the next node; and the lanes taken on
either side are exactly those that were set aside there. -/
theorem layout_sound (chart : Flowchart) :
    (Layout.of chart).Sound ∧
      (Layout.of chart).nodes.map (·.node) = chart.nodes ∧
      (Layout.of chart).edges.map (fun e => (e.edge, e.number)) =
        (chart.edges.zipIdx 1).filter (fun entry => chart.joins entry.1) ∧
      (∀ e ∈ (Layout.of chart).edges, e.laneX? = none ↔ chart.LeadsToNext e.edge) ∧
      (Layout.of chart).edges.filterMap (·.route.skipLane?) =
        List.range' 1 (measure chart).skipLanes ∧
      (Layout.of chart).edges.filterMap (·.route.backLane?) =
        List.range' 1 (measure chart).backLanes := by
  have places := places_of chart
  refine ⟨⟨?nodes, fun p _ => extremes_figure p, ?figures, pairwise_placedNodes chart, ?edges, places.nodup_lanes, ?outside⟩,
    map_node_placedNodes chart, places.numbered,
    fun e member => (led_of_mem member).laneX?_eq_none_iff, places.skipLanes, places.backLanes⟩
  case nodes =>
    intro p member corner is_corner
    have within := within_of_mem_corners (bounds_of_mem member).2.1.1 corner is_corner
    exact contains_of_within member within.1 within.2
  case figures =>
    intro p member point covers
    have within := within_of_covers (bounds_of_mem member).2.1.1 covers
    exact contains_of_within member within.1 within.2
  case edges => exact fun e member => (led_of_mem member).inside
  case outside =>
    intro x taken p member
    obtain ⟨e, is_edge, through⟩ := List.mem_filterMap.1 taken
    rcases (led_of_mem is_edge).exists_lane through with ⟨lane, free, rfl⟩ | ⟨lane, free, rfl⟩
    · exact .inl ((skipLane_bounds ⟨free.1, by omega⟩).2 p member)
    · exact .inr ((backLane_bounds ⟨free.1, by omega⟩).2 p member)

end FlowTrace
