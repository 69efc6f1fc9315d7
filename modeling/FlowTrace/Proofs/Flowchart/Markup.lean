import Mathlib.Data.List.Infix
import FlowTrace.Playback.Highlight
import FlowTrace.Proofs.Flowchart.Placement
import FlowTrace.Proofs.Text.Numeral

/-! # Finding nodes in markup

The highlighter does not know flowcharts: it searches their markup for the tag of a node, and a
search finds exactly what is there (`Text.includes_iff_infix`).

Markup is a row of groups. Within a group no `<` stands in front of a `g` (`Text.opensNoGroup`),
whatever the texts in it are, because they are escaped. So a tag can only be found where a group
begins, and there it tells the id of the group: escaping loses nothing
(`Text.escapeMarkup_injective`), and it leaves no quote at which an id could end early
(`Text.quoted_prefix_iff`). Hence the highlighter finds the nodes of a flowchart and the groups of
its edges, and nothing else (`hasNode_render_iff`). -/

namespace FlowTrace

namespace Text

/-! ## Searching -/

/-- The search for a part succeeds when the part stands in the text. -/
theorem isSome_indexOf_go {part : Text} (t : Text) (n : Nat) :
    (indexOf?.go part t n).isSome = true ↔ part <:+: t := by
  induction t generalizing n with
  | nil => cases part <;> simp [indexOf?.go]
  | cons c t ih =>
    rw [indexOf?.go, List.infix_cons_iff, ← List.isPrefixOf_iff_prefix]
    split
    · rename_i here
      simp [here]
    · rename_i not_here
      rw [ih]
      simp [not_here]

/-- A search **finds** a part exactly when it is there. -/
theorem includes_iff_infix {t part : Text} : t.includes part = true ↔ part <:+: t :=
  isSome_indexOf_go t 0

/-! ## Texts in which no group begins -/

/-- Whether **no group begins** in a text: no `<` stands in front of a `g` or at the end. -/
def opensNoGroup : Text → Bool
  | [] => true
  | [c] => c != '<'
  | c :: d :: t => (c != '<' || d != 'g') && opensNoGroup (d :: t)

variable {a b t u q : Text} {c d : UInt8}

/-- No group begins where two texts meet. -/
theorem opensNoGroup_append (front : opensNoGroup t = true) (back : opensNoGroup u = true) :
    opensNoGroup (t ++ u) = true := by
  induction t using opensNoGroup.induct with
  | case1 => exact back
  | case2 c =>
    rw [opensNoGroup] at front
    cases u with
    | nil => simpa [opensNoGroup] using front
    | cons d u => simp [opensNoGroup, back, front]
  | case3 c d t ih =>
    rw [opensNoGroup, Bool.and_eq_true] at front
    rw [List.cons_append, List.cons_append, opensNoGroup, Bool.and_eq_true]
    exact ⟨front.1, ih front.2⟩

/-- A text without angle brackets opens no group. -/
theorem opensNoGroup_of_not_mem (plain : ('<' : UInt8) ∉ t) : opensNoGroup t = true := by
  induction t using opensNoGroup.induct with
  | case1 => rfl
  | case2 c =>
    rw [List.mem_singleton] at plain
    exact bne_iff_ne.2 (Ne.symm plain)
  | case3 c d t ih =>
    rw [List.mem_cons, not_or] at plain
    simp [opensNoGroup, ih plain.2, Ne.symm plain.1]

/-- What begins like a group is not found in a text in which no group begins, nor across its
end. -/
theorem infix_append_iff (front : opensNoGroup t = true) :
    ('<' :: 'g' :: q : Text) <:+: t ++ u ↔ ('<' :: 'g' :: q : Text) <:+: u := by
  induction t using opensNoGroup.induct with
  | case1 => rfl
  | case2 c =>
    have other : c ≠ '<' := by simpa [opensNoGroup] using front
    rw [List.singleton_append, List.infix_cons_iff, List.cons_prefix_cons]
    simp [Ne.symm other]
  | case3 c d t ih =>
    rw [opensNoGroup, Bool.and_eq_true, Bool.or_eq_true, bne_iff_ne, bne_iff_ne] at front
    rw [List.cons_append, List.infix_cons_iff, ih front.2, List.cons_append, List.cons_prefix_cons,
      List.cons_prefix_cons]
    refine or_iff_right fun begins => ?_
    exact front.1.elim (absurd begins.1.symm) (absurd begins.2.1.symm)

/-- A text without quotes, up to the quote behind it, tells which text it is. -/
theorem quoted_prefix_iff (bare : doubleQuote ∉ a) (bare' : doubleQuote ∉ b) :
    a ++ [doubleQuote] <+: b ++ doubleQuote :: t ↔ a = b := by
  induction a generalizing b with
  | nil =>
    cases b with
    | nil => simp
    | cons d b => simpa using fun same : doubleQuote = d => bare' (by simp [same])
  | cons c a ih =>
    rw [List.mem_cons, not_or] at bare
    cases b with
    | nil => simpa using fun same : c = doubleQuote => absurd same.symm bare.1
    | cons d b =>
      rw [List.mem_cons, not_or] at bare'
      rw [List.cons_append, List.cons_append, List.cons_prefix_cons, ih bare.2 bare'.2,
        List.cons.injEq]

/-! ## Escaping -/

/-- The bytes that are **escaped**, with what is written for them. -/
def escapes : List (UInt8 × Text) :=
  [('&', "&amp;"), (apostrophe, "&#39;"), ('<', "&lt;"), ('>', "&gt;"), (doubleQuote, "&#34;")]

/-- A byte is escaped, or stays as it is. -/
theorem escapeByte_cases (c : UInt8) :
    (c, escapeByte c) ∈ escapes ∨ escapeByte c = [c] ∧ c ∉ escapes.map Prod.fst := by
  unfold escapeByte
  split_ifs with amp apos lt gt quote
  case neg =>
    simp only [beq_iff_eq] at amp apos lt gt quote
    exact .inr ⟨rfl, by simp [escapes, amp, apos, lt, gt, quote]⟩
  all_goals
    simp only [beq_iff_eq] at *
    subst_vars
    exact .inl (by decide)

/-- No byte is written as the beginning of what is written for another one. -/
theorem eq_of_prefix_escapeByte (front : escapeByte c <+: escapeByte d) : c = d := by
  have apart : ∀ e ∈ escapes, ∀ f ∈ escapes, e.2 <+: f.2 → e.1 = f.1 := by decide
  -- What is written for a special byte begins with the ampersand, which is special itself.
  have reference : ∀ e ∈ escapes, ∀ c, ([c] <+: e.2 → c = '&') ∧ ¬ e.2 <+: [c] := by
    have heads : ∀ e ∈ escapes, e.2.head? = some '&' ∧ 1 < e.2.length := by decide
    refine fun e member c => ⟨fun front => ?_, fun front => ?_⟩
    · obtain ⟨rest, whole⟩ := front
      have head := (heads e member).1
      rw [← whole] at head
      exact Option.some.inj head
    · exact absurd front.length_le (by simpa using (heads e member).2)
  rcases escapeByte_cases c with special | ⟨plain, other⟩ <;>
    rcases escapeByte_cases d with special' | ⟨plain', other'⟩
  · exact apart _ special _ special' front
  · rw [plain'] at front
    exact absurd front (reference _ special d).2
  · rw [plain] at front
    exact absurd (by rw [(reference _ special' c).1 front]; decide) other
  · rw [plain, plain', List.cons_prefix_cons] at front
    exact front.1

/-- **Escaping loses nothing.** -/
theorem escapeMarkup_injective : Function.Injective escapeMarkup := by
  intro t u same
  have filled (c : UInt8) : escapeByte c ≠ [] := by
    rcases escapeByte_cases c with special | ⟨plain, -⟩
    · have none_empty : ∀ e ∈ escapes, e.2 ≠ [] := by decide
      exact none_empty _ special
    · simp [plain]
  induction t generalizing u with
  | nil =>
    cases u with
    | nil => rfl
    | cons d u => exact absurd (List.append_eq_nil_iff.1 same.symm).1 (filled d)
  | cons c t ih =>
    cases u with
    | nil => exact absurd (List.append_eq_nil_iff.1 same).1 (filled c)
    | cons d u =>
      rw [escapeMarkup_cons, escapeMarkup_cons] at same
      -- One of the first bytes is written as the beginning of the other, so that they are the same.
      have equal : c = d := by
        rcases List.prefix_or_prefix_of_prefix (List.prefix_append _ _)
          (same ▸ List.prefix_append (escapeByte d) (escapeMarkup u)) with front | front
        · exact eq_of_prefix_escapeByte front
        · exact (eq_of_prefix_escapeByte front).symm
      subst equal
      rw [ih (List.append_cancel_left same)]

/-- What is escaped has no byte in it that can end or open something. -/
theorem not_mem_escapeMarkup (t : Text) :
    ('<' : UInt8) ∉ escapeMarkup t ∧ doubleQuote ∉ escapeMarkup t := by
  have bare (c : UInt8) : ('<' : UInt8) ∉ escapeByte c ∧ doubleQuote ∉ escapeByte c := by
    rcases escapeByte_cases c with special | ⟨plain, other⟩
    · have none : ∀ e ∈ escapes, ('<' : UInt8) ∉ e.2 ∧ doubleQuote ∉ e.2 := by decide
      exact none _ special
    · rw [plain]
      refine ⟨fun mark => other ?_, fun mark => other ?_⟩ <;>
        (rw [← List.mem_singleton.1 mark]; decide)
  simp only [escapeMarkup, List.mem_flatMap, not_exists, not_and]
  exact ⟨fun c _ => (bare c).1, fun c _ => (bare c).2⟩

/-- A text of word bytes stands for itself. -/
theorem escapeMarkup_of_word (word : ∀ c ∈ t, isWord c = true) : escapeMarkup t = t := by
  induction t with
  | nil => rfl
  | cons c t ih =>
    rw [List.forall_mem_cons] at word
    have plain : escapeByte c = [c] := by
      rcases escapeByte_cases c with special | ⟨plain, -⟩
      · have marks : ∀ e ∈ escapes, isWord e.1 = false := by decide
        exact absurd word.1 (by simp [marks _ special])
      · exact plain
    rw [escapeMarkup_cons, plain, ih word.2, List.singleton_append]

/-- Escaped text opens no group. -/
theorem opensNoGroup_escapeMarkup (t : Text) : opensNoGroup (escapeMarkup t) = true :=
  opensNoGroup_of_not_mem (not_mem_escapeMarkup t).1

/-- A number opens no group. -/
theorem opensNoGroup_ofNat (n : Nat) : opensNoGroup (ofNat n) = true :=
  opensNoGroup_of_not_mem fun mark => absurd (isDigit_of_mem_ofNat mark) (by decide)

/-- Joined parts open no group when neither they nor the text between them does. -/
theorem opensNoGroup_joinWith {sep : Text} {parts : List Text} (between : opensNoGroup sep = true)
    (each : ∀ part ∈ parts, opensNoGroup part = true) :
    opensNoGroup (joinWith sep parts) = true := by
  induction parts with
  | nil => rfl
  | cons part parts ih =>
    rw [List.forall_mem_cons] at each
    cases parts with
    | nil => simpa [joinWith] using each.1
    | cons next parts =>
      rw [joinWith, List.intercalate_cons_cons, List.append_assoc]
      exact opensNoGroup_append each.1 (opensNoGroup_append between (ih each.2))

end Text

open Text (opensNoGroup opensNoGroup_append opensNoGroup_escapeMarkup opensNoGroup_ofNat
  opensNoGroup_joinWith opensNoGroup_of_not_mem doubleQuote)

/-- A half opens no group. -/
theorem Half.opensNoGroup_text (h : Half) : opensNoGroup h.text = true := by
  unfold text
  refine opensNoGroup_append (opensNoGroup_append ?_ (opensNoGroup_ofNat _)) ?_ <;> split <;> decide

open Half (opensNoGroup_text)

namespace Layout

variable {chart : Flowchart} {id : Text}

/-! ## Groups -/

/-- No group begins in the opening of a drawing. -/
theorem opensNoGroup_opening (layout : Layout) : opensNoGroup layout.opening = true := by
  unfold opening
  repeat' with_reducible apply opensNoGroup_append
  all_goals first | with_reducible exact opensNoGroup_ofNat _ | decide +kernel

/-- No group begins in a row of points. -/
theorem opensNoGroup_points (points : List (Half × Half)) {sep between : Text}
    (plain : opensNoGroup sep = true) (plain' : opensNoGroup between = true) :
    opensNoGroup (Text.joinWith sep (points.map fun p => p.1.text ++ between ++ p.2.text)) =
      true := by
  refine opensNoGroup_joinWith plain fun part member => ?_
  obtain ⟨p, -, rfl⟩ := List.mem_map.1 member
  exact opensNoGroup_append (opensNoGroup_append (opensNoGroup_text _) plain')
    (opensNoGroup_text _)

/-- A polygon opens no group. -/
theorem opensNoGroup_polygon (corners : List (Half × Half)) {fill : Text}
    (plain : opensNoGroup fill = true) : opensNoGroup (polygon corners fill) = true := by
  have points : opensNoGroup
      (Text.joinWith " " (corners.map fun p => p.1.text ++ "," ++ p.2.text)) = true :=
    opensNoGroup_points corners (by decide) (by decide)
  unfold polygon
  repeat' with_reducible apply opensNoGroup_append
  all_goals first | with_reducible exact points | with_reducible exact plain | decide +kernel

/-- No group begins in a figure. -/
theorem opensNoGroup_figureMarkup (figure : Figure) {fill : Text}
    (plain : opensNoGroup fill = true) : opensNoGroup (figureMarkup figure fill) = true := by
  cases figure with
  | polygon corners => exact opensNoGroup_polygon corners plain
  | ellipse | rectangle =>
    unfold figureMarkup
    repeat' with_reducible apply opensNoGroup_append
    all_goals first
      | with_reducible exact opensNoGroup_text _
      | with_reducible exact plain
      | decide +kernel

/-- No group begins in the outline of a node. -/
theorem opensNoGroup_outline (p : PlacedNode) {fill : Text} (plain : opensNoGroup fill = true) :
    opensNoGroup (outline p fill) = true :=
  opensNoGroup_figureMarkup p.figure plain

/-- The markup of a node after its id. -/
def nodeRest (p : PlacedNode) : Text :=
  " class=\"node\"><title>" ++ p.node.id.escapeMarkup ++ "</title>" ++
    outline p (if p.node.fill.isEmpty then "white" else p.node.fill) ++ "<text x=\"" ++ p.x.text ++
    "\" y=\"" ++ p.y.text ++
    "\" text-anchor=\"middle\" dominant-baseline=\"middle\" font-family=\"Helvetica,sans-serif\" font-size=\"12\">" ++
    (shownLabel p.node.label).escapeMarkup ++ "</text></g>\n"

/-- A node is drawn as a group under its id. -/
theorem nodeMarkup_eq (p : PlacedNode) : nodeMarkup p = nodeTag p.node.id ++ nodeRest p := by
  have tag : Text.of "\" class=\"node\"><title>" = "\"" ++ " class=\"node\"><title>" := rfl
  rw [nodeMarkup, nodeTag, nodeRest, tag]
  simp only [List.append_assoc]

/-- The id of the group of an edge. -/
def edgeId (number : Nat) : Text := "edge" ++ Text.ofNat number

/-- The id of an edge has nothing to escape. -/
theorem escapeMarkup_edgeId (number : Nat) : (edgeId number).escapeMarkup = edgeId number := by
  refine Text.escapeMarkup_of_word fun c member => ?_
  rcases List.mem_append.1 member with letter | digit
  · have letters : ∀ c ∈ Text.of "edge", Text.isWord c = true := by decide +kernel
    exact letters c letter
  · simp [Text.isWord, Text.isDigit_of_mem_ofNat digit]

/-- The markup of an edge after its id. -/
def edgeRest (e : PlacedEdge) : Text :=
  " class=\"edge\"><title>" ++ e.edge.source.escapeMarkup ++ "&#45;&gt;" ++
    e.edge.target.escapeMarkup ++ "</title><path d=\"" ++
    ("M " ++ Text.joinWith " L " (e.points.map fun p => p.1.text ++ " " ++ p.2.text)) ++
    "\" fill=\"none\" stroke=\"#333\" marker-end=\"url(#arrow)\"/></g>\n"

/-- An edge is drawn as a group under its number. -/
theorem edgeMarkup_eq (e : PlacedEdge) :
    edgeMarkup e = nodeTag (edgeId e.number) ++ edgeRest e := by
  have tag : Text.of "\" class=\"edge\"><title>" = "\"" ++ " class=\"edge\"><title>" := rfl
  have tag' : Text.of "<g id=\"edge" = "<g id=\"" ++ "edge" := rfl
  rw [edgeMarkup, nodeTag, escapeMarkup_edgeId, edgeRest, edgeId, tag, tag']
  simp only [List.append_assoc]

/-- No group begins in the rest of an edge. -/
theorem opensNoGroup_edgeRest (e : PlacedEdge) : opensNoGroup (edgeRest e) = true := by
  have points : opensNoGroup
      (Text.joinWith " L " (e.points.map fun p => p.1.text ++ " " ++ p.2.text)) = true :=
    opensNoGroup_points e.points (by decide) (by decide)
  unfold edgeRest
  repeat' with_reducible apply opensNoGroup_append
  all_goals first
    | with_reducible exact points
    | with_reducible exact opensNoGroup_escapeMarkup _
    | decide +kernel

/-- No group begins in the rest of a node, unless its colour is no name of a colour. -/
theorem opensNoGroup_nodeRest {p : PlacedNode} (plain : ('<' : UInt8) ∉ p.node.fill) :
    opensNoGroup (nodeRest p) = true := by
  have fill : opensNoGroup (if p.node.fill.isEmpty then "white" else p.node.fill) = true := by
    split
    · decide
    · exact opensNoGroup_of_not_mem plain
  unfold nodeRest
  repeat' with_reducible apply opensNoGroup_append
  all_goals first
    | exact opensNoGroup_outline p fill
    | with_reducible exact opensNoGroup_text _
    | with_reducible exact opensNoGroup_escapeMarkup _
    | decide +kernel

/-! ## Tags -/

/-- A tag after the two bytes that every tag begins with. -/
def tagTail (id : Text) : Text := " id=\"" ++ (id.escapeMarkup ++ [doubleQuote])

/-- The tag of a node is the beginning of a group with its id. -/
theorem nodeTag_eq (id : Text) : nodeTag id = ('<' : UInt8) :: ('g' : UInt8) :: tagTail id := by
  simp only [nodeTag, tagTail, List.append_assoc]
  rfl

/-- The rest of the tag of a node opens no further group. -/
theorem opensNoGroup_tagTail (id : Text) : opensNoGroup (tagTail id) = true :=
  opensNoGroup_append (by decide) (opensNoGroup_append (opensNoGroup_escapeMarkup id) (by decide))

/-- A tag tells the id. -/
theorem tagTail_prefix_iff {name u : Text} : tagTail id <+: tagTail name ++ u ↔ id = name := by
  rw [tagTail, tagTail, List.append_assoc, List.prefix_append_right_inj, List.append_assoc,
    List.singleton_append, Text.quoted_prefix_iff (Text.not_mem_escapeMarkup id).2
      (Text.not_mem_escapeMarkup name).2, Text.escapeMarkup_injective.eq_iff]

/-- There is no tag in a text in which no group begins, nor across its end. -/
theorem nodeTag_infix_append {t u : Text} (front : opensNoGroup t = true) :
    nodeTag id <:+: t ++ u ↔ nodeTag id <:+: u := by
  rw [nodeTag_eq, Text.infix_append_iff front]

/-- A tag is found at the beginning of a group if it is the tag of the group, and otherwise behind
the group. -/
theorem nodeTag_infix_group {name rest u : Text} (quiet : opensNoGroup rest = true) :
    nodeTag id <:+: nodeTag name ++ rest ++ u ↔ id = name ∨ nodeTag id <:+: u := by
  -- Behind its first byte the group opens no other one, so no tag can begin there.
  have inside : opensNoGroup (('g' : UInt8) :: (tagTail name ++ rest)) = true :=
    opensNoGroup_append (t := [('g' : UInt8)]) (by decide)
      (opensNoGroup_append (opensNoGroup_tagTail name) quiet)
  have here : nodeTag id <+: ('<' : UInt8) :: (('g' : UInt8) :: (tagTail name ++ rest) ++ u) ↔
      id = name := by
    rw [nodeTag_eq, List.cons_append, List.cons_prefix_cons, List.cons_prefix_cons,
      List.append_assoc, tagTail_prefix_iff]
    simp
  rw [nodeTag_eq name, List.cons_append, List.cons_append, List.cons_append, List.infix_cons_iff,
    here, nodeTag_infix_append inside]

/-- In a row of groups the tags are those of the groups. -/
theorem nodeTag_infix_groups {α : Type} {name rest : α → Text} {items : List α} {u : Text}
    (quiet : ∀ item ∈ items, opensNoGroup (rest item) = true) :
    nodeTag id <:+: items.flatMap (fun item => nodeTag (name item) ++ rest item) ++ u ↔
      (∃ item ∈ items, id = name item) ∨ nodeTag id <:+: u := by
  induction items with
  | nil => simp
  | cons item items ih =>
    rw [List.forall_mem_cons] at quiet
    rw [List.flatMap_cons, List.append_assoc, nodeTag_infix_group quiet.1, ih quiet.2, ← or_assoc]
    simp

/-- **The tags in a drawing** are those of its edges and of its nodes. -/
theorem nodeTag_infix_markup {layout : Layout}
    (plain : ∀ p ∈ layout.nodes, ('<' : UInt8) ∉ p.node.fill) :
    nodeTag id <:+: layout.markup ↔
      (∃ e ∈ layout.edges, id = edgeId e.number) ∨ ∃ p ∈ layout.nodes, id = p.node.id := by
  have closing : ¬ nodeTag id <:+: "</svg>\n" := by
    rw [← List.append_nil (Text.of "</svg>\n"), nodeTag_infix_append (by decide), nodeTag_eq]
    simp
  rw [markup, funext edgeMarkup_eq, funext nodeMarkup_eq,
    nodeTag_infix_append (opensNoGroup_opening layout),
    nodeTag_infix_groups fun e _ => opensNoGroup_edgeRest e,
    nodeTag_infix_groups fun p member => opensNoGroup_nodeRest (plain p member),
    or_iff_left closing]

/-- The nodes of a layout are those of the flowchart. -/
theorem map_node_of (chart : Flowchart) : (Layout.of chart).nodes.map (·.node) = chart.nodes := by
  rw [Layout.of]
  exact List.ext_getElem (by simp) fun i _ _ => by simp [placeNode]

/-- The numbers of the drawn edges are those of the edges that join two nodes. -/
theorem exists_drawn_iff {number : Nat} : (∃ e ∈ (Layout.of chart).edges, e.number = number) ↔
    ∃ (i : Nat) (edge : Edge), chart.edges[i]? = some edge ∧ chart.joins edge = true ∧
      number = i + 1 := by
  -- Edges are numbered before those are left out that do not join two nodes.
  have drawn (edge : Edge) :
      (∃ e ∈ (Layout.of chart).edges, (e.edge, e.number) = (edge, number)) ↔
        1 ≤ number ∧ chart.edges[number - 1]? = some edge ∧ chart.joins edge = true := by
    rw [← List.mem_map (f := fun e : PlacedEdge => (e.edge, e.number)),
      (places_of chart).numbered, List.mem_filter, List.mk_mem_zipIdx_iff_le_and_getElem?_sub,
      and_assoc]
  constructor
  · rintro ⟨e, member, rfl⟩
    obtain ⟨counted, is_edge, joined⟩ := (drawn e.edge).1 ⟨e, member, rfl⟩
    exact ⟨e.number - 1, e.edge, is_edge, joined, by omega⟩
  · rintro ⟨i, edge, is_edge, joined, rfl⟩
    obtain ⟨e, member, same⟩ := (drawn edge).2 ⟨Nat.le_add_left 1 i, is_edge, joined⟩
    exact ⟨e, member, congrArg Prod.snd same⟩

end Layout

open Layout

/-! ## Drawings of flowcharts -/

/-- **The highlighter finds every node** of a flowchart in its markup, if the node has an id. -/
theorem hasNode_render {chart : Flowchart} {node : Node} (member : node ∈ chart.nodes)
    (named : node.id ≠ []) : hasNode chart.render node.id = true := by
  rw [← map_node_of chart] at member
  obtain ⟨p, placed, rfl⟩ := List.mem_map.1 member
  have begins : nodeTag p.node.id <:+: nodeMarkup p := by
    rw [nodeMarkup_eq]
    exact (List.prefix_append _ _).isInfix
  have drawn : nodeMarkup p <:+: chart.render := by
    have nodes : nodeMarkup p <:+: (Layout.of chart).nodes.flatMap nodeMarkup :=
      List.infix_of_mem_flatten (List.mem_map_of_mem placed)
    rw [Flowchart.render, markup]
    exact nodes.trans ((List.prefix_append _ _).isInfix.trans
      ((List.suffix_append _ _).trans (List.suffix_append _ _)).isInfix)
  rw [hasNode, Text.includes_iff_infix.2 (begins.trans drawn)]
  simpa using named

/-- A tag stands in the markup of a flowchart exactly when it is that of a node or of an edge that
joins two nodes. -/
theorem nodeTag_infix_render_iff {chart : Flowchart} {id : Text}
    (plain : ∀ node ∈ chart.nodes, ('<' : UInt8) ∉ node.fill) :
    nodeTag id <:+: chart.render ↔ chart.has id = true ∨
      ∃ (i : Nat) (edge : Edge), chart.edges[i]? = some edge ∧ chart.joins edge = true ∧
        id = "edge" ++ Text.ofNat (i + 1) := by
  have plain' : ∀ p ∈ (Layout.of chart).nodes, ('<' : UInt8) ∉ p.node.fill := fun p member =>
    plain p.node (map_node_of chart ▸ List.mem_map_of_mem member)
  have nodes : (∃ p ∈ (Layout.of chart).nodes, id = p.node.id) ↔ chart.has id = true := by
    rw [Flowchart.has, ← map_node_of chart, List.any_map, List.any_eq_true]
    simp only [Function.comp_apply, beq_iff_eq, @eq_comm _ id]
  have edges : (∃ e ∈ (Layout.of chart).edges, id = edgeId e.number) ↔
      ∃ (i : Nat) (edge : Edge), chart.edges[i]? = some edge ∧ chart.joins edge = true ∧
        id = "edge" ++ Text.ofNat (i + 1) := by
    constructor
    · rintro ⟨e, member, rfl⟩
      obtain ⟨i, edge, is_edge, joined, number⟩ := exists_drawn_iff.1 ⟨e, member, rfl⟩
      exact ⟨i, edge, is_edge, joined, by rw [edgeId, number]⟩
    · rintro ⟨i, edge, is_edge, joined, rfl⟩
      obtain ⟨e, member, number⟩ := exists_drawn_iff.2 ⟨i, edge, is_edge, joined, rfl⟩
      exact ⟨e, member, by rw [edgeId, number]⟩
  rw [Flowchart.render, nodeTag_infix_markup plain', nodes, edges, or_comm]

/-- **The renderer and the highlighter agree.** Unless a colour has markup in it, the highlighter
finds just the ids of the nodes and the groups of the edges that join two nodes, whatever the
labels and the ids are. -/
theorem hasNode_render_iff {chart : Flowchart}
    (plain : ∀ node ∈ chart.nodes, ('<' : UInt8) ∉ node.fill) {id : Text} (named : id ≠ []) :
    hasNode chart.render id = true ↔ chart.has id = true ∨
      ∃ (i : Nat) (edge : Edge), chart.edges[i]? = some edge ∧ chart.joins edge = true ∧
        id = "edge" ++ Text.ofNat (i + 1) := by
  rw [hasNode, Bool.and_eq_true, Text.includes_iff_infix, nodeTag_infix_render_iff plain]
  exact and_iff_right (by simpa using named)

/-- An id that looks like the end of a tag and the beginning of another one. -/
def forgedId : Text := "b\"><g id=\"ghost\""

/-- A flowchart with markup in its texts: in the label of a node and in the id of another one. Its
first edge leads nowhere. -/
def forgedChart : Flowchart :=
  let labelled := Flowchart.empty.addNode ⟨"a", "<g id=\"ghost\" class=\"node\">", .oval, "red", 1⟩
  ((labelled.addNode ⟨forgedId, "", .diamond, "", 2⟩).addEdge "a" "ghost").addEdge "a" forgedId

/-- The forged node is not found, nor is the edge that leads nowhere; the other ones are. -/
theorem forged_not_found : (∀ node ∈ forgedChart.nodes, ('<' : UInt8) ∉ node.fill) ∧
    hasNode forgedChart.render "ghost" = false ∧ hasNode forgedChart.render "edge1" = false ∧
      hasNode forgedChart.render forgedId = true ∧
      hasNode forgedChart.render "edge2" = true := by
  have plain : ∀ node ∈ forgedChart.nodes, ('<' : UInt8) ∉ node.fill := by decide
  refine ⟨plain, ?ghost, ?nowhere, (hasNode_render_iff plain (by decide)).2 (.inl (by decide)),
    (hasNode_render_iff plain (by decide)).2 (.inr ⟨1, ⟨"a", forgedId⟩, ?_⟩)⟩
  case ghost =>
    refine Bool.eq_false_iff.2 fun found => ?_
    rcases (hasNode_render_iff plain (by decide)).1 found with present | ⟨i, edge, -, -, same⟩
    · exact absurd present (by decide)
    · cases congrArg List.head? same
  case nowhere =>
    refine Bool.eq_false_iff.2 fun found => ?_
    rcases (hasNode_render_iff plain (by decide)).1 found with
      present | ⟨i, edge, first, joined, same⟩
    · exact absurd present (by decide)
    · have numbered : "edge" ++ Text.ofNat 1 = "edge" ++ Text.ofNat (i + 1) := same
      have number : Text.ofNat 1 = Text.ofNat (i + 1) := List.append_cancel_left numbered
      obtain rfl : i = 0 := (Nat.succ.inj (Text.ofNat_injective number)).symm
      cases Option.some.inj first
      exact absurd joined (by decide)
  exact ⟨by decide, by decide, by decide⟩

end FlowTrace
