import FlowTrace.Proofs.Python.Course
import FlowTrace.Proofs.Python.Suites
import FlowTrace.Proofs.Traversal

/-! # The order of Python statements

Two traversals of a module go through its statements: the walk, and the flow with its steps. The
suites of a statement stand one behind the other in the source, but an alternative and the handlers
of an attempt may stand in either order. The walk takes the alternative first, the flow the
handlers, so each goes back in the source exactly where the other order is the right one
(`traversals_in_order_iff`). -/

namespace FlowTrace.Python

namespace Statement

/-! ## Each statement once -/

mutual
/-- A walk over a tree visits its root, and what is below it in preorder. -/
theorem preorder_walk : ∀ (s : Statement) (depth : Nat), ∃ below,
    (s.walk depth).map Prod.fst = s :: below ∧ InPreorder children s.children below
  | ⟨line, head, form, body, orelse, handlers⟩, depth => by
    rw [walk]
    simp only [List.map_cons, List.map_append]
    refine ⟨_, rfl, ?_⟩
    rw [children, List.append_assoc]
    exact (preorder_walkAll body _).append
      ((preorder_walkAll orelse _).append (preorder_walkAll handlers _))

/-- A walk goes through the statements in preorder. -/
theorem preorder_walkAll : ∀ (suite : List Statement) (depth : Nat),
    InPreorder children suite ((walkAll depth suite).map Prod.fst)
  | [], depth => by
    rw [walkAll, List.map_nil]
    exact .nil
  | s :: rest, depth => by
    obtain ⟨below, visited, inside⟩ := preorder_walk s depth
    rw [walkAll, List.map_append, visited]
    exact .cons inside (preorder_walkAll rest depth)
end

/-! ## The order of the walk -/

/-- The alternative of a statement stands in front of its handlers. -/
def AlternativeFirst (s : Statement) : Prop := ∀ o ∈ s.orelse, ∀ h ∈ s.handlers, o.line ≤ h.line

/-- What stands in front of something else by its first line does so as a whole, if the two stand
apart. -/
theorem precedes_of_line_le {s s' : Statement} (apart : WellBefore s s' ∨ WellBefore s' s)
    (le : s.line ≤ s'.line) : Precedes s s' := by
  rcases apart with before | behind
  · exact fun e member e' member' => Nat.le_of_lt (before e member e' member')
  · have := behind _ (entry_mem s') _ (entry_mem s)
    simp only at this
    omega

mutual
/-- The entries of a tree are in the order of their lines when alternatives come first
throughout. -/
theorem sorted_entries : ∀ (s : Statement) (depth : Nat), s.InOrder →
    (s.entries.Pairwise (·.1 ≤ ·.1) ↔ ∀ visited ∈ s.walk depth, visited.1.AlternativeFirst)
  | ⟨line, head, form, body, orelse, handlers⟩, depth,
      .mk header body_first rows apart _ in_body in_orelse in_handlers => by
    have of_body := sorted_entriesAll body
      (if Statement.isLoop ⟨line, head, form, body, orelse, handlers⟩ then depth + 1 else depth)
      ⟨rows.1, in_body⟩
    have of_orelse := sorted_entriesAll orelse depth ⟨rows.2.1, in_orelse⟩
    have of_handlers := sorted_entriesAll handlers depth ⟨rows.2.2, in_handlers⟩
    -- Only the alternative and the handlers may be out of order, and their first lines tell.
    have here : (∀ e ∈ entriesAll orelse, ∀ e' ∈ entriesAll handlers, e.1 ≤ e'.1) ↔
        AlternativeFirst ⟨line, head, form, body, orelse, handlers⟩ := by
      constructor
      · intro before o is_orelse h is_handler
        exact before _ (mem_entriesAll.2 ⟨o, is_orelse, entry_mem o⟩) _
          (mem_entriesAll.2 ⟨h, is_handler, entry_mem h⟩)
      · intro first e member e' member'
        obtain ⟨o, is_orelse, inside⟩ := mem_entriesAll.1 member
        obtain ⟨h, is_handler, inside'⟩ := mem_entriesAll.1 member'
        exact precedes_of_line_le (apart h is_handler o is_orelse).symm
          (first o is_orelse h is_handler) e inside e' inside'
    rw [entries_mk, walk, List.pairwise_cons, List.pairwise_append, List.pairwise_append, of_body,
      of_orelse, of_handlers, here]
    simp only [List.forall_mem_cons, List.forall_mem_append]
    constructor
    · rintro ⟨-, in_body, ⟨in_orelse, in_handlers, first⟩, -⟩
      exact ⟨first, in_body, in_orelse, in_handlers⟩
    · rintro ⟨first, in_body, in_orelse, in_handlers⟩
      exact ⟨List.forall_mem_append.1 header |>.imp_right List.forall_mem_append.1, in_body,
        ⟨in_orelse, in_handlers, first⟩,
        fun e member => List.forall_mem_append.1 (body_first e member)⟩

/-- A walk goes by the lines exactly when every alternative stands in front of the handlers. -/
theorem sorted_entriesAll : ∀ (suite : List Statement) (depth : Nat), SuiteInOrder suite →
    ((entriesAll suite).Pairwise (·.1 ≤ ·.1) ↔
      ∀ visited ∈ walkAll depth suite, visited.1.AlternativeFirst)
  | [], depth, _ => by simp [walkAll]
  | s :: rest, depth, ⟨row, inside⟩ => by
    rw [List.pairwise_cons] at row
    rw [List.forall_mem_cons] at inside
    have before : ∀ e ∈ s.entries, ∀ e' ∈ entriesAll rest, e.1 ≤ e'.1 := by
      intro e member e' member'
      obtain ⟨s', among, inside'⟩ := mem_entriesAll.1 member'
      exact row.1 s' among e member e' inside'
    rw [entriesAll_cons, walkAll, List.pairwise_append, List.forall_mem_append,
      sorted_entries s depth inside.1, sorted_entriesAll rest depth ⟨row.2, inside.2⟩]
    exact ⟨fun sorted => ⟨sorted.1, sorted.2.1⟩, fun sorted => ⟨sorted.1, sorted.2, before⟩⟩
end

/-! ## The lines of steps -/

mutual
/-- The lines of the steps of a statement, in the order of the flow. -/
def drawnLines : Statement → List Nat
  | ⟨line, head, form, body, orelse, handlers⟩ =>
    match form with
    | .func _ _ => line :: drawnLinesAll body
    | .classDef _ | .block => drawnLinesAll body
    | .attempt => drawnLinesAll body ++ (drawnLinesHandlers handlers ++ drawnLinesAll orelse)
    | .forLoop _ _ | .whileLoop _ => line :: (drawnLinesAll body ++ drawnLinesAll orelse)
    | .branch _ _ _ =>
      line :: (drawnLinesAll body ++ ((orelse.head?.map (·.line)).toList ++ drawnLinesAll orelse))
    | form => if (leafNode? (.leaf line head form)).isSome then [line] else []

/-- The lines of the steps of a suite, in the order of the flow. -/
def drawnLinesAll : List Statement → List Nat
  | [] => []
  | s :: rest => s.drawnLines ++ drawnLinesAll rest

/-- The lines of the steps in the suites of handlers, in the order of the flow. -/
def drawnLinesHandlers : List Statement → List Nat
  | [] => []
  | ⟨_, _, _, body, _, _⟩ :: rest => drawnLinesAll body ++ drawnLinesHandlers rest
end

/-- Nothing in a suite stands in front of its first statement. -/
theorem le_of_head? {suite : List Statement} (ordered : SuiteInOrder suite) {n : Nat}
    (member : n ∈ (suite.head?.map (·.line)).toList) : ∀ e ∈ entriesAll suite, n ≤ e.1 := by
  cases suite with
  | nil => simp
  | cons first rest =>
    have same : n = first.line := by simpa using member
    obtain ⟨row, inside⟩ := ordered
    rw [List.pairwise_cons] at row
    rw [same, entriesAll_cons]
    refine List.forall_mem_append.2 ⟨fun e here => ?_, fun e later => ?_⟩
    · cases inside first List.mem_cons_self with
      | mk header =>
        rw [entries_mk, List.mem_cons] at here
        rcases here with rfl | below
        · exact Nat.le_refl _
        · exact header e below
    · obtain ⟨s, among, inside⟩ := mem_entriesAll.1 later
      exact row.1 s among _ (entry_mem first) e inside

/-- The line of the node between a conditional and its alternative is that of the alternative. -/
theorem mem_of_head? {suite : List Statement} {n : Nat}
    (member : n ∈ (suite.head?.map (·.line)).toList) : n ∈ (entriesAll suite).map Prod.fst := by
  cases suite with
  | nil => simp at member
  | cons first rest =>
    have same : n = first.line := by simpa using member
    rw [same, entriesAll_cons, List.map_append]
    exact List.mem_append_left _ (List.mem_map_of_mem (f := Prod.fst) (entry_mem first))

mutual
/-- A tree draws only lines of its entries. -/
theorem drawnLines_subset : ∀ s : Statement, s.drawnLines ⊆ s.entries.map Prod.fst
  | ⟨line, head, form, body, orelse, handlers⟩ => by
    have of_body := drawnLinesAll_subset body
    have of_orelse := drawnLinesAll_subset orelse
    have of_handlers := drawnLinesHandlers_subset handlers
    intro n member
    simp only [entries_mk, List.map_cons, List.map_append, List.mem_cons, List.mem_append]
    cases form <;> simp only [drawnLines, List.mem_cons, List.mem_append] at member
    case func name params => exact member.imp id fun inside => .inl (of_body inside)
    case classDef name => exact .inr (.inl (of_body member))
    case block => exact .inr (.inl (of_body member))
    case attempt =>
      rcases member with inside | inside | inside
      · exact .inr (.inl (of_body inside))
      · exact .inr (.inr (.inr (of_handlers inside)))
      · exact .inr (.inr (.inl (of_orelse inside)))
    case branch condition isElif hasElse =>
      rcases member with same | inside | inside | inside
      · exact .inl same
      · exact .inr (.inl (of_body inside))
      · exact .inr (.inr (.inl (mem_of_head? inside)))
      · exact .inr (.inr (.inl (of_orelse inside)))
    case forLoop target iterable =>
      rcases member with same | inside | inside
      · exact .inl same
      · exact .inr (.inl (of_body inside))
      · exact .inr (.inr (.inl (of_orelse inside)))
    case whileLoop condition =>
      rcases member with same | inside | inside
      · exact .inl same
      · exact .inr (.inl (of_body inside))
      · exact .inr (.inr (.inl (of_orelse inside)))
    -- What is left are simple statements, drawn in their own line or not at all.
    all_goals
      split at member
      · exact .inl (List.mem_singleton.1 member)
      · cases member

/-- Steps are on the lines of the statements they belong to. -/
theorem drawnLinesAll_subset : ∀ suite : List Statement,
    drawnLinesAll suite ⊆ (entriesAll suite).map Prod.fst
  | [] => by simp [drawnLinesAll]
  | s :: rest => by
    rw [drawnLinesAll, entriesAll_cons, List.map_append]
    exact List.append_subset.2 ⟨fun _ member => List.mem_append_left _ (drawnLines_subset s member),
      fun _ member => List.mem_append_right _ (drawnLinesAll_subset rest member)⟩

/-- Handlers draw only lines of their entries. -/
theorem drawnLinesHandlers_subset : ∀ handlers : List Statement,
    drawnLinesHandlers handlers ⊆ (entriesAll handlers).map Prod.fst
  | [] => by simp [drawnLinesHandlers]
  | ⟨line, head, form, body, orelse, handlers⟩ :: rest => by
    have of_body := drawnLinesAll_subset body
    have of_rest := drawnLinesHandlers_subset rest
    intro n member
    rw [drawnLinesHandlers, List.mem_append] at member
    simp only [entriesAll_cons, entries_mk, List.map_cons, List.map_append, List.mem_cons,
      List.mem_append]
    rcases member with inside | later
    · exact .inl (.inr (.inl (of_body inside)))
    · exact .inr (of_rest later)
end

mutual
/-- A tree that draws no lines draws nothing. -/
theorem drawnLines_eq_nil_iff : ∀ s : Statement, s.drawnLines = [] ↔ draws s = false
  | ⟨line, head, form, body, orelse, handlers⟩ => by
    have of_body := drawnLinesAll_eq_nil_iff body
    have of_orelse := drawnLinesAll_eq_nil_iff orelse
    have of_handlers := drawnLinesHandlers_eq_nil_iff handlers
    cases form <;>
      simp [drawnLines, draws, of_body, of_orelse, of_handlers, and_assoc]

/-- A suite has steps when it has nodes. -/
theorem drawnLinesAll_eq_nil_iff : ∀ suite : List Statement,
    drawnLinesAll suite = [] ↔ drawsAny suite = false
  | [] => by simp [drawnLinesAll, drawsAny]
  | s :: rest => by
    simp [drawnLinesAll, drawsAny, drawnLines_eq_nil_iff s, drawnLinesAll_eq_nil_iff rest]

/-- Handlers that draw no lines draw nothing. -/
theorem drawnLinesHandlers_eq_nil_iff : ∀ handlers : List Statement,
    drawnLinesHandlers handlers = [] ↔ drawsHandlers handlers = false
  | [] => by simp [drawnLinesHandlers, drawsHandlers]
  | ⟨line, head, form, body, orelse, handlers⟩ :: rest => by
    simp [drawnLinesHandlers, drawsHandlers, drawnLinesAll_eq_nil_iff body,
      drawnLinesHandlers_eq_nil_iff rest]
end

/-! ## The order of the flow -/

/-- The handlers of a statement stand in front of its alternative, as far as they are drawn. -/
def HandlersFirst (s : Statement) : Prop :=
  ∀ h ∈ s.handlers, drawsAny h.body = true → ∀ o ∈ s.orelse, draws o = true → h.line ≤ o.line

/-- The lines that a suite draws are those that its statements draw. -/
theorem mem_drawnLinesAll {suite : List Statement} {n : Nat} :
    n ∈ drawnLinesAll suite ↔ ∃ s ∈ suite, n ∈ s.drawnLines := by
  induction suite with
  | nil => simp [drawnLinesAll]
  | cons s rest ih => simp [drawnLinesAll, ih]

/-- The lines that handlers draw are those that their suites draw. -/
theorem mem_drawnLinesHandlers {handlers : List Statement} {n : Nat} :
    n ∈ drawnLinesHandlers handlers ↔ ∃ h ∈ handlers, n ∈ drawnLinesAll h.body := by
  induction handlers with
  | nil => simp [drawnLinesHandlers]
  | cons h rest ih =>
    obtain ⟨line, head, form, body, orelse, handlers⟩ := h
    simp [drawnLinesHandlers, ih]

/-- A line that is drawn is that of an entry. -/
theorem exists_entry_of_drawnLines {s : Statement} {n : Nat} (member : n ∈ s.drawnLines) :
    ∃ e ∈ s.entries, e.1 = n := List.mem_map.1 (drawnLines_subset s member)

/-- The steps in the suite of a handler are on its lines. -/
theorem exists_entry_of_body {h : Statement} {n : Nat} (member : n ∈ drawnLinesAll h.body) :
    ∃ e ∈ h.entries, e.1 = n := by
  obtain ⟨line, head, form, body, orelse, handlers⟩ := h
  obtain ⟨e, inside, same⟩ := List.mem_map.1 (drawnLinesAll_subset body member)
  rw [entries_mk]
  exact ⟨e, List.mem_cons_of_mem _ (List.mem_append_left _ inside), same⟩

/-- What is drawn has a step. -/
theorem drawn_iff {lines : List Nat} {drawn : Bool} (none : lines = [] ↔ drawn = false) :
    drawn = true ↔ ∃ n, n ∈ lines := by
  rw [← Bool.not_eq_false, ← none]
  exact ⟨List.exists_mem_of_ne_nil lines, fun ⟨_, member⟩ => List.ne_nil_of_mem member⟩

/-- The steps of the handlers are in front of those of the alternative exactly when the handlers
that are drawn stand in front of it. -/
theorem handlersFirst_iff {s : Statement}
    (apart : ∀ h ∈ s.handlers, ∀ o ∈ s.orelse, WellBefore h o ∨ WellBefore o h) :
    (∀ n ∈ drawnLinesHandlers s.handlers, ∀ n' ∈ drawnLinesAll s.orelse, n ≤ n') ↔
      s.HandlersFirst := by
  constructor
  · intro before h is_handler drawn o is_orelse drawn'
    obtain ⟨n, member⟩ := (drawn_iff (drawnLinesAll_eq_nil_iff h.body)).1 drawn
    obtain ⟨n', member'⟩ := (drawn_iff (drawnLines_eq_nil_iff o)).1 drawn'
    have le := before n (mem_drawnLinesHandlers.2 ⟨h, is_handler, member⟩) n'
      (mem_drawnLinesAll.2 ⟨o, is_orelse, member'⟩)
    obtain ⟨e, inside, rfl⟩ := exists_entry_of_body member
    obtain ⟨e', inside', rfl⟩ := exists_entry_of_drawnLines member'
    -- the two stand apart, and two of their steps tell in which order
    rcases apart h is_handler o is_orelse with first | second
    · exact Nat.le_of_lt (first _ (entry_mem h) _ (entry_mem o))
    · have := second e' inside' e inside
      omega
  · intro first n member n' member'
    obtain ⟨h, is_handler, member⟩ := mem_drawnLinesHandlers.1 member
    obtain ⟨o, is_orelse, member'⟩ := mem_drawnLinesAll.1 member'
    have drawn : drawsAny h.body = true :=
      (drawn_iff (drawnLinesAll_eq_nil_iff h.body)).2 ⟨n, member⟩
    have drawn' : draws o = true := (drawn_iff (drawnLines_eq_nil_iff o)).2 ⟨n', member'⟩
    obtain ⟨e, inside, rfl⟩ := exists_entry_of_body member
    obtain ⟨e', inside', rfl⟩ := exists_entry_of_drawnLines member'
    exact precedes_of_line_le (apart h is_handler o is_orelse)
      (first h is_handler drawn o is_orelse drawn') e inside e' inside'

/-- What stands behind some entries stands behind the steps on their lines. -/
theorem le_of_subset {lines : List Nat} {entries : List (Nat × Text)} {n : Nat}
    (inside : lines ⊆ entries.map Prod.fst) (behind : ∀ e ∈ entries, n ≤ e.1) :
    ∀ n' ∈ lines, n ≤ n' := by
  intro n' member
  obtain ⟨e, among, rfl⟩ := List.mem_map.1 (inside member)
  exact behind e among

/-- Steps stand one behind the other when the entries on their lines do. -/
theorem le_of_subsets {lines lines' : List Nat} {entries entries' : List (Nat × Text)}
    (inside : lines ⊆ entries.map Prod.fst) (inside' : lines' ⊆ entries'.map Prod.fst)
    (before : ∀ e ∈ entries, ∀ e' ∈ entries', e.1 ≤ e'.1) : ∀ n ∈ lines, ∀ n' ∈ lines', n ≤ n' := by
  intro n member
  obtain ⟨e, among, rfl⟩ := List.mem_map.1 (inside member)
  exact le_of_subset inside' (before e among)

variable {line : Nat} {head : Text} {body orelse handlers : List Statement}

/-- An attempt draws its handlers in front of its alternative. -/
theorem pairwise_drawnLines_attempt
    (ordered : InOrder ⟨line, head, .attempt, body, orelse, handlers⟩) :
    (drawnLines ⟨line, head, .attempt, body, orelse, handlers⟩).Pairwise (· ≤ ·) ↔
      HandlersFirst ⟨line, head, .attempt, body, orelse, handlers⟩ ∧
        (drawnLinesAll body).Pairwise (· ≤ ·) ∧ (drawnLinesAll orelse).Pairwise (· ≤ ·) ∧
        (drawnLinesHandlers handlers).Pairwise (· ≤ ·) := by
  cases ordered with
  | mk header body_first rows apart shape in_body in_orelse in_handlers =>
    have cross := handlersFirst_iff (s := ⟨line, head, .attempt, body, orelse, handlers⟩) apart
    have behind : ∀ n ∈ drawnLinesAll body,
        ∀ n' ∈ drawnLinesHandlers handlers ++ drawnLinesAll orelse, n ≤ n' := by
      refine le_of_subsets (drawnLinesAll_subset body) ?_ body_first
      rw [List.map_append]
      apply List.append_subset.2
      exact ⟨fun _ member => List.mem_append_right _ (drawnLinesHandlers_subset handlers member),
        fun _ member => List.mem_append_left _ (drawnLinesAll_subset orelse member)⟩
    rw [drawnLines, List.pairwise_append, List.pairwise_append, ← cross]
    constructor
    · rintro ⟨body_sorted, ⟨handlers_sorted, orelse_sorted, before⟩, -⟩
      exact ⟨before, body_sorted, orelse_sorted, handlers_sorted⟩
    · rintro ⟨before, body_sorted, orelse_sorted, handlers_sorted⟩
      exact ⟨body_sorted, ⟨handlers_sorted, orelse_sorted, before⟩, behind⟩

/-- Without handlers the steps are in order when those of the suites are. -/
theorem pairwise_drawnLines_plain {form : Form}
    (ordered : InOrder ⟨line, head, form, body, orelse, []⟩) :
    (drawnLines ⟨line, head, form, body, orelse, []⟩).Pairwise (· ≤ ·) ↔
      (drawnLinesAll body).Pairwise (· ≤ ·) ∧ (drawnLinesAll orelse).Pairwise (· ≤ ·) := by
  cases ordered with
  | mk header body_first rows apart shape in_body in_orelse in_handlers =>
    simp only [List.forall_mem_append] at header body_first
    have of_body := drawnLinesAll_subset body
    have of_orelse := drawnLinesAll_subset orelse
    have after_body := le_of_subset of_body header.1
    have after_orelse := le_of_subset of_orelse header.2.1
    have between := le_of_subsets of_body of_orelse fun e member => (body_first e member).1
    have no_orelse (takes : form.takesElse = false) : orelse = [] := by
      by_contra filled
      rw [shape.alternative filled] at takes
      cases takes
    cases form
    case attempt =>
      rw [drawnLines, drawnLinesHandlers, List.nil_append, List.pairwise_append]
      exact ⟨fun sorted => ⟨sorted.1, sorted.2.1⟩, fun sorted => ⟨sorted.1, sorted.2, between⟩⟩
    case func name params =>
      rw [drawnLines, no_orelse rfl, drawnLinesAll, List.pairwise_cons]
      exact ⟨fun sorted => ⟨sorted.2, .nil⟩, fun sorted => ⟨after_body, sorted.1⟩⟩
    case classDef name =>
      rw [drawnLines, no_orelse rfl]
      simp [drawnLinesAll]
    case block =>
      rw [drawnLines, no_orelse rfl]
      simp [drawnLinesAll]
    case forLoop target iterable =>
      rw [drawnLines, List.pairwise_cons, List.pairwise_append, List.forall_mem_append]
      exact ⟨fun sorted => ⟨sorted.2.1, sorted.2.2.1⟩,
        fun sorted => ⟨⟨after_body, after_orelse⟩, sorted.1, sorted.2, between⟩⟩
    case whileLoop condition =>
      rw [drawnLines, List.pairwise_cons, List.pairwise_append, List.forall_mem_append]
      exact ⟨fun sorted => ⟨sorted.2.1, sorted.2.2.1⟩,
        fun sorted => ⟨⟨after_body, after_orelse⟩, sorted.1, sorted.2, between⟩⟩
    case branch condition isElif hasElse =>
      -- the node in front of the alternative is on the first of its lines
      have of_head : (orelse.head?.map (·.line)).toList ⊆ (entriesAll orelse).map Prod.fst :=
        fun _ member => mem_of_head? member
      have after_else := le_of_subset of_head header.2.1
      have body_else := le_of_subsets of_body of_head fun e member => (body_first e member).1
      have else_first : ∀ n ∈ (orelse.head?.map (·.line)).toList, ∀ n' ∈ drawnLinesAll orelse,
          n ≤ n' := fun n member =>
        le_of_subset of_orelse (le_of_head? ⟨rows.2.1, in_orelse⟩ member)
      have else_sorted : (orelse.head?.map (·.line)).toList.Pairwise (· ≤ ·) := by
        cases orelse.head? <;> simp
      rw [drawnLines, List.pairwise_cons, List.pairwise_append, List.pairwise_append,
        List.forall_mem_append, List.forall_mem_append]
      exact ⟨fun sorted => ⟨sorted.2.1, sorted.2.2.1.2.1⟩, fun sorted =>
        ⟨⟨after_body, after_else, after_orelse⟩, sorted.1, ⟨else_sorted, sorted.2, else_first⟩,
          fun n member => List.forall_mem_append.2 ⟨body_else n member, between n member⟩⟩⟩
    all_goals
      -- a simple statement has no suite and at most one step
      rw [no_orelse rfl, shape.simple rfl]
      simp only [drawnLines, drawnLinesAll, List.Pairwise.nil, and_self, iff_true]
      split <;> simp

/-- **The steps of one statement** are in order when its handlers stand in front of its alternative
and the steps of each of its suites are in order. -/
theorem pairwise_drawnLines {form : Form}
    (ordered : InOrder ⟨line, head, form, body, orelse, handlers⟩) :
    (drawnLines ⟨line, head, form, body, orelse, handlers⟩).Pairwise (· ≤ ·) ↔
      HandlersFirst ⟨line, head, form, body, orelse, handlers⟩ ∧
        (drawnLinesAll body).Pairwise (· ≤ ·) ∧ (drawnLinesAll orelse).Pairwise (· ≤ ·) ∧
        (drawnLinesHandlers handlers).Pairwise (· ≤ ·) := by
  by_cases filled : handlers = []
  · subst filled
    have first : HandlersFirst ⟨line, head, form, body, orelse, []⟩ := by simp [HandlersFirst]
    rw [pairwise_drawnLines_plain ordered]
    simp only [first, drawnLinesHandlers, List.Pairwise.nil, true_and, and_true]
  · cases ordered with
    | mk header body_first rows apart shape in_body in_orelse in_handlers =>
      obtain rfl := shape.attempt filled
      exact pairwise_drawnLines_attempt
        (.mk header body_first rows apart shape in_body in_orelse in_handlers)

mutual
/-- The lines that a tree draws are in order when handlers come first throughout. -/
theorem sorted_drawnLines : ∀ (s : Statement) (depth : Nat), s.InOrder →
    (s.drawnLines.Pairwise (· ≤ ·) ↔ ∀ visited ∈ s.walk depth, visited.1.HandlersFirst)
  | ⟨line, head, form, body, orelse, handlers⟩, depth, ordered => by
    rw [pairwise_drawnLines ordered]
    cases ordered with
    | mk header body_first rows apart shape in_body in_orelse in_handlers =>
      rw [walk]
      simp only [List.forall_mem_cons, List.forall_mem_append]
      rw [sorted_drawnLinesAll body _ ⟨rows.1, in_body⟩,
        sorted_drawnLinesAll orelse depth ⟨rows.2.1, in_orelse⟩,
        sorted_drawnLinesHandlers handlers depth rows.2.2 in_handlers shape.plain]

/-- The lines that a suite draws are in order when handlers come first throughout. -/
theorem sorted_drawnLinesAll : ∀ (suite : List Statement) (depth : Nat), SuiteInOrder suite →
    ((drawnLinesAll suite).Pairwise (· ≤ ·) ↔
      ∀ visited ∈ walkAll depth suite, visited.1.HandlersFirst)
  | [], depth, _ => by simp [drawnLinesAll, walkAll]
  | s :: rest, depth, ⟨row, inside⟩ => by
    rw [List.pairwise_cons] at row
    rw [List.forall_mem_cons] at inside
    have before : ∀ n ∈ s.drawnLines, ∀ n' ∈ drawnLinesAll rest, n ≤ n' := by
      intro n member n' member'
      obtain ⟨s', among, member'⟩ := mem_drawnLinesAll.1 member'
      obtain ⟨e, inside, rfl⟩ := exists_entry_of_drawnLines member
      obtain ⟨e', inside', rfl⟩ := exists_entry_of_drawnLines member'
      exact row.1 s' among e inside e' inside'
    rw [drawnLinesAll, walkAll, List.pairwise_append, List.forall_mem_append,
      sorted_drawnLines s depth inside.1, sorted_drawnLinesAll rest depth ⟨row.2, inside.2⟩]
    exact ⟨fun sorted => ⟨sorted.1, sorted.2.1⟩, fun sorted => ⟨sorted.1, sorted.2, before⟩⟩

/-- The lines that handlers draw are in order when handlers come first throughout. -/
theorem sorted_drawnLinesHandlers : ∀ (handlers : List Statement) (depth : Nat),
    handlers.Pairwise Precedes → (∀ h ∈ handlers, h.InOrder) →
      (∀ h ∈ handlers, h.orelse = [] ∧ h.handlers = []) →
        ((drawnLinesHandlers handlers).Pairwise (· ≤ ·) ↔
          ∀ visited ∈ walkAll depth handlers, visited.1.HandlersFirst)
  | [], depth, _, _, _ => by simp [drawnLinesHandlers, walkAll]
  | ⟨line, head, form, body, orelse, handlers⟩ :: rest, depth, row, inside, plain => by
    rw [List.pairwise_cons] at row
    rw [List.forall_mem_cons] at inside plain
    obtain ⟨⟨no_orelse, no_handlers⟩, plain⟩ := plain
    simp only at no_orelse no_handlers
    subst no_orelse no_handlers
    cases inside.1 with
    | mk header body_first rows apart shape in_body in_orelse in_handlers =>
    have of_body := sorted_drawnLinesAll body
      (if Statement.isLoop ⟨line, head, form, body, [], []⟩ then depth + 1 else depth)
      ⟨rows.1, in_body⟩
    have of_rest := sorted_drawnLinesHandlers rest depth row.2 inside.2 plain
    have first : HandlersFirst ⟨line, head, form, body, [], []⟩ := by simp [HandlersFirst]
    -- Bodies of handlers stand in the order of the handlers, each in front of the next.
    have before : ∀ n ∈ drawnLinesAll body, ∀ n' ∈ drawnLinesHandlers rest, n ≤ n' := by
      intro n member n' member'
      obtain ⟨h, among, member'⟩ := mem_drawnLinesHandlers.1 member'
      obtain ⟨e, inside, rfl⟩ :=
        exists_entry_of_body (h := ⟨line, head, form, body, [], []⟩) member
      obtain ⟨e', inside', rfl⟩ := exists_entry_of_body member'
      exact row.1 h among e inside e' inside'
    rw [drawnLinesHandlers, walkAll, walk, List.pairwise_append, of_body, of_rest]
    simp only [List.forall_mem_append, List.forall_mem_cons, walkAll]
    constructor
    · rintro ⟨body_sorted, rest_sorted, -⟩
      exact ⟨⟨first, body_sorted, by simp⟩, rest_sorted⟩
    · rintro ⟨⟨-, body_sorted, -⟩, rest_sorted⟩
      exact ⟨body_sorted, rest_sorted, before⟩
end

end Statement

/-! ## The steps of the flow -/

open Statement

variable {flow : Flow} {lines : List Nat}

/-- A node of a simple statement is on its line. -/
theorem line_of_leafNode? {s : Statement} {stem : Text} {face : Face} {note : Note}
    (drawn : leafNode? s = some (stem, face, note)) : face.line = s.line := by
  rw [leafNode?] at drawn
  split at drawn
  · simp only at drawn
    split at drawn
    · cases drawn
    · cases drawn
      rfl
  · cases drawn
    rfl
  · cases drawn
    rfl
  · cases drawn
    rfl
  · cases drawn

mutual
/-- A visit to a statement draws its lines. -/
theorem lined_visit : ∀ (s : Statement) {flow : Flow} {parent : Text} {lines : List Nat},
    flow.Lined lines → (visit flow parent s).1.Lined (lines ++ s.drawnLines)
  | ⟨line, head, form, body, orelse, handlers⟩, flow, parent, lines, lined => by
    -- a node of the statement itself, and what is below it
    have below {rest : List Nat} : lines ++ line :: rest = lines ++ [line] ++ rest := by simp
    cases form
    case func name params =>
      rw [visit, drawnLines, below]
      exact lined_visitAll body lined.addNumbered
    case classDef name =>
      rw [visit, drawnLines]
      exact lined_visitAll body lined
    case block =>
      rw [visit, drawnLines]
      exact lined_visitAll body lined
    case attempt =>
      rw [visit, drawnLines, ← List.append_assoc, ← List.append_assoc]
      exact lined_visitAll orelse (lined_visitHandlers handlers (lined_visitAll body lined))
    case forLoop target iterable =>
      rw [visit, drawnLines, below, ← List.append_assoc]
      exact lined_visitAll orelse ((lined_visitAll body lined.addNumbered).closeLoop _ _)
    case whileLoop condition =>
      rw [visit, drawnLines, below, ← List.append_assoc]
      exact lined_visitAll orelse ((lined_visitAll body lined.addNumbered).closeLoop _ _)
    case branch condition isElif hasElse =>
      rw [visit, drawnLines, below, ← List.append_assoc]
      cases orelse with
      | nil =>
        -- no alternative, and no node in front of it
        simp only [drawnLinesAll, List.head?_nil, Option.map_none, Option.toList_none,
          List.append_nil]
        exact lined_visitAll body lined.addNumbered
      | cons first rest =>
        rw [← List.append_assoc]
        exact lined_visitAll (first :: rest) (lined_visitAll body lined.addNumbered).addNumbered
    all_goals
      -- simple statements
      simp only [visit, drawnLines]
      split
      · rename_i stem face note drawn
        have on_line : face.line = line := line_of_leafNode? drawn
        have node : (flow.addNumbered parent stem face note).1.Lined (lines ++ [face.line]) :=
          lined.addNumbered
        rw [on_line] at node
        rw [drawn]
        exact node
      · rename_i none
        simp only [none, Option.isSome_none, Bool.false_eq_true, if_false, List.append_nil]
        exact lined

/-- A visit to a suite draws its lines. -/
theorem lined_visitAll : ∀ (suite : List Statement) {flow : Flow} {parent : Text}
    {lines : List Nat}, flow.Lined lines →
      (visitAll flow parent suite).1.Lined (lines ++ drawnLinesAll suite)
  | [], flow, parent, lines, lined => by
    rw [visitAll, drawnLinesAll, List.append_nil]
    exact lined
  | s :: rest, flow, parent, lines, lined => by
    rw [visitAll, drawnLinesAll, ← List.append_assoc]
    exact lined_visitAll rest (lined_visit s lined)

/-- A visit to handlers draws their lines. -/
theorem lined_visitHandlers : ∀ (handlers : List Statement) {flow : Flow} {parent : Text}
    {lines : List Nat}, flow.Lined lines →
      (visitHandlers flow parent handlers).1.Lined (lines ++ drawnLinesHandlers handlers)
  | [], flow, parent, lines, lined => by
    rw [visitHandlers, drawnLinesHandlers, List.append_nil]
    exact lined
  | ⟨line, head, form, body, orelse, handlers⟩ :: rest, flow, parent, lines, lined => by
    rw [visitHandlers, drawnLinesHandlers, ← List.append_assoc]
    exact lined_visitHandlers rest (lined_visitAll body lined)
end

end FlowTrace.Python
