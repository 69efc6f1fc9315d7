import FlowTrace.Proofs.Python.Order

/-! # The listing of Python statements

The statements of a module wait in a queue. One leaves it in front while those below it join it
behind, whether it is listed itself or not; so they leave the queue level by level
(`Statement.levelwise_drain`), and a listing shows, of all statements, those of some kinds, in level
order and numbered (`Module.listing_in_level_order`). -/

namespace FlowTrace.Python

namespace Statement

/-- Once what waits in front has left the queue, all that is below it waits behind. -/
theorem drain_append (front behind : List Statement) :
    drain (front ++ behind) = front ++ drain (behind ++ front.flatMap children) := by
  induction front generalizing behind with
  | nil => simp
  | cons s front ih =>
    rw [List.cons_append, drain, List.append_assoc, ih, List.append_assoc, List.flatMap_cons,
      List.cons_append]

/-- There are fewer statements below a row than there are with it. -/
theorem sizeAll_flatMap_children (row : List Statement) :
    sizeAll (row.flatMap children) + row.length = sizeAll row := by
  induction row with
  | nil => rfl
  | cons s row ih =>
    rw [List.flatMap_cons, sizeAll_append, List.length_cons, sizeAll, size_eq]
    omega

/-- **Statements leave the queue level by level.** -/
theorem levelwise_drain (queue : List Statement) : Levelwise children queue (drain queue) := by
  -- by induction on the number of statements: the next level has fewer of them
  induction size : sizeAll queue using Nat.strong_induction_on generalizing queue with
  | h size ih =>
    cases queue with
    | nil =>
      rw [drain]
      exact .nil
    | cons s rest =>
      have fewer := sizeAll_flatMap_children (s :: rest)
      rw [List.length_cons] at fewer
      have row := drain_append (s :: rest) []
      rw [List.append_nil, List.nil_append] at row
      rw [row]
      exact .cons (ih _ (by omega) _ rfl)

end Statement

/-- The kinds of statements that are **listed**: definitions of functions, conditionals, loops,
assignments and expressions. -/
def Form.isListed : Form → Bool
  | .func _ _ | .branch _ _ _ | .forLoop _ _ | .whileLoop _ | .assign _ _ | .expr => true
  | _ => false

/-- A statement is listed when its form is. -/
theorem isSome_listed? (s : Statement) : (listed? s).isSome = s.form.isListed := by
  obtain ⟨line, head, form, body, orelse, handlers⟩ := s
  cases form <;> rfl

/-- A step **lists** a statement: it has its description, what it assigns, and its line. -/
def Lists (s : Statement) (step : Step) : Prop :=
  listed? s = some (step.description, step.bindings) ∧ step.line = some (s.line : Int)

/-- Of statements, those that are listed have a step each, in order. -/
theorem forall₂_lists (visited : List Statement) (number : Nat → Nat) :
    List.Forall₂ Lists (visited.filter (·.form.isListed))
      ((visited.filterMap fun s => (listed? s).map (s.line, ·)).mapIdx
        fun i (line, description, bindings) =>
          { nodeId := "node_" ++ Text.ofNat (number i), description, bindings,
            line := some line }) := by
  induction visited generalizing number with
  | nil => exact .nil
  | cons s visited ih =>
    rw [List.filter_cons, ← isSome_listed?]
    cases found : listed? s with
    | none =>
      rw [List.filterMap_cons_none (by rw [found]; rfl)]
      exact ih number
    | some row =>
      rw [List.filterMap_cons_some (by rw [found]; rfl), List.mapIdx_cons]
      exact .cons ⟨found, rfl⟩ (ih fun i => number (i + 1))

/-- **The listing of a module.** The queue brings every statement of the tree once, in level order.
Of these, each definition, conditional, loop, assignment and expression has its step, and nothing
else has one; the steps are numbered from one. They are the same statements that a walk comes to. -/
theorem Module.listing_in_level_order (m : Module) : ∃ visited,
    InLevelOrder Statement.children m.statements visited ∧
    List.Forall₂ Lists (visited.filter (·.form.isListed)) m.listing ∧
    m.listing.map (·.nodeId) =
      (List.range m.listing.length).map (fun i => "node_" ++ Text.ofNat (i + 1)) ∧
    (visited.filter (·.form.isListed)).Perm
      ((m.walk.map Prod.fst).filter (·.form.isListed)) := by
  have order := (Statement.levelwise_drain m.statements).inLevelOrder
  have walked : VisitsOnce Statement.children m.statements (m.walk.map Prod.fst) :=
    (Statement.preorder_walkAll m.statements 0).visitsOnce
  refine ⟨Statement.drain m.statements, order, forall₂_lists _ (· + 1), ?_,
    (order.visitsOnce.perm walked).filter _⟩
  refine List.ext_getElem (by simp) fun i _ _ => ?_
  simp [Module.listing]

end FlowTrace.Python
