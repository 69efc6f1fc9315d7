import FlowTrace.Proofs.Java.Course
import FlowTrace.Proofs.Java.Placing
import FlowTrace.Proofs.Traversal

/-! # Java programs are traversed line by line

The walk over a program takes its statements in the order in which they were read, each once, and the
flow draws them in this order. So neither goes back to an earlier line, and all lines are lines of the
source (`traversals_in_order`). -/

namespace FlowTrace.Java

open Statement (walkAll)

variable {line : Nat} {statements : List Statement} {s : Statement} {form : Form}

/-! ## Each statement once -/

mutual
/-- A walk goes over what is below a statement in preorder. -/
theorem preorder_children : ∀ s : Statement,
    InPreorder Statement.children s.children (walkAll s.children)
  | ⟨line, form, body, orelse, handlers⟩ => by
    rw [Statement.children, walkAll_append, walkAll_append]
    exact (preorder_walkAll body).append
      ((preorder_walkAll handlers).append (preorder_walkAll orelse))

/-- A walk goes through the statements in preorder. -/
theorem preorder_walkAll : ∀ statements : List Statement,
    InPreorder Statement.children statements (walkAll statements)
  | [] => .nil
  | s :: rest => by
    rw [walkAll, walk_eq]
    exact .cons (preorder_children s) (preorder_walkAll rest)
end

/-! ## The lines of steps -/

mutual
/-- The lines of the steps of a statement, in the order of the flow. -/
def drawnLines : Statement → List Nat
  | ⟨line, form, body, orelse, handlers⟩ =>
    match form with
    | .classDecl _ | .block => drawnLinesAll body
    | .method _ _ | .choice _ => line :: drawnLinesAll body
    | .locals declared => declared.map fun _ => line
    | .branch _ =>
      line :: (drawnLinesAll body ++ ((orelse.head?.map (·.line)).toList ++ drawnLinesAll orelse))
    | .attempt =>
      line :: (drawnLinesAll body ++ (drawnLinesHandlers handlers ++ drawnLinesAll orelse))
    | form =>
      if (loopNode? form).isSome then line :: drawnLinesAll body
      else if (leafNode? line form).isSome then [line] else []

/-- The lines of the steps of statements, in the order of the flow. -/
def drawnLinesAll : List Statement → List Nat
  | [] => []
  | s :: rest => drawnLines s ++ drawnLinesAll rest

/-- The lines of the steps of handlers, in the order of the flow. -/
def drawnLinesHandlers : List Statement → List Nat
  | [] => []
  | ⟨line, _, body, _, _⟩ :: rest => line :: drawnLinesAll body ++ drawnLinesHandlers rest
end

/-- The step of a statement comes before the steps below it. -/
theorem trails_node {lines : List Nat} (below : Trails lines (linesOf s.children)) :
    Trails (s.line :: lines) (linesOf [s]) := by
  rw [linesOf_cons, show linesOf [] = [] from rfl, List.append_nil]
  exact below.cons s.line

/-- A statement without a step of its own. -/
theorem trails_below {lines : List Nat} (below : Trails lines (linesOf s.children)) :
    Trails lines (linesOf [s]) := by
  rw [linesOf_cons, show linesOf [] = [] from rfl, List.append_nil]
  exact below.mono (List.sublist_cons_self _ _)

/-- What trails the lines of a body trails those of all that is below. -/
theorem trails_body {lines : List Nat} (body : Trails lines (linesOf s.body)) :
    Trails lines (linesOf s.children) := by
  rw [Statement.children, linesOf_append]
  exact body.mono (List.sublist_append_left _ _)

/-- All variables of a declaration are on its line. -/
theorem trails_locals (declared : List Variable) (line : Nat) (others : List Nat) :
    Trails (declared.map fun _ => line) (line :: others) := by
  induction declared with
  | nil => exact .nil _
  | cons v declared ih => exact ih.again

/-- The node in front of an alternative is on the line of its first statement. -/
theorem trails_head {lines : List Nat} (orelse : Trails lines (linesOf statements)) :
    Trails ((statements.head?.map (·.line)).toList ++ lines) (linesOf statements) := by
  cases statements with
  | nil => exact orelse
  | cons first rest =>
    rw [linesOf_cons] at orelse ⊢
    exact orelse.again

mutual
/-- The lines that a statement draws trail its lines. -/
theorem trails_drawnLines : ∀ s : Statement, Trails (drawnLines s) (linesOf [s])
  | ⟨line, form, body, orelse, handlers⟩ => by
    have of_body := trails_drawnLinesAll body
    have of_orelse := trails_drawnLinesAll orelse
    have of_handlers := trails_drawnLinesHandlers handlers
    have node (form : Form) : Trails (line :: drawnLinesAll body)
        (linesOf [⟨line, form, body, orelse, handlers⟩]) := trails_node (trails_body of_body)
    cases form
    case classDecl name => exact trails_below (trails_body of_body)
    case block => exact trails_below (trails_body of_body)
    case method name params => exact node _
    case choice subject => exact node _
    case locals declared =>
      rw [linesOf_cons]
      exact trails_locals declared line _
    case branch condition =>
      -- the handlers, of which a conditional has none, stand between the two suites
      refine trails_node ?_
      rw [Statement.children, linesOf_append, linesOf_append]
      exact of_body.append ((trails_head of_orelse).mono (List.sublist_append_right _ _))
    case attempt =>
      refine trails_node ?_
      rw [Statement.children, linesOf_append, linesOf_append]
      exact of_body.append (of_handlers.append of_orelse)
    all_goals
      simp only [drawnLines]
      split
      · exact node _
      · split
        · exact trails_node (.nil _)
        · exact .nil _

/-- The lines that statements draw trail their lines. -/
theorem trails_drawnLinesAll : ∀ statements : List Statement,
    Trails (drawnLinesAll statements) (linesOf statements)
  | [] => .nil _
  | s :: rest => by
    have row := linesOf_append [s] rest
    rw [List.singleton_append] at row
    rw [drawnLinesAll, row]
    exact (trails_drawnLines s).append (trails_drawnLinesAll rest)

/-- The lines that handlers draw trail their lines. -/
theorem trails_drawnLinesHandlers : ∀ handlers : List Statement,
    Trails (drawnLinesHandlers handlers) (linesOf handlers)
  | [] => .nil _
  | ⟨line, form, body, orelse, handlers⟩ :: rest => by
    have handler : Trails (line :: drawnLinesAll body)
        (linesOf [⟨line, form, body, orelse, handlers⟩]) :=
      trails_node (trails_body (trails_drawnLinesAll body))
    have row := linesOf_append [⟨line, form, body, orelse, handlers⟩] rest
    rw [List.singleton_append] at row
    rw [drawnLinesHandlers, row]
    exact handler.append (trails_drawnLinesHandlers rest)
end

mutual
/-- A statement has steps exactly if it draws something. -/
theorem drawnLines_eq_nil_iff : ∀ s : Statement, drawnLines s = [] ↔ draws s = false
  | ⟨line, form, body, orelse, handlers⟩ => by
    have of_body := drawnLinesAll_eq_nil_iff body
    cases form
    case classDecl name => exact of_body
    case block => exact of_body
    case locals declared =>
      rw [drawnLines, draws, List.map_eq_nil_iff]
      cases declared <;> simp
    all_goals
      simp only [drawnLines, draws, loopNode?, leafNode?]
      simp

/-- Statements that draw no lines draw nothing. -/
theorem drawnLinesAll_eq_nil_iff : ∀ statements : List Statement,
    drawnLinesAll statements = [] ↔ drawsAny statements = false
  | [] => by simp [drawnLinesAll, drawsAny]
  | s :: rest => by
    rw [drawnLinesAll, drawsAny, List.append_eq_nil_iff, Bool.or_eq_false_iff,
      drawnLines_eq_nil_iff s, drawnLinesAll_eq_nil_iff rest]
end

/-! ## The steps of the flow -/

variable {flow : Flow} {lines : List Nat} {parent : Text}

/-- One line, and the lines behind it. -/
theorem append_cons_eq (lines : List Nat) (line : Nat) (rest : List Nat) :
    lines ++ line :: rest = lines ++ [line] ++ rest := by
  rw [List.append_assoc, List.singleton_append]

/-- The nodes of declared variables are on the line of the declaration. -/
theorem lined_addLocals (line : Nat) : ∀ (declared : List Variable) {flow : Flow} {parent : Text}
    {lines : List Nat}, flow.Lined lines → (addLocals flow parent line declared).1.Lined
      (lines ++ declared.map fun _ => line)
  | [], _, _, _, lined => by
    rw [addLocals, List.map_nil, List.append_nil]
    exact lined
  | v :: rest, _, _, lines, lined => by
    rw [List.map_cons, append_cons_eq]
    exact lined_addLocals line rest lined.addNumbered

/-- A node of a simple statement is on its line. -/
theorem line_of_leafNode? {stem : Text} {face : Face} {note : Note}
    (drawn : leafNode? line form = some (stem, face, note)) : face.line = line := by
  cases form <;> cases drawn <;> rfl

/-- A loop has a node, and an edge leads back to it from what is below. -/
theorem lined_loop {last id : Text} {below : List Nat}
    (inside : flow.Lined (lines ++ [line] ++ below)) :
    (if last = id then flow else flow.link last id).Lined (lines ++ line :: below) := by
  rw [append_cons_eq]
  exact inside.closeLoop last id

/-- A simple statement has one node or none. -/
theorem lined_leaf (line : Nat) (form : Form) (lined : flow.Lined lines) :
    (match leafNode? line form with
      | some (stem, face, note) => flow.addNumbered parent stem face note
      | none => (flow, parent)).1.Lined
        (lines ++ if (leafNode? line form).isSome then [line] else []) := by
  cases drawn : leafNode? line form with
  | none => simpa using lined
  | some node =>
    obtain ⟨stem, face, note⟩ := node
    have on_line : face.line = line := line_of_leafNode? drawn
    have added : (flow.addNumbered parent stem face note).1.Lined (lines ++ [face.line]) :=
      lined.addNumbered
    rw [on_line] at added
    exact added

mutual
/-- A visit to a statement draws its lines. -/
theorem lined_visit : ∀ (s : Statement) {flow : Flow} {parent : Text} {lines : List Nat},
    flow.Lined lines → (visit flow parent s).1.Lined (lines ++ drawnLines s)
  | ⟨line, form, body, orelse, handlers⟩, flow, parent, lines, lined => by
    cases form
    case classDecl name =>
      rw [visit, drawnLines]
      exact lined_visitAll body lined
    case block =>
      rw [visit, drawnLines]
      exact lined_visitAll body lined
    case method name params =>
      rw [visit, drawnLines, append_cons_eq]
      exact lined_visitAll body lined.addNumbered
    case choice subject =>
      rw [visit, drawnLines, append_cons_eq]
      exact lined_visitAll body lined.addNumbered
    case locals declared =>
      rw [visit, drawnLines]
      exact lined_addLocals line declared lined
    case branch condition =>
      rw [visit, drawnLines, append_cons_eq, ← List.append_assoc]
      cases orelse with
      | nil =>
        -- no alternative, and no node in front of it
        simp only [drawnLinesAll, List.head?_nil, Option.map_none, Option.toList_none,
          List.append_nil]
        exact lined_visitAll body lined.addNumbered
      | cons first rest =>
        rw [← List.append_assoc]
        exact lined_visitAll (first :: rest) (lined_visitAll body lined.addNumbered).addNumbered
    case attempt =>
      rw [visit, drawnLines, append_cons_eq, ← List.append_assoc, ← List.append_assoc]
      exact lined_visitAll orelse
        (lined_visitHandlers handlers (lined_visitAll body lined.addNumbered))
    -- the loops differ in their nodes only
    case forLoop header declared => exact lined_loop (lined_visitAll body lined.addNumbered)
    case forEach header => exact lined_loop (lined_visitAll body lined.addNumbered)
    case whileLoop condition => exact lined_loop (lined_visitAll body lined.addNumbered)
    case doLoop condition => exact lined_loop (lined_visitAll body lined.addNumbered)
    case print text => exact lined_leaf line (.print text) lined
    case assign target operator value => exact lined_leaf line (.assign target operator value) lined
    case expr text => exact lined_leaf line (.expr text) lined
    case ret value => exact lined_leaf line (.ret value) lined
    case handler caught => exact lined_leaf line (.handler caught) lined
    case other => exact lined_leaf line .other lined

/-- A visit to statements draws their lines. -/
theorem lined_visitAll : ∀ (statements : List Statement) {flow : Flow} {parent : Text}
    {lines : List Nat}, flow.Lined lines →
      (visitAll flow parent statements).1.Lined (lines ++ drawnLinesAll statements)
  | [], flow, parent, lines, lined => by
    rw [visitAll, drawnLinesAll, List.append_nil]
    exact lined
  | s :: rest, flow, parent, lines, lined => by
    rw [visitAll, drawnLinesAll, ← List.append_assoc]
    exact lined_visitAll rest (lined_visit s lined)

/-- A visit to handlers draws their lines. -/
theorem lined_visitHandlers : ∀ (handlers : List Statement) {flow : Flow} {attempt last : Text}
    {lines : List Nat}, flow.Lined lines →
      (visitHandlers flow attempt last handlers).1.Lined (lines ++ drawnLinesHandlers handlers)
  | [], flow, attempt, last, lines, lined => by
    rw [visitHandlers, drawnLinesHandlers, List.append_nil]
    exact lined
  | ⟨line, form, [], orelse, handlers⟩ :: rest, flow, attempt, last, lines, lined => by
    rw [visitHandlers, drawnLinesHandlers, drawnLinesAll, ← List.append_assoc]
    exact lined_visitHandlers rest lined.addNumbered
  | ⟨line, form, s :: body, orelse, handlers⟩ :: rest, flow, attempt, last, lines, lined => by
    rw [visitHandlers, drawnLinesHandlers, List.cons_append, append_cons_eq, ← List.append_assoc]
    exact lined_visitHandlers rest (lined_visitAll (s :: body) lined.addNumbered)
end

/-- **Both traversals of a program go by its lines.** The walk visits every statement once, and the
steps of the flow, if any statement is drawn, are on lines of the source as well; a program that draws
nothing has one step, which is on no line. -/
theorem traversals_in_order {source : Text} {p : Program} (read : Program.parse source = .ok p) :
    VisitsOnce Statement.children p.statements p.walk ∧
    (p.walk.map (·.line)).Pairwise (· ≤ ·) ∧
    (∀ s ∈ p.walk, 1 ≤ s.line ∧ s.line ≤ source.lineCount) ∧
    (drawsAny p.statements = false → p.flow.2 = [Flow.defaultStep]) ∧
    (drawsAny p.statements = true → ∃ lines : List Nat,
      p.flow.2.map (·.line) = lines.map (fun (n : Nat) => some (n : Int)) ∧
      lines.Pairwise (· ≤ ·) ∧ ∀ n ∈ lines, 1 ≤ n ∧ n ≤ source.lineCount) := by
  have lined : (visitAll Flow.start Flowchart.startId p.statements).1.Lined
      ([] ++ drawnLinesAll p.statements) := lined_visitAll p.statements Flow.lined_start
  rw [List.nil_append] at lined
  have steps : p.flow.2 = if drawnLinesAll p.statements = [] then [Flow.defaultStep]
      else (visitAll Flow.start Flowchart.startId p.statements).1.steps := lined.finish _
  refine ⟨(preorder_walkAll p.statements).visitsOnce, ?_⟩
  rcases spans_of_parse read with none | spans
  · -- nothing is declared, and nothing is drawn
    have walked : p.walk = [] := by rw [Program.walk, none]; rfl
    have nothing : drawsAny p.statements = false := by rw [none]; rfl
    refine ⟨by simp [walked], by simp [walked], fun _ => ?_, fun draws => ?_⟩
    · rw [steps, if_pos ((drawnLinesAll_eq_nil_iff _).2 nothing)]
    · rw [nothing] at draws
      cases draws
  · have drawn := trails_drawnLinesAll p.statements _ _ spans
    refine ⟨spans.ordered, List.forall_mem_map.1 spans.within, fun nothing => ?_, fun draws => ?_⟩
    · rw [steps, if_pos ((drawnLinesAll_eq_nil_iff _).2 nothing)]
    · have filled : drawnLinesAll p.statements ≠ [] := by
        rw [Ne, drawnLinesAll_eq_nil_iff, draws]
        exact Bool.noConfusion
      rw [steps, if_neg filled]
      exact ⟨_, lined, drawn.ordered, drawn.within⟩

/-- An alternative with nothing in it is on the line of its word. -/
theorem empty_alternative_in_order : ∃ p,
    Program.parse "if (a)\n  b();\nelse\n  ;" = .ok p ∧
    VisitsOnce Statement.children p.statements p.walk ∧
    p.walk.map (·.line) = [1, 2, 3] ∧ (∀ s ∈ p.walk, 1 ≤ s.line ∧ s.line ≤ 4) ∧
    ∃ lines : List Nat, p.flow.2.map (·.line) = lines.map (fun (n : Nat) => some (n : Int)) ∧
      lines.Pairwise (· ≤ ·) ∧ ∀ n ∈ lines, 1 ≤ n ∧ n ≤ 4 := by
  have shown : (Program.parse "if (a)\n  b();\nelse\n  ;").toOption.map
      (fun p => (p.walk.map (·.line), drawsAny p.statements)) = some ([1, 2, 3], true) := by
    decide +kernel
  have counted : Text.lineCount "if (a)\n  b();\nelse\n  ;" = 4 := by decide +kernel
  obtain ⟨p, read, traversed⟩ := exists_of_toOption_map shown
  obtain ⟨walked, draws⟩ := Prod.mk.inj traversed
  obtain ⟨once, -, inside, -, drawn⟩ := traversals_in_order read
  rw [counted] at inside drawn
  exact ⟨p, read, once, walked, inside, drawn draws⟩

/-- The one step of a program that draws nothing is on no line of the source. -/
theorem step_on_no_line : ∃ p, Program.parse "class A \x7b \x7d" = .ok p ∧
    p.flow.2.map (·.line) = [some (-1)] ∧
    ¬ ∀ step ∈ p.flow.2, ∃ n : Nat, step.line = some (n : Int) ∧ 1 ≤ n := by
  have shown : (Program.parse "class A \x7b \x7d").toOption.map
      (fun p => p.flow.2.map (·.line)) = some [some (-1)] := by
    decide +kernel
  obtain ⟨p, read, lines⟩ := exists_of_toOption_map shown
  refine ⟨p, read, lines, fun all => ?_⟩
  obtain ⟨step, drawn, on_line⟩ := List.map_eq_singleton_iff.1 lines
  obtain ⟨n, same, -⟩ := all step (by rw [drawn]; exact List.mem_singleton_self _)
  rw [on_line] at same
  cases same

end FlowTrace.Java
