import FlowTrace.Java.Flow
import FlowTrace.Proofs.Flowchart.Course

/-! # Courses of Java statements

Which statements have a node (`draws`) and which leave a dead end behind (`strands`) can be told
from the statements alone, and a walk over them is a course with just these verdicts
(`course_visitAll`). Nodes are stranded by a conditional that has an alternative and draws
something in its own statements, since the flow goes on from the alternative only, and by an
attempt whose handlers leave more than one end, since the flow goes on from one of them only. -/

namespace FlowTrace.Java

open FlowTrace.Flow (Course)

mutual
/-- Whether a statement has a node, or a statement inside it has one. -/
def draws : Statement → Bool
  | ⟨line, form, body, _, _⟩ =>
    match form with
    | .classDecl _ | .block => drawsAny body
    | .locals declared => !declared.isEmpty
    | .method _ _ | .branch _ | .attempt | .choice _ => true
    | form => (loopNode? form).isSome || (leafNode? line form).isSome

/-- Whether one of the statements has a node. -/
def drawsAny : List Statement → Bool
  | [] => false
  | s :: rest => draws s || drawsAny rest
end

mutual
/-- Whether a statement leaves a **dead end** behind. -/
def strands : Statement → Bool
  | ⟨_, form, body, orelse, handlers⟩ =>
    match form with
    | .classDecl _ | .block | .method _ _ | .choice _ => strandsAny body
    | .branch _ =>
      match orelse with
      | [] => strandsAny body
      | _ => drawsAny body || strandsAny orelse
    | .attempt => strandsHandlers (drawsAny body) (strandsAny body) handlers || strandsAny orelse
    | .forLoop _ _ | .forEach _ | .whileLoop _ | .doLoop _ => strandsAny body
    | _ => false

/-- Whether one of the statements leaves a dead end behind. -/
def strandsAny : List Statement → Bool
  | [] => false
  | s :: rest => strands s || strandsAny rest

/-- Whether an attempt with these handlers leaves a dead end behind, up to what is run at its end;
told by whether what it attempts draws anything and strands anything. -/
def strandsHandlers (drawn stranded : Bool) : List Statement → Bool
  | [] => stranded
  | [⟨_, _, [], _, _⟩] => true
  | [⟨_, _, body, _, _⟩] => drawn || strandsAny body
  | _ => true
end

section Handlers

variable {line : Nat} {form : Form} {s : Statement} {body orelse handlers rest : List Statement}

/-- One more handler leaves a dead end, unless nothing was drawn. -/
theorem strandsHandlers_drawn {stranded : Bool} :
    strandsHandlers true stranded (s :: rest) = true := by
  rcases s with ⟨_, _, _ | _, _, _⟩ <;> rcases rest with _ | _ <;> rfl

/-- A handler without statements is a dead end. -/
theorem strandsHandlers_cons_empty {drawn stranded : Bool} :
    strandsHandlers drawn stranded (⟨line, form, [], orelse, handlers⟩ :: rest) =
      strandsHandlers true true rest := by
  cases rest with
  | nil => rfl
  | cons => exact strandsHandlers_drawn.symm

/-- From a handler with statements the flow goes on, and whatever was drawn before is stranded. -/
theorem strandsHandlers_cons {drawn stranded : Bool} :
    strandsHandlers drawn stranded (⟨line, form, s :: body, orelse, handlers⟩ :: rest) =
      strandsHandlers true (drawn || strandsAny (s :: body)) rest := by
  cases rest with
  | nil => rfl
  | cons => exact strandsHandlers_drawn.symm

end Handlers

/-- The declared variables are one node after the other. -/
theorem course_addLocals (line : Nat) : ∀ (declared : List Variable) {flow : Flow} {parent : Text},
    flow.Ready parent → Course flow parent (addLocals flow parent line declared).1
      (addLocals flow parent line declared).2 (!declared.isEmpty) false
  | [], _, _, h => Course.refl h
  | v :: rest, flow, parent, h => by
    unfold addLocals
    have node := Course.node h ("Var_" ++ v.name)
    exact (node _ _).trans (course_addLocals line rest (node _ _).walk.ready)

mutual
/-- **The walk over a statement is a course with the verdicts of the statement.** -/
theorem course_visit : ∀ (s : Statement) {flow : Flow} {parent : Text}, flow.Ready parent →
    Course flow parent (visit flow parent s).1 (visit flow parent s).2 (draws s) (strands s)
  | ⟨line, form, body, orelse, handlers⟩, flow, parent, h => by
    have loop {kind : String} (isLoop : kind ∈ ["For", "While", "Loop"]) (label : Text) :=
      Course.loop isLoop h (course_visitAll body
        (Course.node h kind ⟨label, .diamond, "pink", line⟩ {}).walk.ready)
    match form with
    | .classDecl name => exact course_visitAll body h
    | .block => exact course_visitAll body h
    | .method name params =>
      have node := Course.node h ("Method_" ++ name)
        ⟨"Method: " ++ name, .parallelogram, "lightblue", line⟩ {}
      exact node.trans (course_visitAll body node.walk.ready)
    | .locals declared => exact course_addLocals line declared h
    | .branch condition =>
      have node := Course.node h "If" ⟨"If: " ++ condition, .diamond, "orange", line⟩ {}
      have suite := course_visitAll body node.walk.ready
      match orelse with
      | [] => exact node.trans suite
      | first :: rest =>
        -- The flow turns back to the conditional and goes on from there.
        have turned := suite.back node.walk.ready
        have other := Course.node turned.walk.ready "Else"
          ⟨"Else", .diamond, "orange", first.line⟩ {}
        have alternative := course_visitAll (first :: rest) other.walk.ready
        exact node.trans (turned.trans (other.trans alternative))
    | .attempt =>
      have node := Course.node h "Try" ⟨"Try Block", .rectangle, "yellow", line⟩ {}
      have tried := course_visitAll body node.walk.ready
      have handled := course_visitHandlers handlers node.walk.ready tried
      have rest := course_visitAll orelse handled.walk.ready
      exact node.trans (handled.trans rest)
    | .choice subject =>
      have node := Course.node h "Switch" ⟨"Switch: " ++ subject, .diamond, "orange", line⟩ {}
      exact node.trans (course_visitAll body node.walk.ready)
    | .forLoop header declared => exact loop (by decide) _
    | .forEach header => exact loop (by decide) _
    | .whileLoop condition => exact loop (by decide) _
    | .doLoop condition => exact loop (by decide) _
    | .print text => exact Course.leaf h (leafNode? line (.print text))
    | .assign target operator value =>
      exact Course.leaf h (leafNode? line (.assign target operator value))
    | .expr text => exact Course.leaf h (leafNode? line (.expr text))
    | .ret value => exact Course.leaf h (leafNode? line (.ret value))
    | .handler caught => exact Course.leaf h (leafNode? line (.handler caught))
    | .other => exact Course.leaf h (leafNode? line .other)

/-- The walk over statements is a course. -/
theorem course_visitAll : ∀ (statements : List Statement) {flow : Flow} {parent : Text},
    flow.Ready parent → Course flow parent (visitAll flow parent statements).1
      (visitAll flow parent statements).2 (drawsAny statements) (strandsAny statements)
  | [], _, _, h => Course.refl h
  | s :: rest, _, _, h =>
    have first := course_visit s h
    first.trans (course_visitAll rest first.walk.ready)

/-- The walk over the handlers of an attempt goes on with the course of what is attempted. -/
theorem course_visitHandlers : ∀ (handlers : List Statement) {flow after : Flow}
    {attempt last : Text} {drawn stranded : Bool}, flow.Ready attempt →
    Course flow attempt after last drawn stranded →
    Course flow attempt (visitHandlers after attempt last handlers).1
      (visitHandlers after attempt last handlers).2 (drawn || !handlers.isEmpty)
      (strandsHandlers drawn stranded handlers)
  | [], _, _, _, _, drawn, _, _, tried => by
    rw [List.isEmpty_nil, Bool.not_true, Bool.or_false]
    exact tried
  | ⟨line, form, [], _, _⟩ :: rest, _, _, _, _, drawn, _, ready, tried => by
    have spur := tried.spur ready "Catch" ⟨handlerLabel form, .parallelogram, "red", line⟩ {}
    rw [strandsHandlers_cons_empty, List.isEmpty_cons, Bool.not_false, Bool.or_true]
    exact course_visitHandlers rest ready spur
  | ⟨line, form, s :: body, _, _⟩ :: rest, _, _, _, _, drawn, _, ready, tried => by
    have turned := tried.back ready
    have node := Course.node turned.walk.ready "Catch"
      ⟨handlerLabel form, .parallelogram, "red", line⟩ {}
    have handled := turned.trans (node.trans (course_visitAll (s :: body) node.walk.ready))
    rw [Bool.true_or, Bool.or_true, Bool.false_or] at handled
    rw [strandsHandlers_cons, List.isEmpty_cons, Bool.not_false, Bool.or_true]
    exact course_visitHandlers rest ready handled
end

end FlowTrace.Java
