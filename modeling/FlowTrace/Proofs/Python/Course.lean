import FlowTrace.Proofs.Flowchart.Course
import FlowTrace.Python.Flow

/-! # Courses of Python statements

Which statements have a node (`draws`) and which leave a dead end behind (`strands`) can be told
from the statements alone, and a walk over them is a course with just these verdicts
(`course_visitAll`). There is one way to strand a node: a conditional that has an alternative and
draws something in its own suite, since the flow goes on from the alternative only. -/

namespace FlowTrace.Python

open FlowTrace.Flow (Course)

mutual
/-- Whether a statement has a node, or a statement inside it has one. -/
def draws : Statement → Bool
  | ⟨line, head, form, body, orelse, handlers⟩ =>
    match form with
    | .func _ _ | .forLoop _ _ | .whileLoop _ | .branch _ _ _ => true
    | .classDef _ | .block => drawsAny body
    | .attempt => drawsAny body || drawsHandlers handlers || drawsAny orelse
    | form => (leafNode? (.leaf line head form)).isSome

/-- Whether one of the statements has a node. -/
def drawsAny : List Statement → Bool
  | [] => false
  | s :: rest => draws s || drawsAny rest

/-- Whether the suite of one of the handlers has a node. -/
def drawsHandlers : List Statement → Bool
  | [] => false
  | ⟨_, _, _, body, _, _⟩ :: rest => drawsAny body || drawsHandlers rest
end

mutual
/-- Whether a statement leaves a **dead end** behind. -/
def strands : Statement → Bool
  | ⟨_, _, form, body, orelse, handlers⟩ =>
    match form with
    | .func _ _ | .classDef _ | .block => strandsAny body
    | .attempt => strandsAny body || strandsHandlers handlers || strandsAny orelse
    | .forLoop _ _ | .whileLoop _ => strandsAny body || strandsAny orelse
    | .branch _ _ _ =>
      match orelse with
      | [] => strandsAny body
      | _ => drawsAny body || strandsAny orelse
    | _ => false

/-- Whether one of the statements leaves a dead end behind. -/
def strandsAny : List Statement → Bool
  | [] => false
  | s :: rest => strands s || strandsAny rest

/-- Whether the suite of one of the handlers leaves a dead end behind. -/
def strandsHandlers : List Statement → Bool
  | [] => false
  | ⟨_, _, _, body, _, _⟩ :: rest => strandsAny body || strandsHandlers rest
end

mutual
/-- **The walk over a statement is a course with the verdicts of the statement.** -/
theorem course_visit : ∀ (s : Statement) {flow : Flow} {parent : Text}, flow.Ready parent →
    Course flow parent (visit flow parent s).1 (visit flow parent s).2 (draws s) (strands s)
  | ⟨line, head, form, body, orelse, handlers⟩, flow, parent, h => by
    match form with
    | .func name params =>
      have node := Course.node h ("Func_" ++ name)
        ⟨"Function: " ++ name, .parallelogram, "lightblue", line⟩ {}
      exact node.trans (course_visitAll body node.walk.ready)
    | .classDef name => exact course_visitAll body h
    | .block => exact course_visitAll body h
    | .attempt =>
      have tried := course_visitAll body h
      have handled := course_visitHandlers handlers tried.walk.ready
      have rest := course_visitAll orelse handled.walk.ready
      exact (tried.trans handled).trans rest
    | .forLoop target iterable =>
      have node := Course.node h "For"
        ⟨"For: " ++ target ++ " in " ++ iterable, .diamond, "pink", line⟩ {}
      have loop := Course.loop (by decide) h (course_visitAll body node.walk.ready)
      exact loop.trans (course_visitAll orelse loop.walk.ready)
    | .whileLoop condition =>
      have node := Course.node h "While" ⟨"While: " ++ condition, .diamond, "pink", line⟩ {}
      have loop := Course.loop (by decide) h (course_visitAll body node.walk.ready)
      exact loop.trans (course_visitAll orelse loop.walk.ready)
    | .branch condition isElif hasElse =>
      have node := Course.node h "If" ⟨"If: " ++ condition, .diamond, "orange", line⟩ {}
      have suite := course_visitAll body node.walk.ready
      match orelse with
      | [] => exact node.trans suite
      | first :: rest =>
        -- The flow turns back to the conditional and goes on from there.
        have turned := suite.back node.walk.ready
        have other := Course.node turned.walk.ready "Else"
          ⟨"Else", .diamond, "orange", first.line⟩ {}
        have alternative := course_visitAll (first :: rest) other.walk.ready
        exact node.trans (turned.trans (other.trans alternative))
    | .ret value => exact Course.leaf h (leafNode? (.leaf line head (.ret value)))
    | .assign targets value =>
      exact Course.leaf h (leafNode? (.leaf line head (.assign targets value)))
    | .update target operator value =>
      exact Course.leaf h (leafNode? (.leaf line head (.update target operator value)))
    | .expr => exact Course.leaf h (leafNode? (.leaf line head .expr))
    | .other => exact Course.leaf h (leafNode? (.leaf line head .other))

/-- The walk over statements is a course. -/
theorem course_visitAll : ∀ (statements : List Statement) {flow : Flow} {parent : Text},
    flow.Ready parent → Course flow parent (visitAll flow parent statements).1
      (visitAll flow parent statements).2 (drawsAny statements) (strandsAny statements)
  | [], _, _, h => Course.refl h
  | s :: rest, _, _, h =>
    have first := course_visit s h
    first.trans (course_visitAll rest first.walk.ready)

/-- The walk over handlers is a course. -/
theorem course_visitHandlers : ∀ (handlers : List Statement) {flow : Flow} {parent : Text},
    flow.Ready parent → Course flow parent (visitHandlers flow parent handlers).1
      (visitHandlers flow parent handlers).2 (drawsHandlers handlers) (strandsHandlers handlers)
  | [], _, _, h => Course.refl h
  | ⟨_, _, _, body, _, _⟩ :: rest, _, _, h =>
    have first := course_visitAll body h
    first.trans (course_visitHandlers rest first.walk.ready)
end

end FlowTrace.Python
