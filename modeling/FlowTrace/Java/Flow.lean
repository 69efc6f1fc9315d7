import FlowTrace.Flowchart.Flow
import FlowTrace.Java.Program
import FlowTrace.Pattern.Search

/-! # Flowcharts of Java programs

The walk that turns statements into nodes. Each statement is led on from the node before it, and
returns the node from which the next statement goes on. -/

namespace FlowTrace.Java

open Pattern

/-- A single name. -/
def namePattern : Pattern :=
  whole [among (charRanges "$" ++ nameStartRanges), many (among (charRanges "$" ++ wordRanges))]

/-- Whether a text is a single name. -/
def isName (t : Text) : Bool := namePattern.matchesIn t

/-- Adds the declared variables one after the other. -/
def addLocals (flow : Flow) (parent : Text) (line : Nat) : List Variable → Flow × Text
  | [] => (flow, parent)
  | v :: rest =>
    let valued := v.name ++ " = " ++ v.init
    let plain := "Declare: " ++ v.name
    let (label, description, value) : Text × Text × Text :=
      if v.init.isEmpty then (plain, plain, "N/A") else (valued, "Assignment: " ++ valued, v.init)
    let (flow, id) := flow.addNumbered parent ("Var_" ++ v.name)
      ⟨label, .rectangle, "lightblue", line⟩ { description, bindings := [(v.name, .str value)] }
    addLocals flow id line rest

/-- The node and step of a statement with nothing inside it, if it has a place in a flowchart. -/
def leafNode? (line : Nat) : Form → Option (Text × Face × Note)
  | .print text =>
    some ("Print", ⟨"Print: " ++ text, .parallelogram, "lightgray", line⟩, { output := some text })
  | .assign target operator value =>
    some ("Assign",
      ⟨"Assign: " ++ target ++ " " ++ operator ++ " " ++ value, .rectangle, "lightblue", line⟩,
      { bindings := if isName target then [(target, .str value)] else [] })
  | .expr text => some ("Expr", ⟨"Expression: " ++ text, .rectangle, "lightgray", line⟩, {})
  | .ret value =>
    some ("Return",
      ⟨if value.isEmpty then "Return" else "Return: " ++ value, .rectangle, "lightblue", line⟩, {})
  | _ => none

/-- The stem of the id and the label of a loop. -/
def loopNode? : Form → Option (Text × Text)
  | .forLoop header _ | .forEach header => some ("For", "For Loop: " ++ header)
  | .whileLoop condition => some ("While", "While Loop: " ++ condition)
  | .doLoop condition => some ("While", "Do-While Loop: " ++ condition)
  | _ => none

/-- The label of a handler. -/
def handlerLabel : Form → Text
  | .handler (v :: _) => "Catch: " ++ v.type ++ " " ++ v.name
  | _ => "Catch"

mutual
/-- Adds a statement to a flow below `parent`; returns the node that the next statement goes on
from. -/
def visit (flow : Flow) (parent : Text) : Statement → Flow × Text
  | ⟨line, form, body, orelse, handlers⟩ =>
    match form with
    | .classDecl _ | .block => visitAll flow parent body
    | .method name _ =>
      let (flow, id) := flow.addNumbered parent ("Method_" ++ name)
        ⟨"Method: " ++ name, .parallelogram, "lightblue", line⟩
      visitAll flow id body
    | .locals declared => addLocals flow parent line declared
    | .branch condition =>
      let (flow, id) := flow.addNumbered parent "If"
        ⟨"If: " ++ condition, .diamond, "orange", line⟩
      let (flow, last) := visitAll flow id body
      match orelse with
      | [] => (flow, last)
      | first :: _ =>
        let (flow, elseId) := flow.addNumbered id "Else" ⟨"Else", .diamond, "orange", first.line⟩
        visitAll flow elseId orelse
    | .attempt =>
      let (flow, id) := flow.addNumbered parent "Try"
        ⟨"Try Block", .rectangle, "yellow", line⟩
      let (flow, last) := visitAll flow id body
      let (flow, last) := visitHandlers flow id last handlers
      visitAll flow last orelse
    | .choice subject =>
      let (flow, id) := flow.addNumbered parent "Switch"
        ⟨"Switch: " ++ subject, .diamond, "orange", line⟩
      visitAll flow id body
    | form =>
      match loopNode? form with
      | some (stem, label) =>
        let (flow, id) := flow.addNumbered parent stem ⟨label, .diamond, "pink", line⟩
        let (flow, last) := visitAll flow id body
        (if last = id then flow else flow.link last id, id)
      | none =>
        match leafNode? line form with
        | some (stem, face, note) => flow.addNumbered parent stem face note
        | none => (flow, parent)

/-- Adds statements one after the other. -/
def visitAll (flow : Flow) (parent : Text) : List Statement → Flow × Text
  | [] => (flow, parent)
  | s :: rest =>
    let (flow, last) := visit flow parent s
    visitAll flow last rest

/-- Adds the handlers of an attempt, each below the attempt. The flow goes on from the last
handler that has statements. -/
def visitHandlers (flow : Flow) (attempt last : Text) : List Statement → Flow × Text
  | [] => (flow, last)
  | ⟨line, form, body, _, _⟩ :: rest =>
    let (flow, id) := flow.addNumbered attempt "Catch"
      ⟨handlerLabel form, .parallelogram, "red", line⟩
    match body with
    | [] => visitHandlers flow attempt last rest
    | _ =>
      let (flow, last) := visitAll flow id body
      visitHandlers flow attempt last rest
end

/-- The flowchart of a program and the steps that walk it. -/
def Program.flow (p : Program) : Flowchart × List Step :=
  let (flow, last) := visitAll Flow.start Flowchart.startId p.statements
  flow.finish last

end FlowTrace.Java
