import FlowTrace.Flowchart.Flow
import FlowTrace.Python.Module

/-! # Flowcharts of Python modules

The walk that turns statements into nodes. Each statement is led on from the node before it, and
returns the node from which the next statement goes on. -/

namespace FlowTrace.Python

open Pattern

/-- The targets of an assignment that are single names, without their annotations. -/
def targetNames (targets : List Text) : List Text :=
  targets.filterMap fun target =>
    let target := match target.indexWhere? (· == ':') with
      | some i => target.take i
      | none => target
    let target := Text.trim target
    if isName target then some target else none

/-- A call of the print function: group 1 is what it prints. -/
def printPattern : Pattern := whole ["print", blanks, "(", group 1 (many inLine), ")"]

/-- What an expression prints. -/
def printed? (t : Text) : Option Text := (printPattern.find? t).map fun m => Text.trim (m.group t 1)

/-- The node and step of a statement that has no suite, if it has a place in a flowchart. -/
def leafNode? (s : Statement) : Option (Text × Face × Note) :=
  match s.form with
  | .assign targets value =>
    let names := targetNames targets
    if names.isEmpty then none
    else some ("Assign",
      ⟨"Assign: " ++ Text.joinWith ", " names, .rectangle, "lightblue", s.line⟩,
      { bindings := .ofList (names.map fun name => (name, .str value)) })
  | .update target operator value =>
    some ("Assign",
      ⟨"Update: " ++ target ++ " " ++ operator ++ "= " ++ value, .rectangle, "lightblue", s.line⟩,
      { bindings :=
          if isName target then
            [(target, .str (target ++ " " ++ operator ++ " " ++ value))]
          else [] })
  | .ret value =>
    some ("Return",
      ⟨if value.isEmpty then "Return" else "Return: " ++ value, .parallelogram, "yellow", s.line⟩,
      {})
  | .expr =>
    some ("Expr", ⟨"Expression: " ++ s.head, .rectangle, "lightgray", s.line⟩,
      { output := printed? s.head })
  | _ => none

mutual
/-- Adds a statement to a flow below `parent`; returns the node that the next statement goes on
from. -/
def visit (flow : Flow) (parent : Text) : Statement → Flow × Text
  | ⟨line, head, form, body, orelse, handlers⟩ =>
    match form with
    | .func name _ =>
      let (flow, id) := flow.addNumbered parent ("Func_" ++ name)
        ⟨"Function: " ++ name, .parallelogram, "lightblue", line⟩
      visitAll flow id body
    | .classDef _ | .block => visitAll flow parent body
    | .attempt =>
      let (flow, last) := visitAll flow parent body
      let (flow, last) := visitHandlers flow last handlers
      visitAll flow last orelse
    | .forLoop target iterable =>
      let (flow, id) := flow.addNumbered parent "For"
        ⟨"For: " ++ target ++ " in " ++ iterable, .diamond, "pink", line⟩
      let (flow, last) := visitAll flow id body
      visitAll (if last = id then flow else flow.link last id) id orelse
    | .whileLoop condition =>
      let (flow, id) := flow.addNumbered parent "While"
        ⟨"While: " ++ condition, .diamond, "pink", line⟩
      let (flow, last) := visitAll flow id body
      visitAll (if last = id then flow else flow.link last id) id orelse
    | .branch condition _ _ =>
      let (flow, id) := flow.addNumbered parent "If"
        ⟨"If: " ++ condition, .diamond, "orange", line⟩
      let (flow, last) := visitAll flow id body
      match orelse with
      | [] => (flow, last)
      | first :: _ =>
        let (flow, elseId) := flow.addNumbered id "Else"
          ⟨"Else", .diamond, "orange", first.line⟩
        visitAll flow elseId orelse
    | form =>
      match leafNode? (.leaf line head form) with
      | some (stem, face, note) => flow.addNumbered parent stem face note
      | none => (flow, parent)

/-- Adds statements one after the other. -/
def visitAll (flow : Flow) (parent : Text) : List Statement → Flow × Text
  | [] => (flow, parent)
  | s :: rest =>
    let (flow, last) := visit flow parent s
    visitAll flow last rest

/-- Adds the suites of handlers one after the other. -/
def visitHandlers (flow : Flow) (parent : Text) : List Statement → Flow × Text
  | [] => (flow, parent)
  | ⟨_, _, _, body, _, _⟩ :: rest =>
    let (flow, last) := visitAll flow parent body
    visitHandlers flow last rest
end

/-- The flowchart of a module and the steps that walk it. -/
def Module.flow (m : Module) : Flowchart × List Step :=
  let (flow, last) := visitAll Flow.start Flowchart.startId m.statements
  flow.finish last

/-! ## Listing -/

/-- The description of a statement in a listing and the variables it assigns; `none` for
statements that are not listed. -/
def listed? (s : Statement) : Option (Text × Bindings) :=
  match s.form with
  | .func name _ => some ("Function: " ++ name, [])
  | .branch condition _ _ => some ("If Statement: " ++ condition, [])
  | .forLoop _ iterable => some ("For Loop: iterating over " ++ iterable, [])
  | .whileLoop condition => some ("While Loop: " ++ condition, [])
  | .assign targets value =>
    some ("Assignment: " ++ Text.joinWith " = " targets ++ " = " ++ value,
      .ofList (targets.map fun target => (target, .str value)))
  | .expr => some ("Expression: " ++ s.head, [])
  | _ => none

/-- The listed statements of a module, in the order in which they leave the queue, numbered from
one. -/
def Module.listing (m : Module) : List Step :=
  let entries := (Statement.drain m.statements).filterMap fun s => (listed? s).map (s.line, ·)
  entries.mapIdx fun i (line, description, bindings) =>
    { nodeId := "node_" ++ Text.ofNat (i + 1), description, bindings, line := some line }

end FlowTrace.Python
