import FlowTrace.Cpp.Program
import FlowTrace.Flowchart.Flow

/-! # Flowcharts of C++ programs

The statements that were picked out form one chain in source order. A loop with a braced body is
closed by an edge back to it, and what follows the body goes on from the loop. -/

namespace FlowTrace.Cpp

/-- A node to be placed, with its offset in the source. -/
structure Item where
  /-- The offset. -/
  offset : Nat
  /-- The id of the node. -/
  id : Text
  /-- How it looks. -/
  face : Face
  /-- What its step says. -/
  note : Note
  /-- The offset of the closing brace, for a loop with a braced body. -/
  bodyEnd : Option Nat
  deriving Repr

/-- The id of the `i`-th statement of a kind. -/
def numbered (stem : Text) (i : Nat) : Text := stem ++ "_" ++ Text.ofNat i

/-- The item of a function. -/
def Function.item (i : Nat) (f : Function) : Item :=
  ⟨f.offset, numbered ("Func_" ++ f.name) i,
    ⟨"Function: " ++ f.name, .parallelogram, "lightblue", f.line⟩, {}, none⟩

/-- The item of a declaration. -/
def Declaration.item (i : Nat) (d : Declaration) : Item :=
  let valued := d.name ++ " = " ++ d.value
  let plain := "Declare: " ++ d.name
  let (label, description, value) : Text × Text × Text :=
    if d.value.isEmpty then (plain, plain, "N/A") else (valued, "Assignment: " ++ valued, d.value)
  ⟨d.offset, numbered ("Var_" ++ d.name) i, ⟨label, .rectangle, "lightyellow", d.line⟩,
    { description, bindings := [(d.name, .str value)] }, none⟩

/-- The item of an array. -/
def ArrayDecl.item (i : Nat) (a : ArrayDecl) : Item :=
  let extent := "[" ++ Text.ofInt a.size.toInt ++ "]"
  ⟨a.offset, numbered ("Array_" ++ a.name) i,
    ⟨"Declare: " ++ a.name ++ extent, .rectangle, "lightyellow", a.line⟩,
    { bindings := [(a.name, .str (a.type ++ extent))] }, none⟩

/-- The item of a condition. -/
def Condition.item (i : Nat) (c : Condition) : Item :=
  let (stem, label, fill) : Text × Text × Text := match c.branch with
    | .first => ("if", "If: " ++ c.text, "orange")
    | .elseIf => ("else_if", "Else if: " ++ c.text, "orange")
    | .otherwise => ("else", "Else", "red")
  ⟨c.offset, numbered stem i, ⟨label, .diamond, fill, c.line⟩, {}, none⟩

/-- The item of a loop. -/
def Loop.item (i : Nat) (l : Loop) : Item :=
  let title := Text.asciiUpper (l.word.take 1) ++ l.word.drop 1
  ⟨l.offset, numbered "Loop" i, ⟨title ++ " Loop: " ++ l.text, .diamond, "pink", l.line⟩, {},
    l.body.map (·.2)⟩

/-- The item of a call. -/
def callItem (i : Nat) (c : Phrase) : Item :=
  ⟨c.offset, numbered ("Call_" ++ c.name) i,
    ⟨"Call: " ++ c.name ++ "()", .parallelogram, "yellow", c.line⟩, {}, none⟩

/-- The item of a return. -/
def returnItem (i : Nat) (r : Phrase) : Item :=
  ⟨r.offset, numbered "Return" i,
    ⟨if r.text.isEmpty then "Return" else "Return: " ++ r.text, .rectangle, "lightblue", r.line⟩,
    {}, none⟩

/-- The item of a print. -/
def printItem (i : Nat) (p : Phrase) : Item :=
  ⟨p.offset, numbered "Print" i, ⟨"Print: " ++ p.text, .parallelogram, "lightgray", p.line⟩,
    { output := some p.text }, none⟩

/-- All items of a program in source order; items with the same offset stay in the order of
their kinds. -/
def Program.items (p : Program) : List Item :=
  (p.functions.mapIdx Function.item ++ p.declarations.mapIdx Declaration.item ++
    p.arrays.mapIdx ArrayDecl.item ++ p.conditions.mapIdx Condition.item ++
    p.loops.mapIdx Loop.item ++ p.calls.mapIdx callItem ++ p.returns.mapIdx returnItem ++
    p.prints.mapIdx printItem).mergeSort fun a b => a.offset ≤ b.offset

/-- A flow with the node it goes on from and the loops that are open, innermost first: their
nodes and the ends of their bodies. -/
structure Chain where
  /-- The flow. -/
  flow : Flow
  /-- The node that the next item goes on from. -/
  last : Text
  /-- The open loops. -/
  open_ : List (Text × Nat)
  deriving Repr

/-- Closes the open loops whose bodies end before an offset, innermost first. Each is closed by an
edge back to it, unless its body has no node, and the chain goes on from it. -/
def closeLoops (flow : Flow) (last : Text) (offset : Nat) : List (Text × Nat) → Chain
  | [] => ⟨flow, last, []⟩
  | (id, stop) :: outer =>
    if stop < offset then
      closeLoops (if last = id then flow else flow.link last id) id offset outer
    else ⟨flow, last, (id, stop) :: outer⟩

/-- Adds an item to a chain. -/
def Chain.add (chain : Chain) (item : Item) : Chain :=
  let chain := closeLoops chain.flow chain.last item.offset chain.open_
  { flow := chain.flow.add chain.last item.id item.face item.note
    last := item.id
    open_ := match item.bodyEnd with
      | some stop => (item.id, stop) :: chain.open_
      | none => chain.open_ }

/-- The flowchart of a program and the steps that walk it. -/
def Program.flow (p : Program) : Flowchart × List Step :=
  let chain := p.items.foldl Chain.add ⟨Flow.start, Flowchart.startId, []⟩
  let chain := closeLoops chain.flow chain.last (p.code.length + 1) chain.open_
  chain.flow.finish chain.last

end FlowTrace.Cpp
