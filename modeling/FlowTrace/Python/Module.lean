import FlowTrace.Python.Line

/-! # Python modules

The statement tree of a module, built line by line. While a suite is being read it is an open
**frame**; the frames around it wait with the **slot** of their last statement into which the
suite goes once it is complete. -/

namespace FlowTrace.Python

/-- Where a suite belongs in the last statement of the frame that holds its header. -/
inductive Slot where
  /-- The suite of the statement itself. -/
  | body
  /-- The alternative of a loop or an attempt. -/
  | orelse
  /-- The suite of the last handler. -/
  | handler
  /-- The suite of the last conditional of a chain. -/
  | tailBody
  /-- The alternative of the last conditional of a chain. -/
  | tailOrelse
  deriving DecidableEq, Repr

namespace Statement

/-- Appends statements to the suite of a statement. -/
def addBody (suite : List Statement) (s : Statement) : Statement :=
  { s with body := s.body ++ suite }

/-- Appends statements to the alternative of a statement. -/
def addOrelse (suite : List Statement) (s : Statement) : Statement :=
  { s with orelse := s.orelse ++ suite }

/-- Marks a conditional as having an alternative. -/
def markElse (s : Statement) : Statement :=
  match s.form with
  | .branch condition isElif _ => { s with form := .branch condition isElif true }
  | _ => s

/-- Puts a suite into a slot of a statement. -/
def fill (s : Statement) (slot : Slot) (suite : List Statement) : Statement :=
  match slot with
  | .body => s.addBody suite
  | .orelse => s.addOrelse suite
  | .handler =>
    { s with
      handlers := s.handlers.dropLast ++ s.handlers.getLast?.toList.map (addBody suite) }
  | .tailBody => s.mapTail (addBody suite)
  | .tailOrelse => s.mapTail (addOrelse suite)

end Statement

/-- An open suite: its indentation, and its statements, last first. -/
structure Frame where
  /-- The indentation of all lines of the suite. -/
  indent : Nat
  /-- The statements so far, last first. -/
  done : List Statement
  deriving Repr

/-- Puts a suite into a slot of the last statement of a frame. -/
def Frame.fill (frame : Frame) (slot : Slot) (suite : List Statement) : Frame :=
  match frame.done with
  | last :: earlier => { frame with done := last.fill slot suite :: earlier }
  | [] => frame

/-- Adds statements to a frame, in order. -/
def Frame.append (frame : Frame) (statements : List Statement) : Frame :=
  { frame with done := statements.reverse ++ frame.done }

/-- A header whose suite has not begun. -/
structure Awaited where
  /-- The line of the header. -/
  line : Nat
  /-- The first word of the header. -/
  word : Text
  /-- Where the suite goes. -/
  slot : Slot
  deriving Repr

/-- The fault of a header without suite. -/
def Awaited.fault (awaited : Awaited) : Fault := .missingSuite awaited.word awaited.line

/-- A module in the making. -/
structure Draft where
  /-- The innermost open suite. -/
  inner : Frame
  /-- The suites around it, innermost first, with the slots of the suites they hold. -/
  outer : List (Frame × Slot)
  /-- The header just read, if its suite is still to come. -/
  awaited : Option Awaited
  deriving Repr

namespace Draft

/-- The draft of a module without statements. -/
def start : Draft := ⟨⟨0, []⟩, [], none⟩

/-- Ends the open suites that are indented further than a column. -/
def closeTo (column : Nat) (inner : Frame) : List (Frame × Slot) → Frame × List (Frame × Slot)
  | [] => (inner, [])
  | (frame, slot) :: outer =>
    if column < inner.indent then closeTo column (frame.fill slot inner.done.reverse) outer
    else (inner, (frame, slot) :: outer)

/-- Ends all open suites: the statements of the module. -/
def close (inner : Frame) : List (Frame × Slot) → List Statement
  | [] => inner.done.reverse
  | (frame, slot) :: outer => close (frame.fill slot inner.done.reverse) outer

/-- Goes to the suite in which a line stands, by its indentation. -/
def indentTo (draft : Draft) (ln : LogicalLine) : Except SyntaxError Draft :=
  match draft.awaited with
  | some awaited =>
    if ln.indent ≤ draft.inner.indent then .error ⟨ln.line, awaited.fault⟩
    else .ok ⟨⟨ln.indent, []⟩, (draft.inner, awaited.slot) :: draft.outer, none⟩
  | none =>
    if draft.inner.indent < ln.indent then .error ⟨ln.line, .unexpectedIndent⟩
    else
      let (inner, outer) := closeTo ln.indent draft.inner draft.outer
      if inner.indent == ln.indent then .ok ⟨inner, outer, none⟩
      else .error ⟨ln.line, .mismatchedUnindent⟩

/-- Places the statement of a header in a frame, or attaches it to the last statement if it
continues one; says where its suite goes. -/
def attach (frame : Frame) (s : Statement) : Except SyntaxError (Frame × Slot) :=
  let word := firstWord s.head
  match frame.done with
  | last :: earlier =>
    let replace (new : Statement) : Frame := { frame with done := new :: earlier }
    if s.isElif then
      if last.isBranch && !last.tailHasElse then
        .ok (replace (last.mapTail (Statement.addOrelse [s])), .tailBody)
      else .error ⟨s.line, .strayElif⟩
    else if word == "else" then
      if last.isBranch then
        if last.tailHasElse then .error ⟨s.line, .duplicateElse⟩
        else .ok (replace (last.mapTail Statement.markElse), .tailOrelse)
      else if last.isLoop || last.form == .attempt then .ok (frame, .orelse)
      else .error ⟨s.line, .strayElse⟩
    else if word == "except" || word == "finally" then
      if last.form == .attempt then
        .ok (replace { last with handlers := last.handlers ++ [s] }, .handler)
      else .error ⟨s.line, .strayHandler word⟩
    else .ok (frame.append [s], .body)
  | [] =>
    if s.isElif then .error ⟨s.line, .strayElif⟩
    else if word == "else" then .error ⟨s.line, .strayElse⟩
    else if word == "except" || word == "finally" then .error ⟨s.line, .strayHandler word⟩
    else .ok (frame.append [s], .body)

/-- The parts of a row of statements divided by semicolons, none of them blank. -/
def parts (t : Text) : List Text :=
  ((splitTopLevel t ';').map Text.trim).filter fun part => !part.isEmpty

/-- Reads the statements of a row that follows the colon of a header; none of them may be a
header itself. -/
def inlineSuite (line : Nat) (t : Text) : Except SyntaxError (List Statement) :=
  (parts t).mapM fun part => do
    match ← readStatement line part with
    | .simple statement => return statement
    | .header _ _ => .error ⟨line, .invalid⟩

/-- Adds a logical line to the draft. -/
def addLine (draft : Draft) (ln : LogicalLine) : Except SyntaxError Draft := do
  let draft ← draft.indentTo ln
  if isHeader ln.text then
    match ← readStatement ln.line ln.text with
    | .simple statement => return { draft with inner := draft.inner.append [statement] }
    | .header statement inline_ =>
      let (frame, slot) ← attach draft.inner statement
      if inline_.isBlank then
        return { draft with
          inner := frame
          awaited := some ⟨ln.line, firstWord statement.head, slot⟩ }
      else
        let suite ← inlineSuite ln.line inline_
        return { draft with inner := frame.fill slot suite }
  else
    let readings ← (parts ln.text).mapM (readStatement ln.line)
    return { draft with inner := draft.inner.append (readings.map Reading.statement) }

/-- The statements of a complete draft. -/
def finish (draft : Draft) : Except SyntaxError (List Statement) :=
  match draft.awaited with
  | some awaited => .error ⟨awaited.line, awaited.fault⟩
  | none => .ok (close draft.inner draft.outer)

end Draft

/-- A **module**: a source and its statements. -/
structure Module where
  /-- The source. -/
  code : Text
  /-- The statements at its top level. -/
  statements : List Statement
  deriving Repr

/-- Reads a module. -/
def Module.parse (code : Text) : Except SyntaxError Module := do
  let lines ← logicalLines code
  let draft ← lines.foldlM Draft.addLine Draft.start
  return ⟨code, ← draft.finish⟩

/-- All statements of a module in source order, each with the number of loops around it. -/
def Module.walk (m : Module) : List (Statement × Nat) := Statement.walkAll 0 m.statements

end FlowTrace.Python
