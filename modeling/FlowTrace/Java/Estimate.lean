import FlowTrace.Java.Flow
import FlowTrace.Report.Ledger

/-! # Estimates for Java programs

Running time from the number of loops, and memory from local variables, parameters and the
strings that loops put together. -/

namespace FlowTrace.Java

open Pattern

/-- The number of loops. -/
def Program.loops (p : Program) : Nat := p.walk.countP Statement.isLoop

/-- The estimate of time and space. -/
def Program.complexity (p : Program) : Complexity :=
  let growth : Text := if p.loops = 0 then "constant" else "linear"
  { time := if p.loops = 0 then "O(1)" else "O(n)"
    space := "O(1)"
    details := some ["Detected " ++ Text.ofNat p.loops ++ " loops, leading to " ++ growth ++
      " time complexity."] }

/-- The advice: to build strings otherwise, wherever strings are mentioned. -/
def Program.advice (p : Program) : Advice :=
  { suggestions := some
      (if p.source.includes "String" then
        ["Consider using StringBuilder for string concatenation in loops."]
      else [])
    optimizedCode := p.source }

/-! ## Memory -/

/-- Records the memory of a local variable. -/
def recordLocal (ledger : Ledger) (line : Nat) (v : Variable) : Ledger :=
  let scalar := Braced.scalarSize v.base
  if v.isArray then
    if scalar = 0 || v.size = 0 then ledger
    else
      let extent := Ledger.wordText v.size
      let ledger := ledger.allocate v.name (v.base ++ " array[" ++ extent ++ "]")
        (v.size * scalar) line
      if 1000 < v.size then
        ledger.flag line ("Large array declaration (" ++ extent ++ " elements)")
          "Consider using a smaller array or an ArrayList with pre-allocated capacity"
      else ledger
  else if 0 < scalar then ledger.allocate v.name v.base scalar line
  else if v.base == "String" then
    let size : Int64 := match Braced.stringContents? v.init with
      | some contents => 40 + Int64.ofNat contents.runeCount
      | none => 40
    ledger.allocate v.name "String" size line
  else if v.base == "ArrayList" || v.init.startsWith "new ArrayList" then
    (ledger.allocateAs v.name "ArrayList" "8040 bytes (assumed 1000 elements)" 8040 line).flag line
      "Large ArrayList allocation"
      "Consider pre-allocating capacity (e.g., new ArrayList<>(capacity)) to avoid resizing"
  else ledger

/-- The local variables that a statement declares. -/
def Statement.declared (s : Statement) : List Variable :=
  match s.form with
  | .locals declared => declared
  | _ => []

/-- All local variables of a program, in source order. -/
def Program.locals (p : Program) : List Variable := p.walk.flatMap Statement.declared

/-- The first local variable with a name. -/
def Program.local? (p : Program) (name : Text) : Option Variable :=
  p.locals.find? (·.name == name)

/-- Records the variables of a loop header. -/
def recordLoopVariables (ledger : Ledger) (s : Statement) : Ledger :=
  match s.form with
  | .forLoop _ declared =>
    declared.foldl
      (fun ledger v =>
        let size := Braced.scalarSize v.base
        if 0 < size && !v.isArray then
          ledger.allocate v.name (v.base ++ " (loop variable)") size s.line
        else ledger)
      ledger
  | _ => ledger

/-- A call of a method by its name: group 1 is the argument list. -/
def callPattern (name : Text) : Pattern :=
  inOrder [edge, literal name, blanks, "(", group 1 (many (noneOf ";\x7b\x7d")), ")"]

/-- The local variables that are passed to a method, in source order. -/
def Program.arguments (p : Program) (method : Text) : List Variable :=
  ((callPattern method).findAll p.code).flatMap fun m =>
    ((m.group p.code 1).splitAtByte ',').filterMap fun arg => p.local? (Text.trim arg)

/-- The number of elements of the first local array of a known size that is passed to a method;
zero if none is. -/
def Program.argumentSize (p : Program) (method : Text) : Int64 :=
  (((p.arguments method).find? fun v => v.isArray && 0 < v.size).map (·.size)).getD 0

/-- Records a parameter of a method. An array of numbers of four bytes has as many elements as a
local array passed to the method, else one hundred. -/
def recordParam (p : Program) (method : Text) (line : Nat) (ledger : Ledger) (v : Variable) :
    Ledger :=
  let holder := v.name ++ " (param in " ++ method ++ ")"
  let scalar := Braced.scalarSize v.base
  if !v.isArray then
    if 0 < scalar then ledger.allocate holder v.base scalar line
    else if v.base == "String" then
      ledger.allocateAs holder "String" "40 bytes (base size)" 40 line
    else ledger
  else if v.base == "int" || v.base == "float" then
    let known := p.argumentSize method
    let elems := if known = 0 then 100 else known
    let shown := Ledger.wordText elems
    let holder := v.name ++ " (array param in " ++ method ++ ")"
    let ledger :=
      if ledger.has holder then ledger
      else ledger.allocateAs holder (v.base ++ " array")
        (Ledger.bytesText (elems * 4) ++ " (assumed " ++ shown ++ " elements)") (elems * 4) line
    if 1000 < elems then
      ledger.flag line ("Large array parameter (" ++ shown ++ " elements) passed to method")
        "Consider passing a smaller array or using a List with pre-allocated capacity"
    else ledger
  else ledger

/-- Records the parameters of a method. -/
def recordMethod (p : Program) (ledger : Ledger) (s : Statement) : Ledger :=
  match s.form with
  | .method name params => params.foldl (recordParam p name s.line) ledger
  | _ => ledger

/-- Whether a statement adds to a local string. -/
def appendsString (p : Program) (s : Statement) : Bool :=
  match s.form with
  | .assign target operator _ =>
    operator == "+=" && (p.local? target).any fun (v : Variable) => v.base == ("String" : Text) && !v.isArray
  | _ => false

/-- Records the temporary strings of a loop. -/
def recordLoop (p : Program) (ledger : Ledger) (s : Statement) : Ledger :=
  let isFor := match s.form with
    | .forLoop _ _ | .forEach _ => true
    | _ => false
  if isFor && (Statement.walkAll s.body).any (appendsString p) then
    (ledger.allocateAs "temporary strings" "String (concatenation in loop)"
        "4000 bytes (assumed 100 concatenations)" 4000 s.line).flag s.line
      "String concatenation in a loop creates multiple temporary objects"
      "Use StringBuilder for string concatenation in loops"
  else ledger

/-- The memory that a program uses. -/
def Program.ledger (p : Program) : Ledger :=
  let statements := p.walk
  let ledger := statements.foldl
    (fun ledger s => s.declared.foldl (fun ledger v => recordLocal ledger s.line v) ledger)
    ({} : Ledger)
  let ledger := statements.foldl recordLoopVariables ledger
  let ledger := statements.foldl (recordMethod p) ledger
  statements.foldl (recordLoop p) ledger

/-- The estimate of memory use. -/
def Program.memory (p : Program) : MemoryUse := p.ledger.close

/-- Whether a method has an array parameter whose size is looked up at its calls. -/
def Statement.needsCalls (s : Statement) : Option Text :=
  match s.form with
  | .method name params =>
    if params.any fun v => v.isArray && (v.base == "int" || v.base == "float") then some name
    else none
  | _ => none

/-- A method whose calls have to be looked up although no pattern can be made of its name: the
name is not well-formed UTF-8. -/
def Program.unsearchable? (p : Program) : Option Text :=
  (p.walk.filterMap Statement.needsCalls).find? fun name => !name.isValid

end FlowTrace.Java
