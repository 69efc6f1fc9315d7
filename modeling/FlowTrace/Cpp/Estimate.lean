import FlowTrace.Cpp.Flow
import FlowTrace.Report.Ledger

/-! # Estimates for C++ programs

Running time from the number of loops, and memory from declarations, arrays and parameters. -/

namespace FlowTrace.Cpp

/-- The estimate of time and space. -/
def Program.complexity (p : Program) : Complexity :=
  let loops := p.loops.length
  let growth : Text := if loops = 0 then "constant" else "linear"
  { time := if loops = 0 then "O(1)" else "O(n)"
    space := "O(1)"
    details := some ["Detected " ++ Text.ofNat loops ++ " loops, leading to " ++ growth ++
      " time complexity."] }

/-- The advice: there is none for C++. -/
def Program.advice (p : Program) : Advice :=
  { suggestions := some [], optimizedCode := p.source }

/-- A type without namespaces and template arguments. -/
def baseType (type : Text) : Text :=
  let type := match type.indexOf? "<" with
    | some i => type.take i
    | none => type
  let type : Text := match Text.lastIndexOf? type "::" with
    | some i => type.drop (i + 2)
    | none => type
  type.trim

/-- Records the memory of a declared variable. -/
def recordDeclaration (ledger : Ledger) (d : Declaration) : Ledger :=
  let base := baseType d.type
  let scalar := Braced.scalarSize base
  if 0 < scalar then ledger.allocate d.name base scalar d.line
  else if base == "string" then
    let size : Int64 := match Braced.stringContents? d.value with
      | some contents => 32 + Int64.ofNat contents.runeCount
      | none => 32
    ledger.allocate d.name base size d.line
  else if d.type.includes "vector" then
    (ledger.allocateAs d.name "vector" "8024 bytes (assumed 1000 elements)" 8024 d.line).flag
      d.line "Large vector allocation on stack"
      "Consider using dynamic allocation (e.g., std::vector on heap) or reserve memory in advance"
  else ledger

/-- Records the memory of a declared array of numbers of four bytes. -/
def recordArray (ledger : Ledger) (a : ArrayDecl) : Ledger :=
  if a.type == "int" || a.type == "float" then
    let extent := Ledger.wordText a.size
    let ledger := ledger.allocate a.name (a.type ++ " array[" ++ extent ++ "]") (a.size * 4) a.line
    if 1000 < a.size then
      ledger.flag a.line ("Large array declaration (" ++ extent ++ " elements) on stack")
        "Consider using dynamic allocation (e.g., new int[]) to avoid stack overflow"
    else ledger
  else ledger

/-- Records the memory of a loop variable. -/
def recordLoopVariable (ledger : Ledger) (v : Declaration) : Ledger :=
  let size := Braced.scalarSize (baseType v.type)
  if 0 < size then ledger.allocate v.name (v.type ++ " (loop variable)") size v.line else ledger

/-- The parameters of a function, each without blanks around it. -/
def Function.paramList (f : Function) : List Text :=
  (Text.nonBlank (f.params.splitAtByte ',')).map Text.trim

/-- What the parameters of a function say about an array among them: its name and the name of
the parameter that holds its size. -/
structure ArrayParam where
  /-- The name of the array. -/
  array : Text := []
  /-- The name of the size. -/
  size : Text := []
  deriving Repr

/-- Records one parameter, and notes an array with the first size parameter beside it. -/
def recordParam (f : Function) (params : List Text) (state : Ledger × ArrayParam)
    (param : Nat × Text) : Ledger × ArrayParam :=
  let (ledger, found) := state
  let (i, param) := param
  match (param.dropStart "const ").words with
  | [] => state
  | first :: more =>
    let last := more.getLast?.getD first
    let type := Text.trimRight first (Text.isOneOf "*&")
    let name := Text.trimRight (Text.trimLeft last (Text.isOneOf "*&[]")) (Text.isOneOf "*&[]")
    let size := Braced.scalarSize type
    if param.includes "[]" then
      let other := (params.mapIdx Prod.mk).find? fun (j, other) => j != i && other.startsWith "int "
      (ledger, { array := name, size := match other with
        | some (_, other) => other.words[1]?.getD []
        | none => found.size })
    else if 0 < size then
      (ledger.allocate (name ++ " (param in " ++ f.name ++ ")") type size f.line, found)
    else state

/-- The size of a declared array that is passed to a function by name. -/
def Program.argumentSize? (p : Program) (name : Text) : Option Int64 :=
  (p.calls.filter (·.name == name)).findSome? fun c =>
    (c.text.splitAtByte ',').findSome? fun arg =>
      (p.arrays.find? (·.name == Text.trim arg)).map (·.size)

/-- Records the parameters of a function. An array with a size parameter beside it has as many
elements as the first number assigned to a variable of that name, else as an array passed to the
function, else one hundred. -/
def recordFunction (p : Program) (ledger : Ledger) (f : Function) : Ledger :=
  let params := f.paramList
  let (ledger, found) := (params.mapIdx Prod.mk).foldl (recordParam f params) (ledger, {})
  if found.array.isEmpty || found.size.isEmpty then ledger
  else
    let elems := match p.numbers.find? (·.1 == found.size) with
      | some (_, n) => n
      | none => (p.argumentSize? f.name).getD 100
    let shown := Ledger.wordText elems
    let holder := found.array ++ " (array param in " ++ f.name ++ ")"
    let ledger :=
      if ledger.has holder then ledger
      else ledger.allocateAs holder "int array"
        (Ledger.bytesText (elems * 4) ++ " (assumed " ++ shown ++ " elements)") (elems * 4) f.line
    if 1000 < elems then
      ledger.flag f.line ("Large array parameter (" ++ shown ++ " elements) passed to function")
        "Consider passing a reference to a smaller data structure or using a vector with reserved capacity"
    else ledger

/-- Whether the body of a loop adds to a string. -/
def concatenates (strings : List Text) (body : Text) : Bool :=
  body.includes "+=" && (body.includes "string" ||
    (appendPattern.findAll body).any fun m => strings.contains (m.group body 1))

/-- Records the temporary strings of a loop. -/
def recordLoop (p : Program) (strings : List Text) (ledger : Ledger) (l : Loop) : Ledger :=
  match l.body with
  | none => ledger
  | some (start, stop) =>
    if concatenates strings (p.code.slice start stop) then
      (ledger.allocateAs "temporary strings" "string (concatenation in loop)"
          "3200 bytes (assumed 100 concatenations)" 3200 l.line).flag l.line
        "String concatenation in a loop creates multiple temporary objects"
        "Use std::stringstream or pre-allocate string size to avoid reallocations"
    else ledger

/-- The names of the declared strings. -/
def Program.strings (p : Program) : List Text :=
  (p.declarations.filter fun d => baseType d.type == "string").map (·.name)

/-- The memory that a program uses. -/
def Program.ledger (p : Program) : Ledger :=
  let ledger := p.declarations.foldl recordDeclaration ({} : Ledger)
  let ledger := p.arrays.foldl recordArray ledger
  let ledger := p.loopVariables.foldl recordLoopVariable ledger
  let ledger := p.functions.foldl (recordFunction p) ledger
  p.loops.foldl (recordLoop p p.strings) ledger

/-- The estimate of memory use. -/
def Program.memory (p : Program) : MemoryUse := p.ledger.close

end FlowTrace.Cpp
