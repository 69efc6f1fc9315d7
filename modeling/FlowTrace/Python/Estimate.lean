import FlowTrace.Python.Flow
import FlowTrace.Report.Ledger
import FlowTrace.Text.LetterCase

/-! # Estimates for Python modules

Running time from the nesting of loops and from recursion, advice from two patterns of slow code,
and memory from the literals that are assigned. -/

namespace FlowTrace.Python

open Pattern

/-! ## Time and space -/

mutual
/-- Whether a statement calls a function by its name. Nested definitions of the same name are
passed over. -/
def calls (call : Pattern) (name : Text) : Statement → Bool
  | ⟨_, head, form, body, orelse, handlers⟩ =>
    let redefines := match form with
      | .func other _ => other == name
      | _ => false
    !redefines && (call.matchesIn head || callsAny call name body || callsAny call name orelse ||
      callsAny call name handlers)

/-- Whether one of several statements calls a function by its name. -/
def callsAny (call : Pattern) (name : Text) : List Statement → Bool
  | [] => false
  | s :: rest => calls call name s || callsAny call name rest
end

/-- A call of a function by its name. -/
def callPattern (name : Text) : Pattern := inOrder [edge, literal name, blanks, "("]

/-- Whether a function of the module calls itself from its own suite. -/
def Module.isRecursive (m : Module) : Bool :=
  m.walk.any fun (s, _) =>
    match s.form with
    | .func name _ => callsAny (callPattern name) name s.body
    | _ => false

/-- The number of loops. -/
def Module.loops (m : Module) : Nat := m.walk.countP fun (s, _) => s.isLoop

/-- The largest number of loops around a loop. -/
def Module.loopDepth (m : Module) : Nat :=
  m.walk.foldl (fun deepest (s, depth) => if s.isLoop then max deepest depth else deepest) 0

/-- The growth of running time and its reason. -/
def Module.time (m : Module) : Text × Text :=
  let nested := Text.ofNat (m.loopDepth + 1)
  if m.isRecursive then
    ("O(2^n)", "Detected recursive calls, leading to exponential time complexity.")
  else if 0 < m.loopDepth then
    ("O(n^" ++ nested ++ ")",
      "Detected " ++ nested ++ " nested loops, leading to polynomial time complexity.")
  else if m.loops = 1 then
    ("O(n)", "Detected a single loop, leading to linear time complexity.")
  else if 1 < m.loops then
    ("O(n)", "Detected " ++ Text.ofNat m.loops ++
      " sequential loops, leading to linear time complexity.")
  else ("O(1)", "No loops or recursion detected, constant time complexity.")

/-- The growth of space and its reason. -/
def Module.space (m : Module) : Text × Text :=
  if m.isRecursive then
    ("O(n)", "Recursive calls detected, leading to linear space complexity due to call stack.")
  else if m.walk.isEmpty then ("O(1)", "Minimal space usage detected.")
  else ("O(1)", "Only a constant number of variables detected.")

/-- The estimate of time and space. -/
def Module.complexity (m : Module) : Complexity :=
  { time := m.time.1, space := m.space.1, details := some [m.time.2, m.space.2] }

/-! ## Advice -/

/-- A test for membership in a list that is written out. -/
def membershipPattern : Pattern :=
  whole [name, blanks1, optional (inOrder ["not", blanks1]), "in", blanks1, "[", many inLine, "]"]

/-- The advice that a single statement gives rise to. -/
def suggestions (s : Statement) : List Text :=
  match s.form with
  | .forLoop _ _ =>
    if s.body.any fun inner => inner.form matches .forLoop _ _ then
      ["Consider replacing nested loops with a list comprehension for better performance."]
    else []
  | .branch condition _ _ =>
    if membershipPattern.matchesIn condition then
      ["Consider using a set instead of a list for membership testing to reduce time complexity from O(n) to O(1)."]
    else []
  | _ => []

/-- Advice on the speed of a module, each suggestion once. -/
def Module.advice (m : Module) : Advice :=
  { suggestions := some ((m.walk.flatMap fun (s, _) => suggestions s).foldl
      (fun seen text => if seen.contains text then seen else seen ++ [text]) [])
    optimizedCode := m.code }

/-! ## Literals -/

/-- The literal of a number. -/
def numberPattern : Pattern :=
  let spaced := many (among ((0x5F, 0x5F) :: digitRanges))
  let digit := among digitRanges
  whole [optional (among (charRanges "-+")),
    alt
      (inOrder ["0", among (charRanges "xXoObB"),
        many1 (among ([(0x5F, 0x5F), (0x61, 0x66), (0x41, 0x46)] ++ digitRanges))])
      (inOrder [
        alt (inOrder [digit, spaced, optional ".", spaced]) (inOrder [".", digit, spaced]),
        optional (inOrder [among (charRanges "eE"), optional (among (charRanges "-+")), digits]),
        optional "j"])]

/-- The mark of a number in another base than ten. -/
def radixPattern : Pattern := leading ["0", among (charRanges "xob")]

/-- The literal of a string; groups 2 to 5 are its contents, by the marks around it. -/
def stringPattern : Pattern :=
  let letter := among (charRanges "rRbBuUfF")
  let any := many anyRune
  whole [optional (seq letter (optional letter)),
    group 1 (oneOfAll [
      inOrder ["\"\"\"", group 2 any, "\"\"\""],
      inOrder ["'''", group 3 any, "'''"],
      inOrder ["\"", group 4 any, "\""],
      inOrder ["'", group 5 any, "'"]])]

/-- A list that is computed from another. -/
def comprehensionPattern : Pattern :=
  let inside := many (noneOf "[]")
  inOrder ["[", inside, edge, "for", edge, inside, edge, "in", edge, inside, "]"]

/-- A copy of a list by slicing. -/
def sliceCopyPattern : Pattern :=
  let inside := many (noneOf "[]")
  whole [dottedName, "[", inside, ":", inside, "]"]

/-- A call. -/
def callExprPattern : Pattern := whole [dottedName, blanks, "(", many inLine, ")"]

/-- Whether a quotation mark occurs that is not behind a backslash. -/
def hasUnescaped (mark : UInt8) : Text → Bool → Bool
  | [], _ => false
  | _ :: t, true => hasUnescaped mark t false
  | c :: t, false =>
    if c == Text.backslash then hasUnescaped mark t true
    else if c == mark then true
    else hasUnescaped mark t false

/-- The contents of an expression that is a single string literal. -/
def stringContents? (expr : Text) : Option Text :=
  let expr := Text.trim expr
  match stringPattern.find? expr with
  | none => none
  | some m =>
    let contents (i : Nat) := m.group expr i
    if !(contents 2).isEmpty then some (contents 2)
    else if !(contents 3).isEmpty then some (contents 3)
    else if !(contents 4).isEmpty then
      if hasUnescaped Text.doubleQuote (contents 4) false then none else some (contents 4)
    else if !(contents 5).isEmpty then
      if hasUnescaped Text.apostrophe (contents 5) false then none else some (contents 5)
    else some []

/-! ## Memory -/

/-- The size and the kind of a value. -/
abbrev Estimate := Int64 × Text

/-- The size of a string with a number of code points. -/
def stringSize (contents : Text) : Int64 := 49 + Int64.ofNat contents.runeCount

/-- The parts of a list or dictionary between its top-level commas. -/
def elements (inside : Text) : List Text := Text.nonBlank (splitTopLevel inside ',')

/-- What stands between the first and the last byte. -/
def inner (t : Text) : Text := (t.drop 1).dropLast

/-- Estimates the value of an expression. Long lists are flagged in the ledger. `bound` bounds the
nesting of the expression. -/
def valueSize : Nat → Ledger → Text → Nat → Ledger × Estimate
  | 0, ledger, _, _ => (ledger, 0, "expression")
  | bound + 1, ledger, expr, line =>
    let expr := Text.trim expr
    if expr.isEmpty then (ledger, 0, "expression")
    else if numberPattern.matchesIn expr then
      let digits := Text.lower (expr.trimLeft fun c => c == '-' || c == '+')
      if !radixPattern.matchesIn digits && digits.any (Text.isOneOf ".ej") then
        (ledger, 24, "float")
      else (ledger, 24, "int")
    else
      match stringContents? expr with
      | some contents => (ledger, stringSize contents, "str")
      | none =>
        if expr.startsWith "[" && expr.endsWith "]" && !comprehensionPattern.matchesIn expr then
          let parts := elements (inner expr)
          let (ledger, size) := parts.foldl
            (fun (ledger, size) part =>
              let (ledger, partSize, _) := valueSize bound ledger part line
              (ledger, size + partSize))
            (ledger, 64 + 8 * Int64.ofNat parts.length)
          let ledger :=
            if 1000 < parts.length then
              ledger.flag line
                ("Large list with " ++ Text.ofNat parts.length ++ " elements")
                "Consider using a generator or numpy array for large datasets to save memory"
            else ledger
          (ledger, size, "list")
        else if expr.startsWith "\x7b" && expr.endsWith "\x7d" then
          let parts := elements (inner expr)
          if parts.isEmpty then (ledger, 240, "dict")
          else
            dictSize (fun ledger part => valueSize bound ledger part line) ledger
              (240 + 36 * Int64.ofNat parts.length) parts
        else if isName expr then (ledger, 0, "name")
        else if callExprPattern.matchesIn expr then (ledger, 0, "call")
        else (ledger, 0, "expression")
where
  /-- Adds up the keys and values of a dictionary. A part that is neither a pair nor an unpacked
  dictionary shows that it is a set. -/
  dictSize (value : Ledger → Text → Ledger × Estimate) (ledger : Ledger) (size : Int64) :
      List Text → Ledger × Estimate
    | [] => (ledger, size, "dict")
    | part :: parts =>
      match splitTopLevel part ':' with
      | [k, v] =>
        let (ledger, keySize, _) := value ledger k
        let (ledger, itemSize, _) := value ledger v
        dictSize value ledger (size + (keySize + itemSize)) parts
      | _ =>
        if (Text.trim part).startsWith "**" then dictSize value ledger size parts
        else (ledger, 0, "set")

/-- Records the memory of one statement. -/
def recordStatement (ledger : Ledger) (s : Statement) : Ledger :=
  let ledger := (comprehensionPattern.findAll s.head).foldl
    (fun ledger _ =>
      (ledger.allocateAs "list comprehension" "ListComp" "8064 bytes (assumed 1000 elements)"
          8064 s.line).flag s.line
        "List comprehension creates a large list in memory"
        "Consider using a generator expression to save memory")
    ledger
  match s.form with
  | .assign targets value =>
    (targetNames targets).foldl
      (fun ledger name =>
        let (ledger, size, kind) := valueSize (value.length + 1) ledger value s.line
        let ledger := ledger.allocate name kind size s.line
        if sliceCopyPattern.matchesIn value then
          ledger.flag s.line "Unnecessary list copy using slicing"
            "Use a reference instead of copying (e.g., y = x instead of y = x[:])"
        else ledger)
      ledger
  | .update target operator value =>
    if operator == "+" && isName target then
      match stringContents? value with
      | some contents =>
        (ledger.allocate target "string (concatenation)" (stringSize contents) s.line).flag s.line
          "String concatenation in a loop creates multiple temporary objects"
          "Use a list to collect strings and join them at the end (e.g., ''.join(list))"
      | none => ledger
    else ledger
  | .forLoop target _ =>
    if isName target then ledger.allocate target "int (loop variable)" 24 s.line else ledger
  | .func name params =>
    params.foldl
      (fun ledger param =>
        ledger.allocate (param ++ " (param in " ++ name ++ ")") "int (assumed)" 24 s.line)
      ledger
  | _ => ledger

/-- The estimate of memory use. -/
def Module.memory (m : Module) : MemoryUse :=
  (m.walk.foldl (fun ledger (s, _) => recordStatement ledger s) ({} : Ledger)).close

end FlowTrace.Python
