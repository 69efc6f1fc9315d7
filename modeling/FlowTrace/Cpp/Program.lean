import FlowTrace.Braced.Source
import FlowTrace.Pattern.Search
import FlowTrace.Power

/-! # C++ programs

A C++ source is not parsed: **patterns** pick out the statements that matter, each with its offset
in the source. -/

namespace FlowTrace.Cpp

open Pattern

/-! ## Patterns -/

/-- Blanks, stars and ampersands between a type and a name. -/
def typeGap : Pattern := many1 (among (blankRanges ++ charRanges "*&"))

/-- A name behind any number of namespaces. -/
def qualifiedName : Pattern := seq (many (seq word "::")) word

/-- The head of a function with a body: groups are result type, name and parameters. -/
def functionPattern : Pattern :=
  inOrder [edge, group 1 word, typeGap, group 2 word, blanks, "(",
    group 3 (many (noneOf "()\x7b\x7d;")), ")", blanks, optional (inOrder ["const", blanks]),
    "\x7b"]

/-- A declaration: groups are type, name and initial value. -/
def declarationPattern : Pattern :=
  inOrder [edge,
    group 1 (seq qualifiedName
      (optional (inOrder [blanks, "<", many (noneOf ";\x7b\x7d()"), ">"]))),
    typeGap, group 2 word, blanks,
    optional (inOrder ["=", blanks, group 3 (many1 (noneOf ";\x7b\x7d"))]), ";"]

/-- A declaration of an array: groups are type, name and number of elements. -/
def arrayPattern : Pattern :=
  inOrder [edge, group 1 word, blanks1, group 2 word, blanks, "[", group 3 digits, "]", blanks,
    optional (inOrder ["=", blanks, "\x7b", many (noneOf ";"), "\x7d"]), blanks, ";"]

/-- A condition: group 1 is the word or words in front of the parenthesis. -/
def conditionPattern : Pattern :=
  inOrder [edge, group 1 (alt (inOrder ["else", blanks1, "if"]) "if"), blanks, "("]

/-- An alternative. -/
def elsePattern : Pattern := inOrder [edge, "else", edge]

/-- What follows an alternative that has a condition. -/
def elseIfPattern : Pattern := leading [blanks1, "if", edge]

/-- A loop: group 1 is its word. -/
def loopPattern : Pattern := inOrder [edge, group 1 (alt "for" "while"), blanks, "("]

/-- A loop variable: groups are type and name. -/
def loopVariablePattern : Pattern :=
  inOrder [edge, "for", blanks, "(", blanks, group 1 qualifiedName, blanks1, group 2 word, blanks,
    "="]

/-- A call as a statement: groups are name and arguments. -/
def callPattern : Pattern :=
  inOrder [edge, group 1 word, blanks, "(", group 2 (many (noneOf ";\x7b\x7d")), ")", blanks, ";"]

/-- A return: group 1 is the value. -/
def returnPattern : Pattern :=
  inOrder [edge, "return", edge, blanks, group 1 (many (noneOf ";")), ";"]

/-- A print: group 1 is what it prints. -/
def printPattern : Pattern :=
  inOrder [edge, "cout", blanks, "<<", blanks, group 1 (many (noneOf ";")), ";"]

/-- An assignment of a number: groups are name and number. -/
def assignPattern : Pattern :=
  inOrder [edge, group 1 word, blanks, "=", blanks, group 2 digits, blanks, ";"]

/-- An addition to a variable: group 1 is its name. -/
def appendPattern : Pattern := inOrder [edge, group 1 word, blanks, "+="]

/-- Words that are not types, though a name may follow them. -/
def notTypes : List Text :=
  ["return", "else", "namespace", "using", "delete", "new", "goto", "case", "throw", "class",
    "struct", "enum", "union", "do", "typedef"]

/-- Words that are not functions, though a parenthesis may follow them. -/
def notCalls : List Text :=
  ["if", "while", "for", "switch", "return", "sizeof", "catch", "alignof", "decltype"]

/-! ## What is picked out -/

/-- A function with its parameter list. -/
structure Function where
  /-- The result type. -/
  result : Text
  /-- The name. -/
  name : Text
  /-- The parameter list, on one line. -/
  params : Text
  /-- The offset of the name. -/
  offset : Nat
  /-- The line of the name. -/
  line : Nat
  deriving Repr

/-- A declared variable. -/
structure Declaration where
  /-- The type, on one line. -/
  type : Text
  /-- The name. -/
  name : Text
  /-- The initial value, on one line; empty when there is none. -/
  value : Text
  /-- The offset of the declaration. -/
  offset : Nat
  /-- The line of the name. -/
  line : Nat
  deriving Repr

/-- A declared array. -/
structure ArrayDecl where
  /-- The type of the elements. -/
  type : Text
  /-- The name. -/
  name : Text
  /-- The number of elements. -/
  size : Int64
  /-- The offset. -/
  offset : Nat
  /-- The line. -/
  line : Nat
  deriving Repr

/-- How a condition is introduced. -/
inductive Branch where
  /-- A condition of its own. -/
  | first
  /-- A condition under which an alternative is taken. -/
  | elseIf
  /-- An alternative without condition. -/
  | otherwise
  deriving DecidableEq, Repr

/-- A condition. -/
structure Condition where
  /-- How it is introduced. -/
  branch : Branch
  /-- Its text, on one line. -/
  text : Text
  /-- The offset. -/
  offset : Nat
  /-- The line. -/
  line : Nat
  deriving Repr

/-- A loop. -/
structure Loop where
  /-- Its word. -/
  word : Text
  /-- The text between its parentheses, on one line. -/
  text : Text
  /-- The offset. -/
  offset : Nat
  /-- The line. -/
  line : Nat
  /-- The offsets of the braces around its body, if it has some. -/
  body : Option (Nat × Nat)
  deriving Repr

/-- A call, a return or a print. -/
structure Phrase where
  /-- The name of the function that is called. -/
  name : Text
  /-- The text that belongs to it, on one line. -/
  text : Text
  /-- The offset. -/
  offset : Nat
  /-- The line. -/
  line : Nat
  deriving Repr

/-- A **program**: what the patterns picked out of a source. -/
structure Program where
  /-- The source. -/
  source : Text
  /-- The source with its comments blanked. -/
  code : Text
  /-- Functions with a body. -/
  functions : List Function
  /-- Declared variables. -/
  declarations : List Declaration
  /-- Declared arrays. -/
  arrays : List ArrayDecl
  /-- Conditions, in source order. -/
  conditions : List Condition
  /-- Loops. -/
  loops : List Loop
  /-- Loop variables. -/
  loopVariables : List Declaration
  /-- Calls. -/
  calls : List Phrase
  /-- Returns. -/
  returns : List Phrase
  /-- Prints. -/
  prints : List Phrase
  /-- The first number assigned to each name. -/
  numbers : List (Text × Int64)
  deriving Repr

/-- The word that decimal digits denote, if it is below 2⁶³. -/
def word? (digits : Text) : Option Int64 :=
  match Text.toNat? digits with
  | some n => if n < wordLimit then some (Int64.ofNat n) else none
  | none => none

/-- The functions of a source. -/
def findFunctions (code : Text) : List Function :=
  (functionPattern.findAll code).filterMap fun m =>
    let result := m.group code 1
    let name := m.group code 2
    if notCalls.contains name || notTypes.contains result then none
    else some ⟨result, name, Text.collapse (m.group code 3), m.groupStart 2,
      code.lineAt (m.groupStart 2)⟩

/-- The declarations of a source. -/
def findDeclarations (code : Text) : List Declaration :=
  (declarationPattern.findAll code).filterMap fun m =>
    let type := Text.collapse (m.group code 1)
    if notTypes.contains type then none
    else some ⟨type, m.group code 2, Text.collapse (m.group code 3), m.start,
      code.lineAt (m.groupStart 2)⟩

/-- The arrays of a source. -/
def findArrays (code : Text) : List ArrayDecl :=
  (arrayPattern.findAll code).filterMap fun m =>
    (word? (m.group code 3)).map fun size =>
      ⟨m.group code 1, m.group code 2, size, m.start, code.lineAt m.start⟩

/-- The conditions of a source, in source order. -/
def findConditions (code : Text) : List Condition :=
  let tests := (conditionPattern.findAll code).map fun m =>
    let branch := if (m.group code 1).startsWith "else" then Branch.elseIf else .first
    (⟨branch, Braced.enclosed code (m.stop - 1), m.start, code.lineAt m.start⟩ : Condition)
  let alternatives := (elsePattern.findAll code).filterMap fun m =>
    if elseIfPattern.matchesIn (code.drop m.stop) then none
    else some (⟨.otherwise, [], m.start, code.lineAt m.start⟩ : Condition)
  (tests ++ alternatives).mergeSort fun a b => a.offset ≤ b.offset

/-- The braces around the body that follows the parenthesis at `opening`. -/
def bodyAfter? (code : Text) (opening : Nat) : Option (Nat × Nat) := do
  let stop ← Braced.closing? code opening
  let rest := (code.drop (stop + 1)).dropWhile (Text.isOneOf " \t\r\n")
  if rest.head? == some ('\x7b' : UInt8) then
    let start := code.length - rest.length
    return (start, ← Braced.closing? code start)
  else none

/-- The loops of a source. -/
def findLoops (code : Text) : List Loop :=
  (loopPattern.findAll code).map fun m =>
    ⟨m.group code 1, Braced.enclosed code (m.stop - 1), m.start, code.lineAt m.start,
      bodyAfter? code (m.stop - 1)⟩

/-- The loop variables of a source. -/
def findLoopVariables (code : Text) : List Declaration :=
  (loopVariablePattern.findAll code).map fun m =>
    ⟨m.group code 1, m.group code 2, [], m.start, code.lineAt m.start⟩

/-- Whether what looks like a call at an offset declares a function: a type stands before it. -/
def isPrototype (code : Text) (offset : Nat) : Bool :=
  let before := (code.take offset).reverse.dropWhile (Text.isOneOf " \t\r\n*&")
  let word : Text := (before.takeWhile Text.isWord).reverse
  !word.isEmpty && !notTypes.contains word

/-- The calls of a source. -/
def findCalls (code : Text) : List Phrase :=
  (callPattern.findAll code).filterMap fun m =>
    let name := m.group code 1
    if notCalls.contains name || isPrototype code (m.groupStart 1) then none
    else some ⟨name, Text.collapse (m.group code 2), m.start, code.lineAt m.start⟩

/-- The phrases of a pattern whose text is its first group. -/
def findPhrases (p : Pattern) (code : Text) : List Phrase :=
  (p.findAll code).map fun m =>
    ⟨[], Text.collapse (m.group code 1), m.start, code.lineAt m.start⟩

/-- The first number assigned to each name. -/
def findNumbers (code : Text) : List (Text × Int64) :=
  (assignPattern.findAll code).foldl
    (fun found m =>
      let name := m.group code 1
      if found.any (·.1 == name) then found
      else
        match word? (m.group code 2) with
        | some n => found ++ [(name, n)]
        | none => found)
    []

/-- Reads a program. -/
def Program.parse (source : Text) : Except SyntaxError Program := do
  let code ← Braced.blankComments source
  Braced.checkBrackets code
  return {
    source, code
    functions := findFunctions code
    declarations := findDeclarations code
    arrays := findArrays code
    conditions := findConditions code
    loops := findLoops code
    loopVariables := findLoopVariables code
    calls := findCalls code
    returns := findPhrases returnPattern code
    prints := findPhrases printPattern code
    numbers := findNumbers code }

end FlowTrace.Cpp
