import FlowTrace.Pattern.Search
import FlowTrace.Python.LogicalLine
import FlowTrace.Python.Statement

/-! # What a line says

A logical line is either a **header**, which opens a suite, or a row of simple statements divided
by semicolons. This file decides which, and reads the statement of a single part. -/

/-! ## Top level of a line

The places of a line that are outside string literals and brackets, and the ways to divide a line
there. Inside brackets of any kind nothing divides, and a closing bracket without an opening one
ends the top level as well. -/

namespace FlowTrace.Python

open Pattern (Place)

/-- The top-level places of a text, in order. -/
def topLevel (t : Text) : List Place := go t 0 none 0 none false
where
  /-- `depth` counts open brackets, `mark` is the quotation mark of an open string, and
  `escaped` says that the byte stands behind a backslash in a string. -/
  go : Text → Nat → Option UInt8 → Int → Option UInt8 → Bool → List Place
    | [], _, _, _, _, _ => []
    | c :: t, offset, _, depth, some mark, escaped =>
      if escaped then go t (offset + 1) (some c) depth (some mark) false
      else if c == Text.backslash then go t (offset + 1) (some c) depth (some mark) true
      else go t (offset + 1) (some c) depth (if c == mark then none else some mark) false
    | c :: t, offset, before, depth, none, _ =>
      if c == Text.apostrophe || c == Text.doubleQuote then
        go t (offset + 1) (some c) depth (some c) false
      else if c == '(' || c == '[' || c == '\x7b' then
        go t (offset + 1) (some c) (depth + 1) none false
      else if c == ')' || c == ']' || c == '\x7d' then
        go t (offset + 1) (some c) (depth - 1) none false
      else if depth == 0 then
        ⟨offset, before, c :: t⟩ :: go t (offset + 1) (some c) depth none false
      else go t (offset + 1) (some c) depth none false

/-- Divides a text at the bytes with the given offsets, which are dropped. -/
def cutAt (t : Text) (offsets : List Nat) : List Text := go t 0 offsets []
where
  /-- `part` holds the current part, last byte first. -/
  go : Text → Nat → List Nat → Text → List Text
    | [], _, _, part => [part.reverse]
    | c :: t, offset, [], part => go t (offset + 1) [] (c :: part)
    | c :: t, offset, cut :: cuts, part =>
      if offset == cut then part.reverse :: go t (offset + 1) cuts []
      else go t (offset + 1) (cut :: cuts) (c :: part)

/-- The parts of a text between the top-level places where it has the byte `sep`. -/
def splitTopLevel (t : Text) (sep : UInt8) : List Text :=
  cutAt t (((topLevel t).filter (·.rest.head? == some sep)).map (·.offset))

/-- Whether the word `lambda` stands at a place. -/
def atLambda (place : Place) : Bool :=
  ("lambda" : Text).isPrefixOf place.rest && !place.before.any Text.isWord &&
    !place.rest[6]?.any Text.isWord

/-- The offset of the colon that ends a header: the first at top level that belongs neither to
an assignment expression nor to a lambda. -/
def headerColon? (t : Text) : Option Nat := go (topLevel t) 0
where
  /-- `lambdas` counts the lambdas whose colon is still to come. -/
  go : List Place → Nat → Option Nat
    | [], _ => none
    | place :: places, lambdas =>
      if atLambda place then go places (lambdas + 1)
      else if place.rest.head? != some (':' : UInt8) || place.rest[1]? == some ('=' : UInt8) then
        go places lambdas
      else
        match lambdas with
        | lambdas + 1 => go places lambdas
        | 0 => some place.offset

/-- Whether the equals sign at a place assigns: it is not part of a comparison or of another
operator. -/
def atAssignment (place : Place) : Bool :=
  place.rest.head? == some ('=' : UInt8) && place.rest[1]? != some ('=' : UInt8) &&
    !place.before.any (Text.isOneOf "=!<>:+-*/%&|^@")

/-- The parts of a statement between its assignment signs. -/
def splitAssignment (t : Text) : List Text :=
  cutAt t (((topLevel t).filter atAssignment).map (·.offset))

end FlowTrace.Python

namespace FlowTrace.Python

open Pattern

/-! ## Patterns of statements -/

/-- A function header: group 1 is the name, group 2 the parameter list. -/
def funcPattern : Pattern :=
  whole [optional (inOrder ["async", blanks1]), "def", blanks1, group 1 name, blanks,
    "(", group 2 (many inLine), ")", blanks, optional (inOrder ["->", many inLine])]

/-- A class header: group 1 is the name. -/
def classPattern : Pattern :=
  whole ["class", blanks1, group 1 name, blanks, optional (inOrder ["(", many inLine, ")"])]

/-- The header of a loop over items: group 1 is the target, group 2 what it runs over. -/
def forPattern : Pattern :=
  whole [optional (inOrder ["async", blanks1]), "for", blanks1,
    group 1 (seq inLine (star false inLine)), blanks1, "in", blanks1, group 2 (many1 inLine)]

/-- An update: group 1 is the target, group 2 the operator, group 3 the value. -/
def updatePattern : Pattern :=
  whole [group 1 (seq dottedName (optional (inOrder ["[", many inLine, "]"]))), blanks,
    group 2 (oneOfAll ["**", "//", ">>", "<<", "+", "-", "*", "/", "%", "@", "&", "|", "^"]),
    "=", blanks, group 3 (many1 inLine)]

/-- A single name. -/
def namePattern : Pattern := whole [name]

/-- Whether a text is a single name. -/
def isName (t : Text) : Bool := namePattern.matchesIn t

/-- The name that a text begins with, empty if there is none. -/
def firstWord (t : Text) : Text :=
  match (leading [name]).find? t with
  | some m => t.slice m.start m.stop
  | none => []

/-! ## Headers and simple statements -/

/-- The words that begin headers. -/
def headerWords : List Text :=
  ["def", "class", "if", "elif", "else", "for", "while", "try", "except", "finally", "with",
    "async", "match", "case"]

/-- The words that begin simple statements without a place in a flowchart. -/
def plainWords : List Text :=
  ["pass", "break", "continue", "import", "from", "global", "nonlocal", "raise", "del", "assert"]

/-- Whether a text is a header. The words `match` and `case` are also names: they begin a header
only if what follows cannot follow a name, and a colon ends it. -/
def isHeader (t : Text) : Bool :=
  let word := firstWord t
  headerWords.contains word &&
    (if word == "match" || word == "case" then
      match Text.trim (t.drop word.length) with
      | [] => false
      | c :: _ =>
        !Text.isOneOf "=.([,)" c && (headerColon? t).any (0 < ·) &&
          (splitAssignment t).length == 1
    else true)

/-- The names of the parameters of a function, without defaults, annotations and stars. -/
def paramNames (list : Text) : List Text :=
  (splitTopLevel list ',').filterMap fun part =>
    let part := part.trim
    let part := match part.indexWhere? (Text.isOneOf ":=") with
      | some i => Text.trim (part.take i)
      | none => part
    let part : Text := part.trimLeft (· == '*')
    if part.isEmpty || part == ("/" : Text) then none else some part

/-- The word that decides the kind of a header: the first one, or the one after `async`. -/
def headerWord (head : Text) (word : Text) : Text :=
  if word == "async" then ((head ++ " x").words[1]?).getD [] else word

/-- The form of a header, by its text before the colon. -/
def headerForm? (head : Text) (word : Text) : Option Form :=
  let word := headerWord head word
  let condition := Text.trim (head.dropStart word)
  if word == "def" then
    (funcPattern.find? head).map fun m => .func (m.group head 1) (paramNames (m.group head 2))
  else if word == "class" then
    (classPattern.find? head).map fun m => .classDef (m.group head 1)
  else if word == "if" || word == "elif" then
    if condition.isEmpty then none else some (.branch condition (word == "elif") false)
  else if word == "while" then
    if condition.isEmpty then none else some (.whileLoop condition)
  else if word == "for" then
    (forPattern.find? head).map fun m =>
      .forLoop (Text.trim (m.group head 1)) (Text.trim (m.group head 2))
  else if word == "try" then
    if head == "try" then some .attempt else none
  else if word == "else" || word == "finally" then
    if head == word then some .block else none
  else some .block

/-- The form of a simple statement. -/
def simpleForm (t : Text) : Form :=
  let word := firstWord t
  if word == "return" then .ret (Text.trim (t.dropStart "return"))
  else if plainWords.contains word then .other
  else
    match updatePattern.find? t with
    | some m => .update (m.group t 1) (m.group t 2) (Text.trim (m.group t 3))
    | none =>
      let parts := splitAssignment t
      if 1 < parts.length then
        .assign (parts.dropLast.map Text.trim) (Text.trim (parts.getLast?.getD []))
      else
        match headerColon? t with
        | some (i + 1) => if isName (Text.trim (t.take (i + 1))) then .other else .expr
        | _ => .expr

/-- One statement read from a line: a header with what follows its colon, or a simple
statement. -/
inductive Reading where
  /-- A header and the rest of its line. -/
  | header (statement : Statement) (inline_ : Text)
  /-- A simple statement. -/
  | simple (statement : Statement)
  deriving Repr

/-- The statement of a reading. -/
def Reading.statement : Reading → Statement
  | header statement _ => statement
  | simple statement => statement

/-- Reads one statement that begins on a line. -/
def readStatement (line : Nat) (t : Text) : Except SyntaxError Reading :=
  if isHeader t then
    match headerColon? t with
    | none => .error ⟨line, .missingColon⟩
    | some colon =>
      let head := Text.trim (t.take colon)
      match headerForm? head (firstWord t) with
      | none => .error ⟨line, .invalid⟩
      | some form => .ok (.header (.leaf line head form) (t.drop (colon + 1)))
  else .ok (.simple (.leaf line t (simpleForm t)))

end FlowTrace.Python
