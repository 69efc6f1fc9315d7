import FlowTrace.Java.Token
import FlowTrace.Power
import FlowTrace.Text.Basic

/-! # Statements and declarators of Java

The statement tree of a Java source, and the parts of its grammar below statements. -/

/-! ## Java statements

The statement tree of a Java source. Expressions are kept as text. -/

namespace FlowTrace.Java

/-- A declared name: a local variable, a parameter, or what a handler catches. -/
structure Variable where
  /-- The type as written, on one line. -/
  type : Text
  /-- The simple name of the type. -/
  base : Text
  /-- The name. -/
  name : Text
  /-- Whether it is an array. -/
  isArray : Bool
  /-- The initial value, on one line; empty when there is none. -/
  init : Text
  /-- The number of elements, zero when it is not known. -/
  size : Int64
  deriving Repr

/-- What kind of statement it is, with the texts that belong to that kind. -/
inductive Form where
  /-- A class, interface, enumeration or record. -/
  | classDecl (name : Text)
  /-- A method or constructor. -/
  | method (name : Text) (params : List Variable)
  /-- A block. -/
  | block
  /-- A declaration of local variables. -/
  | locals (declared : List Variable)
  /-- A print. -/
  | print (text : Text)
  /-- An assignment. -/
  | assign (target operator value : Text)
  /-- An expression. -/
  | expr (text : Text)
  /-- A conditional. -/
  | branch (condition : Text)
  /-- A loop with a header of three parts, and the variables it declares. -/
  | forLoop (header : Text) (declared : List Variable)
  /-- A loop over the items of something. -/
  | forEach (header : Text)
  /-- A loop with a condition in front. -/
  | whileLoop (condition : Text)
  /-- A loop with a condition behind. -/
  | doLoop (condition : Text)
  /-- An attempt. -/
  | attempt
  /-- A handler, with what it catches. -/
  | handler (caught : List Variable)
  /-- A choice between cases. -/
  | choice (subject : Text)
  /-- A return, with the text of its value. -/
  | ret (value : Text)
  /-- A statement that has no place in a flowchart. -/
  | other
  deriving Repr

/-- A **statement**. -/
structure Statement where
  /-- The line where it begins. -/
  line : Nat
  /-- Its kind. -/
  form : Form
  /-- The statements inside it. -/
  body : List Statement
  /-- The statements of its alternative, or those run at the end of an attempt. -/
  orelse : List Statement
  /-- The handlers of an attempt. -/
  handlers : List Statement
  deriving Repr

namespace Statement

/-- A statement with nothing inside it. -/
def leaf (line : Nat) (form : Form) : Statement := ⟨line, form, [], [], []⟩

/-- A statement with a body. -/
def around (line : Nat) (form : Form) (body : List Statement) : Statement :=
  ⟨line, form, body, [], []⟩

/-- Whether the statement is a loop. -/
def isLoop (s : Statement) : Bool :=
  match s.form with
  | .forLoop _ _ | .forEach _ | .whileLoop _ | .doLoop _ => true
  | _ => false

/-- The statements that a statement stands for: those of a block, or the statement itself. -/
def unwrap : Option Statement → List Statement
  | none => []
  | some s =>
    match s.form with
    | .block => s.body
    | _ => [s]

mutual
/-- All statements of a tree in source order. -/
def walk : Statement → List Statement
  | ⟨line, form, body, orelse, handlers⟩ =>
    ⟨line, form, body, orelse, handlers⟩ ::
      (walkAll body ++ (walkAll handlers ++ walkAll orelse))

/-- All statements of a list of trees in source order. -/
def walkAll : List Statement → List Statement
  | [] => []
  | s :: rest => s.walk ++ walkAll rest
end

end Statement

end FlowTrace.Java

/-! ## Types, parameters and declarators

The parts of Java's grammar below statements. A **reader** takes the tokens from its place on and
returns those it leaves over. -/

namespace FlowTrace.Java

/-- The source that tokens are cut from, and the line that errors at its end are reported on. -/
structure Source where
  /-- The source without comments. -/
  code : Text
  /-- The line of the last token. -/
  lastLine : Nat
  deriving Repr

/-- The text from the first to the last of some tokens. -/
def Source.text (src : Source) (tokens : List Token) : Text := coveredText src.code tokens

/-- The line of the next token. -/
def Source.line (src : Source) (tokens : List Token) : Nat :=
  (tokens.head?.map (·.line)).getD src.lastLine

/-- A fault at the next token. -/
def Source.fail {α : Type} (src : Source) (tokens : List Token) (fault : Fault) :
    Except SyntaxError α :=
  .error ⟨src.line tokens, fault⟩

/-- Whether the next token is a name, operator, bracket or separator with this text. -/
def next (tokens : List Token) (text : Text) : Bool :=
  match tokens with
  | t :: _ => (t.kind == .punct || t.kind == .ident) && t.text == text
  | [] => false

/-- The text of the `n`-th token from here, empty behind the last one. -/
def textAt (tokens : List Token) (n : Nat) : Text := ((tokens[n]?).map (·.text)).getD []

/-- Whether the `n`-th token from here is a name. -/
def identAt (tokens : List Token) (n : Nat) : Bool := (tokens[n]?).any (·.kind == .ident)

/-- The tokens that a reader took: those of `tokens` that are not left over in `rest`. -/
def taken (tokens rest : List Token) : List Token := tokens.take (tokens.length - rest.length)

/-- Words that modify a declaration. -/
def modifiers : List Text :=
  ["public", "private", "protected", "static", "final", "abstract", "native", "synchronized",
    "transient", "volatile", "strictfp", "default", "sealed"]

/-- Words that never begin a type. -/
def reserved : List Text :=
  ["if", "else", "for", "while", "do", "try", "catch", "finally", "switch", "case", "default",
    "return", "break", "continue", "throw", "new", "this", "super", "null", "true", "false",
    "assert", "synchronized", "instanceof", "yield", "class", "interface", "enum", "import",
    "package"]

/-- The operators that assign. -/
def assignments : List Text :=
  ["=", "+=", "-=", "*=", "/=", "%=", "&=", "|=", "^=", "<<=", ">>=", ">>>="]

/-! ## Annotations and modifiers -/

/-- Passes over the rest of a dotted name; the last part of the name is returned if there is
one. -/
def skipDotted (part : Text) : List Token → Text × List Token
  | dot :: name :: rest =>
    if next [dot] "." && name.kind == .ident then skipDotted name.text rest
    else (part, dot :: name :: rest)
  | tokens => (part, tokens)

/-- Whether an annotation begins here. -/
def atAnnotation (tokens : List Token) : Bool :=
  next tokens "@" && textAt tokens 1 != "interface"

/-- Passes over annotations, at most `bound` of them. -/
def skipAnnotations : Nat → List Token → List Token
  | 0, tokens => tokens
  | bound + 1, tokens =>
    if atAnnotation tokens then
      let rest := (skipDotted [] (tokens.drop 2)).2
      let rest := if next rest "(" then
          match enclosed? rest with
          | some (_, after) => after
          | none => rest
        else rest
      skipAnnotations bound rest
    else tokens

/-- Passes over annotations and modifiers. A word before a colon, an arrow or a parenthesis begins
a statement and modifies nothing. -/
def skipModifiers : Nat → List Token → List Token
  | 0, tokens => tokens
  | bound + 1, tokens =>
    let tokens := skipAnnotations tokens.length tokens
    match tokens with
    | t :: rest =>
      let following := textAt rest 0
      if t.kind == .ident && modifiers.contains t.text && following != ":" && following != "->" &&
          following != "(" then skipModifiers bound rest
      else tokens
    | [] => []

/-- Passes over the annotations and modifiers of a local variable. -/
def skipLocalModifiers : Nat → List Token → List Token
  | 0, tokens => tokens
  | bound + 1, tokens =>
    if next tokens "final" then skipLocalModifiers bound (tokens.drop 1)
    else if atAnnotation tokens then
      skipLocalModifiers bound (skipAnnotations tokens.length tokens)
    else tokens

/-! ## Types -/

/-- What cannot stand between angle brackets. -/
def angleStops : List Text := [";", "\x7b", "\x7d", "(", ")", "=", "==", "&&", "||"]

/-- Passes over balanced angle brackets; gives up at anything that cannot stand between them. -/
def skipAngles? : List Token → Nat → Option (List Token)
  | [], _ => none
  | t :: rest, depth =>
    if t.text == "<" then skipAngles? rest (depth + 1)
    else if t.text == ">" then
      if depth ≤ 1 then some rest else skipAngles? rest (depth - 1)
    else if angleStops.contains t.text then none
    else skipAngles? rest depth

/-- Passes over empty pairs of square brackets, and says whether there were any. -/
def skipDims : List Token → Bool × List Token
  | open_ :: close :: rest =>
    if next [open_] "[" && close.text == "]" then (true, (skipDims rest).2)
    else (false, open_ :: close :: rest)
  | tokens => (false, tokens)

/-- A type: its text and the simple name it ends with. -/
def readType? (src : Source) (tokens : List Token) : Option (Text × Text × List Token) :=
  match tokens with
  | t :: rest =>
    if t.kind == .ident && !reserved.contains t.text then do
      let (base, rest) := skipDotted t.text rest
      let rest ← if next rest "<" then skipAngles? rest 0 else some rest
      let (base, rest) := skipDotted base rest
      let rest := (skipDims rest).2
      let rest := if next rest "..." then rest.drop 1 else rest
      return (src.text (taken tokens rest), base, rest)
    else none
  | [] => none

/-- The simple name of a written type. -/
def baseType (type : Text) : Text :=
  let type := match type.indexOf? "<" with
    | some i => type.take i
    | none => type
  let type := (Text.trim type).dropEnd "..."
  let type := match type.indexOf? "[" with
    | some i => type.take i
    | none => type
  let type : Text := match Text.lastIndexOf? type "." with
    | some i => type.drop (i + 1)
    | none => type
  (type.words.getLast?).getD type

/-! ## Parameters -/

/-- Passes over the annotations and modifiers of a parameter. -/
def skipParamModifiers : Nat → List Token → List Token
  | 0, tokens => tokens
  | bound + 1, tokens =>
    match tokens with
    | t :: rest =>
      if t.text == "final" then skipParamModifiers bound rest
      else if t.text == "@" && !rest.isEmpty then
        let rest := rest.drop 1
        if textAt rest 0 == "(" then
          match enclosed? rest with
          | some (_, after) => skipParamModifiers bound after
          | none => []
        else skipParamModifiers bound rest
      else tokens
    | [] => []

/-- Takes empty square brackets off the end of a parameter, given from its end. -/
def dropDims : Bool → List Token → Bool × List Token
  | found, close :: open_ :: rest =>
    if close.text == "]" then dropDims true rest else (found, close :: open_ :: rest)
  | found, tokens => (found, tokens)

/-- A parameter; `none` if the tokens are not a type and a name. -/
def readParam? (src : Source) (tokens : List Token) : Option Variable :=
  let tokens := skipParamModifiers (tokens.length + 1) tokens
  if tokens.length < 2 then none
  else
    match dropDims false tokens.reverse with
    | (dims, name :: first :: more) =>
      if name.kind == .ident then
        let type := src.text (first :: more).reverse
        some {
          type, base := baseType type, name := name.text
          isArray := dims || type.includes "[" || type.endsWith "..."
          init := [], size := 0 }
      else none
    | _ => none

/-- Divides the tokens of a parameter list at its commas outside all brackets. -/
def splitParams : List Token → (depth angle : Int) → List Token → List (List Token)
  | [], _, _, part => [part.reverse]
  | t :: rest, depth, angle, part =>
    if t.text == "(" || t.text == "[" || t.text == "\x7b" then
      splitParams rest (depth + 1) angle (t :: part)
    else if t.text == ")" || t.text == "]" || t.text == "\x7d" then
      splitParams rest (depth - 1) angle (t :: part)
    else if t.text == "<" then splitParams rest depth (angle + 1) (t :: part)
    else if t.text == ">" then splitParams rest depth (angle - 1) (t :: part)
    else if t.text == "," && depth == 0 && angle == 0 then
      part.reverse :: splitParams rest depth angle []
    else splitParams rest depth angle (t :: part)

/-- The parameters of a list, without those that are malformed. -/
def readParams (src : Source) (tokens : List Token) : List Variable :=
  (splitParams tokens 0 0 []).filterMap (readParam? src)

/-! ## Local variables -/

/-- The number written by a token. It is zero if the token is not a plain decimal, and the largest
word if it is too large; digits beyond 64 bits are too large whatever follows them. -/
def elementCount (text : Text) : Int64 :=
  let text := Text.trimRight text (Text.isOneOf "lL")
  let digits := text.takeWhile Text.isDigit
  let n := (Text.toNat? digits).getD 0
  if 2 * wordLimit ≤ n || digits.length = text.length then Int64.ofNat (min n (wordLimit - 1))
  else 0

/-- The number of elements between braces: one more than the commas outside inner brackets, not
counting a comma at the end. -/
def countElements : List Token → Int → Int64
  | [], _ => 1
  | t :: rest, depth =>
    if t.text == "(" || t.text == "[" || t.text == "\x7b" then countElements rest (depth + 1)
    else if t.text == ")" || t.text == "]" || t.text == "\x7d" then countElements rest (depth - 1)
    else if t.text == "," && depth == 0 && !rest.isEmpty then 1 + countElements rest depth
    else countElements rest depth

/-- The number of elements that a list in braces writes out. -/
def writtenSize (tokens : List Token) : Int64 :=
  match enclosed? tokens with
  | some ([], _) | none => 0
  | some (inside, _) => countElements inside 0

/-- The number of elements of a new array, given the tokens behind the word `new`. -/
def newSize : List Token → Int64
  | open_ :: number :: close :: rest =>
    if open_.text == "[" && number.kind == .number && close.text == "]" then
      elementCount number.text
    else if open_.text == "\x7b" then writtenSize (open_ :: number :: close :: rest)
    else newSize (number :: close :: rest)
  | _ => 0

/-- The number of elements of an initial value, zero when it does not tell. -/
def initialSize : List Token → Int64
  | [] => 0
  | t :: rest =>
    if t.text == "new" then newSize rest
    else if t.text == "\x7b" then writtenSize (t :: rest)
    else 0

/-- What follows the name of a further declarator. -/
def declaratorMarks : List Text := ["=", ",", ";", "["]

/-- What follows the name of the first declarator. -/
def localMarks : List Text := ["=", ";", ",", "[", ":"]

/-- Divides tokens at the end of an initial value. A comma ends it only if another declarator
follows. -/
def untilDeclarator? : Nat → List Token → Option (List Token × List Token)
  | 0, _ => none
  | bound + 1, tokens =>
    match until? [",", ";", ":", ")"] tokens with
    | none => none
    | some (before, stop, rest) =>
      let declarator := identAt rest 0 && declaratorMarks.contains (textAt rest 1)
      if stop.text != "," || declarator then some (before, stop :: rest)
      else
        match untilDeclarator? bound rest with
        | some (more, rest) => some (before ++ stop :: more, rest)
        | none => none

/-- Whether a declaration of local variables begins here. -/
def atLocal (src : Source) (tokens : List Token) : Bool :=
  match readType? src (skipLocalModifiers (tokens.length + 1) tokens) with
  | some (_, _, name :: rest) =>
    name.kind == .ident && !reserved.contains name.text &&
      localMarks.contains (textAt rest 0)
  | _ => false

/-- Reads declarators up to the end of the declaration. -/
def readDeclarators (src : Source) (type base : Text) :
    Nat → List Token → List Variable → Except SyntaxError (List Variable × List Token)
  | 0, tokens, _ => src.fail tokens .exhausted
  | bound + 1, tokens, done =>
    match tokens with
    | [] => src.fail tokens .missingName
    | name :: rest =>
      if name.kind != .ident then src.fail tokens .missingName
      else
        let (dims, rest) := skipDims rest
        let v : Variable := ⟨type, base, name.text, dims || type.includes "[", [], 0⟩
        let finish (v : Variable) (rest : List Token) :=
          if next rest "," then readDeclarators src type base bound (rest.drop 1) (v :: done)
          else .ok ((v :: done).reverse, rest)
        if next rest "=" then
          let value := rest.drop 1
          match untilDeclarator? (value.length + 1) value with
          | none => src.fail value (.missing ";")
          | some (init, rest) =>
            finish { v with init := src.text init, size := initialSize init } rest
        else finish v rest

/-- Reads a declaration of local variables, up to what ends it. -/
def readLocal (src : Source) (tokens : List Token) :
    Except SyntaxError (List Variable × List Token) :=
  let tokens := skipLocalModifiers (tokens.length + 1) tokens
  match readType? src tokens with
  | none => src.fail tokens .missingName
  | some (type, base, rest) => readDeclarators src type base (rest.length + 1) rest []

/-! ## Expressions -/

/-- What a call of a print method prints. -/
def printed? (src : Source) (tokens : List Token) : Option Text :=
  if textAt tokens 0 == "System" && textAt tokens 1 == "." &&
      (textAt tokens 2 == "out" || textAt tokens 2 == "err") && textAt tokens 3 == "." &&
      (textAt tokens 4).startsWith "print" && textAt tokens 5 == "(" then
    (enclosed? (tokens.drop 5)).map fun (inside, _) => src.text inside
  else none

/-- Divides tokens at the first operator that assigns outside brackets and before any arrow. -/
def splitAssign? :
    List Token → Int → List Token → Option (List Token × Token × List Token)
  | [], _, _ => none
  | t :: rest, depth, done =>
    if t.isOpening then splitAssign? rest (depth + 1) (t :: done)
    else if t.isClosing then splitAssign? rest (depth - 1) (t :: done)
    else if t.isPunct "->" then none
    else if t.kind == .punct && depth == 0 && assignments.contains t.text then
      some (done.reverse, t, rest)
    else splitAssign? rest depth (t :: done)

/-- The form of an expression that stands as a statement. -/
def expressionForm (src : Source) (tokens : List Token) : Form :=
  match printed? src tokens with
  | some text => .print text
  | none =>
    match splitAssign? tokens 0 [] with
    | some (target, operator, value) =>
      .assign (src.text target) operator.text (src.text value)
    | none => .expr (src.text tokens)

end FlowTrace.Java
