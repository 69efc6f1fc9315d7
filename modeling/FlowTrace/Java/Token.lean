import FlowTrace.Braced.Source
import FlowTrace.SyntaxError
import FlowTrace.Text.Blank

/-! # Java tokens

Java source without comments as a list of **tokens**. Every token remembers where it stands, so
that the text of a construct is cut out of the source from its first to its last token. -/

namespace FlowTrace.Java

/-- The class of a token. -/
inductive TokenKind where
  /-- A name or keyword. -/
  | ident
  /-- A number. -/
  | number
  /-- A string or character literal. -/
  | string
  /-- An operator, bracket or separator. -/
  | punct
  deriving DecidableEq, Repr

/-- A **token**. -/
structure Token where
  /-- Its class. -/
  kind : TokenKind
  /-- Its text. -/
  text : Text
  /-- The offset of its first byte. -/
  offset : Nat
  /-- The offset behind its last byte. -/
  stop : Nat
  /-- The line where it begins. -/
  line : Nat
  deriving DecidableEq, Repr

/-- The operators of more than one byte, longer ones before their beginnings. -/
def operators : List Text :=
  [">>>=", "<<=", ">>=", "...", "->", "::", "++", "--", "&&", "||", "==", "!=", "<=", ">=", "+=",
    "-=", "*=", "/=", "%=", "&=", "|=", "^=", "<<"]

/-- The operators, brackets and separators of one byte. -/
def singles : Text := "\x7b\x7d()[];,.=<>!~?:+-*/&|^%@"

/-- Whether a byte begins a name. Every byte outside ASCII does. -/
def isIdentStart (c : UInt8) : Bool := c == '_' || c == '$' || 0x80 ≤ c || Text.isLetter c

/-- Whether a byte goes on with a name. -/
def isIdentPart (c : UInt8) : Bool := isIdentStart c || Text.isDigit c

/-- Whether a byte is blank space between tokens. -/
def isSpace (c : UInt8) : Bool := c == 0x20 || c == 0x09 || c == 0x0D || c == 0x0C

/-- The number of bytes with which a number goes on. A sign belongs to it behind an exponent
mark, unless the number is hexadecimal. -/
def numberTail (hex : Bool) : UInt8 → Text → Nat
  | _, [] => 0
  | previous, c :: t =>
    if isIdentPart c || c == '.' then 1 + numberTail hex c t
    else if (c == '+' || c == '-') && (previous == 'e' || previous == 'E') && !hex then
      1 + numberTail hex c t
    else 0

/-- The class and the length of the token at the head of `c :: t`. -/
def tokenAt (c : UInt8) (t : Text) : Except Fault (TokenKind × Nat) :=
  if isIdentStart c then .ok (.ident, 1 + (t.takeWhile isIdentPart).length)
  else if Text.isDigit c || (c == '.' && t.head?.any Text.isDigit) then
    .ok (.number, 1 + numberTail (("0x" : Text).isPrefixOf (c :: t)) c t)
  else if Braced.isMark c then
    match Braced.literalLength? (c :: t) with
    | some n => .ok (.string, n)
    | none => .error .unterminatedString
  else
    match operators.find? (·.isPrefixOf (c :: t)) with
    | some operator => .ok (.punct, operator.length)
    | none => if singles.contains c then .ok (.punct, 1) else .error (.illegalByte c)

/-- Reads tokens. The next `skip` bytes belong to the token just read; `offset` and `line` are
those of the next byte, and `done` holds the tokens read, last first. -/
def tokensFrom : Text → (skip offset line : Nat) → List Token → Except SyntaxError (List Token)
  | [], _, _, _, done => .ok done.reverse
  | c :: t, skip, offset, line, done =>
    let line' := if c == Text.newline then line + 1 else line
    match skip with
    | skip + 1 => tokensFrom t skip (offset + 1) line' done
    | 0 =>
      if c == Text.newline || isSpace c then tokensFrom t 0 (offset + 1) line' done
      else
        match tokenAt c t with
        | .error fault => .error ⟨line, fault⟩
        | .ok (kind, n) =>
          let token : Token := ⟨kind, c :: t.take (n - 1), offset, offset + n, line⟩
          tokensFrom t (n - 1) (offset + 1) line' (token :: done)

/-- The **tokens** of source without comments. -/
def tokenize (code : Text) : Except SyntaxError (List Token) := tokensFrom code 0 0 1 []

/-- The source from the first to the last of some tokens, on one line. -/
def coveredText (code : Text) (tokens : List Token) : Text :=
  match tokens.head?, tokens.getLast? with
  | some first, some last => Text.collapse (code.slice first.offset last.stop)
  | _, _ => []

namespace Token

/-- Whether a token is the operator, bracket or separator with this text. -/
def isPunct (t : Token) (text : Text) : Bool := t.kind == .punct && t.text == text

/-- Whether a token is an opening bracket. -/
def isOpening (t : Token) : Bool :=
  t.kind == .punct && (t.text == "(" || t.text == "[" || t.text == "\x7b")

/-- Whether a token is a closing bracket. -/
def isClosing (t : Token) : Bool :=
  t.kind == .punct && (t.text == ")" || t.text == "]" || t.text == "\x7d")

end Token

/-- Divides the tokens behind an opening bracket at its partner: those inside, and those behind
the partner. `depth` counts brackets opened inside, and `done` holds the tokens passed, last
first. -/
def closeFrom? : List Token → Nat → List Token → Option (List Token × List Token)
  | [], _, _ => none
  | t :: rest, depth, done =>
    if t.isOpening then closeFrom? rest (depth + 1) (t :: done)
    else if t.isClosing then
      match depth with
      | 0 => some (done.reverse, rest)
      | depth + 1 => closeFrom? rest depth (t :: done)
    else closeFrom? rest depth (t :: done)

/-- Divides tokens that begin with an opening bracket: those inside, and those behind its
partner. -/
def enclosed? : List Token → Option (List Token × List Token)
  | [] => none
  | _ :: rest => closeFrom? rest 0 []

/-- Divides tokens before the first stop outside brackets; `none` if the enclosing bracket or the
text ends first. `depth` counts open brackets, and `done` holds the tokens passed, last first. -/
def untilFrom? (stops : List Text) :
    List Token → Nat → List Token → Option (List Token × Token × List Token)
  | [], _, _ => none
  | t :: rest, depth, done =>
    if t.kind == .punct && depth == 0 && stops.contains t.text then some (done.reverse, t, rest)
    else if t.isOpening then untilFrom? stops rest (depth + 1) (t :: done)
    else if t.isClosing then
      match depth with
      | 0 => none
      | depth + 1 => untilFrom? stops rest depth (t :: done)
    else untilFrom? stops rest depth (t :: done)

/-- The tokens before the first stop outside brackets, the stop, and the tokens behind it. -/
def until? (stops : List Text) (tokens : List Token) : Option (List Token × Token × List Token) :=
  untilFrom? stops tokens 0 []

end FlowTrace.Java
