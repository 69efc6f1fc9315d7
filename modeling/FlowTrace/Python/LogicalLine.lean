import FlowTrace.SyntaxError
import FlowTrace.Text.Blank

/-! # Logical lines

A **logical line** of a Python source is a statement, or several divided by semicolons, with the
physical lines it spans joined into one: lines are continued inside brackets and triple-quoted
strings and after a backslash. Comments and blank lines are dropped, and the indentation of the
first physical line is measured with tab stops every eight columns. -/

namespace FlowTrace.Python

/-- A **logical line**. -/
structure LogicalLine where
  /-- The column where the text begins. -/
  indent : Nat
  /-- The number of the physical line where it begins. -/
  line : Nat
  /-- The text, without comments and without blanks around it. -/
  text : Text
  deriving DecidableEq, Repr

/-- What the scanner is reading. -/
inductive ScanMode where
  /-- The blanks before a line; `column` is the width passed. -/
  | margin (column : Nat)
  /-- A comment on a line of its own. -/
  | marginComment
  /-- The text of a line. -/
  | code
  /-- A comment behind the text of a line. -/
  | comment
  /-- A string literal, with the line where it begins. -/
  | string (mark : UInt8) (triple : Bool) (line : Nat)
  deriving DecidableEq, Repr

/-- What the scanner has read. -/
structure Scan where
  /-- The finished logical lines, last first. -/
  done : List LogicalLine := []
  /-- The text of the current line, last byte first. -/
  text : Text := []
  /-- The number of the physical line. -/
  line : Nat := 1
  /-- The number of the physical line where the current logical line began. -/
  first : Nat := 1
  /-- The indentation of the current logical line. -/
  indent : Nat := 0
  /-- The open brackets with their lines, innermost first. -/
  open_ : List (UInt8 × Nat) := []
  deriving Repr

namespace Scan

/-- Ends the current logical line. A line without text is dropped. -/
def emit (s : Scan) : Scan :=
  let text := Text.trim s.text.reverse
  { s with
    done := if text.isEmpty then s.done else ⟨s.indent, s.first, text⟩ :: s.done
    text := [] }

/-- Appends a byte to the current line. -/
def put (s : Scan) (c : UInt8) : Scan := { s with text := c :: s.text }

/-- Goes on to the next physical line. -/
def nextLine (s : Scan) : Scan := { s with line := s.line + 1 }

/-- Begins a logical line at a column. -/
def beginAt (s : Scan) (column : Nat) : Scan := { s with indent := column, first := s.line }

end Scan

/-- Whether a byte is an opening bracket. -/
def isOpening (c : UInt8) : Bool := c == '(' || c == '[' || c == '\x7b'

/-- Whether a byte is a closing bracket. -/
def isClosing (c : UInt8) : Bool := c == ')' || c == ']' || c == '\x7d'

/-- Whether a byte opens and closes strings. -/
def isQuote (c : UInt8) : Bool := c == Text.apostrophe || c == Text.doubleQuote

/-- The mode in which a byte is read. The first byte behind the margin that begins neither a
comment nor a new line begins a logical line, and a newline ends a comment. -/
def enter (mode : ScanMode) (s : Scan) (c : UInt8) : ScanMode × Scan :=
  match mode with
  | .margin column =>
    if c == 0x20 || c == 0x09 || c == 0x0C || c == Text.newline || c == '#' then (mode, s)
    else (.code, s.beginAt column)
  | .marginComment => (if c == Text.newline then .margin 0 else .marginComment, s)
  | .comment => (if c == Text.newline then .code else .comment, s)
  | _ => (mode, s)

/-- The column behind a blank that stands at a column. -/
def advance (column : Nat) (c : UInt8) : Nat :=
  if c == 0x09 then (column / 8 + 1) * 8 else column + 1

/-- Reads a source whose line ends are newlines. The next `skip` bytes were already dealt with
together with the byte before them. -/
def scan : ScanMode → Scan → Nat → Text → Except SyntaxError (List LogicalLine)
  | mode, s, _, [] =>
    match mode with
    | .string _ triple line =>
      .error ⟨line, if triple then .unterminatedTripleString else .unterminatedString⟩
    | _ =>
      match s.open_ with
      | (bracket, line) :: _ => .error ⟨line, .neverClosed bracket⟩
      | [] => .ok s.emit.done.reverse
  | mode, s, skip + 1, _ :: t => scan mode s skip t
  | mode, s, 0, c :: t =>
    match enter mode s c with
    | (.margin column, s) =>
      if c == Text.newline then scan (.margin 0) s.nextLine 0 t
      else if c == '#' then scan .marginComment s 0 t
      else scan (.margin (advance column c)) s 0 t
    | (.marginComment, s) => scan .marginComment s 0 t
    | (.comment, s) => scan .comment s 0 t
    | (.code, s) =>
      if c == '#' then scan .comment s 0 t
      else if isQuote c then
        if [c, c].isPrefixOf t then scan (.string c true s.line) (((s.put c).put c).put c) 2 t
        else scan (.string c false s.line) (s.put c) 0 t
      else if isOpening c then scan .code { s.put c with open_ := (c, s.line) :: s.open_ } 0 t
      else if isClosing c then
        match s.open_ with
        | [] => .error ⟨s.line, .unmatched c⟩
        | _ :: outer => scan .code { s.put c with open_ := outer } 0 t
      else if c == Text.backslash && t.head? == some Text.newline then
        scan .code (s.put 0x20).nextLine 1 t
      else if c == Text.newline then
        if s.open_.isEmpty then scan (.margin 0) s.emit.nextLine 0 t
        else scan .code (s.put 0x20).nextLine 0 t
      else scan .code (s.put c) 0 t
    | (.string mark triple line, s) =>
      if c == Text.backslash then
        match t.head? with
        | some d =>
          let s := (s.put c).put d
          scan (.string mark triple line) (if d == Text.newline then s.nextLine else s) 1 t
        | none => scan (.string mark triple line) (s.put c) 0 t
      else if c == Text.newline then
        if triple then scan (.string mark triple line) (s.put c).nextLine 0 t
        else .error ⟨line, .unterminatedString⟩
      else if triple && c == mark && [mark, mark].isPrefixOf t then
        scan .code (((s.put c).put c).put c) 2 t
      else if !triple && c == mark then scan .code (s.put c) 0 t
      else scan (.string mark triple line) (s.put c) 0 t

/-- The **logical lines** of a source. -/
def logicalLines (code : Text) : Except SyntaxError (List LogicalLine) :=
  scan (.margin 0) {} 0 (code.replace "\r\n" "\n")

end FlowTrace.Python
