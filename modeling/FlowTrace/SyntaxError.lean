import FlowTrace.Text.Rune

/-! # Syntax errors

Why a source text is not a program. A **fault** is the cause, and a **syntax error** a fault with
the line where it was found. -/

namespace FlowTrace

/-- What is wrong with a source text. -/
inductive Fault where
  /-- A string or character literal is not closed on its line. -/
  | unterminatedString
  /-- A string literal in three quotation marks is not closed. -/
  | unterminatedTripleString
  /-- A block comment is not closed. -/
  | unterminatedComment
  /-- A closing bracket has no opening one. -/
  | unmatched (bracket : UInt8)
  /-- A closing bracket does not fit the innermost opening one. -/
  | unexpected (bracket : UInt8)
  /-- An opening bracket has no closing one. -/
  | neverClosed (bracket : UInt8)
  /-- A header is not followed by an indented suite. -/
  | missingSuite (word : Text) (line : Nat)
  /-- A line is indented further than the suite it stands in. -/
  | unexpectedIndent
  /-- A line goes back to an indentation that no enclosing suite has. -/
  | mismatchedUnindent
  /-- A statement is malformed in some other way. -/
  | invalid
  /-- A header has no colon. -/
  | missingColon
  /-- A conditional continuation without the conditional it continues. -/
  | strayElif
  /-- A second alternative of one conditional. -/
  | duplicateElse
  /-- An alternative that belongs to no statement. -/
  | strayElse
  /-- A handler that belongs to no attempt, in a language of indented suites. -/
  | strayHandler (word : Text)
  /-- A byte that begins no token. -/
  | illegalByte (byte : UInt8)
  /-- A token is missing. -/
  | missing (token : Text)
  /-- A token is missing behind a word. -/
  | missingAfter (token word : Text)
  /-- A name is missing. -/
  | missingName
  /-- The text ends inside a construct. -/
  | unexpectedEnd
  /-- A case label has neither colon nor arrow. -/
  | missingLabelEnd
  /-- An alternative without its conditional. -/
  | elseWithoutIf
  /-- A handler without its attempt, in a language of braces. -/
  | handlerWithoutTry (word : Text)
  /-- A case label outside a switch. -/
  | orphanedCase
  /-- An attempt without handlers. -/
  | missingHandler
  /-- A reader was left without steps. No reader reports this: they have enough of them. -/
  | exhausted
  deriving DecidableEq, Repr

namespace Fault

/-- A text between single quotation marks. -/
def quoted (t : Text) : Text := "'" ++ t ++ "'"

/-- The wording of a fault. -/
def message : Fault → Text
  | unterminatedString => "unterminated string literal"
  | unterminatedTripleString => "unterminated triple-quoted string literal"
  | unterminatedComment => "unterminated comment"
  | unmatched bracket => "unmatched " ++ quoted [bracket]
  | unexpected bracket => "unexpected " ++ quoted [bracket]
  | neverClosed bracket => quoted [bracket] ++ " was never closed"
  | missingSuite word line =>
    "expected an indented block after " ++ quoted word ++ " statement on line " ++ Text.ofNat line
  | unexpectedIndent => "unexpected indent"
  | mismatchedUnindent => "unindent does not match any outer indentation level"
  | invalid => "invalid syntax"
  | missingColon => "expected ':'"
  | strayElif => "invalid syntax: 'elif' without matching 'if'"
  | duplicateElse => "invalid syntax: duplicate 'else'"
  | strayElse => "invalid syntax: 'else' without matching statement"
  | strayHandler word => "invalid syntax: " ++ quoted word ++ " without 'try'"
  | illegalByte byte => "illegal character: " ++ quoted (Text.ofRune byte.toNat)
  | missing token => quoted token ++ " expected"
  | missingAfter token word => quoted token ++ " expected after " ++ quoted word
  | missingName => "<identifier> expected"
  | unexpectedEnd => "reached end of file while parsing"
  | missingLabelEnd => "':' or '->' expected"
  | elseWithoutIf => "'else' without 'if'"
  | handlerWithoutTry word => quoted word ++ " without 'try'"
  | orphanedCase => "orphaned case"
  | missingHandler => "'catch' or 'finally' expected"
  | exhausted => "too many steps"

end Fault

/-- A **syntax error**: a fault and the line where it was found. -/
structure SyntaxError where
  /-- The line, from one. -/
  line : Nat
  /-- What is wrong. -/
  fault : Fault
  deriving DecidableEq, Repr

/-- The message shown for a syntax error. -/
def SyntaxError.message (e : SyntaxError) : Text :=
  e.fault.message ++ " (line " ++ Text.ofNat e.line ++ ")"

end FlowTrace
