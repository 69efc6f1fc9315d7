import FlowTrace.SyntaxError
import FlowTrace.Text.Basic
import FlowTrace.Text.Blank

/-! # Source code with braces

What the languages with braces have in common before they are parsed: how far literals reach,
comments that are overwritten with blanks, and brackets with their partners. -/

/-! ## Literals

How far a string or character literal reaches. A plain literal ends at its quotation mark on the
same line, and a backslash takes the next byte with it; a literal in three double quotation marks
may span lines. -/

namespace FlowTrace.Braced

/-- Whether a byte opens a literal. -/
def isMark (c : UInt8) : Bool := c == Text.doubleQuote || c == Text.apostrophe

/-- The number of bytes up to and including the closing mark of a plain literal, read behind its
opening mark. -/
def plainLength? (mark : UInt8) : Text → Bool → Nat → Option Nat
  | [], _, _ => none
  | _ :: t, true, n => plainLength? mark t false (n + 1)
  | c :: t, false, n =>
    if c == Text.backslash then plainLength? mark t true (n + 1)
    else if c == Text.newline then none
    else if c == mark then some (n + 1)
    else plainLength? mark t false (n + 1)

/-- The three quotation marks around a text block. -/
def blockMark : Text := [Text.doubleQuote, Text.doubleQuote, Text.doubleQuote]

/-- The number of bytes of the literal at the head of the text, which begins with its mark; `none`
if it is not closed. -/
def literalLength? (t : Text) : Option Nat :=
  if blockMark.isPrefixOf t then
    (Text.indexOf? (t.drop 3) blockMark).map (· + 6)
  else
    match t with
    | [] => none
    | mark :: rest => plainLength? mark rest false 1

end FlowTrace.Braced

/-! ## Blanking comments

Comments are overwritten with blanks, byte by byte, so that offsets and lines of everything else
stay the same. Literals are left alone, whatever they hold. -/

namespace FlowTrace.Braced

/-- What the bytes to come belong to. -/
inductive Region where
  /-- Program text. -/
  | code
  /-- A literal with this many bytes left. -/
  | literal (left : Nat)
  /-- A block comment with this many bytes left. -/
  | block (left : Nat)
  /-- A comment that ends with its line. -/
  | line
  deriving DecidableEq, Repr

/-- The byte that stands for a byte of a comment. -/
def blankByte (c : UInt8) : UInt8 := if c == Text.newline then c else 0x20

/-- The region in which a byte of program text is read. -/
def regionAt (c : UInt8) (t : Text) : Except Fault Region :=
  if isMark c then
    match literalLength? (c :: t) with
    | some n => .ok (.literal n)
    | none => .error .unterminatedString
  else if c == '/' && t.head? == some ('/' : UInt8) then .ok .line
  else if c == '/' && t.head? == some ('*' : UInt8) then
    match Text.indexOf? (t.drop 1) "*/" with
    | some n => .ok (.block (n + 4))
    | none => .error .unterminatedComment
  else .ok .code

/-- Overwrites comments. `lineNumber` is that of the next byte, and `out` holds the result, last
byte first. -/
def blank : Region → Nat → Text → Text → Except SyntaxError Text
  | _, _, [], out => .ok out.reverse
  | region, lineNumber, c :: t, out =>
    let lineNumber' := if c == Text.newline then lineNumber + 1 else lineNumber
    match region with
    | .literal (left + 1) => blank (.literal left) lineNumber' t (c :: out)
    | .block (left + 1) => blank (.block left) lineNumber' t (blankByte c :: out)
    | _ =>
      if region == .line && c != Text.newline then blank .line lineNumber' t (0x20 :: out)
      else
        match regionAt c t with
        | .error fault => .error ⟨lineNumber, fault⟩
        | .ok (.literal n) => blank (.literal (n - 1)) lineNumber' t (c :: out)
        | .ok (.block n) => blank (.block (n - 1)) lineNumber' t (blankByte c :: out)
        | .ok .line => blank .line lineNumber' t (0x20 :: out)
        | .ok .code => blank .code lineNumber' t (c :: out)

/-- The source with its comments blanked. -/
def blankComments (source : Text) : Except SyntaxError Text := blank .code 1 source []

end FlowTrace.Braced

/-! ## Brackets

Brackets in source without comments. `checkBrackets` verifies that every bracket has a partner of
its kind, and `closing?` finds the partner of an opening bracket by counting alone. Both pass over
literals. -/

namespace FlowTrace.Braced

/-- Whether a byte is an opening bracket. -/
def isOpening (c : UInt8) : Bool := c == '(' || c == '[' || c == '\x7b'

/-- Whether a byte is a closing bracket. -/
def isClosing (c : UInt8) : Bool := c == ')' || c == ']' || c == '\x7d'

/-- The opening bracket that belongs to a closing one. -/
def partner (c : UInt8) : UInt8 :=
  if c == ')' then '(' else if c == ']' then '[' else '\x7b'

/-- The number of bytes of the literal at the head of the text after its first byte; zero when it
is not closed. -/
def literalTail (t : Text) : Nat := ((literalLength? t).map (· - 1)).getD 0

/-- Checks the brackets of a text. The next `skip` bytes belong to a literal, `line` is the line
of the next byte, and `open_` holds the open brackets with their lines, innermost first. -/
def checkFrom : Text → Nat → Nat → List (UInt8 × Nat) → Except SyntaxError Unit
  | [], _, _, [] => .ok ()
  | [], _, _, (bracket, line) :: _ => .error ⟨line, .neverClosed bracket⟩
  | c :: t, skip, line, open_ =>
    let line' := if c == Text.newline then line + 1 else line
    match skip with
    | skip + 1 => checkFrom t skip line' open_
    | 0 =>
      if isMark c then checkFrom t (literalTail (c :: t)) line' open_
      else if isOpening c then checkFrom t 0 line' ((c, line) :: open_)
      else if isClosing c then
        match open_ with
        | (bracket, _) :: outer =>
          if bracket == partner c then checkFrom t 0 line' outer
          else .error ⟨line, .unexpected c⟩
        | [] => .error ⟨line, .unexpected c⟩
      else checkFrom t 0 line' open_

/-- Checks that every bracket of a text has a partner of its kind. -/
def checkBrackets (code : Text) : Except SyntaxError Unit := checkFrom code 0 1 []

/-- The offset, counted from the head of the text, of the bracket at which as many brackets were
closed as opened. -/
def closingFrom? : Text → Nat → Nat → Int → Option Nat
  | [], _, _, _ => none
  | _ :: t, offset, skip + 1, depth => closingFrom? t (offset + 1) skip depth
  | c :: t, offset, 0, depth =>
    if isMark c then closingFrom? t (offset + 1) (literalTail (c :: t)) depth
    else if isOpening c then closingFrom? t (offset + 1) 0 (depth + 1)
    else if isClosing c then
      if depth == 1 then some offset else closingFrom? t (offset + 1) 0 (depth - 1)
    else closingFrom? t (offset + 1) 0 depth

/-- The offset of the bracket that closes the one at `opening`. -/
def closing? (code : Text) (opening : Nat) : Option Nat :=
  closingFrom? (code.drop opening) opening 0 0

/-- The text between the bracket at `opening` and its partner, on one line; empty if it has
none. -/
def enclosed (code : Text) (opening : Nat) : Text :=
  match closing? code opening with
  | some stop => Text.collapse (code.slice (opening + 1) stop)
  | none => []

/-- The size of a number type, zero for any other type. -/
def scalarSize (type : Text) : Int64 :=
  if type == "int" || type == "float" then 4 else if type == "double" then 8 else 0

/-- The contents of an expression that begins and ends with a double quotation mark. -/
def stringContents? (expr : Text) : Option Text :=
  let expr := Text.trim expr
  if 2 ≤ expr.length && expr.head? == some Text.doubleQuote &&
      expr.getLast? == some Text.doubleQuote then
    some (expr.drop 1).dropLast
  else none

end FlowTrace.Braced
