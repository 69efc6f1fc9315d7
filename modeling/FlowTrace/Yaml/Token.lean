import FlowTrace.Text.Basic
import FlowTrace.Text.Rune

/-! # The tokens of YAML

A document in YAML is first cut into **tokens**. Most of them are written: scalars, brackets, dashes
and colons. The others come from the layout: a block begins where a line is indented further than
the block around it, and ends where one is indented less. -/

namespace FlowTrace.Yaml

/-! ## The characters of YAML

A document is a list of characters. Only printable ones and a few others may stand in it
(`isAllowed`), and the usual line ends are all read as newlines, so that afterwards there are just
three of them: the newline, and the two separators U+2028 and U+2029, which stay what they are. -/

/-- Whether a character ends a line. -/
def isBreak (c : Char) : Bool := c == '\n' || c == '\u2028' || c == '\u2029'

/-- Whether a character is a blank inside a line. -/
def isSpacing (c : Char) : Bool := c == ' ' || c == '\t'

/-- Whether a character may stand in the name of a node, of a directive or of a tag handle. -/
def isNamePart (c : Char) : Bool := c.isAlphanum || c == '_' || c == '-'

/-- Whether a character divides items between brackets. -/
def isFlowMark (c : Char) : Bool := [',', '?', '[', ']', '\x7b', '\x7d'].contains c

/-- Whether characters begin with the end of a line, or are none. -/
def startsBreak (cs : List Char) : Bool := cs.head?.all isBreak

/-- Whether characters begin with a blank or the end of a line, or are none. -/
def startsBlank (cs : List Char) : Bool := cs.head?.all fun c => isSpacing c || isBreak c

/-- Whether characters begin with a mark between documents. -/
def startsMark : List Char → Bool
  | a :: b :: c :: rest => (a == '-' || a == '.') && a == b && b == c && startsBlank rest
  | _ => false

/-- The value of a hexadecimal digit. -/
def hexDigit? (c : Char) : Option Nat := if c.toNat < 0x80 then Text.hexValue? c.toUInt8 else none

/-- The number that hexadecimal digits denote. -/
def hexNumber? (cs : List Char) : Option Nat :=
  cs.foldlM (fun n c => (hexDigit? c).map fun d => n * 16 + d) 0

/-- The text of a list of characters. -/
def textOf (cs : List Char) : Text := Text.ofRunes (cs.map Char.toNat)

/-- Whether a code point may stand in a document. -/
def isAllowed (r : Rune) : Bool :=
  r == 0x09 || r == 0x0A || r == 0x0D || (0x20 ≤ r && r ≤ 0x7E) || r == 0x85 ||
    (0xA0 ≤ r && r ≤ 0xD7FF) || (0xE000 ≤ r && r ≤ 0xFFFD) || 0x10000 ≤ r

/-- The usual line ends, all written as newlines. -/
def unifyBreaks : List Char → List Char
  | [] => []
  | '\r' :: '\n' :: cs => '\n' :: unifyBreaks cs
  | c :: cs => (if c == '\r' || c == '\u0085' then '\n' else c) :: unifyBreaks cs

/-- The **characters** of a document, without a byte order mark in front; `none` when there is one
that may not stand there, or a byte that belongs to none. -/
def characters? (t : Text) : Option (List Char) :=
  let glyphs := (t.dropStart [0xEF, 0xBB, 0xBF]).glyphs
  if glyphs.all fun g => isAllowed g.rune && !(g.rune == Rune.replacement && g.bytes.length == 1) then
    some (unifyBreaks (glyphs.map fun g => Char.ofNat g.rune))
  else none

/-! ## Tokens -/

/-- A **token**. -/
inductive Token where
  /-- The mark in front of a document. -/
  | documentStart
  /-- The mark behind a document. -/
  | documentEnd
  /-- A line that tells the version of the format. -/
  | version (major minor : Nat)
  /-- A line that tells what the handle of a tag stands for. -/
  | handle (name start : Text)
  /-- The beginning of a list, by layout. -/
  | listStart
  /-- The beginning of a table, by layout. -/
  | tableStart
  /-- The end of a list or table, by layout. -/
  | blockEnd
  /-- An opening bracket. -/
  | bracketOpen
  /-- A closing bracket. -/
  | bracketClose
  /-- An opening brace. -/
  | braceOpen
  /-- A closing brace. -/
  | braceClose
  /-- A comma between brackets or braces. -/
  | comma
  /-- The dash of a list item. -/
  | dash
  /-- The place where a key begins. -/
  | key
  /-- The colon between a key and its value. -/
  | colon
  /-- The name of a node that stands for it. -/
  | alias (name : Text)
  /-- A name given to a node. -/
  | anchor (name : Text)
  /-- A type given to a node: a handle, which may be empty, and what follows it. -/
  | tag (handle suffix : Text)
  /-- A scalar; it is its own text when it is not `plain`. -/
  | scalar (text : Text) (plain : Bool)
  /-- Input that is no token. `waiting` is the number of tokens before the first one of which it was
  not known yet whether it is a key. -/
  | broken (waiting : Nat)
  deriving DecidableEq, Repr

end FlowTrace.Yaml
