import FlowTrace.Yaml.Scalar

/-! # Writing YAML

A **document** is a block of named entries, indented by four blanks for each level. A text is
written plainly where it stays the same text, in single quotation marks where only its marks could
be misread, in double quotation marks where it holds something that cannot be shown, and as a block
of lines where it has several. -/

namespace FlowTrace.Yaml

/-- A **document**. -/
inductive Document where
  /-- A text. -/
  | text (value : Text)
  /-- Something whose written form is fixed: a number, a truth value or a date. -/
  | fixed (value : Text)
  /-- A list of texts. -/
  | list (items : List Text)
  /-- Named entries. -/
  | block (entries : List (Text × Document))

/-! ## What a text holds -/

/-- Whether a code point ends a line. -/
def endsLine (r : Rune) : Bool := r == 0x0A || r == 0x0D || r == 0x85 || r == 0x2028 || r == 0x2029

/-- Whether a code point is a blank inside a line. -/
def isBlank (r : Rune) : Bool := r == 0x20 || r == 0x09

/-- Whether a code point can be shown as itself. -/
def isShown (r : Rune) : Bool :=
  r == 0x0A || (0x20 ≤ r && r ≤ 0x7E) || (0xA0 ≤ r && r ≤ 0xD7FF) ||
    (0xE000 ≤ r && r ≤ 0xFFFD && r != 0xFEFF)

/-- What was found in a text while it was looked through. -/
structure Survey where
  /-- A mark that has a meaning of its own in a block. -/
  hasMark : Bool := false
  /-- The end of a line. -/
  hasBreak : Bool := false
  /-- A tab. -/
  hasTab : Bool := false
  /-- A code point that cannot be shown. -/
  hasHidden : Bool := false
  /-- A space or a line end at one of the two ends. -/
  hasLooseEnd : Bool := false
  /-- A space at the very end. -/
  endsInSpace : Bool := false
  /-- A line that begins with a space. -/
  hasBreakSpace : Bool := false
  /-- A line that ends in a space. -/
  hasSpaceBreak : Bool := false
  deriving Repr

/-- Whether a code point at the head of a text has a meaning of its own. -/
def isLeadingMark (r : Rune) (beforeBlank : Bool) : Bool :=
  (Text.runes "#,[]\x7b\x7d&*!|>'\"%@`").contains r ||
    ((r == 0x3F || r == 0x3A || r == 0x2D) && beforeBlank)

/-- Whether a code point inside a text has a meaning of its own. -/
def isInnerMark (r : Rune) (afterBlank beforeBlank : Bool) : Bool :=
  (r == 0x3A && beforeBlank) || (r == 0x23 && afterBlank)

/-- Looks through the code points of a text. `before?` is the code point before the current one. -/
def survey : List Rune → Option Rune → Survey → Survey
  | [], _, s => s
  | r :: rest, before?, s =>
    let beforeBlank := match rest with
      | [] => true
      | next :: _ => isBlank next
    let afterBlank := before?.all fun b => isBlank b || endsLine b || b == 0
    let isFirst := before?.isNone
    let isSpace := r == 0x20
    let loose := (isSpace || endsLine r) && (isFirst || rest.isEmpty)
    survey rest (some r) {
      hasMark := s.hasMark ||
        (if isFirst then isLeadingMark r beforeBlank else isInnerMark r afterBlank beforeBlank)
      hasBreak := s.hasBreak || endsLine r
      hasTab := s.hasTab || r == 0x09
      hasHidden := s.hasHidden || (r != 0x09 && !isShown r)
      hasLooseEnd := s.hasLooseEnd || loose
      endsInSpace := s.endsInSpace || (isSpace && rest.isEmpty)
      hasBreakSpace := s.hasBreakSpace || (isSpace && before?.any endsLine)
      hasSpaceBreak := s.hasSpaceBreak || (endsLine r && before? == some 0x20) }

/-- What a text holds. Three hyphens or points at its head are a mark, too. -/
def surveyOf (t : Text) : Survey :=
  survey t.runes none { hasMark := t.startsWith "---" || t.startsWith "..." }

/-! ## The written forms -/

/-- The one-letter escapes inside double quotation marks. -/
def letterEscape? (r : Rune) : Option UInt8 :=
  let table : List (Rune × Char) :=
    [(0x00, '0'), (0x07, 'a'), (0x08, 'b'), (0x09, 't'), (0x0A, 'n'), (0x0B, 'v'), (0x0C, 'f'),
      (0x0D, 'r'), (0x1B, 'e'), (0x85, 'N'), (0xA0, '_'), (0x2028, 'L'), (0x2029, 'P')]
  (table.find? (·.1 == r)).map fun entry => entry.2.toUInt8

/-- A number in upper-case hexadecimal digits, exactly `width` of them. -/
def upperHex : Nat → Nat → Text
  | 0, _ => []
  | width + 1, n =>
    upperHex width (n / 16) ++
      [if n % 16 < 10 then (48 + n % 16).toUInt8 else (55 + n % 16).toUInt8]

/-- A code point inside double quotation marks; `shows` tells whether it is shown as itself if that
is possible. -/
def escapeGlyph (shows : Bool) (g : Text.Glyph) : Text :=
  let r := g.rune
  if r == 0x22 || r == 0x5C then Text.backslash :: g.bytes
  else if shows && isShown r && !endsLine r then g.bytes
  else
    match letterEscape? r with
    | some c => [Text.backslash, c]
    | none =>
      if r ≤ 0xFF then "\\x" ++ upperHex 2 r
      else if r ≤ 0xFFFF then "\\u" ++ upperHex 4 r
      else "\\U" ++ upperHex 8 r

/-- The mark that may stand at the head of a document to tell the order of its bytes. -/
abbrev byteOrderMark : Rune := 0xFEFF

/-- A text in double quotation marks. If a byte order mark is its first code point, nothing in it is
shown as itself. -/
def doubleQuoted (t : Text) : Text :=
  let shows := t.runes.head? != some byteOrderMark
  Text.doubleQuote :: (t.glyphs.flatMap (escapeGlyph shows) ++ [Text.doubleQuote])

/-- Glyphs with the indentation in front of each one that begins a line, and apostrophes written
`double` times. -/
def indented (indent : Text) (double : Bool) : List Text.Glyph → Bool → Text
  | [], _ => []
  | g :: rest, atStart =>
    if endsLine g.rune then g.bytes ++ indented indent double rest true
    else
      (if atStart then indent else []) ++
        (if double && g.rune == 0x27 then g.bytes ++ g.bytes else g.bytes) ++
        indented indent double rest false

/-- A text in single quotation marks. -/
def singleQuoted (indent t : Text) : Text :=
  Text.apostrophe :: (indented indent true t.glyphs false ++ [Text.apostrophe])

/-- A text as a block of lines. The mark in front tells whether the first line begins with
blanks, and how many line ends the last line has. -/
def literalBlock (indent t : Text) : Text :=
  let runes := t.runes
  let hint : Text := if runes.head?.any fun r => r == 0x20 || endsLine r then "4" else ""
  let chomp : Text :=
    match runes.reverse with
    | [] => "-"
    | [last] => if endsLine last then "+" else "-"
    | last :: previous :: _ =>
      if !endsLine last then "-" else if endsLine previous then "+" else ""
  let body :=
    if runes.head?.any endsLine then indented indent false t.glyphs false
    else "\n" ++ indented indent false t.glyphs true
  "|" ++ hint ++ chomp ++ body

/-- The written form of a text whose further lines are indented. -/
def writeText (indent t : Text) : Text :=
  let s := surveyOf t
  if t.contains Text.newline then
    if s.endsInSpace || s.hasSpaceBreak || s.hasHidden then doubleQuoted t
    else literalBlock indent t
  else if !staysText t then doubleQuoted t
  else if s.hasBreakSpace || s.hasSpaceBreak || s.hasTab || s.hasHidden then doubleQuoted t
  else if s.hasMark || s.hasLooseEnd || s.hasBreak then singleQuoted indent t
  else t

/-- The text with its last line ended. -/
def endLine (t : Text) : Text := if t.runes.getLast?.any endsLine then t else t ++ "\n"

/-- A number of spaces. -/
def spaces (n : Nat) : Text := List.replicate n 0x20

/-- One item of a list at a depth. -/
def writeItem (depth : Nat) (item : Text) : Text :=
  spaces (4 * depth + 4) ++ "- " ++ endLine (writeText (spaces (4 * depth + 6)) item)

mutual
/-- The written form of a document behind its name, at a depth. -/
def Document.writeAt (depth : Nat) : Document → Text
  | .text value => " " ++ endLine (writeText (spaces (4 * depth + 4)) value)
  | .fixed value => " " ++ value ++ "\n"
  | .list items => if items.isEmpty then " []\n" else "\n" ++ items.flatMap (writeItem depth)
  | .block entries => "\n" ++ writeEntries (depth + 1) entries

/-- The written form of named entries at a depth. -/
def writeEntries (depth : Nat) : List (Text × Document) → Text
  | [] => []
  | (name, value) :: entries =>
    spaces (4 * depth) ++ name ++ ":" ++ value.writeAt depth ++ writeEntries depth entries
end

/-- The written form of a document made of named entries. -/
def write (entries : List (Text × Document)) : Text := writeEntries 0 entries

end FlowTrace.Yaml
