import FlowTrace.Text.Category

/-! # Quoted texts

A text inside double quotation marks, with escapes for everything that could be misread: quotation
marks, backslashes, control characters, code points that do not print, and bytes outside UTF-8. -/

namespace FlowTrace

/-! ## Printable code points

The code points that leave a mark on paper: letters, marks, numbers, punctuation and symbols, and
the ASCII space. -/

/-- The printable code points beyond ASCII, in order. -/
def Rune.printableIntervals : Intervals :=
  Category.union fun name => (Category.kind name).any ['L', 'M', 'N', 'P', 'S'].contains

/-- Whether a code point is printable. -/
def Rune.isPrintable (r : Rune) : Bool :=
  if r < 0x80 then 0x20 ≤ r && r < 0x7F else Rune.printableIntervals.holds r

namespace Text

/-! ## Quotation marks -/

/-- The lower-case hexadecimal digit of a number below sixteen. -/
def lowerHexDigit (n : Nat) : UInt8 := if n < 10 then (48 + n).toUInt8 else (87 + n).toUInt8

/-- A number in lower-case hexadecimal digits, exactly `width` of them. -/
def hexFixed : Nat → Nat → Text
  | 0, _ => []
  | width + 1, n => hexFixed width (n / 16) ++ [lowerHexDigit (n % 16)]

/-- The one-letter escapes of control characters. -/
def letterEscape? (r : Rune) : Option Text :=
  if r == 0x07 then some "\\a"
  else if r == 0x08 then some "\\b"
  else if r == 0x0C then some "\\f"
  else if r == 0x0A then some "\\n"
  else if r == 0x0D then some "\\r"
  else if r == 0x09 then some "\\t"
  else if r == 0x0B then some "\\v"
  else none

/-- How a glyph is written inside quotation marks. -/
def quoteGlyph (g : Glyph) : Text :=
  if g.rune == 0x22 || g.rune == 0x5C then backslash :: g.bytes
  else if g.rune == Rune.replacement && g.bytes.length == 1 then
    "\\x" ++ hexFixed 2 ((g.bytes.headD 0).toNat)
  else if g.rune == Rune.replacement || Rune.isPrintable g.rune then g.bytes
  else
    match letterEscape? g.rune with
    | some escape => escape
    | none =>
      if g.rune < 0x20 || g.rune == 0x7F then "\\x" ++ hexFixed 2 g.rune
      else if g.rune < 0x10000 then "\\u" ++ hexFixed 4 g.rune
      else "\\U" ++ hexFixed 8 g.rune

/-- The text inside quotation marks. -/
def quoted (t : Text) : Text := doubleQuote :: (t.glyphs.flatMap quoteGlyph ++ [doubleQuote])

end Text

end FlowTrace
