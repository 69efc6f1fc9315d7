import FlowTrace.Text.Rune

/-! # Blank space

The code points with the Unicode property White_Space, and the operations that depend on them:
trimming, words, and collapsing a text onto one line. -/

namespace FlowTrace

/-- Whether a code point has the property White_Space. -/
def Rune.isBlank (r : Rune) : Bool :=
  (0x09 ≤ r && r ≤ 0x0D) || r == 0x20 || r == 0x85 || r == 0xA0 || r == 0x1680 ||
    (0x2000 ≤ r && r ≤ 0x200A) || r == 0x2028 || r == 0x2029 || r == 0x202F || r == 0x205F ||
    r == 0x3000

namespace Text

/-- Whether a glyph is blank. -/
def Glyph.isBlank (g : Glyph) : Bool := Rune.isBlank g.rune

/-- The text without blanks at its two ends. -/
def trim (t : Text) : Text :=
  ofGlyphs ((t.glyphs.dropWhile Glyph.isBlank).reverse.dropWhile Glyph.isBlank).reverse

/-- Whether a text has nothing but blanks in it. -/
def isBlank (t : Text) : Bool := t.glyphs.all Glyph.isBlank

/-- The **words** of a text: its longest parts without blanks, none of them empty. -/
def words (t : Text) : List Text := go t.glyphs []
where
  /-- `word` holds the glyphs of the current word, last first. -/
  go : List Glyph → List Glyph → List Text
    | [], [] => []
    | [], word => [ofGlyphs word.reverse]
    | g :: gs, word =>
      if g.isBlank then
        match word with
        | [] => go gs []
        | _ => ofGlyphs word.reverse :: go gs []
      else go gs (g :: word)

/-- The text on one line: its words with single spaces between them. -/
def collapse (t : Text) : Text := joinWith " " t.words

/-- Whether a byte is a blank of the ASCII pattern class: tab, newline, form feed, carriage
return or space. -/
def isPatternBlank (c : UInt8) : Bool :=
  c == 0x20 || c == 0x09 || c == 0x0A || c == 0x0C || c == 0x0D

/-- The parts of a list that are not blank. -/
def nonBlank (parts : List Text) : List Text := parts.filter fun part => !part.isBlank

end Text

end FlowTrace
