import FlowTrace.Text.Basic

/-! # Code points

Reading and writing UTF-8. A **glyph** of a text is a code point together with the bytes it was
read from. Reading never fails: a byte that does not begin a well-formed sequence is a glyph of
its own that stands for the replacement character U+FFFD. The bytes of the glyphs of a text,
one after the other, are the text again (`flatten_glyphs`). -/

namespace FlowTrace

/-- A **code point**. -/
abbrev Rune := Nat

/-- The replacement character, read for every byte outside well-formed UTF-8. -/
abbrev Rune.replacement : Rune := 0xFFFD

namespace Text

/-- Whether a byte continues a multi-byte sequence. -/
def isContinuation (c : UInt8) : Bool := 0x80 ≤ c && c ≤ 0xBF

/-- The value bits of a continuation byte. -/
def payload (c : UInt8) : Nat := c.toNat - 0x80

/-- The second bytes that may follow the first byte of a three-byte sequence: overlong forms and
surrogates are refused. -/
def isSecondOfThree (first c : UInt8) : Bool :=
  (if first == 0xE0 then 0xA0 else 0x80) ≤ c && c ≤ (if first == 0xED then 0x9F else 0xBF)

/-- The second bytes that may follow the first byte of a four-byte sequence: overlong forms and
values above U+10FFFF are refused. -/
def isSecondOfFour (first c : UInt8) : Bool :=
  (if first == 0xF0 then 0x90 else 0x80) ≤ c && c ≤ (if first == 0xF4 then 0x8F else 0xBF)

/-- The code point at the head of `c :: t` and the number of bytes after `c` that belong to it. -/
def decodeHead (c : UInt8) (t : Text) : Rune × Nat :=
  if c < 0x80 then (c.toNat, 0)
  else if 0xC2 ≤ c && c ≤ 0xDF then
    match t with
    | c₁ :: _ =>
      if isContinuation c₁ then ((c.toNat - 0xC0) * 64 + payload c₁, 1) else (Rune.replacement, 0)
    | _ => (Rune.replacement, 0)
  else if 0xE0 ≤ c && c ≤ 0xEF then
    match t with
    | c₁ :: c₂ :: _ =>
      if isSecondOfThree c c₁ && isContinuation c₂ then
        (((c.toNat - 0xE0) * 64 + payload c₁) * 64 + payload c₂, 2)
      else (Rune.replacement, 0)
    | _ => (Rune.replacement, 0)
  else if 0xF0 ≤ c && c ≤ 0xF4 then
    match t with
    | c₁ :: c₂ :: c₃ :: _ =>
      if isSecondOfFour c c₁ && isContinuation c₂ && isContinuation c₃ then
        ((((c.toNat - 0xF0) * 64 + payload c₁) * 64 + payload c₂) * 64 + payload c₃, 3)
      else (Rune.replacement, 0)
    | _ => (Rune.replacement, 0)
  else (Rune.replacement, 0)

/-- A **glyph**: a code point and the bytes it was read from. -/
structure Glyph where
  /-- The code point. -/
  rune : Rune
  /-- The bytes it was read from. -/
  bytes : Text
  deriving DecidableEq, Repr

/-- The glyphs of a text, in order. -/
def glyphs (t : Text) : List Glyph := go t 0
where
  /-- The next `skip` bytes belong to a glyph that was already read. -/
  go : Text → Nat → List Glyph
    | [], _ => []
    | _ :: t, skip + 1 => go t skip
    | c :: t, 0 =>
      let (rune, more) := decodeHead c t
      ⟨rune, c :: t.take more⟩ :: go t more

/-- The bytes of a list of glyphs. -/
def ofGlyphs (gs : List Glyph) : Text := gs.flatMap (·.bytes)

/-- The code points of a text, in order. -/
def runes (t : Text) : List Rune := t.glyphs.map (·.rune)

/-- The number of code points. -/
def runeCount (t : Text) : Nat := t.glyphs.length

/-- The glyphs hold exactly the bytes of the text. -/
theorem ofGlyphs_glyphs (t : Text) : ofGlyphs t.glyphs = t := by
  have step : ∀ (t : Text) (skip : Nat), ofGlyphs (glyphs.go t skip) = t.drop skip := by
    intro t
    induction t with
    | nil => intro skip; simp [glyphs.go, ofGlyphs]
    | cons c t ih =>
      intro skip
      cases skip with
      | succ n => simpa [glyphs.go] using ih n
      | zero =>
        have h := ih (decodeHead c t).2
        simp only [ofGlyphs] at h
        simp [glyphs.go, ofGlyphs, h]
  simpa [glyphs] using step t 0

/-- The UTF-8 bytes of a code point. Surrogates and values above U+10FFFF are written as the
replacement character. -/
def ofRune (r : Rune) : Text :=
  let cont (n : Nat) : UInt8 := (0x80 + n % 64).toUInt8
  let three (r : Nat) : Text := [(0xE0 + r / 4096).toUInt8, cont (r / 64), cont r]
  if r < 0x80 then [r.toUInt8]
  else if r < 0x800 then [(0xC0 + r / 64).toUInt8, cont r]
  else if 0xD800 ≤ r && r < 0xE000 then three Rune.replacement
  else if r < 0x10000 then three r
  else if r < 0x110000 then [(0xF0 + r / 262144).toUInt8, cont (r / 4096), cont (r / 64), cont r]
  else three Rune.replacement

/-- The UTF-8 bytes of a list of code points. -/
def ofRunes (rs : List Rune) : Text := rs.flatMap ofRune

/-- Well-formed UTF-8: every glyph is written back as the bytes it was read from. -/
def isValid (t : Text) : Bool := t.glyphs.all fun g => g.bytes.length != 1 || g.rune < 0x80

/-- The text with each byte outside well-formed UTF-8 replaced by U+FFFD. -/
def repaired (t : Text) : Text := ofRunes t.runes

/-- The text as a character string, after `repaired`. -/
def toDisplay (t : Text) : String := String.ofList (t.runes.map Char.ofNat)

end Text

end FlowTrace
