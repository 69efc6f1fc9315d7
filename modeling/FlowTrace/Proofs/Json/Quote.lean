import FlowTrace.Json.Reader
import FlowTrace.Proofs.Text.Repair

/-! # Strings on the wire

A string is written glyph by glyph, and each glyph is read back as the bytes of its code point
(`readString_escapeGlyph`), whether it stands for itself, behind a backslash, or as four
hexadecimal digits. So a text is read back as it was written, once it is repaired
(`readString_quote`). -/

namespace FlowTrace.Json

variable {t rest out : Text} {c : UInt8}

/-! ## Bytes that stand for themselves -/

/-- Whether a byte stands for itself inside a string. -/
def isPlain (c : UInt8) : Bool := c != Text.doubleQuote && c != Text.backslash && 0x20 ≤ c

/-- A plain byte is read as itself. -/
theorem readString_plainByte (plain : isPlain c = true) :
    readString (c :: t) 0 out = readString t 0 (c :: out) := by
  simp only [isPlain, Bool.and_eq_true, bne_iff_ne, ne_eq, decide_eq_true_eq] at plain
  obtain ⟨⟨no_quote, no_backslash⟩, visible⟩ := plain
  rw [readString.eq_def]
  simp only
  rw [if_neg (by simpa using no_quote), if_neg (by simpa using visible),
    if_neg (by simpa using no_backslash)]

/-- Plain bytes are read as themselves. -/
theorem readString_plain (bytes : Text) (plain : ∀ c ∈ bytes, isPlain c = true) (out : Text) :
    readString (bytes ++ t) 0 out = readString t 0 (bytes.reverse ++ out) := by
  induction bytes generalizing out with
  | nil => rfl
  | cons c bytes ih =>
    rw [List.cons_append, readString_plainByte (plain c List.mem_cons_self),
      ih fun d member => plain d (List.mem_cons_of_mem _ member)]
    simp

/-! ## Escapes -/

/-- A hexadecimal digit denotes its number. -/
theorem hexValue_hexDigit {n : Nat} (h : n < 16) : Text.hexValue? (hexDigit n) = some n := by
  revert n
  decide

/-- Four hexadecimal digits denote their number. -/
theorem hexQuad_digits {r : Nat} (h : r < 0x10000) :
    hexQuad (hexDigit (r / 4096 % 16) :: hexDigit (r / 256 % 16) :: hexDigit (r / 16 % 16) ::
      hexDigit (r % 16) :: t) = .ok r := by
  have digit (n : Nat) : Text.hexValue? (hexDigit (n % 16)) = some (n % 16) :=
    hexValue_hexDigit (Nat.mod_lt _ (by decide))
  have number : hexNumber? [hexDigit (r / 4096 % 16), hexDigit (r / 256 % 16),
      hexDigit (r / 16 % 16), hexDigit (r % 16)] = some r := by
    simp only [hexNumber?, List.foldl_cons, List.foldl_nil, digit, Option.pure_def,
      Option.bind_eq_bind, Option.bind_some]
    congr 1
    omega
  simp [hexQuad, number]

/-- Four hexadecimal digits are read as the code point that they denote. -/
theorem readString_hexEscape {r : Nat} (bmp : r < 0x10000) (scalar : Text.isScalar r = true) :
    readString (hexEscape r ++ t) 0 out = readString t 0 ((Text.ofRune r).reverse ++ out) := by
  have no_surrogate : ¬ (decide (0xD800 ≤ r) && decide (r < 0xDC00)) = true := by
    simp only [Text.isScalar, Bool.or_eq_true, Bool.and_eq_true, decide_eq_true_eq] at scalar ⊢
    omega
  have split : hexEscape r ++ t = Text.backslash :: 0x75 :: hexDigit (r / 4096 % 16) ::
      hexDigit (r / 256 % 16) :: hexDigit (r / 16 % 16) :: hexDigit (r % 16) :: t := rfl
  rw [split, readString.eq_def]
  simp only [hexQuad_digits bmp]
  rw [if_neg (by decide), if_neg (by decide), if_pos (by decide), if_pos (by decide),
    if_neg no_surrogate]
  rfl

/-- A simple escape is read as the byte that it stands for. -/
theorem readString_simpleEscape {e b : UInt8} (h : simpleEscape? e = some b) :
    readString (Text.backslash :: e :: t) 0 out = readString t 0 (b :: out) := by
  have no_quad : ¬ (e == ('u' : UInt8)) = true := by
    intro same
    rw [eq_of_beq same] at h
    cases h
  rw [readString.eq_def]
  simp only [h]
  rw [if_neg (by decide), if_neg (by decide), if_pos (by decide), if_neg no_quad]
  rfl

/-! ## Glyphs -/

/-- A byte outside ASCII is plain. -/
theorem isPlain_of_high (h : 0x80 ≤ c) : isPlain c = true := by
  rw [UInt8.le_iff_toNat_le] at h
  have high : 0x80 ≤ c.toNat := h
  simp only [isPlain, Bool.and_eq_true, bne_iff_ne, ne_eq, decide_eq_true_eq,
    UInt8.le_iff_toNat_le, ← UInt8.toNat_inj]
  refine ⟨⟨?_, ?_⟩, ?_⟩
  · show ¬ c.toNat = 0x22
    omega
  · show ¬ c.toNat = 0x5C
    omega
  · show 0x20 ≤ c.toNat
    omega

/-- A byte made of a small number has that code. -/
theorem toNat_toUInt8 {n : Nat} (h : n < 256) : n.toUInt8.toNat = n := Nat.mod_eq_of_lt h

/-- The bytes of a code point above ASCII are above ASCII too. -/
theorem high_of_mem_ofRune {r : Nat} (scalar : Text.isScalar r = true) (high : 0x80 ≤ r)
    (member : c ∈ Text.ofRune r) : 0x80 ≤ c := by
  have bound : r < 0x110000 := by
    simp only [Text.isScalar, Bool.or_eq_true, Bool.and_eq_true, decide_eq_true_eq] at scalar
    omega
  have above {n : Nat} (low : 0x80 ≤ n) (fits : n < 256) : 0x80 ≤ n.toUInt8 := by
    rw [UInt8.le_iff_toNat_le, toNat_toUInt8 fits]
    exact low
  by_cases two : r < 0x800
  · rw [Text.ofRune_two high two] at member
    simp only [List.mem_cons, List.not_mem_nil, or_false] at member
    rcases member with rfl | rfl <;> exact above (by omega) (by omega)
  · by_cases three : r < 0x10000
    · rw [Text.ofRune_three (by omega) three scalar] at member
      simp only [List.mem_cons, List.not_mem_nil, or_false] at member
      rcases member with rfl | rfl | rfl <;> exact above (by omega) (by omega)
    · rw [Text.ofRune_four (by omega) bound] at member
      simp only [List.mem_cons, List.not_mem_nil, or_false] at member
      rcases member with rfl | rfl | rfl | rfl <;> exact above (by omega) (by omega)

/-- The bytes of a code point that needs no escape stand for themselves. -/
theorem isPlain_of_mem_ofRune {r : Nat} (scalar : Text.isScalar r = true) (visible : 0x20 ≤ r)
    (no_quote : r ≠ 0x22) (no_backslash : r ≠ 0x5C) (member : c ∈ Text.ofRune r) :
    isPlain c = true := by
  by_cases high : 0x80 ≤ r
  · exact isPlain_of_high (high_of_mem_ofRune scalar high member)
  · rw [Text.ofRune_one (by omega), List.mem_singleton] at member
    have code : c.toNat = r := by
      rw [member]
      exact toNat_toUInt8 (by omega)
    simp only [isPlain, Bool.and_eq_true, bne_iff_ne, ne_eq, decide_eq_true_eq,
      UInt8.le_iff_toNat_le, ← UInt8.toNat_inj, code]
    exact ⟨⟨no_quote, no_backslash⟩, visible⟩

/-- **A glyph is read back as the bytes of its code point.** -/
theorem readString_escapeGlyph {g : Text.Glyph} (read : g.Read) :
    readString (escapeGlyph g ++ t) 0 out =
      readString t 0 ((Text.ofRune g.rune).reverse ++ out) := by
  -- A glyph is a code point in its own bytes, or a stray byte, which counts as the replacement
  -- character and is written as such.
  rcases read with ⟨scalar, written⟩ | ⟨c, -, rfl⟩
  · rcases g with ⟨r, bytes⟩
    have simple {e b : UInt8} (escape : simpleEscape? e = some b) (code : r = b.toNat)
        (low : b < 0x80) : readString (Text.backslash :: e :: t) 0 out =
          readString t 0 ((Text.ofRune r).reverse ++ out) := by
      rw [readString_simpleEscape escape, code, (Text.written_one low).2]
      rfl
    by_cases special : r ∈ [0x22, 0x5C, 0x08, 0x0C, 0x0A, 0x0D, 0x09]
    · simp only [List.mem_cons, List.not_mem_nil, or_false] at special
      rcases special with rfl | rfl | rfl | rfl | rfl | rfl | rfl <;>
        exact simple rfl rfl (by decide)
    · simp only [List.mem_cons, List.not_mem_nil, or_false, not_or] at special
      obtain ⟨no_quote, no_backslash, no_b, no_f, no_n, no_r, no_t⟩ := special
      unfold escapeGlyph
      rw [if_neg (by simpa using no_quote), if_neg (by simpa using no_backslash),
        if_neg (by simpa using no_b), if_neg (by simpa using no_f), if_neg (by simpa using no_n),
        if_neg (by simpa using no_r), if_neg (by simpa using no_t)]
      -- What is left is escaped by its number if it is a control character or could be taken for
      -- markup, or if it is the replacement character in a single byte.
      split
      · rename_i escaped
        simp only [Bool.or_eq_true, beq_iff_eq, decide_eq_true_eq] at escaped
        have bmp : r < 0x10000 := by
          rcases escaped with ((((h | h) | h) | h) | h) | h <;>
            first | exact Nat.lt_trans h (by decide) | (rw [h]; decide)
        exact readString_hexEscape bmp scalar
      · rename_i visible
        split
        · rename_i replaced
          simp only [Bool.and_eq_true, beq_iff_eq] at replaced
          have bmp : r < 0x10000 := by
            rw [replaced.1]
            decide
          exact readString_hexEscape bmp scalar
        · simp only [Bool.or_eq_true, decide_eq_true_eq, not_or] at visible
          have shown : 0x20 ≤ r := Nat.not_lt.1 visible.1.1.1.1.1
          rw [← show Text.ofRune r = bytes from written]
          exact readString_plain _
            (fun c member => isPlain_of_mem_ofRune scalar shown no_quote no_backslash member) out
  · have bmp : Rune.replacement < 0x10000 := by decide
    have scalar : Text.isScalar Rune.replacement = true := by decide
    exact readString_hexEscape bmp scalar

/-- Escaped glyphs are read as their code points. -/
theorem readString_glyphs (gs : List Text.Glyph) (read : ∀ g ∈ gs, g.Read) (out : Text) :
    readString (gs.flatMap escapeGlyph ++ t) 0 out =
      readString t 0 ((Text.ofRunes (gs.map (·.rune))).reverse ++ out) := by
  induction gs generalizing out with
  | nil => rfl
  | cons g gs ih =>
    rw [List.flatMap_cons, List.append_assoc,
      readString_escapeGlyph (read g List.mem_cons_self),
      ih fun h member => read h (List.mem_cons_of_mem _ member)]
    simp [Text.ofRunes]

/-- **A text is read back as it was written**, with its invalid bytes replaced. -/
theorem readString_quote (t rest : Text) :
    readString (t.glyphs.flatMap escapeGlyph ++ Text.doubleQuote :: rest) 0 [] =
      .ok (t.repaired, rest) := by
  rw [readString_glyphs _ fun _ member => Text.Glyph.read_of_mem member]
  have whole : Text.ofRunes (t.glyphs.map (·.rune)) = t.repaired := rfl
  rw [whole, List.append_nil, readString.eq_def]
  simp only
  rw [if_pos (by decide), List.reverse_reverse, Text.repaired_repaired]

end FlowTrace.Json
