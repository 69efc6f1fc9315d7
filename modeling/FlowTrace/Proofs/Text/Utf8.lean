import Mathlib.Data.List.Basic
import Mathlib.Tactic.SplitIfs
import FlowTrace.Text.Rune

/-! # Well-formed UTF-8

A glyph is read in one of two ways (`Glyph.Read`): it is a code point together with just the bytes
that the code point is written with, or it is a single byte outside well-formed UTF-8, which stands
for the replacement character. In a valid text there are none of the second kind, so that nothing
has to be repaired (`repaired_of_isValid`). -/

namespace FlowTrace.Text

/-- Whether a number is a code point that is written in UTF-8: no surrogate, and not too large. -/
def isScalar (r : Nat) : Bool := r < 0xD800 || (0xE000 ≤ r && r < 0x110000)

/-- A byte with a known code. -/
theorem toUInt8_eq_of_toNat {n : Nat} {c : UInt8} (h : n = c.toNat) : n.toUInt8 = c := by
  rw [h]
  exact UInt8.ofNat_toNat

/-! ## Writing code points -/

/-- A code point of seven bits is written as one byte. -/
theorem ofRune_one {r : Nat} (h : r < 0x80) : ofRune r = [r.toUInt8] := if_pos h

/-- A code point of up to eleven bits is written as two bytes. -/
theorem ofRune_two {r : Nat} (low : 0x80 ≤ r) (high : r < 0x800) :
    ofRune r = [(0xC0 + r / 64).toUInt8, (0x80 + r % 64).toUInt8] := by
  rw [ofRune, if_neg (Nat.not_lt.2 (by omega)), if_pos high]

/-- A code point of up to sixteen bits is written as three bytes. -/
theorem ofRune_three {r : Nat} (low : 0x800 ≤ r) (high : r < 0x10000)
    (scalar : isScalar r = true) :
    ofRune r = [(0xE0 + r / 4096).toUInt8, (0x80 + r / 64 % 64).toUInt8,
      (0x80 + r % 64).toUInt8] := by
  have no_surrogate : ¬ (decide (0xD800 ≤ r) && decide (r < 0xE000)) = true := by
    simp only [isScalar, Bool.or_eq_true, Bool.and_eq_true, decide_eq_true_eq] at scalar ⊢
    omega
  rw [ofRune, if_neg (Nat.not_lt.2 (by omega)), if_neg (Nat.not_lt.2 (by omega)),
    if_neg no_surrogate, if_pos high]

/-- Any other code point is written as four bytes. -/
theorem ofRune_four {r : Nat} (low : 0x10000 ≤ r) (high : r < 0x110000) :
    ofRune r = [(0xF0 + r / 262144).toUInt8, (0x80 + r / 4096 % 64).toUInt8,
      (0x80 + r / 64 % 64).toUInt8, (0x80 + r % 64).toUInt8] := by
  have no_surrogate : ¬ (decide (0xD800 ≤ r) && decide (r < 0xE000)) = true := by
    simp only [Bool.and_eq_true, decide_eq_true_eq]
    omega
  rw [ofRune, if_neg (Nat.not_lt.2 (by omega)), if_neg (Nat.not_lt.2 (by omega)),
    if_neg no_surrogate, if_neg (Nat.not_lt.2 (by omega)), if_pos high]

/-! ## Reading code points -/

/-- A code point together with just the bytes that it is written with. -/
def Written (r : Nat) (bytes : Text) : Prop := isScalar r = true ∧ ofRune r = bytes

/-- An ASCII byte is how its code point is written. -/
theorem written_one {c : UInt8} (h : c < 0x80) : Written c.toNat [c] := by
  have low : c.toNat < 0x80 := UInt8.lt_iff_toNat_lt.1 h
  refine ⟨?_, ?_⟩
  · simp only [isScalar, Bool.or_eq_true, decide_eq_true_eq]
    omega
  · rw [ofRune_one low, toUInt8_eq_of_toNat rfl]

/-- The range of continuation bytes. -/
theorem toNat_of_isContinuation {c : UInt8} (h : isContinuation c = true) :
    0x80 ≤ c.toNat ∧ c.toNat ≤ 0xBF := by
  simpa [isContinuation, UInt8.le_iff_toNat_le] using h

/-- Two bytes of their ranges are how a code point is written. -/
theorem written_two {c c₁ : UInt8} (first : (0xC2 ≤ c && c ≤ 0xDF) = true)
    (second : isContinuation c₁ = true) :
    Written ((c.toNat - 0xC0) * 64 + payload c₁) [c, c₁] := by
  have bounds : 0xC2 ≤ c.toNat ∧ c.toNat ≤ 0xDF := by
    simpa [UInt8.le_iff_toNat_le] using first
  have bounds₁ := toNat_of_isContinuation second
  unfold payload
  refine ⟨?_, ?_⟩
  · simp only [isScalar, Bool.or_eq_true, decide_eq_true_eq]
    omega
  · rw [ofRune_two (by omega) (by omega), toUInt8_eq_of_toNat (c := c) (by omega),
      toUInt8_eq_of_toNat (c := c₁) (by omega)]

/-- The range of second bytes of three, which leaves out overlong forms and surrogates. -/
theorem toNat_of_isSecondOfThree {c c₁ : UInt8} (h : isSecondOfThree c c₁ = true) :
    0x80 ≤ c₁.toNat ∧ c₁.toNat ≤ 0xBF ∧ (c.toNat = 0xE0 → 0xA0 ≤ c₁.toNat) ∧
      (c.toNat = 0xED → c₁.toNat ≤ 0x9F) := by
  simp only [isSecondOfThree, Bool.and_eq_true, decide_eq_true_eq, beq_iff_eq,
    UInt8.le_iff_toNat_le, ← UInt8.toNat_inj, apply_ite UInt8.toNat] at h
  obtain ⟨low, high⟩ := h
  split at low <;> split at high <;> simp_all <;> omega

/-- Three bytes of their ranges are how a code point is written. -/
theorem written_three {c c₁ c₂ : UInt8} (first : (0xE0 ≤ c && c ≤ 0xEF) = true)
    (others : (isSecondOfThree c c₁ && isContinuation c₂) = true) :
    Written (((c.toNat - 0xE0) * 64 + payload c₁) * 64 + payload c₂) [c, c₁, c₂] := by
  have bounds : 0xE0 ≤ c.toNat ∧ c.toNat ≤ 0xEF := by
    simpa [UInt8.le_iff_toNat_le] using first
  rw [Bool.and_eq_true] at others
  have bounds₁ := toNat_of_isSecondOfThree others.1
  have bounds₂ := toNat_of_isContinuation others.2
  unfold payload
  have scalar : isScalar (((c.toNat - 0xE0) * 64 + (c₁.toNat - 0x80)) * 64 + (c₂.toNat - 0x80)) =
      true := by
    simp only [isScalar, Bool.or_eq_true, Bool.and_eq_true, decide_eq_true_eq]
    omega
  refine ⟨scalar, ?_⟩
  rw [ofRune_three (by omega) (by omega) scalar, toUInt8_eq_of_toNat (c := c) (by omega),
    toUInt8_eq_of_toNat (c := c₁) (by omega), toUInt8_eq_of_toNat (c := c₂) (by omega)]

/-- The range of second bytes of four, which leaves out overlong forms and numbers that are too
large. -/
theorem toNat_of_isSecondOfFour {c c₁ : UInt8} (h : isSecondOfFour c c₁ = true) :
    0x80 ≤ c₁.toNat ∧ c₁.toNat ≤ 0xBF ∧ (c.toNat = 0xF0 → 0x90 ≤ c₁.toNat) ∧
      (c.toNat = 0xF4 → c₁.toNat ≤ 0x8F) := by
  simp only [isSecondOfFour, Bool.and_eq_true, decide_eq_true_eq, beq_iff_eq,
    UInt8.le_iff_toNat_le, ← UInt8.toNat_inj, apply_ite UInt8.toNat] at h
  obtain ⟨low, high⟩ := h
  split at low <;> split at high <;> simp_all <;> omega

/-- Four bytes of their ranges are how a code point is written. -/
theorem written_four {c c₁ c₂ c₃ : UInt8} (first : (0xF0 ≤ c && c ≤ 0xF4) = true)
    (others : (isSecondOfFour c c₁ && isContinuation c₂ && isContinuation c₃) = true) :
    Written ((((c.toNat - 0xF0) * 64 + payload c₁) * 64 + payload c₂) * 64 + payload c₃)
      [c, c₁, c₂, c₃] := by
  have bounds : 0xF0 ≤ c.toNat ∧ c.toNat ≤ 0xF4 := by
    simpa [UInt8.le_iff_toNat_le] using first
  rw [Bool.and_eq_true, Bool.and_eq_true] at others
  have bounds₁ := toNat_of_isSecondOfFour others.1.1
  have bounds₂ := toNat_of_isContinuation others.1.2
  have bounds₃ := toNat_of_isContinuation others.2
  unfold payload
  refine ⟨?_, ?_⟩
  · simp only [isScalar, Bool.or_eq_true, Bool.and_eq_true, decide_eq_true_eq]
    omega
  · rw [ofRune_four (by omega) (by omega), toUInt8_eq_of_toNat (c := c) (by omega),
      toUInt8_eq_of_toNat (c := c₁) (by omega), toUInt8_eq_of_toNat (c := c₂) (by omega),
      toUInt8_eq_of_toNat (c := c₃) (by omega)]

/-- How the code point at the head of a text was read: from the bytes that it is written with, or
from a byte outside well-formed UTF-8. -/
theorem decodeHead_cases (c : UInt8) (t : Text) :
    Written (decodeHead c t).1 (c :: t.take (decodeHead c t).2) ∨
      (0x80 ≤ c ∧ decodeHead c t = (Rune.replacement, 0)) := by
  by_cases ascii : c < 0x80
  · left
    unfold decodeHead
    rw [if_pos ascii]
    exact written_one ascii
  · have high : 0x80 ≤ c := UInt8.not_lt.1 ascii
    unfold decodeHead
    rw [if_neg ascii]
    -- By the first byte, runes of two, three and four bytes; whatever is missing leaves one odd byte.
    split
    · rename_i first
      split
      · split
        · rename_i second
          exact Or.inl (written_two first second)
        · exact Or.inr ⟨high, rfl⟩
      · exact Or.inr ⟨high, rfl⟩
    · split
      · rename_i first
        split
        · split
          · rename_i others
            exact Or.inl (written_three first others)
          · exact Or.inr ⟨high, rfl⟩
        · exact Or.inr ⟨high, rfl⟩
      · split
        · rename_i first
          split
          · split
            · rename_i others
              exact Or.inl (written_four first others)
            · exact Or.inr ⟨high, rfl⟩
          · exact Or.inr ⟨high, rfl⟩
        · exact Or.inr ⟨high, rfl⟩

/-- A glyph was **read** from the bytes that its code point is written with, or from a byte outside
well-formed UTF-8. -/
def Glyph.Read (g : Glyph) : Prop :=
  Written g.rune g.bytes ∨ ∃ c, 0x80 ≤ c ∧ g = ⟨Rune.replacement, [c]⟩

/-- A code point takes at least one byte. -/
theorem ofRune_ne_nil (r : Nat) : ofRune r ≠ [] := by
  unfold ofRune
  split_ifs <;> exact List.cons_ne_nil _ _

/-- A glyph has at least one byte. -/
theorem Glyph.Read.bytes_ne_nil {g : Glyph} (read : g.Read) : g.bytes ≠ [] := by
  rcases read with written | ⟨c, -, rfl⟩
  · rw [← written.2]
    exact ofRune_ne_nil _
  · exact List.cons_ne_nil _ _

/-- The first glyph of a text, and those behind it. -/
theorem glyphs_go_cons (c : UInt8) (t : Text) : glyphs.go (c :: t) 0 =
    ⟨(decodeHead c t).1, c :: t.take (decodeHead c t).2⟩ :: glyphs.go t (decodeHead c t).2 :=
  rfl

/-- A glyph is read from the text wherever the scan begins. -/
theorem read_of_mem_go {g : Glyph} : ∀ (t : Text) (skip : Nat), g ∈ glyphs.go t skip → g.Read
  | [], _, member => by cases member
  | _ :: t, skip + 1, member => read_of_mem_go t skip member
  | c :: t, 0, member => by
    rw [glyphs_go_cons, List.mem_cons] at member
    rcases member with rfl | later
    · rcases decodeHead_cases c t with written | ⟨high, outside⟩
      · exact Or.inl written
      · refine Or.inr ⟨c, high, ?_⟩
        rw [outside]
        rfl
    · exact read_of_mem_go t _ later

/-- **Every glyph of a text was read** in one of the two ways. -/
theorem Glyph.read_of_mem {g : Glyph} {t : Text} (member : g ∈ t.glyphs) : g.Read :=
  read_of_mem_go t 0 member

/-- Nothing has to be **repaired** in a valid text. -/
theorem repaired_of_isValid {t : Text} (valid : t.isValid = true) : t.repaired = t := by
  have same : ∀ g ∈ t.glyphs, ofRune g.rune = g.bytes := by
    intro g member
    rcases Glyph.read_of_mem member with written | ⟨c, -, rfl⟩
    · exact written.2
    · have low : Rune.replacement < 0x80 := by simpa using List.all_eq_true.1 valid _ member
      exact absurd low (by decide)
  calc t.repaired = t.glyphs.flatMap fun g => ofRune g.rune := List.flatMap_map ..
    _ = ofGlyphs t.glyphs := List.flatMap_congr same
    _ = t := ofGlyphs_glyphs t

/-! ## Continuation bytes -/

/-- A byte is a continuation byte exactly when it is in their range. -/
theorem isContinuation_iff {c : UInt8} :
    isContinuation c = true ↔ 0x80 ≤ c.toNat ∧ c.toNat ≤ 0xBF := by
  simp [isContinuation, UInt8.le_iff_toNat_le]

/-- A second byte of three is a continuation byte. -/
theorem isContinuation_of_isSecondOfThree {c c₁ : UInt8} (h : isSecondOfThree c c₁ = true) :
    isContinuation c₁ = true :=
  have bounds := toNat_of_isSecondOfThree h
  isContinuation_iff.2 ⟨bounds.1, bounds.2.1⟩

/-- A second byte of four is a continuation byte. -/
theorem isContinuation_of_isSecondOfFour {c c₁ : UInt8} (h : isSecondOfFour c c₁ = true) :
    isContinuation c₁ = true :=
  have bounds := toNat_of_isSecondOfFour h
  isContinuation_iff.2 ⟨bounds.1, bounds.2.1⟩

/-- What belongs to a code point behind its first byte are **continuation bytes**. -/
theorem decodeHead_le (c : UInt8) (t : Text) :
    (decodeHead c t).2 ≤ (t.takeWhile isContinuation).length := by
  unfold decodeHead
  split_ifs with ascii two three four
  · exact Nat.zero_le _
  · match t with
    | [] => exact Nat.zero_le _
    | c₁ :: t =>
      simp only
      split
      · rename_i second
        simp [second]
      · exact Nat.zero_le _
  · match t with
    | [] | [_] => exact Nat.zero_le _
    | c₁ :: c₂ :: t =>
      simp only
      split
      · rename_i others
        rw [Bool.and_eq_true] at others
        simp [isContinuation_of_isSecondOfThree others.1, others.2]
      · exact Nat.zero_le _
  · match t with
    | [] | [_] | [_, _] => exact Nat.zero_le _
    | c₁ :: c₂ :: c₃ :: t =>
      simp only
      split
      · rename_i others
        rw [Bool.and_eq_true, Bool.and_eq_true] at others
        simp [isContinuation_of_isSecondOfFour others.1.1, others.1.2, others.2]
      · exact Nat.zero_le _
  · exact Nat.zero_le _

/-- **Only the continuation bytes** at the head of a text bear on the code point in front of it. -/
theorem decodeHead_takeWhile (c : UInt8) (t : Text) :
    decodeHead c (t.takeWhile isContinuation) = decodeHead c t := by
  have three {d : UInt8} (h : ¬ isContinuation d = true) : isSecondOfThree c d = false :=
    Bool.eq_false_iff.2 (mt isContinuation_of_isSecondOfThree h)
  have four {d : UInt8} (h : ¬ isContinuation d = true) : isSecondOfFour c d = false :=
    Bool.eq_false_iff.2 (mt isContinuation_of_isSecondOfFour h)
  unfold decodeHead
  split_ifs
  · rfl
  · match t with
    | [] => rfl
    | c₁ :: t => by_cases h₁ : isContinuation c₁ = true <;> simp [h₁]
  · match t with
    | [] => rfl
    | [c₁] => by_cases h₁ : isContinuation c₁ = true <;> simp [h₁]
    | c₁ :: c₂ :: t =>
      by_cases h₁ : isContinuation c₁ = true <;> by_cases h₂ : isContinuation c₂ = true <;>
        simp [h₁, h₂, three]
  · match t with
    | [] => rfl
    | [c₁] => by_cases h₁ : isContinuation c₁ = true <;> simp [h₁]
    | [c₁, c₂] =>
      by_cases h₁ : isContinuation c₁ = true <;> by_cases h₂ : isContinuation c₂ = true <;>
        simp [h₁, h₂]
    | c₁ :: c₂ :: c₃ :: t =>
      by_cases h₁ : isContinuation c₁ = true <;> by_cases h₂ : isContinuation c₂ = true <;>
        by_cases h₃ : isContinuation c₃ = true <;> simp [h₁, h₂, h₃, four]
  · rfl

end FlowTrace.Text
