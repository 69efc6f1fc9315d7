import FlowTrace.Proofs.Text.Utf8

/-! # Texts that were repaired

A code point that is written is read back as itself, whatever follows it (`glyphs_ofRune_append`).
So a text that was repaired is well-formed, and repairing it again changes nothing
(`repaired_repaired`). -/

namespace FlowTrace.Text

variable {r : Nat} {t : Text}

/-! ## Reading what was written -/

variable {c c₁ c₂ c₃ : UInt8}

/-- A byte made of a small number has that code. -/
theorem toNat_byte {n : Nat} (h : n < 256) : n.toUInt8.toNat = n := Nat.mod_eq_of_lt h

/-- A byte made of six bits is a continuation byte. -/
theorem isContinuation_byte (n : Nat) : isContinuation (0x80 + n % 64).toUInt8 = true := by
  have code := toNat_byte (show 0x80 + n % 64 < 256 by omega)
  rw [isContinuation_iff, code]
  omega

/-- A byte made of six bits carries them. -/
theorem payload_byte (n : Nat) : payload (0x80 + n % 64).toUInt8 = n % 64 := by
  have code := toNat_byte (show 0x80 + n % 64 < 256 by omega)
  unfold payload
  rw [code]
  exact Nat.add_sub_cancel_left ..

/-- Where the first bytes of sequences of each length lie. -/
theorem between_iff {low high : UInt8} :
    (low ≤ c && c ≤ high) = true ↔ low.toNat ≤ c.toNat ∧ c.toNat ≤ high.toNat := by
  simp [UInt8.le_iff_toNat_le]

/-- A byte above the first code points is none of them. -/
theorem not_lt_of_toNat {high : UInt8} (above : high.toNat ≤ c.toNat) : ¬ c < high := by
  rw [UInt8.lt_iff_toNat_lt]
  exact Nat.not_lt.2 above

/-- A byte above the first bytes of sequences of a length is none of them. -/
theorem not_between_of_toNat {low high : UInt8} (above : high.toNat < c.toNat) :
    ¬ (low ≤ c && c ≤ high) = true := by
  rw [between_iff]
  exact fun inside => absurd inside.2 (Nat.not_le.2 above)

/-- One byte of seven bits is a code point. -/
theorem decodeHead_one (h : c.toNat < 0x80) : decodeHead c t = (c.toNat, 0) := by
  unfold decodeHead
  exact if_pos (UInt8.lt_iff_toNat_lt.2 h)

/-- Two bytes are a code point when the second one continues the first. -/
theorem decodeHead_two (low : 0xC2 ≤ c.toNat) (high : c.toNat ≤ 0xDF)
    (second : isContinuation c₁ = true) :
    decodeHead c (c₁ :: t) = ((c.toNat - 0xC0) * 64 + payload c₁, 1) := by
  have above : ¬ c < 0x80 := not_lt_of_toNat (Nat.le_trans (by decide) low)
  unfold decodeHead
  rw [if_neg above, if_pos (by rw [between_iff]; exact ⟨low, high⟩)]
  exact if_pos second

/-- Three bytes are a code point when the others continue the first. -/
theorem decodeHead_three (low : 0xE0 ≤ c.toNat) (high : c.toNat ≤ 0xEF)
    (others : (isSecondOfThree c c₁ && isContinuation c₂) = true) :
    decodeHead c (c₁ :: c₂ :: t) =
      (((c.toNat - 0xE0) * 64 + payload c₁) * 64 + payload c₂, 2) := by
  have above : ¬ c < 0x80 := not_lt_of_toNat (Nat.le_trans (by decide) low)
  have no_two : ¬ (0xC2 ≤ c && c ≤ 0xDF) = true :=
    not_between_of_toNat (Nat.lt_of_lt_of_le (by decide) low)
  unfold decodeHead
  rw [if_neg above, if_neg no_two, if_pos (by rw [between_iff]; exact ⟨low, high⟩)]
  exact if_pos others

/-- Four bytes are a code point when the others continue the first. -/
theorem decodeHead_four (low : 0xF0 ≤ c.toNat) (high : c.toNat ≤ 0xF4)
    (others : (isSecondOfFour c c₁ && isContinuation c₂ && isContinuation c₃) = true) :
    decodeHead c (c₁ :: c₂ :: c₃ :: t) =
      ((((c.toNat - 0xF0) * 64 + payload c₁) * 64 + payload c₂) * 64 + payload c₃, 3) := by
  have above : ¬ c < 0x80 := not_lt_of_toNat (Nat.le_trans (by decide) low)
  have no_two : ¬ (0xC2 ≤ c && c ≤ 0xDF) = true :=
    not_between_of_toNat (Nat.lt_of_lt_of_le (by decide) low)
  have no_three : ¬ (0xE0 ≤ c && c ≤ 0xEF) = true :=
    not_between_of_toNat (Nat.lt_of_lt_of_le (by decide) low)
  unfold decodeHead
  rw [if_neg above, if_neg no_two, if_neg no_three, if_pos (by rw [between_iff]; exact ⟨low, high⟩)]
  exact if_pos others

/-- A continuation byte is a second byte of three unless the form is overlong or a surrogate. -/
theorem isSecondOfThree_of_toNat (low : 0x80 ≤ c₁.toNat) (high : c₁.toNat ≤ 0xBF)
    (not_long : c.toNat = 0xE0 → 0xA0 ≤ c₁.toNat)
    (no_surrogate : c.toNat = 0xED → c₁.toNat ≤ 0x9F) :
    isSecondOfThree c c₁ = true := by
  simp only [isSecondOfThree, Bool.and_eq_true, decide_eq_true_eq, beq_iff_eq,
    UInt8.le_iff_toNat_le, ← UInt8.toNat_inj, apply_ite UInt8.toNat]
  constructor
  · split
    · rename_i first
      exact not_long first
    · exact low
  · split
    · rename_i first
      exact no_surrogate first
    · exact high

/-- A continuation byte is a second byte of four unless the form is overlong or the number too
large. -/
theorem isSecondOfFour_of_toNat (low : 0x80 ≤ c₁.toNat) (high : c₁.toNat ≤ 0xBF)
    (not_long : c.toNat = 0xF0 → 0x90 ≤ c₁.toNat) (not_large : c.toNat = 0xF4 → c₁.toNat ≤ 0x8F) :
    isSecondOfFour c c₁ = true := by
  simp only [isSecondOfFour, Bool.and_eq_true, decide_eq_true_eq, beq_iff_eq,
    UInt8.le_iff_toNat_le, ← UInt8.toNat_inj, apply_ite UInt8.toNat]
  constructor
  · split
    · rename_i first
      exact not_long first
    · exact low
  · split
    · rename_i first
      exact not_large first
    · exact high

/-- **A code point that is written is read back**, with all its bytes and no more. -/
theorem exists_decodeHead (scalar : isScalar r = true) (t : Text) :
    ∃ c bytes, ofRune r = c :: bytes ∧ decodeHead c (bytes ++ t) = (r, bytes.length) := by
  have bounds : r < 0xD800 ∨ 0xE000 ≤ r ∧ r < 0x110000 := by
    simpa [isScalar] using scalar
  by_cases one : r < 0x80
  · have code := toNat_byte (show r < 256 by omega)
    refine ⟨_, _, ofRune_one one, ?_⟩
    rw [decodeHead_one (by omega), code]
    rfl
  · by_cases two : r < 0x800
    · have code := toNat_byte (show 0xC0 + r / 64 < 256 by omega)
      refine ⟨_, _, ofRune_two (by omega) two, ?_⟩
      rw [List.singleton_append, decodeHead_two (by omega) (by omega) (isContinuation_byte r), code,
        payload_byte]
      exact Prod.ext (by show _ = r; omega) rfl
    · by_cases three : r < 0x10000
      · -- Neither an overlong form nor a surrogate is written.
        have code := toNat_byte (show 0xE0 + r / 4096 < 256 by omega)
        have code₁ := toNat_byte (show 0x80 + r / 64 % 64 < 256 by omega)
        have second : isSecondOfThree (0xE0 + r / 4096).toUInt8 (0x80 + r / 64 % 64).toUInt8 =
            true := by
          refine isSecondOfThree_of_toNat ?_ ?_ ?_ ?_ <;> rw [code₁] <;> try rw [code]
          all_goals omega
        refine ⟨_, _, ofRune_three (by omega) three scalar, ?_⟩
        rw [List.cons_append, List.singleton_append, decodeHead_three (by omega) (by omega)
          (by rw [second, isContinuation_byte]; rfl), code, payload_byte, payload_byte]
        exact Prod.ext (by show _ = r; omega) rfl
      · have code := toNat_byte (show 0xF0 + r / 262144 < 256 by omega)
        have code₁ := toNat_byte (show 0x80 + r / 4096 % 64 < 256 by omega)
        have second : isSecondOfFour (0xF0 + r / 262144).toUInt8 (0x80 + r / 4096 % 64).toUInt8 =
            true := by
          refine isSecondOfFour_of_toNat ?_ ?_ ?_ ?_ <;> rw [code₁] <;> try rw [code]
          all_goals omega
        refine ⟨_, _, ofRune_four (by omega) (by omega), ?_⟩
        rw [List.cons_append, List.cons_append, List.singleton_append,
          decodeHead_four (by omega) (by omega)
            (by rw [second, isContinuation_byte, isContinuation_byte]; rfl), code, payload_byte,
          payload_byte, payload_byte]
        exact Prod.ext (by show _ = r; omega) rfl

/-- The glyphs behind bytes that are skipped. -/
theorem glyphs_go_skip (bytes t : Text) :
    glyphs.go (bytes ++ t) bytes.length = glyphs.go t 0 := by
  induction bytes with
  | nil => rfl
  | cons c bytes ih => exact ih

/-- The glyphs of a text that begins with a code point. -/
theorem glyphs_ofRune_append (scalar : isScalar r = true) (t : Text) :
    (ofRune r ++ t).glyphs = ⟨r, ofRune r⟩ :: t.glyphs := by
  obtain ⟨c, bytes, written, read⟩ := exists_decodeHead scalar t
  rw [written, glyphs, List.cons_append, glyphs_go_cons, read, glyphs_go_skip, List.take_left]
  rfl

/-! ## Repairing -/

/-- The code points of a text can be written. -/
theorem isScalar_of_mem_runes (member : r ∈ t.runes) : isScalar r = true := by
  obtain ⟨g, inside, rfl⟩ := List.mem_map.1 member
  rcases Glyph.read_of_mem inside with written | ⟨c, -, rfl⟩
  · exact written.1
  · show isScalar Rune.replacement = true
    decide

/-- Code points that are written are read back. -/
theorem runes_ofRunes {rs : List Rune} (scalars : ∀ r ∈ rs, isScalar r = true) :
    (ofRunes rs).runes = rs := by
  induction rs with
  | nil => rfl
  | cons r rs ih =>
    have split : ofRunes (r :: rs) = ofRune r ++ ofRunes rs := rfl
    rw [split, runes, glyphs_ofRune_append (scalars r List.mem_cons_self), List.map_cons]
    exact congrArg (r :: ·) (ih fun s member => scalars s (List.mem_cons_of_mem _ member))

/-- **Repairing a text again changes nothing.** -/
theorem repaired_repaired (t : Text) : t.repaired.repaired = t.repaired :=
  congrArg ofRunes (runes_ofRunes fun _ member => isScalar_of_mem_runes member)

/-- A code point outside ASCII takes more than one byte. -/
theorem length_ofRune_ne_one (high : ¬ r < 0x80) : (ofRune r).length ≠ 1 := by
  rw [ofRune, if_neg high]
  split_ifs <;> simp

/-- Code points that are written make up a valid text. -/
theorem isValid_ofRunes {rs : List Rune} (scalars : ∀ r ∈ rs, isScalar r = true) :
    (ofRunes rs).isValid = true := by
  induction rs with
  | nil => rfl
  | cons r rs ih =>
    rw [List.forall_mem_cons] at scalars
    have split : ofRunes (r :: rs) = ofRune r ++ ofRunes rs := rfl
    rw [split, isValid, glyphs_ofRune_append scalars.1, List.all_cons, ← isValid, ih scalars.2,
      Bool.and_true]
    by_cases ascii : r < 0x80
    · simp [ascii]
    · simp [length_ofRune_ne_one ascii]

/-- **A text is valid exactly when there is nothing to repair** in it. -/
theorem isValid_iff : t.isValid = true ↔ t.repaired = t := by
  refine ⟨repaired_of_isValid, fun same => ?_⟩
  rw [← same]
  exact isValid_ofRunes fun _ member => isScalar_of_mem_runes member

/-- **ASCII is valid.** -/
theorem isValid_of_ascii (ascii : ∀ c ∈ t, c < 0x80) : t.isValid = true := by
  have sound : ∀ t : Text, (∀ c ∈ t, c < 0x80) → ∀ g ∈ glyphs.go t 0, g.rune < 0x80 := by
    intro t
    induction t with
    | nil => exact fun _ _ => nofun
    | cons c t ih =>
      intro ascii
      rw [List.forall_mem_cons] at ascii
      have low : c.toNat < 0x80 := UInt8.lt_iff_toNat_lt.1 ascii.1
      rw [glyphs_go_cons, decodeHead_one low]
      exact List.forall_mem_cons.2 ⟨low, ih ascii.2⟩
  rw [isValid, List.all_eq_true]
  intro g member
  simp [sound t ascii g member]

end FlowTrace.Text
