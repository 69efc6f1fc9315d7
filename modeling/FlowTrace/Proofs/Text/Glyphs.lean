import FlowTrace.Proofs.Text.Rewording
import FlowTrace.Text.Blank
import Mathlib.Data.List.DropRight
import Mathlib.Data.List.TakeWhile

/-! # Texts around a mark, glyph by glyph

An ASCII byte is a glyph of its own, so a text that has one in it falls into the glyphs in front of
it and those behind it (`glyphs_mark`). Trimming and the division into words go by glyphs: a byte
that is not blank stays where it is, and what stands on its one side does not depend on what stands
on the other (`trim_enquote`, `first_word`).

A glyph is read from its own bytes: what follows them does not bear on it. So the glyphs of a part of
a text that begins and ends between two of them are the same as in the whole (`glyphs_ofGlyphs`), and
what is left of a text when blanks are taken away at both ends has no blanks there to be taken away
(`trim_trim`). -/

namespace FlowTrace.Text

variable {mark c : UInt8} {t : Text}

/-! ## Glyphs -/

/-- An ASCII byte is a code point of its own. -/
theorem rune_of_mem {d : UInt8} (ascii : c < 0x80) (member : c ∈ d :: t.take (decodeHead d t).2) :
    (decodeHead d t).1 = c.toNat := by
  rcases List.mem_cons.1 member with rfl | later
  · rw [decodeHead_mark ascii]
  · have prefixed : t.take (decodeHead d t).2 <+: t.takeWhile isContinuation :=
      List.prefix_of_prefix_length_le (List.take_prefix _ _) (List.takeWhile_prefix _)
        (Nat.le_trans (List.length_take_le _ _) (decodeHead_le d t))
    have continues := List.mem_takeWhile_imp (prefixed.subset later)
    have high := (isContinuation_iff.1 continues).1
    exact absurd (UInt8.lt_iff_toNat_lt.1 ascii) (Nat.not_lt.2 high)

/-- The glyph that an ASCII byte belongs to is that code point. -/
theorem rune_of_mem_bytes (ascii : c < 0x80) {g : Glyph} (inside : g ∈ t.glyphs)
    (among : c ∈ g.bytes) : g.rune = c.toNat := by
  have read : ∀ (t : Text) (skip : Nat), g ∈ glyphs.go t skip → g.rune = c.toNat := by
    intro t
    induction t with
    | nil => exact fun skip inside => by cases skip <;> cases inside
    | cons d t ih =>
      intro skip inside
      cases skip with
      | succ skip => exact ih skip inside
      | zero =>
        rw [glyphs_go_cons] at inside
        rcases List.mem_cons.1 inside with rfl | later
        · exact rune_of_mem ascii among
        · exact ih _ later
  exact read t 0 inside

/-- Every byte belongs to a glyph. -/
theorem exists_glyph (member : c ∈ t) : ∃ g ∈ t.glyphs, c ∈ g.bytes := by
  rw [← ofGlyphs_glyphs t] at member
  exact List.mem_flatMap.1 member

/-- The glyph of an ASCII byte. -/
abbrev Glyph.ofByte (c : UInt8) : Glyph := ⟨c.toNat, [c]⟩

/-- **An ASCII byte divides the glyphs** of a text. -/
theorem glyphs_mark (ascii : mark < 0x80) (front rest : Text) :
    (front ++ mark :: rest).glyphs = front.glyphs ++ .ofByte mark :: rest.glyphs := by
  have divided : ∀ (front : Text) (skip : Nat), skip ≤ front.length →
      glyphs.go (front ++ mark :: rest) skip =
        glyphs.go front skip ++ .ofByte mark :: rest.glyphs := by
    intro front
    induction front with
    | nil =>
      intro skip inside
      obtain rfl := Nat.le_zero.1 inside
      rw [List.nil_append, glyphs_go_cons, decodeHead_mark ascii]
      rfl
    | cons d front ih =>
      intro skip inside
      cases skip with
      | succ skip => exact ih skip (Nat.le_of_succ_le_succ inside)
      | zero =>
        obtain ⟨same, few⟩ := decodeHead_enquote ascii d front rest
        rw [List.cons_append, glyphs_go_cons, glyphs_go_cons, same, ih _ few,
          List.take_append_of_le_length few]
        rfl
  exact divided front 0 (Nat.zero_le _)

/-- The glyphs of a quoted text. -/
theorem glyphs_enquote (ascii : mark < 0x80) (front contents back : Text) :
    (enquote mark front contents back).glyphs = front.glyphs ++ .ofByte mark ::
      (contents.glyphs ++ .ofByte mark :: back.glyphs) := by
  rw [enquote, glyphs_mark ascii, glyphs_mark ascii]

/-! ## Blanks -/

/-- A quotation mark is not blank. -/
theorem solid_of_mark : ∀ mark ∈ marks, Rune.isBlank mark.toNat = false :=
  Text.forall_mark (by decide) (by decide)

/-- A visible byte is a visible glyph. -/
theorem isBlank_ofByte (solid : Rune.isBlank mark.toNat = false) :
    (Glyph.ofByte mark).isBlank = false := solid

/-- What is quoted is not blank. -/
theorem isBlank_enquote (ascii : mark < 0x80) (solid : Rune.isBlank mark.toNat = false)
    (front contents back : Text) : (enquote mark front contents back).isBlank = false := by
  rw [isBlank, glyphs_enquote ascii, List.all_append, List.all_cons, isBlank_ofByte solid,
    Bool.false_and, Bool.and_false]

/-- A text in which all bytes that are ASCII are blanks. -/
def IsGap (gap : Text) : Prop := ∀ c ∈ gap, c < 0x80 → Rune.isBlank c.toNat = true

/-- **Trimming** takes a gap away on either side of what is quoted. -/
theorem trim_enquote (ascii : mark < 0x80) (solid : Rune.isBlank mark.toNat = false)
    (front back : Text) : ∃ gap front' back', front = gap ++ front' ∧ IsGap gap ∧
      ∀ contents, trim (enquote mark front contents back) = enquote mark front' contents back' := by
  refine ⟨ofGlyphs (front.glyphs.takeWhile Glyph.isBlank),
    ofGlyphs (front.glyphs.dropWhile Glyph.isBlank),
    ofGlyphs (back.glyphs.reverse.dropWhile Glyph.isBlank).reverse, ?_, ?_, fun contents => ?_⟩
  · rw [ofGlyphs, ofGlyphs, ← List.flatMap_append, List.takeWhile_append_dropWhile]
    exact (ofGlyphs_glyphs front).symm
  · intro c member low
    obtain ⟨g, inside, among⟩ := List.mem_flatMap.1 member
    have blank : g.isBlank = true := List.mem_takeWhile_imp inside
    rwa [Glyph.isBlank, rune_of_mem_bytes low ((List.takeWhile_prefix _).subset inside) among]
      at blank
  · have stays := isBlank_ofByte solid
    rw [trim, glyphs_enquote ascii, dropWhile_stop stays]
    have reversed (xs : List Glyph) : (xs ++ Glyph.ofByte mark ::
          (contents.glyphs ++ .ofByte mark :: back.glyphs)).reverse =
        back.glyphs.reverse ++ .ofByte mark ::
          (contents.glyphs.reverse ++ .ofByte mark :: xs.reverse) := by simp
    rw [reversed, dropWhile_stop stays]
    simp only [ofGlyphs, List.reverse_append, List.reverse_cons, List.reverse_reverse,
      List.append_assoc, List.singleton_append, List.flatMap_append, List.flatMap_cons, enquote]
    have same : contents.glyphs.flatMap (·.bytes) = contents := ofGlyphs_glyphs contents
    rw [same]
    rfl

/-- Trimming takes away something behind a word that a text begins with. -/
theorem trim_append {word : Text} (filled : word ≠ [])
    (plain : ∀ c ∈ word, c < 0x80 ∧ Rune.isBlank c.toNat = false) (rest : Text) :
    ∃ rest', trim (word ++ rest) = word ++ rest' ∧ rest' <+: rest := by
  -- The last byte of the word stops trimming from behind, the first one that from the front.
  obtain ⟨front, c, rfl⟩ : ∃ (front : Text) (c : UInt8), word = front ++ [c] :=
    ⟨_, _, (List.dropLast_append_getLast filled).symm⟩
  obtain ⟨ascii, solid⟩ := plain c (by simp)
  have starts : front.glyphs.dropWhile Glyph.isBlank = front.glyphs := by
    cases front with
    | nil => rfl
    | cons d front =>
      obtain ⟨ascii, solid⟩ := plain d (by simp)
      have divided : glyphs (d :: front) = .ofByte d :: glyphs front := glyphs_mark ascii [] front
      rw [divided, List.dropWhile_cons_of_neg (by rw [isBlank_ofByte solid]; exact nofun)]
  have stays := isBlank_ofByte solid
  have reversed (xs : List Glyph) : (xs ++ Glyph.ofByte c :: glyphs rest).reverse =
      (glyphs rest).reverse ++ .ofByte c :: xs.reverse := by simp
  refine ⟨ofGlyphs (rest.glyphs.rdropWhile Glyph.isBlank), ?_, ?_⟩
  · have whole : ofGlyphs front.glyphs = front := ofGlyphs_glyphs front
    rw [List.append_assoc, List.singleton_append, trim, glyphs_mark ascii, dropWhile_stop stays,
      starts, reversed, dropWhile_stop stays, List.reverse_append, List.reverse_cons,
      List.reverse_reverse, List.append_assoc, List.singleton_append]
    rw [ofGlyphs, List.flatMap_append, List.flatMap_cons, ← ofGlyphs, whole, List.append_assoc]
    rfl
  · obtain ⟨blanks, whole⟩ := List.rdropWhile_prefix Glyph.isBlank (l := rest.glyphs)
    have divided : ofGlyphs (rest.glyphs.rdropWhile Glyph.isBlank) ++ ofGlyphs blanks = rest := by
      rw [ofGlyphs, ofGlyphs, ← List.flatMap_append, whole]
      exact ofGlyphs_glyphs rest
    exact ⟨_, divided⟩

/-- Blank glyphs of a text make up a gap. -/
theorem isGap_ofGlyphs {blanks : List Glyph} (blank : ∀ g ∈ blanks, g.isBlank = true)
    (inside : ∀ g ∈ blanks, g ∈ t.glyphs) : IsGap (ofGlyphs blanks) := by
  intro c member low
  obtain ⟨g, is_blank, among⟩ := List.mem_flatMap.1 member
  have here := blank g is_blank
  rwa [Glyph.isBlank, rune_of_mem_bytes low (inside g is_blank) among] at here

/-- The blanks that a text begins with. -/
def leadingBlanks (t : Text) : Text := ofGlyphs (t.glyphs.takeWhile Glyph.isBlank)

/-- **Trimming** takes away a gap at either end. -/
theorem exists_gaps (t : Text) : ∃ back, t = leadingBlanks t ++ (trim t ++ back) ∧
    IsGap (leadingBlanks t) ∧ IsGap back := by
  have append (xs ys : List Glyph) : ofGlyphs (xs ++ ys) = ofGlyphs xs ++ ofGlyphs ys :=
    List.flatMap_append
  -- the glyphs fall into blanks, what is left of the text, and blanks
  let middle := (t.glyphs.dropWhile Glyph.isBlank).reverse
  have divided : t.glyphs = t.glyphs.takeWhile Glyph.isBlank ++
      ((middle.dropWhile Glyph.isBlank).reverse ++ (middle.takeWhile Glyph.isBlank).reverse) := by
    rw [← List.reverse_append, List.takeWhile_append_dropWhile, List.reverse_reverse,
      List.takeWhile_append_dropWhile]
  refine ⟨ofGlyphs (middle.takeWhile Glyph.isBlank).reverse, ?_, ?_, ?_⟩
  · rw [leadingBlanks, trim, ← append, ← append, ← divided]
    exact (ofGlyphs_glyphs t).symm
  · exact isGap_ofGlyphs (fun g member => List.mem_takeWhile_imp member)
      fun g member => (List.takeWhile_sublist _).subset member
  · refine isGap_ofGlyphs (t := t) (fun g member => List.mem_takeWhile_imp (List.mem_reverse.1 member))
      fun g member => ?_
    have among := (List.takeWhile_sublist _).subset (List.mem_reverse.1 member)
    exact (List.dropWhile_sublist _).subset (List.mem_reverse.1 among)

/-- What is not blank is not taken away. -/
theorem mem_trim (ascii : c < 0x80) (solid : Rune.isBlank c.toNat = false) (member : c ∈ t) :
    c ∈ trim t := by
  obtain ⟨front, rest, rfl⟩ := List.append_of_mem member
  have stays := isBlank_ofByte solid
  have reversed (xs : List Glyph) : (xs ++ Glyph.ofByte c :: glyphs rest).reverse =
      (glyphs rest).reverse ++ .ofByte c :: xs.reverse := by simp
  rw [trim, glyphs_mark ascii, dropWhile_stop stays, reversed, dropWhile_stop stays]
  exact List.mem_flatMap.2 ⟨.ofByte c, by simp, List.mem_singleton_self _⟩

/-! ## Words -/

/-- What has been read of a word is a part of the next word. -/
theorem head_words_go (gs : List Glyph) {word : List Glyph} {g : Glyph} (inside : g ∈ word) :
    ∃ part parts, words.go gs word = part :: parts ∧ ∀ c ∈ g.bytes, c ∈ part := by
  have ended {word : List Glyph} (inside : g ∈ word) : ∀ c ∈ g.bytes, c ∈ ofGlyphs word.reverse :=
    fun c among => List.mem_flatMap.2 ⟨g, List.mem_reverse.2 inside, among⟩
  induction gs generalizing word with
  | nil =>
    obtain ⟨h, word, rfl⟩ := List.exists_cons_of_ne_nil (List.ne_nil_of_mem inside)
    exact ⟨_, [], rfl, ended inside⟩
  | cons h gs ih =>
    obtain ⟨g', word, rfl⟩ := List.exists_cons_of_ne_nil (List.ne_nil_of_mem inside)
    rw [words.go.eq_def]
    cases blank : h.isBlank with
    | true =>
      simp only [blank, if_true]
      exact ⟨_, _, rfl, ended inside⟩
    | false =>
      simp only [blank, Bool.false_eq_true, if_false]
      exact ih (List.mem_cons_of_mem h inside)

/-- A glyph that is not blank is a part of some word. -/
theorem mem_words_go {g : Glyph} (no_blank : g.isBlank = false) {gs : List Glyph}
    (inside : g ∈ gs) (word : List Glyph) :
    ∃ part ∈ words.go gs word, ∀ c ∈ g.bytes, c ∈ part := by
  induction gs generalizing word with
  | nil => cases inside
  | cons h gs ih =>
    rw [words.go.eq_def]
    rcases List.mem_cons.1 inside with rfl | inside
    · obtain ⟨part, parts, same, among⟩ := head_words_go gs (List.mem_cons_self : g ∈ g :: word)
      simp only [no_blank, Bool.false_eq_true, if_false, same]
      exact ⟨part, List.mem_cons_self, among⟩
    · cases blank : h.isBlank with
      | true =>
        simp only [blank, if_true]
        cases word with
        | nil => exact ih inside []
        | cons g' word =>
          obtain ⟨part, member, among⟩ := ih inside []
          exact ⟨part, List.mem_cons_of_mem _ member, among⟩
      | false =>
        simp only [blank, Bool.false_eq_true, if_false]
        exact ih inside (h :: word)

/-- What is not blank stays on the line. -/
theorem mem_collapse (ascii : c < 0x80) (solid : Rune.isBlank c.toNat = false) (member : c ∈ t) :
    c ∈ t.collapse := by
  obtain ⟨g, inside, among⟩ := exists_glyph member
  have no_blank : g.isBlank = false := by
    rw [Glyph.isBlank, rune_of_mem_bytes ascii inside among, solid]
  obtain ⟨part, is_part, all⟩ := mem_words_go no_blank inside []
  have joined : ∀ parts : List Text, part ∈ parts → c ∈ joinWith " " parts := by
    intro parts
    induction parts with
    | nil => exact fun member => absurd member List.not_mem_nil
    | cons first parts ih =>
      intro member
      cases parts with
      | nil =>
        obtain rfl := List.mem_singleton.1 member
        simpa [joinWith] using all c among
      | cons second parts =>
        rw [joinWith, List.intercalate_cons_cons, List.append_assoc]
        rcases List.mem_cons.1 member with rfl | member
        · exact List.mem_append_left _ (all c among)
        · exact List.mem_append_right _ (List.mem_append_right _ (ih member))
  exact joined _ is_part

/-- What is not blank makes a text not blank. -/
theorem isBlank_of_mem (ascii : c < 0x80) (solid : Rune.isBlank c.toNat = false) (member : c ∈ t) :
    t.isBlank = false := by
  obtain ⟨g, inside, among⟩ := exists_glyph member
  have no_blank : g.isBlank = false := by
    rw [Glyph.isBlank, rune_of_mem_bytes ascii inside among, solid]
  exact List.all_eq_false.2 ⟨g, inside, by simp [no_blank]⟩

/-- **A blank divides the words** of a text. -/
theorem words_mark (ascii : mark < 0x80) (blank : Rune.isBlank mark.toNat = true)
    (front rest : Text) : (front ++ mark :: rest).words = front.words ++ rest.words := by
  have is_blank : (Glyph.ofByte mark).isBlank = true := blank
  -- The word that is being read when the text begins ends before the mark at the latest.
  have ended : ∀ gs word : List Glyph, words.go (gs ++ .ofByte mark :: rest.glyphs) word =
      words.go gs word ++ rest.words := by
    intro gs
    induction gs with
    | nil =>
      intro word
      rw [List.nil_append, words.go.eq_def]
      simp only [is_blank, if_true]
      cases word <;> rfl
    | cons g gs ih =>
      intro word
      rw [List.cons_append, words.go.eq_def, words.go.eq_def (g :: gs)]
      simp only
      split
      · cases word with
        | nil => exact ih []
        | cons g' word => exact congrArg (_ :: ·) (ih [])
      · exact ih (g :: word)
  rw [words, glyphs_mark ascii, ended]
  rfl

/-- A text without blanks is a word. -/
theorem words_of_solid (filled : t.glyphs ≠ []) (solid : ∀ g ∈ t.glyphs, g.isBlank = false) :
    t.words = [t] := by
  have whole : ∀ gs word : List Glyph, (∀ g ∈ gs, g.isBlank = false) → gs ≠ [] ∨ word ≠ [] →
      words.go gs word = [ofGlyphs (word.reverse ++ gs)] := by
    intro gs
    induction gs with
    | nil =>
      intro word _ filled
      obtain ⟨g, word, rfl⟩ := List.exists_cons_of_ne_nil (filled.resolve_left fun no => no rfl)
      rw [List.append_nil]
      rfl
    | cons g gs ih =>
      intro word solid _
      rw [List.forall_mem_cons] at solid
      rw [words.go.eq_def]
      simp only [solid.1, Bool.false_eq_true, if_false]
      rw [ih (g :: word) solid.2 (Or.inr (List.cons_ne_nil _ _)), List.reverse_cons,
        List.append_assoc, List.singleton_append]
  rw [words, whole _ [] solid (Or.inl filled), List.reverse_nil, List.nil_append, ofGlyphs_glyphs]

/-- A text that is not blank has a word. -/
theorem length_words_pos (filled : t.isBlank = false) : 0 < t.words.length := by
  obtain ⟨g, inside, no_blank⟩ := List.all_eq_false.1 filled
  obtain ⟨part, member, -⟩ := mem_words_go (by simpa using no_blank) inside []
  exact List.length_pos_of_mem member

/-- **There is a second word** behind a blank, if neither side of it is blank. -/
theorem one_lt_length_words (ascii : mark < 0x80) (blank : Rune.isBlank mark.toNat = true)
    {front rest : Text} (before : front.isBlank = false) (behind : rest.isBlank = false) :
    1 < (front ++ mark :: rest).words.length := by
  have first := length_words_pos before
  have second := length_words_pos behind
  rw [words_mark ascii blank, List.length_append]
  omega

/-- **The first word** of a text with a mark in it does not depend on what stands behind the mark,
unless the mark is a part of it. -/
theorem first_word (ascii : mark < 0x80) (solid : Rune.isBlank mark.toNat = false)
    (front : Text) : (∃ part, ∀ rest, (front ++ mark :: rest).words[0]? = some part) ∨
      ∀ rest, ∃ part, (front ++ mark :: rest).words[0]? = some part ∧ mark ∈ part := by
  -- The first word is complete before the mark, or the mark belongs to it.
  have read : ∀ gs word : List Glyph,
      (∃ part, ∀ rest, (words.go (gs ++ .ofByte mark :: rest) word)[0]? = some part) ∨
        ∀ rest, ∃ part, (words.go (gs ++ .ofByte mark :: rest) word)[0]? = some part ∧
          mark ∈ part := by
    intro gs
    induction gs with
    | nil =>
      refine fun word => Or.inr fun rest => ?_
      obtain ⟨part, parts, same, among⟩ :=
        head_words_go rest (List.mem_cons_self : .ofByte mark ∈ .ofByte mark :: word)
      rw [List.nil_append, words.go.eq_def]
      simp only [isBlank_ofByte solid, Bool.false_eq_true, if_false, same]
      exact ⟨part, rfl, among mark (List.mem_singleton_self _)⟩
    | cons g gs ih =>
      intro word
      simp only [List.cons_append, words.go.eq_def (g :: _)]
      cases blank : g.isBlank with
      | true =>
        cases word with
        | nil => exact ih []
        | cons g' word => exact Or.inl ⟨_, fun rest => rfl⟩
      | false => exact ih (g :: word)
  have divided (rest : Text) : (front ++ mark :: rest).words =
      words.go (front.glyphs ++ .ofByte mark :: rest.glyphs) [] := by
    rw [words, glyphs_mark ascii]
  rcases read front.glyphs [] with ⟨part, same⟩ | among
  · exact Or.inl ⟨part, fun rest => by rw [divided, same]⟩
  · exact Or.inr fun rest => by
      rw [divided]
      exact among (glyphs rest)

/-! ## Trimmed texts -/

/-- What belongs to a code point can be told without the bytes behind it. -/
theorem decodeHead_append (rest : Text)
    (inside : (decodeHead c (t ++ rest)).2 ≤ t.length) : decodeHead c (t ++ rest) = decodeHead c t := by
  -- A sequence that needs more bytes than there are is not read.
  have short {p : Prop} [Decidable p] {r : Rune} {n m : Nat}
      (few : (if p then (r, n) else (Rune.replacement, 0)).2 ≤ m) (needed : m < n) :
      (if p then (r, n) else (Rune.replacement, 0)) = (Rune.replacement, 0) := by
    split_ifs at few ⊢
    · exact absurd needed (Nat.not_lt.2 few)
    · rfl
  unfold decodeHead at inside ⊢
  split_ifs at inside ⊢
  · rfl
  · match t, inside with
    | _ :: _, _ => rfl
    | [], inside =>
      rcases rest with _ | ⟨d, rest⟩
      · rfl
      · exact short inside (by decide)
  · match t, inside with
    | _ :: _ :: _, _ => rfl
    | [], inside | [_], inside =>
      rcases rest with _ | ⟨d, _ | ⟨e, rest⟩⟩ <;> first | rfl | exact short inside (by simp)
  · match t, inside with
    | _ :: _ :: _ :: _, _ => rfl
    | [], inside | [_], inside | [_, _], inside =>
      rcases rest with _ | ⟨d, _ | ⟨e, _ | ⟨f, rest⟩⟩⟩ <;> first | rfl | exact short inside (by simp)
  · rfl

/-- The glyphs behind a text that has been read are those of what is left of it. -/
theorem glyphs_go_drop (t : Text) (skip : Nat) : glyphs.go t skip = glyphs (t.drop skip) := by
  induction t generalizing skip with
  | nil => cases skip <;> rfl
  | cons c t ih =>
    cases skip with
    | zero => rfl
    | succ skip => exact ih skip

/-- The first glyph of a text, and the glyphs of the rest. -/
theorem glyphs_cons_eq {g : Glyph} {gs : List Glyph} (divided : t.glyphs = g :: gs) :
    ∃ c u, t = c :: u ∧ g = ⟨(decodeHead c u).1, c :: u.take (decodeHead c u).2⟩ ∧
      glyphs (u.drop (decodeHead c u).2) = gs := by
  cases t with
  | nil => cases divided
  | cons c u =>
    have whole : glyphs (c :: u) = _ := glyphs_go_cons c u
    obtain ⟨same, rest⟩ := List.cons.inj (whole.symm.trans divided)
    exact ⟨c, u, rfl, same.symm, (glyphs_go_drop ..).symm.trans rest⟩

/-- **A row of glyphs** of a text is that of their bytes. -/
theorem glyphs_ofGlyphs {gs hs : List Glyph} (divided : t.glyphs = gs ++ hs) :
    (ofGlyphs gs).glyphs = gs ∧ (ofGlyphs hs).glyphs = hs := by
  induction gs generalizing t with
  | nil =>
    refine ⟨rfl, ?_⟩
    rw [List.nil_append] at divided
    rw [← divided, ofGlyphs_glyphs]
  | cons g gs ih =>
    obtain ⟨c, u, rfl, rfl, rest⟩ := glyphs_cons_eq divided
    obtain ⟨first, second⟩ := ih rest
    refine ⟨?_, second⟩
    -- the first glyph is read from its own bytes, whatever of the rest follows
    have more : (decodeHead c u).2 ≤ u.length :=
      Nat.le_trans (decodeHead_le c u) (List.takeWhile_prefix _).length_le
    have bytes : u.take (decodeHead c u).2 ++ (ofGlyphs gs ++ ofGlyphs hs) = u := by
      have tail : ofGlyphs gs ++ ofGlyphs hs = u.drop (decodeHead c u).2 := by
        rw [ofGlyphs, ofGlyphs, ← List.flatMap_append]
        exact (congrArg ofGlyphs rest).symm.trans (ofGlyphs_glyphs _)
      rw [tail, List.take_append_drop]
    have length : (u.take (decodeHead c u).2).length = (decodeHead c u).2 := by
      rw [List.length_take, Nat.min_eq_left more]
    have same : decodeHead c (u.take (decodeHead c u).2 ++ ofGlyphs gs) = decodeHead c u := by
      have longer : u = u.take (decodeHead c u).2 ++ ofGlyphs gs ++ ofGlyphs hs := by
        rw [List.append_assoc, bytes]
      have read := @decodeHead_append c (u.take (decodeHead c u).2 ++ ofGlyphs gs) (ofGlyphs hs)
      rw [← longer] at read
      refine (read ?_).symm
      rw [List.length_append, length]
      exact Nat.le_add_right ..
    show glyphs (c :: (u.take (decodeHead c u).2 ++ ofGlyphs gs)) = _
    rw [glyphs, glyphs_go_cons, same, glyphs_go_drop, List.take_left' length, List.drop_left' length,
      first]

/-- The glyphs that are left when blanks are taken away at both ends. -/
def innerGlyphs (t : Text) : List Glyph :=
  (t.glyphs.dropWhile Glyph.isBlank).rdropWhile Glyph.isBlank

/-- They are the glyphs of the text that is left. -/
theorem glyphs_trim (t : Text) : (trim t).glyphs = t.innerGlyphs := by
  obtain ⟨back, whole⟩ : t.innerGlyphs <+: t.glyphs.dropWhile Glyph.isBlank :=
    List.rdropWhile_prefix Glyph.isBlank _
  have divided : t.glyphs = t.glyphs.takeWhile Glyph.isBlank ++ t.innerGlyphs ++ back := by
    rw [List.append_assoc, whole, List.takeWhile_append_dropWhile]
  exact (glyphs_ofGlyphs (glyphs_ofGlyphs divided).1).2

/-- They are among the glyphs of the text, in their order. -/
theorem innerGlyphs_sublist (t : Text) : t.innerGlyphs.Sublist t.glyphs :=
  (List.rdropWhile_prefix _ _).sublist.trans (List.dropWhile_sublist _)

/-- **Trimming** takes away all blanks at once. -/
theorem trim_trim (t : Text) : trim (trim t) = trim t := by
  -- neither end of what is left is blank
  have starts : t.innerGlyphs.dropWhile Glyph.isBlank = t.innerGlyphs := by
    rw [List.dropWhile_eq_self_iff]
    intro filled blank
    have leads : t.innerGlyphs <+: t.glyphs.dropWhile Glyph.isBlank :=
      List.rdropWhile_prefix Glyph.isBlank _
    have filled' : 0 < (t.glyphs.dropWhile Glyph.isBlank).length :=
      Nat.lt_of_lt_of_le filled leads.length_le
    rw [leads.getElem filled] at blank
    exact List.dropWhile_get_zero_not Glyph.isBlank t.glyphs filled' blank
  have ends : t.innerGlyphs.rdropWhile Glyph.isBlank = t.innerGlyphs :=
    List.rdropWhile_idempotent _ _
  show ofGlyphs (((trim t).glyphs.dropWhile Glyph.isBlank).rdropWhile Glyph.isBlank) =
    ofGlyphs t.innerGlyphs
  rw [glyphs_trim, starts, ends]

/-- A text that trimming has left does not end in a blank. -/
theorem solid_of_getLast_trim {g : Glyph} (last : (trim t).glyphs.getLast? = some g) :
    g.isBlank = false := by
  rw [glyphs_trim] at last
  obtain ⟨front, same⟩ := List.getLast?_eq_some_iff.1 last
  have ends : t.innerGlyphs.rdropWhile Glyph.isBlank = t.innerGlyphs :=
    List.rdropWhile_idempotent _ _
  rw [same] at ends
  by_contra blank
  rw [Bool.not_eq_false] at blank
  rw [List.rdropWhile_concat_pos _ _ _ blank] at ends
  have shorter := (List.rdropWhile_prefix Glyph.isBlank front).length_le
  rw [ends, List.length_append, List.length_singleton] at shorter
  exact Nat.not_succ_le_self _ shorter

/-- What stands behind a blank in a text that trimming has left is not blank. -/
theorem isBlank_behind {front rest : Text} (ascii : mark < 0x80)
    (blank : Rune.isBlank mark.toNat = true) (trimmed : trim t = front ++ mark :: rest) :
    rest.isBlank = false := by
  have divided : (trim t).glyphs = front.glyphs ++ .ofByte mark :: rest.glyphs := by
    rw [trimmed, glyphs_mark ascii]
  rcases List.eq_nil_or_concat' rest.glyphs with none | ⟨others, last, same⟩
  · have solid := @solid_of_getLast_trim t (.ofByte mark) (by rw [divided, none]; simp)
    exact absurd (blank.symm.trans solid) (by decide)
  · have solid := @solid_of_getLast_trim t last (by
      rw [divided, same, ← List.cons_append, ← List.append_assoc, List.getLast?_concat])
    exact List.all_eq_false.2 ⟨last, by rw [same]; simp, by simp [solid]⟩

/-! ## Valid parts -/

/-- There is a **seam** between two texts if one of them is empty, or if a byte beside it is ASCII: no
glyph reaches across it. -/
def Seam (front back : Text) : Prop :=
  (∀ c ∈ front.getLast?, c < 0x80) ∨ ∀ c ∈ back.head?, c < 0x80

/-- **Texts with a seam between them are valid together** exactly when both are. -/
theorem isValid_append {front back : Text} (seam : Seam front back) :
    (front ++ back).isValid = (front.isValid && back.isValid) := by
  rcases seam with ascii | ascii
  · rcases List.eq_nil_or_concat' front with rfl | ⟨front, c, rfl⟩
    · rfl
    · have ascii : c < 0x80 := ascii c (by simp)
      have alone := glyphs_mark ascii front []
      rw [List.append_assoc, List.singleton_append, isValid, glyphs_mark ascii, isValid, alone]
      simp [isValid, Bool.and_assoc, glyphs, glyphs.go]
  · cases back with
    | nil => simp [isValid, glyphs, glyphs.go]
    | cons c back =>
      have ascii : c < 0x80 := ascii c rfl
      have alone := glyphs_mark ascii [] back
      rw [List.nil_append] at alone
      rw [isValid, glyphs_mark ascii, isValid, isValid, alone]
      simp [glyphs, glyphs.go]

/-- Blanks at the ends do not count for validity. -/
theorem isValid_trim (valid : t.isValid = true) : (trim t).isValid = true := by
  rw [isValid, List.all_eq_true] at *
  rw [glyphs_trim]
  exact fun g member => valid g (t.innerGlyphs_sublist.subset member)

end FlowTrace.Text
