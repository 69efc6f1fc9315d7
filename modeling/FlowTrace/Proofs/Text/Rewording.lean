import FlowTrace.Proofs.Text.Utf8

/-! # Rewording a literal

What stands between two quotation marks is replaced by something else of the same length: the text
`enquote mark front contents back` gets other contents. The contents are quiet, which means that
they have none of the bytes that a reader of the text is alert to; the marks are always among
these. -/

namespace FlowTrace

/-- The marks of literals. -/
def Text.marks : Text := [doubleQuote, apostrophe]

/-- What holds of either mark. -/
theorem Text.forall_mark {P : UInt8 → Prop} (double : P doubleQuote) (single : P apostrophe) :
    ∀ mark ∈ marks, P mark := by
  simpa [marks] using ⟨double, single⟩

/-- What can be checked of each member of a row. -/
theorem Text.forall_mem_of_all {α : Type} {xs : List α} {P : α → Prop} [DecidablePred P]
    (all : xs.all (fun x => decide (P x)) = true) : ∀ x ∈ xs, P x := by
  simpa using all

/-- A mark is no part of a word. -/
theorem Text.not_isWord_of_mark : ∀ mark ∈ marks, isWord mark = false :=
  forall_mark (by decide) (by decide)

/-- The bytes that a reader is alert to. -/
structure Loud where
  /-- The bytes. -/
  bytes : Text
  /-- They are ASCII. -/
  ascii : ∀ c ∈ bytes, c < 0x80
  /-- The quotation marks are among them. -/
  marks : ∀ mark ∈ Text.marks, mark ∈ bytes

/-- Contents are **quiet** when they have no loud byte. -/
def Loud.Quiet (loud : Loud) (contents : Text) : Prop := ∀ c ∈ contents, c ∉ loud.bytes

/-- A text with something in quotation marks. -/
def Text.enquote (mark : UInt8) (front contents back : Text) : Text :=
  front ++ mark :: (contents ++ mark :: back)

/-- Whether a word stands in a text by itself, with no word byte in front of it or behind it. -/
def Text.hasWord (t word : Text) : Bool :=
  (List.range (t.length + 1)).any fun k => word.isPrefixOf (t.drop k) &&
    !(t.take k).getLast?.any Text.isWord && !(t.drop (k + word.length)).head?.any Text.isWord

/-- **Rewording**: what stands between two quotation marks, and what is to stand there instead. -/
structure Rewording (loud : Loud) where
  /-- The quotation mark. -/
  mark : UInt8
  /-- The contents. -/
  old : Text
  /-- The contents that replace them. -/
  new : Text
  /-- It is one of the marks of literals. -/
  is_mark : mark ∈ Text.marks
  /-- The length stays the same. -/
  length_new : new.length = old.length
  /-- The contents are quiet. -/
  quiet_old : loud.Quiet old
  /-- So are those that replace them. -/
  quiet_new : loud.Quiet new

namespace Rewording

variable {loud : Loud} (w : Rewording loud) (front back : Text)

/-- A text with the old contents. -/
abbrev original : Text := Text.enquote w.mark front w.old back

/-- The same text with the new contents. -/
abbrev reworded : Text := Text.enquote w.mark front w.new back

/-- The mark of a rewording is loud. -/
theorem mark_mem : w.mark ∈ loud.bytes := loud.marks _ w.is_mark

/-- The mark of a rewording is ASCII. -/
theorem mark_lt : w.mark < 0x80 := loud.ascii _ w.mark_mem

/-- The mark of a rewording is no word byte. -/
theorem not_isWord_mark : Text.isWord w.mark = false := Text.not_isWord_of_mark _ w.is_mark

/-- Two texts are **twins** when they are equal, or differ between two marks only. -/
def Twin (t t' : Text) : Prop :=
  t' = t ∨ ∃ front back, t = w.original front back ∧ t' = w.reworded front back

/-- A text is its own twin. -/
theorem Twin.refl (t : Text) : w.Twin t t := Or.inl rfl

variable {w}

/-- Twins in which there is no mark are equal. -/
theorem Twin.eq_of_not_mem {t t' : Text} (twin : w.Twin t t') (absent : w.mark ∉ t) : t' = t := by
  rcases twin with same | ⟨front, back, rfl, -⟩
  · exact same
  · exact absurd (List.mem_append_right _ List.mem_cons_self) absent

/-- A byte that no contents have is as often in both. -/
theorem Twin.count_eq {t t' : Text} (twin : w.Twin t t') {c : UInt8} (known : c ∈ loud.bytes) :
    t'.count c = t.count c := by
  have none {contents : Text} (quiet : loud.Quiet contents) : contents.count c = 0 :=
    List.count_eq_zero.2 fun member => quiet c member known
  rcases twin with rfl | ⟨front, back, rfl, rfl⟩
  · rfl
  · simp only [Text.enquote, List.count_append, List.count_cons, none w.quiet_old, none w.quiet_new]

end Rewording

namespace Text

variable {mark : UInt8} {front contents back : Text} {o : Nat}

section Stop

variable {α : Type} {stop : α} {p : α → Bool}

/-- What is dropped from a row ends at what stays. -/
theorem dropWhile_stop (stays : p stop = false) (xs rest : List α) :
    (xs ++ stop :: rest).dropWhile p = xs.dropWhile p ++ stop :: rest := by
  rw [List.dropWhile_append, List.dropWhile_cons, stays, if_neg Bool.false_ne_true]
  split
  · rename_i empty
    rw [List.isEmpty_iff.1 empty, List.nil_append]
  · rfl

/-- What is taken from a row ends at what is not taken. -/
theorem takeWhile_stop (stays : p stop = false) (xs rest : List α) :
    (xs ++ stop :: rest).takeWhile p = xs.takeWhile p := by
  rw [List.takeWhile_append, List.takeWhile_cons, stays, if_neg Bool.false_ne_true]
  split
  · rename_i whole
    rw [List.append_nil]
    exact ((List.takeWhile_prefix _).eq_of_length whole).symm
  · rfl

end Stop

/-- A word without a mark in it that a text begins with ends in front of the mark. -/
theorem isPrefixOf_mark {word : Text} (absent : mark ∉ word) (front rest : Text) :
    word.isPrefixOf (front ++ mark :: rest) = word.isPrefixOf front := by
  induction word generalizing front with
  | nil => cases front <;> rfl
  | cons c word ih =>
    rw [List.mem_cons, not_or] at absent
    cases front with
    | nil =>
      have other : (c == mark) = false := beq_eq_false_iff_ne.2 (Ne.symm absent.1)
      rw [List.nil_append, List.isPrefixOf_cons_cons, other]
      rfl
    | cons d front => rw [List.cons_append, List.isPrefixOf_cons_cons, List.isPrefixOf_cons_cons, ih absent.2]

/-- What stands behind such a word. -/
theorem exists_of_append_mark {word u rest : Text} (absent : mark ∉ word)
    (same : word ++ u = front ++ mark :: rest) :
    ∃ between, front = word ++ between ∧ u = between ++ mark :: rest := by
  rcases List.append_eq_append_iff.1 same with ⟨between, is_front, behind⟩ | ⟨more, is_word, behind⟩
  · exact ⟨between, is_front, behind⟩
  · cases more with
    | nil => exact ⟨[], by simpa using is_word.symm, behind.symm⟩
    | cons c more =>
      obtain ⟨rfl, -⟩ := List.cons.inj behind
      exact absurd (is_word ▸ List.mem_append_right _ List.mem_cons_self) absent

/-- The length of a quoted text. -/
theorem length_enquote (mark : UInt8) (front contents back : Text) :
    (enquote mark front contents back).length =
    front.length + 1 + contents.length + 1 + back.length := by
  simp only [enquote, List.length_append, List.length_cons]
  omega

/-- The first mark as the end of what stands in front. -/
theorem enquote_eq : enquote mark front contents back =
    (front ++ [mark]) ++ (contents ++ mark :: back) := by
  rw [enquote, List.append_assoc]
  rfl

/-- What stands behind the marks, apart. -/
theorem enquote_append (mark : UInt8) (front contents back : Text) :
    enquote mark front contents back = enquote mark front contents [] ++ back := by
  simp [enquote]

/-- The text from a byte in front of the marks on. -/
theorem drop_enquote_front (before : o ≤ front.length) :
    (enquote mark front contents back).drop o = enquote mark (front.drop o) contents back := by
  rw [enquote, List.drop_append_of_le_length before]
  rfl

/-- The text from a byte of the contents on. -/
theorem drop_enquote_contents (k : Nat) (inside : k ≤ contents.length) :
    (enquote mark front contents back).drop (front.length + 1 + k) =
      contents.drop k ++ mark :: back := by
  have length : (front ++ [mark]).length = front.length + 1 := List.length_append
  rw [enquote_eq, ← length, List.drop_length_add_append, List.drop_append_of_le_length inside]

/-- The text from a byte behind the marks on. -/
theorem drop_enquote_back (k : Nat) :
    (enquote mark front contents back).drop (front.length + 1 + contents.length + 1 + k) =
      back.drop k := by
  have length : (enquote mark front contents []).length = front.length + 1 + contents.length + 1 :=
    length_enquote mark front contents []
  rw [enquote_append, ← length, List.drop_length_add_append]

/-- The text up to the first mark does not depend on the contents. -/
theorem take_enquote (before : o ≤ front.length + 1) :
    (enquote mark front contents back).take o = (front ++ [mark]).take o := by
  rw [enquote_eq, List.take_append_of_le_length (by rwa [List.length_append])]

/-- The text up to a byte behind the marks. -/
theorem take_enquote_back (k : Nat) :
    (enquote mark front contents back).take (front.length + 1 + contents.length + 1 + k) =
      enquote mark front contents (back.take k) := by
  have length : (enquote mark front contents []).length = front.length + 1 + contents.length + 1 :=
    length_enquote mark front contents []
  rw [enquote_append mark front contents back, enquote_append mark front contents (back.take k),
    ← length, List.take_length_add_append]

/-! ## Replacing -/

section Replace

variable {part by_ : Text}

/-- A text is divided into one piece at least. -/
theorem split_ne_nil (t : Text) (skip : Nat) (piece : Text) : split.go part t skip piece ≠ [] := by
  induction t generalizing skip piece with
  | nil => exact List.cons_ne_nil _ _
  | cons c t ih =>
    cases skip with
    | succ skip => exact ih skip piece
    | zero =>
      rw [split.go]
      split
      · exact List.cons_ne_nil _ _
      · exact ih 0 (c :: piece)

/-- A single piece is joined to itself. -/
theorem joinWith_singleton (piece : Text) : joinWith by_ [piece] = piece :=
  List.intercalate_singleton

/-- The first piece is joined to the others. -/
theorem joinWith_cons (piece : Text) {pieces : List Text} (more : pieces ≠ []) :
    joinWith by_ (piece :: pieces) = piece ++ (by_ ++ joinWith by_ pieces) := by
  obtain ⟨next, pieces, rfl⟩ := List.exists_cons_of_ne_nil more
  rw [joinWith, List.intercalate_cons_cons, List.append_assoc]
  rfl

/-- What has been read of a piece stands in front. -/
theorem join_split (t : Text) (skip : Nat) (piece : Text) :
    joinWith by_ (split.go part t skip piece) =
      piece.reverse ++ joinWith by_ (split.go part t skip []) := by
  induction t generalizing skip piece with
  | nil => simp only [split.go, joinWith_singleton, List.reverse_nil, List.append_nil]
  | cons c t ih =>
    cases skip with
    | succ skip => exact ih skip piece
    | zero =>
      simp only [split.go]
      split
      · rw [joinWith_cons _ (split_ne_nil _ _ _), joinWith_cons _ (split_ne_nil _ _ _)]
        rfl
      · rw [ih 0 (c :: piece), ih 0 [c], List.reverse_cons, List.append_assoc]
        rfl

/-- **A byte that is no part of what is replaced** divides the replacing. -/
theorem replace_mark (absent : mark ∉ part) (front rest : Text) :
    (front ++ mark :: rest).replace part by_ =
      front.replace part by_ ++ mark :: rest.replace part by_ := by
  have passed (front : Text) (c : UInt8) :
      part.isPrefixOf (c :: (front ++ mark :: rest)) = part.isPrefixOf (c :: front) :=
    isPrefixOf_mark absent (c :: front) rest
  -- The bytes left to skip stay in front of the mark, since a part that is found ends there.
  have divided : ∀ (front : Text) (skip : Nat), skip ≤ front.length →
      joinWith by_ (split.go part (front ++ mark :: rest) skip []) =
        joinWith by_ (split.go part front skip []) ++ mark :: rest.replace part by_ := by
    intro front
    induction front with
    | nil =>
      intro skip inside
      obtain rfl := Nat.le_zero.1 inside
      have no_part : (!part.isEmpty && part.isPrefixOf (mark :: rest)) = false := by
        have prefixed := isPrefixOf_mark absent [] rest
        rw [List.nil_append] at prefixed
        rw [prefixed]
        cases part <;> rfl
      simp only [List.nil_append, split.go, no_part, Bool.false_eq_true, if_false,
        joinWith_singleton]
      rw [join_split]
      rfl
    | cons c front ih =>
      intro skip inside
      cases skip with
      | succ skip => exact ih skip (Nat.le_of_succ_le_succ inside)
      | zero =>
        rw [List.cons_append]
        simp only [split.go, passed]
        split
        · rename_i found
          have short : part.length - 1 ≤ front.length := by
            have prefixed := List.isPrefixOf_iff_prefix.1 (Bool.and_eq_true_iff.1 found).2
            have length := prefixed.length_le
            rw [List.length_cons] at length
            omega
          rw [joinWith_cons _ (split_ne_nil _ _ _), joinWith_cons _ (split_ne_nil _ _ _), ih _ short,
            List.append_assoc, List.append_assoc]
        · rw [join_split, join_split _ _ [c], ih 0 (Nat.zero_le _), List.append_assoc]
  exact divided front 0 (Nat.zero_le _)

/-- Nothing is replaced in a text that has no byte of what is replaced. -/
theorem replace_eq_self {t : Text} (absent : ∀ c ∈ t, c ∉ part) :
    t.replace part by_ = t := by
  induction t with
  | nil => exact joinWith_singleton []
  | cons c t ih =>
    rw [List.forall_mem_cons] at absent
    have divided : replace ([] ++ c :: t) part by_ = _ := replace_mark absent.1 [] t
    rw [List.nil_append] at divided
    rw [divided, ih absent.2]
    exact congrArg (· ++ c :: t) (joinWith_singleton [])

end Replace

/-- A quotation mark ends what belongs to the code point before it. -/
theorem decodeHead_enquote (ascii : mark < 0x80) (c : UInt8) (rest back : Text) :
    decodeHead c (rest ++ mark :: back) = decodeHead c rest ∧
      (decodeHead c rest).2 ≤ rest.length := by
  have no_continuation : isContinuation mark = false := by
    rw [Bool.eq_false_iff]
    intro continues
    have low := (isContinuation_iff.1 continues).1
    exact absurd (UInt8.lt_iff_toNat_lt.1 ascii) (Nat.not_lt.2 low)
  have same := takeWhile_stop no_continuation rest back
  refine ⟨?_, Nat.le_trans (decodeHead_le c rest) (List.takeWhile_prefix _).length_le⟩
  rw [← decodeHead_takeWhile, same, decodeHead_takeWhile]

/-- A quotation mark is a code point of its own. -/
theorem decodeHead_mark (ascii : mark < 0x80) (back : Text) :
    decodeHead mark back = (mark.toNat, 0) := by
  unfold decodeHead
  exact if_pos ascii

end Text

end FlowTrace
