import FlowTrace.Proofs.Pattern.Inert
import FlowTrace.Proofs.Text.Glyphs

/-! # What matches cut out of a reworded text

The groups of a match that passes by the marks are cut out of both texts at the same places: their
texts are equal or differ between the marks only (`Match.PassesBy.group_twin`), and they are equal
if the group cannot take in a mark (`group_eq`). A pattern that asks for a word is inert when the
word does not stand in the contents (`stopped_words`). -/

namespace FlowTrace.Pattern

open Text (enquote)

variable {loud : Loud} {w : Rewording loud} {front back : Text} {p : Pattern}

/-! ## Cutting -/

/-- What is cut out between two offsets outside the marks is equal or differs between the marks
only. -/
theorem twin_slice {a b : Nat} (start : Outside w front back a) (stop : Outside w front back b) :
    w.Twin ((w.original front back).slice a b) ((w.reworded front back).slice a b) := by
  have length := length_original w front back
  rcases Nat.lt_or_ge front.length a with behind | ahead
  · have same := placeAt_behind w.mark front back w.length_new (start.past behind)
    exact Or.inl (congrArg (fun place : Place => place.rest.take (b - a)) same)
  · have cut (contents : Text) : (enquote w.mark front contents back).slice a b =
        (enquote w.mark (front.drop a) contents back).take (b - a) := by
      rw [Text.slice, Text.drop_enquote_front ahead]
    have size : (front.drop a).length = front.length - a := List.length_drop
    rcases Nat.lt_or_ge front.length b with behind | before
    · have far := stop.past behind
      obtain ⟨k, same⟩ : ∃ k, b - a = (front.drop a).length + 1 + w.old.length + 1 + k :=
        ⟨b - (front.length + 1 + w.old.length + 1), by omega⟩
      refine Or.inr ⟨front.drop a, back.take k, ?_, ?_⟩
      · rw [cut, same, Text.take_enquote_back]
      · rw [cut, same, ← w.length_new, Text.take_enquote_back]
    · refine Or.inl ?_
      rw [cut, cut, Text.take_enquote (by omega), Text.take_enquote (by omega)]

/-- Behind an offset outside of the literal texts are twins. -/
theorem twin_drop {o : Nat} (outside : Outside w front back o) :
    w.Twin ((w.original front back).drop o) ((w.reworded front back).drop o) := by
  have length := length_original w front back
  have whole : Outside w front back (w.original front back).length :=
    ⟨Nat.le_refl _, fun between => absurd between.2 (by omega)⟩
  have twin := twin_slice outside whole
  rwa [Text.slice, Text.slice, List.take_of_length_le (Nat.le_of_eq List.length_drop),
    List.take_of_length_le (Nat.le_of_eq (by rw [List.length_drop, length_reworded]))] at twin

/-- Up to an offset outside of the literal texts are twins. -/
theorem twin_take {o : Nat} (outside : Outside w front back o) :
    w.Twin ((w.original front back).take o) ((w.reworded front back).take o) :=
  twin_slice outside_zero outside

/-- The text of a group is equal or differs between the marks only. -/
theorem Match.PassesBy.group_twin {m : Match} (passes : m.PassesBy w front back) (index : Nat) :
    w.Twin (m.group (w.original front back) index) (m.group (w.reworded front back) index) := by
  unfold Match.group Match.group?
  cases is_extent : m.extent? index with
  | none => exact .refl w _
  | some extent =>
    obtain ⟨start, stop⟩ := passes.kept _ (IsMatch.mem_of_extent is_extent)
    exact twin_slice start stop

/-! ## Bytes that are left out -/

/-- Whether a pattern takes in no code point that is a byte. -/
def leavesOut (c : UInt8) : Pattern → Bool
  | empty | assert _ => true
  | one set => !set.holds c.toNat
  | seq first second | alt first second => first.leavesOut c && second.leavesOut c
  | star _ body | group _ body => body.leavesOut c

/-- A pattern does not take in a byte that it leaves out. -/
theorem Takes.exists_reads_without {a b : Place} {new : Captures} {c : UInt8} (ascii : c < 0x80)
    (taken : p.Takes a b new) (left_out : p.leavesOut c = true) :
    ∃ read, a.Reads read b ∧ c ∉ read := by
  induction taken with
  | empty | assert | starNone => exact ⟨[], .refl _, List.not_mem_nil⟩
  | one next held =>
    obtain ⟨d, t, rfl, reads⟩ := Place.reads_next next
    refine ⟨_, reads, fun member => ?_⟩
    rw [Text.rune_of_mem ascii member] at held
    rw [leavesOut, held] at left_out
    cases left_out
  | seq _ _ ih₁ ih₂ =>
    rw [leavesOut, Bool.and_eq_true] at left_out
    obtain ⟨read, first, absent⟩ := ih₁ left_out.1
    obtain ⟨more, second, absent'⟩ := ih₂ left_out.2
    exact ⟨read ++ more, first.trans second, fun member =>
      (List.mem_append.1 member).elim absent absent'⟩
  | starMore _ _ ih₁ ih₂ =>
    obtain ⟨read, first, absent⟩ := ih₁ left_out
    obtain ⟨more, second, absent'⟩ := ih₂ left_out
    exact ⟨read ++ more, first.trans second, fun member =>
      (List.mem_append.1 member).elim absent absent'⟩
  | altLeft _ ih =>
    rw [leavesOut, Bool.and_eq_true] at left_out
    exact ih left_out.1
  | altRight _ ih =>
    rw [leavesOut, Bool.and_eq_true] at left_out
    exact ih left_out.2
  | group _ ih => exact ih left_out

/-- A group does not have a byte that it leaves out. -/
theorem IsMatch.not_mem_group {t : Text} {m : Match} (found : p.IsMatch t m) {c : UInt8}
    (ascii : c < 0x80) {index : Nat} (left_out : ∀ body ∈ p.bodies index, body.leavesOut c = true) :
    c ∉ m.group t index := by
  rw [Match.group]
  cases is_text : m.group? t index with
  | none => exact List.not_mem_nil
  | some text =>
    obtain ⟨body, member, x, y, new, inner, reads⟩ := found.group_taken is_text
    obtain ⟨read, reads', absent⟩ := inner.exists_reads_without ascii (left_out body member)
    have same : text = read := List.append_cancel_right (reads.rest.symm.trans reads'.rest)
    exact same ▸ absent

/-- **A group that leaves the mark out** has the same text in both. -/
theorem IsMatch.group_eq {m : Match} (found : p.IsMatch (w.original front back) m)
    (passes : m.PassesBy w front back) {index : Nat}
    (left_out : ∀ body ∈ p.bodies index, body.leavesOut w.mark = true) :
    m.group (w.reworded front back) index = m.group (w.original front back) index :=
  (passes.group_twin index).eq_of_not_mem (found.not_mem_group w.mark_lt left_out)

/-! ## Words -/

section Words

variable {mark : UInt8} {contents v : Text} {o : Nat} {a b : Place} {new : Captures}

/-- What is read from between the marks without a mark is a part of the contents. -/
theorem reads_between (between : Between front.length contents.length o)
    (reads : (placeAt (enquote mark front contents back) o).Reads v b) (absent : mark ∉ v) :
    ∃ k rest, o = front.length + 1 + k ∧ contents.drop k = v ++ rest ∧
      b.rest = rest ++ mark :: back := by
  obtain ⟨k, rfl⟩ := Nat.exists_eq_add_of_lt between.1
  rw [Nat.add_right_comm] at *
  have inside : k ≤ contents.length := by have := between.2; omega
  have split : contents.drop k ++ mark :: back = v ++ b.rest := by
    rw [← Text.drop_enquote_contents k inside]
    exact reads.rest
  rcases List.append_eq_append_iff.1 split with ⟨more, same, rest⟩ | ⟨more, same, rest⟩
  · cases more with
    | nil => exact ⟨k, [], rfl, by simpa using same.symm, by simpa using rest.symm⟩
    | cons c more =>
      obtain ⟨rfl, -⟩ := List.cons.inj rest
      exact absurd (same ▸ List.mem_append_right _ List.mem_cons_self) absent
  · exact ⟨k, more, rfl, same, rest⟩

/-- A word that is read from between the marks, with no word byte on either side, stands in the
contents by itself. -/
theorem hasWord_of_reads (between : Between front.length contents.length o)
    (reads : (placeAt (enquote mark front contents back) o).Reads v b) (absent : mark ∉ v)
    (before : (placeAt (enquote mark front contents back) o).before.any Text.isWord = false)
    (behind : b.rest.head?.any Text.isWord = false) : contents.hasWord v = true := by
  obtain ⟨k, rest, rfl, split, is_rest⟩ := reads_between between reads absent
  have inside : k ≤ contents.length := by have := between.2; omega
  rw [Text.hasWord, List.any_eq_true]
  refine ⟨k, List.mem_range.2 (Nat.lt_succ_of_le inside), ?_⟩
  have prefixed : v.isPrefixOf (contents.drop k) = true :=
    List.isPrefixOf_iff_prefix.2 ⟨rest, split.symm⟩
  have no_word : (contents.take k).getLast?.any Text.isWord = false := by
    have length : (front ++ [mark]).length = front.length + 1 := List.length_append
    have same : (placeAt (enquote mark front contents back) (front.length + 1 + k)).before =
        ((front ++ [mark]) ++ contents.take k).getLast? := by
      show ((enquote mark front contents back).take _).getLast? = _
      rw [Text.enquote_eq, ← length, List.take_length_add_append,
        List.take_append_of_le_length inside]
    rw [same, List.getLast?_append] at before
    cases last : (contents.take k).getLast? with
    | none => rfl
    | some c => rwa [last, Option.some_or] at before
  have no_word' : (contents.drop (k + v.length)).head?.any Text.isWord = false := by
    rw [← List.drop_drop, split, List.drop_left]
    rw [is_rest] at behind
    cases rest with
    | nil => rfl
    | cons c rest => exact behind
  rw [prefixed, no_word, no_word']
  rfl

/-! ## Texts as patterns -/

/-- The code point of an ASCII byte is read from that byte only. -/
theorem eq_of_decodeHead {c d : UInt8} {t : Text} (ascii : c < 0x80)
    (same : (Text.decodeHead d t).1 = c.toNat) : d = c := by
  have low : (Text.decodeHead d t).1 < 0x80 := same ▸ UInt8.lt_iff_toNat_lt.1 ascii
  rw [Text.decodeHead_mark (ascii_of_decodeHead low d List.mem_cons_self) t] at same
  exact UInt8.toNat_inj.1 same

/-- An ASCII code point of a text is a byte of it. -/
theorem mem_of_mem_runes {c : UInt8} {t : Text} (ascii : c < 0x80) (member : c.toNat ∈ t.runes) :
    c ∈ t := by
  have read : ∀ (t : Text) (skip : Nat), ∀ g ∈ Text.glyphs.go t skip, g.rune = c.toNat → c ∈ t := by
    intro t
    induction t with
    | nil => exact fun skip g inside => by cases skip <;> cases inside
    | cons d t ih =>
      intro skip g inside same
      cases skip with
      | succ skip => exact List.mem_cons_of_mem d (ih skip g inside same)
      | zero =>
        rw [Text.glyphs_go_cons] at inside
        rcases List.mem_cons.1 inside with rfl | later
        · exact eq_of_decodeHead ascii same ▸ List.mem_cons_self
        · exact List.mem_cons_of_mem d (ih _ g later same)
  obtain ⟨g, inside, same⟩ := List.mem_map.1 member
  exact read t 0 g inside same

/-- What takes one ASCII code point reads its byte. -/
theorem takes_rune {c : UInt8} (ascii : c < 0x80)
    (taken : (one ⟨false, [(c.toNat, c.toNat)]⟩).Takes a b new) : a.Reads [c] b := by
  cases taken with
  | one next held =>
    obtain ⟨d, t, rfl, reads⟩ := Place.reads_next next
    have same : (Text.decodeHead d t).1 = c.toNat := by
      simp only [RuneSet.holds, Intervals.holds, Bool.false_bne, List.any_cons, List.any_nil,
        Bool.or_false, Bool.and_eq_true, decide_eq_true_eq] at held
      exact Nat.le_antisymm held.2 held.1
    obtain rfl := eq_of_decodeHead ascii same
    rwa [Text.decodeHead_mark ascii] at reads

/-- A row of patterns takes what its first one takes, and then what the others take. -/
theorem takes_inOrder_cons {ps : List Pattern} (taken : (inOrder (p :: ps)).Takes a b new) :
    ∃ m first later, p.Takes a m first ∧ (inOrder ps).Takes m b later := by
  cases ps with
  | nil => exact ⟨b, new, [], taken, .empty b⟩
  | cons q ps =>
    cases taken with
    | seq left right => exact ⟨_, _, _, left, right⟩

/-- An ASCII text as a pattern takes in that text. -/
theorem takes_literal (ascii : ∀ c ∈ v, c < 0x80) (taken : (literal v).Takes a b new) :
    a.Reads v b := by
  induction v generalizing a new with
  | nil =>
    cases taken with
    | empty => exact .refl _
  | cons c v ih =>
    rw [List.forall_mem_cons] at ascii
    have runes : Text.runes (c :: v) = c.toNat :: Text.runes v := by
      show (Text.glyphs.go (c :: v) 0).map (·.rune) = _
      rw [Text.glyphs_go_cons, Text.decodeHead_mark ascii.1]
      rfl
    rw [literal, runes, List.map_cons] at taken
    obtain ⟨m, first, later, left, right⟩ := takes_inOrder_cons taken
    exact (takes_rune ascii.1 left).trans (ih ascii.2 right)

/-- The place behind what was read from a place. -/
theorem placeAt_of_takes {t : Text} (inside : o ≤ t.length) (taken : p.Takes (placeAt t o) b new)
    (reads : (placeAt t o).Reads v b) : b = placeAt t (o + v.length) := by
  obtain ⟨o', -, -, rfl⟩ := taken.exists_placeAt inside
  have same : o' = o + v.length := reads.offset
  rw [same]

/-- The byte in front of a place is the last one that was read. -/
theorem before_of_reads {t : Text} {c : UInt8}
    (reads : (placeAt t o).Reads (v ++ [c]) (placeAt t (o + (v ++ [c]).length))) :
    (placeAt t (o + (v ++ [c]).length)).before = some c := by
  have split : t.drop o = (v ++ [c]) ++ t.drop (o + (v ++ [c]).length) := reads.rest
  show (t.take (o + (v ++ [c]).length)).getLast? = some c
  rw [List.take_add, split, List.take_left, ← List.append_assoc, List.getLast?_concat]

/-! ## Words that a pattern asks for -/

/-- Whether a pattern asks for one of several words, between edges of words or between blanks. -/
def asksFor (words : List Text) : Pattern → Bool
  | seq (assert .wordEdge) (seq first (assert .wordEdge)) => words.any (literal · == first)
  | seq (assert .wordEdge) (seq first (seq (assert .wordEdge) _)) => words.any (literal · == first)
  | seq first (seq second (seq third _)) =>
    first == blanks1 && third == blanks1 && words.any (literal · == second)
  | _ => false

/-- A word that a pattern may ask for: there is a byte in it, and all are word bytes. -/
def IsWord (v : Text) : Prop := v ≠ [] ∧ ∀ c ∈ v, Text.isWord c = true

instance (v : Text) : Decidable (IsWord v) := inferInstanceAs (Decidable (_ ∧ _))

/-- The range of word bytes. -/
theorem toNat_of_isWord {c : UInt8} (word : Text.isWord c = true) :
    48 ≤ c.toNat ∧ c.toNat < 0x80 := by
  simp only [Text.isWord, Text.isLetter, Text.isDigit, Bool.or_eq_true, Bool.and_eq_true,
    decide_eq_true_eq, beq_iff_eq, UInt8.le_iff_toNat_le, ← UInt8.toNat_inj] at word
  have codes : ('a'.toUInt8.toNat = 97 ∧ 'z'.toUInt8.toNat = 122) ∧ ('A'.toUInt8.toNat = 65 ∧
      'Z'.toUInt8.toNat = 90) ∧ ('0'.toUInt8.toNat = 48 ∧ '9'.toUInt8.toNat = 57) ∧
      '_'.toUInt8.toNat = 95 := by decide
  omega

/-- A byte that is no word byte is not in a word. -/
theorem not_mem_of_isWord (is_word : IsWord v) (no_word : Text.isWord mark = false) : mark ∉ v := by
  intro member
  rw [is_word.2 mark member] at no_word
  cases no_word

/-- Words are ASCII. -/
theorem lt_of_isWord (is_word : IsWord v) : ∀ c ∈ v, c < 0x80 := fun c member =>
  UInt8.lt_iff_toNat_lt.2 (toNat_of_isWord (is_word.2 c member)).2

/-- A word between edges is not read from between the marks if it does not stand there. -/
theorem hasWord_of_edges (no_word : Text.isWord mark = false) (is_word : IsWord v)
    (between : Between front.length contents.length o)
    (first : (placeAt (enquote mark front contents back) o).satisfies .wordEdge = true)
    (taken : (literal v).Takes (placeAt (enquote mark front contents back) o) b new)
    (last : b.satisfies .wordEdge = true) : contents.hasWord v = true := by
  have length := Text.length_enquote mark front contents back
  have reads := takes_literal (lt_of_isWord is_word) taken
  obtain rfl := placeAt_of_takes (by have := between.2; omega) taken reads
  have before : (placeAt (enquote mark front contents back) o).before.any Text.isWord = false := by
    have head : (placeAt (enquote mark front contents back) o).rest.head?.any Text.isWord = true := by
      obtain ⟨c, v', rfl⟩ := List.exists_cons_of_ne_nil is_word.1
      rw [reads.rest]
      exact is_word.2 c List.mem_cons_self
    rw [Place.satisfies, Place.atWordEdge, head] at first
    simpa using first
  have behind : (placeAt (enquote mark front contents back) (o + v.length)).rest.head?.any
      Text.isWord = false := by
    obtain ⟨c, v', rfl⟩ : ∃ c v', v = v' ++ [c] :=
      ⟨v.getLast is_word.1, v.dropLast, (List.dropLast_concat_getLast is_word.1).symm⟩
    rw [Place.satisfies, Place.atWordEdge, before_of_reads reads] at last
    have word : Text.isWord c = true := is_word.2 c (List.mem_append_right _ List.mem_cons_self)
    simpa [word] using last
  exact hasWord_of_reads between reads (not_mem_of_isWord is_word no_word) before behind

/-- Blanks are read as at least one byte, and all of them are blanks. -/
theorem reads_blanks (taken : blanks1.Takes a b new) : ∃ read, a.Reads read b ∧ read ≠ [] ∧
    ∀ c ∈ read, blankRanges.holds c.toNat = true := by
  obtain ⟨read, reads, ascii⟩ := taken.exists_reads
  refine ⟨read, reads, ?_, fun c member => ?_⟩
  · rintro rfl
    have some_read := taken.least_le
    have same : b.offset = a.offset := reads.offset
    rw [same] at some_read
    exact absurd some_read (Nat.not_succ_le_self _)
  · by_contra other
    rw [Bool.not_eq_true] at other
    have left_out : blanks1.leavesOut c = true := by
      simp [blanks1, many1, among, leavesOut, RuneSet.holds, other]
    obtain ⟨read', reads', absent⟩ :=
      taken.exists_reads_without (ascii (by decide) c member) left_out
    exact absent (List.append_cancel_right (reads.rest.symm.trans reads'.rest) ▸ member)

/-- Blanks are no word bytes. -/
theorem not_isWord_of_blank {c : UInt8} (blank : blankRanges.holds c.toNat = true) :
    Text.isWord c = false := by
  rw [Bool.eq_false_iff]
  intro word
  have least := (toNat_of_isWord word).1
  simp only [Intervals.holds, blankRanges, List.any_cons, List.any_nil, Bool.or_false,
    Bool.or_eq_true, Bool.and_eq_true, decide_eq_true_eq] at blank
  rcases blank with ⟨-, high⟩ | ⟨-, high⟩ | ⟨-, high⟩
  all_goals exact absurd (Nat.le_trans least high) (by decide)

/-- A word between blanks is not read from between the marks if it does not stand there. -/
theorem hasWord_of_blanks {m m' : Place} {before later behind : Captures}
    (no_word : Text.isWord mark = false) (no_blank : blankRanges.holds mark.toNat = false)
    (is_word : IsWord v) (between : Between front.length contents.length o)
    (first : blanks1.Takes (placeAt (enquote mark front contents back) o) m before)
    (taken : (literal v).Takes m m' later) (last : blanks1.Takes m' b behind) :
    contents.hasWord v = true := by
  have length := Text.length_enquote mark front contents back
  obtain ⟨read, reads, some_read, blank⟩ := reads_blanks first
  -- The mark is no blank, so the blanks and the word are all between the marks.
  have absent : mark ∉ read := fun member => by
    rw [blank mark member] at no_blank
    cases no_blank
  obtain rfl := placeAt_of_takes (by have := between.2; omega) first reads
  have between' : Between front.length contents.length (o + read.length) := by
    obtain ⟨k, rest, rfl, split, -⟩ := reads_between between reads absent
    have size := congrArg List.length split
    rw [List.length_drop, List.length_append] at size
    have := between.2
    exact ⟨by omega, by omega⟩
  have apart : (placeAt (enquote mark front contents back) (o + read.length)).before.any
      Text.isWord = false := by
    obtain ⟨c, read', rfl⟩ : ∃ c read', read = read' ++ [c] :=
      ⟨read.getLast some_read, read.dropLast, (List.dropLast_concat_getLast some_read).symm⟩
    rw [before_of_reads reads]
    exact not_isWord_of_blank (blank c (List.mem_append_right _ List.mem_cons_self))
  have apart' : m'.rest.head?.any Text.isWord = false := by
    obtain ⟨read, reads, some_read, blank⟩ := reads_blanks last
    obtain ⟨c, read', rfl⟩ := List.exists_cons_of_ne_nil some_read
    rw [reads.rest]
    exact not_isWord_of_blank (blank c List.mem_cons_self)
  exact hasWord_of_reads between' (takes_literal (lt_of_isWord is_word) taken)
    (not_mem_of_isWord is_word no_word) apart apart'

/-- **Words that do not stand in the contents** are not found between the marks. -/
theorem stopped_words {words : List Text} (no_word : Text.isWord mark = false)
    (no_blank : blankRanges.holds mark.toNat = false) (are_words : ∀ v ∈ words, IsWord v)
    (absent : ∀ v ∈ words, contents.hasWord v = false) :
    Stopped mark front contents back (asksFor words) := by
  intro p asks β accept o between captures
  rw [Option.eq_none_iff_forall_ne_some]
  intro found ran
  obtain ⟨b, new, taken, -⟩ := exists_takes p _ captures accept ran
  have denied {v : Text} (member : v ∈ words) (has : contents.hasWord v = true) : False := by
    rw [absent v member] at has
    cases has
  unfold asksFor at asks
  split at asks
  -- The word between two edges.
  · obtain ⟨v, member, same⟩ := List.any_eq_true.1 asks
    obtain rfl := eq_of_beq same
    cases taken with
    | seq left right =>
      cases left with
      | assert first =>
        cases right with
        | seq left right =>
          cases right with
          | assert last =>
            exact denied member (hasWord_of_edges no_word (are_words v member) between first left last)
  -- The word between two edges, and something behind it.
  · obtain ⟨v, member, same⟩ := List.any_eq_true.1 asks
    obtain rfl := eq_of_beq same
    cases taken with
    | seq left right =>
      cases left with
      | assert first =>
        cases right with
        | seq left right =>
          cases right with
          | seq right _ =>
            cases right with
            | assert last =>
              exact denied member
                (hasWord_of_edges no_word (are_words v member) between first left last)
  -- The word between two runs of blanks.
  · rw [Bool.and_eq_true, Bool.and_eq_true] at asks
    obtain ⟨v, member, same⟩ := List.any_eq_true.1 asks.2
    obtain rfl := eq_of_beq same
    obtain rfl := eq_of_beq asks.1.1
    obtain rfl := eq_of_beq asks.1.2
    cases taken with
    | seq left right =>
      cases right with
      | seq middle right =>
        cases right with
        | seq right _ =>
          exact denied member (hasWord_of_blanks no_word no_blank (are_words v member) between left
            middle right)
  · cases asks

end Words

end FlowTrace.Pattern
