import FlowTrace.Proofs.Pattern.Groups
import FlowTrace.Proofs.Python.Akin
import FlowTrace.Python.Line

/-! # What reworded lines say

The patterns for the statements of a line pass by a literal whose contents are quiet, so a line and
its peer say the same: they are headers or not, and their statements are akin
(`readStatement_peers`). -/

namespace FlowTrace.Python

/-! ## The first word of a line

Lines are told apart by the name that they begin with. The pattern for it is greedy, so the name is
the longest row of word bytes at the beginning (`firstWord_eq`). -/

section FirstWord

open Pattern

/-- Whether a name may begin with a byte. -/
def isNameStart (c : UInt8) : Bool := Text.isLetter c || c == '_'

/-- A name begins with a word byte. -/
theorem isWord_of_isNameStart {c : UInt8} (starts : isNameStart c = true) :
    Text.isWord c = true := by
  rw [isNameStart, Bool.or_eq_true] at starts
  rw [Text.isWord, Bool.or_eq_true, Bool.or_eq_true]
  exact starts.imp Or.inl id

/-- A set of ASCII code points holds the code point of a byte if it holds the byte. -/
theorem holds_decodeHead {ranges : Intervals} {p : UInt8 → Bool}
    (ascii : ∀ range ∈ ranges, range.2 < 0x80) (same : ∀ c, ranges.holds c.toNat = p c)
    (c : UInt8) (rest : Text) :
    (RuneSet.mk false ranges).holds (Text.decodeHead c rest).1 = p c := by
  have low {rune : Rune} (held : ranges.holds rune = true) : rune < 0x80 := by
    obtain ⟨range, member, inside⟩ := List.any_eq_true.1 held
    rw [Bool.and_eq_true, decide_eq_true_eq, decide_eq_true_eq] at inside
    exact Nat.lt_of_le_of_lt inside.2 (ascii range member)
  have holds : (RuneSet.mk false ranges).holds (Text.decodeHead c rest).1 =
      ranges.holds (Text.decodeHead c rest).1 := Bool.false_bne _
  rw [holds]
  by_cases small : c < 0x80
  · rw [Text.decodeHead_mark small, same]
  · have big : ¬ (Text.decodeHead c rest).1 < 0x80 := fun rune_low =>
      small (ascii_of_decodeHead rune_low c List.mem_cons_self)
    have big' : ¬ c.toNat < 0x80 := fun byte_low => small (UInt8.lt_iff_toNat_lt.2 byte_low)
    rw [← same, Bool.eq_false_iff.2 (mt low big), Bool.eq_false_iff.2 (mt low big')]

/-- The set of word bytes. -/
theorem holds_wordRanges (c : UInt8) : wordRanges.holds c.toNat = Text.isWord c := by
  have codes : ∀ n < 256, wordRanges.holds n = Text.isWord (.ofNat n) := by decide +kernel
  have same := codes c.toNat c.toNat_lt
  rwa [UInt8.ofNat_toNat] at same

/-- The set of bytes that a name may begin with. -/
theorem holds_nameStartRanges (c : UInt8) : nameStartRanges.holds c.toNat = isNameStart c := by
  have codes : ∀ n < 256, nameStartRanges.holds n = isNameStart (.ofNat n) := by decide +kernel
  have same := codes c.toNat c.toNat_lt
  rwa [UInt8.ofNat_toNat] at same

/-- Word bytes are ASCII. -/
theorem lt_of_isWord {c : UInt8} (word : Text.isWord c = true) : c < 0x80 :=
  UInt8.lt_iff_toNat_lt.2 (toNat_of_isWord word).2

variable {t : Text} {o : Nat}

/-- A greedy repetition takes in all word bytes. -/
theorem iterate_word {β : Type} (accept : Place → Captures → Option β)
    (accepts : ∀ place captures, (accept place captures).isSome = true) {u : Text}
    (here : t.drop o = u) {bound : Nat} (enough : u.length ≤ bound) (captures : Captures) :
    iterate (among wordRanges).run true bound (placeAt t o) captures accept =
      accept (placeAt t (o + (u.takeWhile Text.isWord).length)) captures := by
  induction u generalizing o bound with
  | nil => exact iterate_one_end (next?_placeAt_end here) bound
  | cons c u ih =>
    obtain ⟨bound, rfl⟩ := Nat.exists_eq_add_one.2 (Nat.lt_of_lt_of_le (Nat.succ_pos _) enough)
    have next := next?_placeAt here
    have held := holds_decodeHead (by decide) holds_wordRanges c u
    rw [iterate_succ, offset_placeAt, among, run_one_further next (by omega), held]
    cases word : Text.isWord c with
    | false =>
      rw [if_neg Bool.false_ne_true, prefer_none, List.takeWhile_cons_of_neg (by rw [word]; simp)]
      rfl
    | true =>
      have alone := Text.decodeHead_mark (lt_of_isWord word) u
      have rest : t.drop (o + 1) = u := by
        rw [← List.drop_drop, here]
        rfl
      have again := ih rest (Nat.le_of_succ_le_succ enough)
      rw [if_pos rfl, alone, List.takeWhile_cons_of_pos word, List.length_cons]
      show prefer true (iterate (among wordRanges).run true bound (placeAt t (o + 1)) captures
        accept) _ = _
      rw [again, prefer, if_pos rfl, Option.or_of_isSome (accepts _ _), Nat.add_assoc,
        Nat.add_comm 1]

/-- A pattern for the beginning of a text matches there or nowhere. -/
theorem find_start (p : Pattern) (t : Text) : (seq (assert .textStart) p).find? t =
    (seq (assert .textStart) p).matchAt? (placeAt t 0) := by
  -- No place but the first one is the start of the text.
  have missing (o : Nat) : 0 < o → o ≤ t.length →
      (seq (assert .textStart) p).findFrom? (placeAt t o) = none := by
    induction o using place_induction (t := t) with
    | step o ih =>
      intro later inside
      have filled : (t.take o).getLast?.isNone = false := by
        rw [Option.isNone_eq_false_iff, ← Option.ne_none_iff_isSome, Ne, List.getLast?_eq_none_iff,
          ← List.length_eq_zero_iff, List.length_take]
        omega
      have denied : (placeAt t o).satisfies .textStart = false := filled
      have here : (seq (assert .textStart) p).matchAt? (placeAt t o) = none := by
        simp only [matchAt?, run, denied, Bool.false_eq_true, if_false]
      rw [findFrom?_placeAt, here]
      cases next : (placeAt t o).next? with
      | none => rfl
      | some found =>
        obtain ⟨rune, place⟩ := found
        obtain ⟨o', ahead, inside', rfl⟩ := exists_offset_of_next next
        exact ih o' ahead inside' (Nat.lt_trans later ahead) inside'
  have tried : (seq (assert .textStart) p).find? t = _ := findFrom?_placeAt _ t 0
  rw [tried]
  cases here : (seq (assert .textStart) p).matchAt? (placeAt t 0) with
  | some m => rfl
  | none =>
    cases next : (placeAt t 0).next? with
    | none => rfl
    | some found =>
      obtain ⟨rune, place⟩ := found
      obtain ⟨o', ahead, inside', rfl⟩ := exists_offset_of_next next
      exact missing o' ahead inside'

/-- **The first word** is the longest row of word bytes at the beginning, if a name may begin with
the first of them. -/
theorem firstWord_eq (t : Text) :
    firstWord t = if t.head?.any isNameStart then t.takeWhile Text.isWord else [] := by
  have searched : (leading [name]).find? t = _ := find_start name t
  have start : (placeAt t 0).satisfies .textStart = true := rfl
  rw [firstWord, searched]
  simp only [matchAt?, run, start, if_true, name]
  cases t with
  | nil => rfl
  | cons c t =>
    have here : (c :: t).drop 0 = c :: t := rfl
    have held := holds_decodeHead (by decide) holds_nameStartRanges c t
    simp only [among, run, next?_placeAt here, held]
    cases starts : isNameStart c with
    | false => simp [starts]
    | true =>
      have word := isWord_of_isNameStart starts
      have alone := Text.decodeHead_mark (lt_of_isWord word) t
      have first : (c :: t).head?.any isNameStart = true := starts
      have ran : (one ⟨false, wordRanges⟩).many.run (placeAt (c :: t) (0 + 1 + (c.toNat, 0).snd)) []
          (fun place captures => some (Match.mk (placeAt (c :: t) 0).offset place.offset captures)) =
          some ⟨0, 1 + (t.takeWhile Text.isWord).length, []⟩ :=
        iterate_word (fun place captures => some (Match.mk 0 place.offset captures))
          (fun _ _ => rfl) (u := t) rfl (Nat.le_refl _) []
      have prefixed := List.prefix_iff_eq_take.1 (List.takeWhile_prefix Text.isWord (l := t))
      rw [if_pos first, List.takeWhile_cons_of_pos word, if_pos rfl, alone, ran]
      show (c :: t).take (1 + (t.takeWhile Text.isWord).length - 0) = _
      rw [Nat.sub_zero, Nat.add_comm, List.take_succ_cons, ← prefixed]

end FirstWord

open Pattern

variable {w : Rewording loud} {front back t t' : Text}

/-! ## Patterns -/

/-- The patterns that look at no word of the contents. -/
def plainPatterns : List Pattern := [funcPattern, classPattern, updatePattern]

/-- No pattern to stop at. -/
abbrev stopNowhere : Pattern → Bool := fun _ => false

/-- The patterns for statements are dead inside of a literal. -/
theorem level_plain : ∀ p ∈ plainPatterns, ∀ mark ∈ Text.marks,
    p.level loud mark stopNowhere .any = some .dead := by decide +kernel

/-- The pattern for loops is dead inside of a literal, if it asks for its words. -/
theorem level_for : ∀ mark ∈ Text.marks,
    forPattern.level loud mark (asksFor loudWords) .any = some .dead := by decide +kernel

/-- A search that stops nowhere stops at no byte of a literal. -/
theorem stopped_nowhere (mark : UInt8) (front contents back : Text) :
    Stopped mark front contents back stopNowhere :=
  fun _ stop => absurd stop Bool.false_ne_true

/-- **The patterns for statements are inert.** -/
theorem inert_plain (front back : Text) {p : Pattern} (member : p ∈ plainPatterns) :
    Inert w front back p :=
  ⟨stopNowhere, stopped_nowhere _ _ _ _, stopped_nowhere _ _ _ _, level_plain p member _ w.is_mark⟩

/-- The pattern for the header of a loop is inert when the word that it asks for is not in the
contents. -/
theorem inert_for (front back : Text)
    (wordless : ∀ v ∈ loudWords, w.old.hasWord v = false ∧ w.new.hasWord v = false) :
    Inert w front back forPattern := by
  have no_blank : ∀ mark ∈ Text.marks, blankRanges.holds mark.toNat = false :=
    Text.forall_mark (by decide) (by decide)
  have are_words : ∀ v ∈ loudWords, IsWord v := by decide +kernel
  exact ⟨asksFor loudWords,
    stopped_words w.not_isWord_mark (no_blank _ w.is_mark) are_words
      fun v member => (wordless v member).1,
    stopped_words w.not_isWord_mark (no_blank _ w.is_mark) are_words
      fun v member => (wordless v member).2, level_for _ w.is_mark⟩

/-! ## Words -/

/-- Peers begin with the same word. -/
theorem Peers.firstWord_eq (peers : Peers w t t') : firstWord t' = firstWord t := by
  rw [Python.firstWord_eq, Python.firstWord_eq, peers.head_eq]
  rcases peers with rfl | ⟨front, back, -, rfl, rfl⟩
  · rfl
  · rw [Rewording.original, Rewording.reworded, Text.enquote, Text.enquote,
      Text.takeWhile_stop w.not_isWord_mark, Text.takeWhile_stop w.not_isWord_mark]

/-- There are only word bytes in the first word. -/
theorem isWord_of_mem_firstWord {c : UInt8} (member : c ∈ firstWord t) : Text.isWord c = true := by
  rw [firstWord_eq] at member
  split at member
  · exact List.mem_takeWhile_imp member
  · cases member

/-- There is no mark in the first word. -/
theorem markless_firstWord (t : Text) : ∀ c ∈ firstWord t, c ∉ Text.marks := by
  intro c member is_mark
  have word := isWord_of_mem_firstWord member
  rw [Text.not_isWord_of_mark c is_mark] at word
  cases word

/-- Behind the first word there is no word byte. -/
theorem exists_behind_firstWord (filled : firstWord t ≠ []) :
    ∃ rest, t = firstWord t ++ rest ∧ rest.head?.any Text.isWord = false := by
  rw [firstWord_eq] at filled ⊢
  split at filled
  · rename_i starts
    rw [if_pos starts]
    refine ⟨t.dropWhile Text.isWord, List.takeWhile_append_dropWhile.symm, ?_⟩
    have stopped := List.head?_dropWhile_not Text.isWord t
    cases first : (t.dropWhile Text.isWord).head? with
    | none => rfl
    | some c =>
      rw [first] at stopped
      simpa using stopped
  · exact absurd rfl filled

/-- A word that ends where the first word of another text ends. -/
theorem firstWord_append {rest : Text} (filled : firstWord t ≠ [])
    (ended : rest.head?.any Text.isWord = false) : firstWord (firstWord t ++ rest) = firstWord t := by
  have starts : (firstWord t ++ rest).head?.any isNameStart = true := by
    rw [firstWord_eq] at filled ⊢
    split at filled
    · rename_i starts
      cases t with
      | nil => cases starts
      | cons c t =>
        rw [if_pos starts, List.takeWhile_cons_of_pos (isWord_of_isNameStart starts)]
        exact starts
    · exact absurd rfl filled
  have stopped : rest.takeWhile Text.isWord = [] := by
    cases rest with
    | nil => rfl
    | cons c rest =>
      exact List.takeWhile_cons_of_neg (by rw [Bool.not_eq_true]; exact ended)
  rw [firstWord_eq (firstWord t ++ rest), if_pos starts,
    List.takeWhile_append_of_pos fun c member => isWord_of_mem_firstWord member, stopped,
    List.append_nil]

/-- A word byte is ASCII, and no blank. -/
theorem solid_of_isWord {c : UInt8} (word : Text.isWord c = true) :
    c < 0x80 ∧ Rune.isBlank c.toNat = false := by
  have codes : ∀ n < 256, Text.isWord (.ofNat n) = true → n < 0x80 ∧ Rune.isBlank n = false := by
    decide +kernel
  have facts := codes c.toNat c.toNat_lt
  rw [UInt8.ofNat_toNat] at facts
  exact ⟨UInt8.lt_iff_toNat_lt.2 (facts word).1, (facts word).2⟩

/-- **The head of a header** begins with the same word as its line. -/
theorem firstWord_trim_take {colon : Nat} (filled : firstWord t ≠ [])
    (found : headerColon? t = some colon) : firstWord (Text.trim (t.take colon)) = firstWord t := by
  obtain ⟨rest, whole, ended⟩ := exists_behind_firstWord filled
  have behind : (firstWord t).length ≤ colon := by
    refine Nat.le_of_not_lt fun inside => ?_
    have is_colon := getElem_headerColon found
    rw [whole, List.getElem?_append_left inside] at is_colon
    exact absurd (isWord_of_mem_firstWord (List.mem_of_getElem? is_colon)) (by decide)
  obtain ⟨rest', trimmed, prefixed⟩ := Text.trim_append filled
    (fun c member => solid_of_isWord (isWord_of_mem_firstWord member))
    (rest.take (colon - (firstWord t).length))
  have taken : t.take colon = firstWord t ++ rest.take (colon - (firstWord t).length) := by
    conv_lhs => rw [whole]
    rw [List.take_append, List.take_of_length_le behind]
  have ended' : rest'.head?.any Text.isWord = false := by
    obtain ⟨more, same⟩ := prefixed.trans (List.take_prefix _ rest)
    cases rest' with
    | nil => rfl
    | cons c rest' =>
      rw [← same] at ended
      exact ended
  rw [taken, trimmed]
  exact firstWord_append filled ended'

/-- **The word behind `async`** is there, with one put at the end of the header. -/
theorem one_lt_length_words_async {colon : Nat} (found : headerColon? t = some colon)
    (is_async : firstWord t = "async") :
    1 < (Text.words (Text.trim (t.take colon) ++ " x")).length := by
  have filled : firstWord t ≠ [] := by
    rw [is_async]
    decide
  have same := firstWord_trim_take filled found
  obtain ⟨rest, whole, -⟩ := exists_behind_firstWord (same ▸ filled)
  have first : (97 : UInt8) ∈ Text.trim (t.take colon) := by
    rw [whole, same, is_async]
    exact List.mem_cons_self
  exact @Text.one_lt_length_words 0x20 (by decide) (by decide) _ (Text.of "x")
    (Text.isBlank_of_mem (by decide) (by decide) first)
    (Text.isBlank_of_mem (by decide) (by decide) (List.mem_singleton_self (120 : UInt8)))

/-! ## Names -/

/-- There is no mark in a single name. -/
theorem not_mem_of_isName {mark : UInt8} (is_mark : mark ∈ Text.marks)
    (is_name : isName t = true) : mark ∉ t := by
  have facts : ∀ mark ∈ Text.marks, mark < 0x80 ∧ name.leavesOut mark = true :=
    Text.forall_mark (by decide) (by decide)
  obtain ⟨ascii, left_out⟩ := facts mark is_mark
  have searched : namePattern.find? t = _ := find_start (seq name (assert .textEnd)) t
  rw [isName, matchesIn_eq_isSome_find?, searched, Option.isSome_iff_exists] at is_name
  obtain ⟨m, found⟩ := is_name
  obtain ⟨b, new, taken, -⟩ := exists_takes _ _ [] _ found
  cases taken with
  | seq first taken =>
    cases first
    cases taken with
    | seq taken last =>
      cases last with
      | assert ended =>
        obtain ⟨read, reads, absent⟩ := taken.exists_reads_without ascii left_out
        have whole : t = read ++ b.rest := reads.rest
        rw [List.isEmpty_iff.1 ended, List.append_nil] at whole
        exact whole ▸ absent

/-- What peers name is the same. -/
theorem isName_twin {t t' : Text} (twin : w.Twin t t') :
    isName t' = isName t ∧ (isName t = true → t' = t) := by
  rcases twin with rfl | ⟨front, back, rfl, rfl⟩
  · exact ⟨rfl, fun _ => rfl⟩
  · have no_name (contents : Text) : isName (Text.enquote w.mark front contents back) = false :=
      Bool.eq_false_iff.2 fun is_name => not_mem_of_isName w.is_mark is_name
        (List.mem_append_right _ List.mem_cons_self)
    exact ⟨(no_name _).trans (no_name _).symm, fun is_name => absurd is_name (by simp [no_name])⟩

/-- The name that a target consists of, without its annotation. -/
def targetName? (target : Text) : Option Text :=
  let target := Text.trim ((target.indexWhere? (· == ':')).elim target target.take)
  if isName target then some target else none

/-- The names of targets are those of each target, where it has one. -/
theorem targetNames_eq (targets : List Text) : targetNames targets = targets.filterMap targetName? := by
  rw [targetNames]
  refine List.filterMap_congr fun target _ => ?_
  cases found : target.indexWhere? (· == ':') <;> simp [targetName?, found]

/-- What has a mark in it is not a name. -/
theorem isName_trim_eq_false (w : Rewording loud) (member : w.mark ∈ t) :
    isName (Text.trim t) = false :=
  Bool.eq_false_iff.2 fun is_name => not_mem_of_isName w.is_mark is_name
    (Text.mem_trim w.mark_lt (Peers.solid w) member)

/-- Twins name the same target. -/
theorem targetName_twin {t t' : Text} (twin : w.Twin t t') : targetName? t' = targetName? t := by
  rcases twin with rfl | ⟨front, back, rfl, rfl⟩
  · rfl
  · have no_colon : ∀ mark ∈ Text.marks, (mark == ':') = false :=
    Text.forall_mark (by decide) (by decide)
    have searched (rest : Text) : Text.indexWhere? (front ++ w.mark :: rest) (· == ':') =
        (front.indexWhere? (· == ':')).or
          ((rest.indexWhere? (· == ':')).map fun k => k + 1 + front.length) := by
      rw [Text.indexWhere?, List.findIdx?_append, List.findIdx?_cons, no_colon _ w.is_mark,
        if_neg Bool.false_ne_true, Option.map_map]
      rfl
    -- A colon in front of the mark ends the name there; else the mark spoils the name.
    cases found : front.indexWhere? (· == ':') with
    | some i =>
      have inside : i ≤ front.length := (List.findIdx?_eq_some_iff_findIdx_eq.1 found).1.le
      have same (rest : Text) : targetName? (front ++ w.mark :: rest) =
          if isName (Text.trim (front.take i)) then some (Text.trim (front.take i)) else none := by
        simp only [targetName?, searched, found, Option.some_or, Option.elim_some]
        rw [List.take_append_of_le_length inside]
      exact (same _).trans (same _).symm
    | none =>
      have unnamed (rest : Text) : targetName? (front ++ w.mark :: rest) = none := by
        have member : w.mark ∈ (Text.indexWhere? (front ++ w.mark :: rest) (· == ':')).elim
            (front ++ w.mark :: rest) (front ++ w.mark :: rest).take := by
          rw [searched, found, Option.none_or]
          cases rest.indexWhere? (· == ':') with
          | none => exact List.mem_append_right _ List.mem_cons_self
          | some k =>
            rw [Option.map_some, Option.elim_some, Nat.add_comm (k + 1),
              List.take_length_add_append, List.take_succ_cons]
            exact List.mem_append_right _ List.mem_cons_self
        simp only [targetName?, isName_trim_eq_false w member, Bool.false_eq_true, if_false]
      exact (unnamed _).trans (unnamed _).symm

/-- **The targets that peers name** are the same. -/
theorem targetNames_peers {targets targets' : List Text}
    (peers : List.Forall₂ (Peers w) targets targets') :
    targetNames targets' = targetNames targets := by
  rw [targetNames_eq, targetNames_eq]
  induction peers with
  | nil => rfl
  | cons first rest ih => rw [List.filterMap_cons, List.filterMap_cons, targetName_twin first.twin, ih]

/-! ## Headers -/

/-- `async` and a blank are a word and its end. -/
theorem words_async {b : UInt8} (blank : Text.isPatternBlank b = true) (rest : Text) :
    Text.words (Text.of "async" ++ b :: rest) = Text.of "async" :: Text.words rest := by
  have facts : b < 0x80 ∧ Rune.isBlank b.toNat = true := by
    simp only [Text.isPatternBlank, Bool.or_eq_true, beq_iff_eq] at blank
    rcases blank with (((rfl | rfl) | rfl) | rfl) | rfl <;> decide
  have some_glyph : Text.glyphs (Text.of "async") ≠ [] := by decide
  have solid : ∀ g ∈ Text.glyphs (Text.of "async"), g.isBlank = false := by decide
  rw [Text.words_mark facts.1 facts.2, Text.words_of_solid some_glyph solid]
  rfl

/-- **The word that decides the kind of a header** is the same, or has a mark in it. -/
theorem headerWord_peers {head head' : Text} (peers : Peers w head head') :
    headerWord head' (firstWord head) = headerWord head (firstWord head) ∨
      w.mark ∈ headerWord head' (firstWord head) ∧ w.mark ∈ headerWord head (firstWord head) := by
  by_cases is_async : firstWord head = "async"
  · rcases peers with rfl | ⟨front, back, clear, rfl, rfl⟩
    · exact Or.inl rfl
    · have unmarked : ∀ mark ∈ Text.marks, mark ∉ ("async" : Text) :=
      Text.forall_mark (by decide) (by decide)
      obtain ⟨rest, split, no_word⟩ :=
        exists_behind_firstWord (t := w.original front back) (by rw [is_async]; decide)
      rw [is_async] at split
      obtain ⟨between, rfl, rfl⟩ :=
        Text.exists_of_append_mark (unmarked _ w.is_mark) split.symm
      -- What follows `async` is a blank, since it is no part of the word.
      obtain ⟨b, rest, rfl, blank⟩ : ∃ b rest, between = b :: rest ∧ Text.isPatternBlank b = true := by
        have apart := List.any_eq_false.1 clear.apart _ ((List.mem_tails _ _).2 (List.suffix_refl _))
        have begins : ("async" : Text).isPrefixOf (("async" : Text) ++ between ++ [w.mark]) = true :=
          List.isPrefixOf_iff_prefix.2 (by rw [List.append_assoc]; exact List.prefix_append _ _)
        have behind : ((Text.of "async") ++ between ++ [w.mark])[5]? = (between ++ [w.mark])[0]? := by
          rw [List.append_assoc, List.getElem?_append_right (by decide)]
          rfl
        rw [begins, behind, Bool.true_and] at apart
        cases between with
        | nil =>
          have no_blank : ∀ mark ∈ Text.marks, Text.isPatternBlank mark = false :=
            Text.forall_mark (by decide) (by decide)
          simp [w.not_isWord_mark, no_blank _ w.is_mark] at apart
        | cons b rest =>
          have no_word : Text.isWord b = false := no_word
          exact ⟨b, rest, rfl, by simpa [no_word] using apart⟩
      have second (contents : Text) :
          headerWord (Text.enquote w.mark ("async" ++ b :: rest) contents back) "async" =
            ((Text.words (rest ++ w.mark :: (contents ++ w.mark :: back ++ " x")))[0]?).getD [] := by
        have divided := words_async blank (rest ++ w.mark :: (contents ++ w.mark :: back ++ " x"))
        have whole : Text.enquote w.mark ("async" ++ b :: rest) contents back ++ " x" =
            Text.of "async" ++ b :: (rest ++ w.mark :: (contents ++ w.mark :: back ++ " x")) := by
          simp [Text.enquote]
        rw [headerWord, if_pos (beq_self_eq_true _), whole, divided]
        rfl
      rw [is_async, second, second]
      rcases Text.first_word w.mark_lt (Peers.solid w) rest with ⟨part, same⟩ | among
      · exact Or.inl (by rw [same, same])
      · obtain ⟨part, first, inside⟩ := among (w.old ++ w.mark :: back ++ " x")
        obtain ⟨part', first', inside'⟩ := among (w.new ++ w.mark :: back ++ " x")
        exact Or.inr ⟨by rwa [first'], by rwa [first]⟩
  · have other : (firstWord head == "async") = false := beq_eq_false_iff_ne.2 is_async
    refine Or.inl ?_
    simp only [headerWord, other, Bool.false_eq_true, if_false]

/-- The words that decide the kind of a header. -/
def keywords : List Text := ["def", "class", "if", "elif", "while", "for", "try", "else", "finally"]

/-- There are no marks in the words that decide. -/
theorem markless_keyword {keyword : Text} (is_keyword : keyword ∈ keywords) :
    ∀ c ∈ keyword, c ∉ Text.marks := by
  have unmarked : ∀ mark ∈ Text.marks, ∀ keyword ∈ keywords, mark ∉ keyword :=
    Text.forall_mark (by decide) (by decide)
  exact fun c member is_mark => unmarked c is_mark keyword is_keyword member

/-- What has a mark in it decides nothing. -/
theorem headerForm_of_mark {head word : Text} (member : w.mark ∈ headerWord head word) :
    headerForm? head word = some .block := by
  have other (keyword : Text) (is_keyword : keyword ∈ keywords) :
      (headerWord head word == keyword) = false :=
    beq_eq_false_iff_ne.2 fun same =>
      markless_keyword is_keyword _ (same ▸ member) w.is_mark
  simp only [headerForm?, other "def" (by decide), other "class" (by decide),
    other "if" (by decide), other "elif" (by decide),
    other "while" (by decide), other "for" (by decide),
    other "try" (by decide), other "else" (by decide),
    other "finally" (by decide), Bool.or_self, Bool.false_eq_true, if_false]

/-- Searches for a pattern that is inert find the same match in peers. -/
theorem find_peers {p : Pattern} (peers : Peers w t t')
    (inert : ∀ front back, Clear w front → t = w.original front back → Inert w front back p) :
    p.find? t' = p.find? t ∧ ∀ m, p.find? t = some m → ∀ index,
      w.Twin (m.group t index) (m.group t' index) := by
  rcases peers with rfl | ⟨front, back, clear, rfl, rfl⟩
  · exact ⟨rfl, fun _ _ _ => .refl w _⟩
  · obtain ⟨same, passes⟩ := (inert front back clear rfl).agree_find
    exact ⟨same.symm, fun m found index => (passes m found).group_twin index⟩

/-- What a line begins with stands in front of the literal. -/
theorem firstWord_prefix (filled : firstWord (w.original front back) ≠ []) :
    firstWord (w.original front back) <:+: front := by
  obtain ⟨rest, split, -⟩ := exists_behind_firstWord filled
  have absent : w.mark ∉ firstWord (w.original front back) := fun member =>
    markless_firstWord _ _ member w.is_mark
  obtain ⟨between, same, -⟩ := Text.exists_of_append_mark absent split.symm
  exact ⟨[], between, by rw [List.nil_append]; exact same.symm⟩

/-- The groups of a function header and of a class header that name something. -/
theorem leavesOut_name : ∀ mark ∈ Text.marks, mark < 0x80 ∧
    ∀ body ∈ funcPattern.bodies 1, body.leavesOut mark = true :=
      Text.forall_mark (by decide) (by decide)

/-- The headers of functions that are peers have forms that are akin. -/
theorem funcForm_peers {head head' : Text} (peers : Peers w head head') {form : Form}
    (is_form : ((funcPattern.find? head).map fun m =>
      Form.func (m.group head 1) (paramNames (m.group head 2))) = some form) :
    ∃ form', ((funcPattern.find? head').map fun m =>
      Form.func (m.group head' 1) (paramNames (m.group head' 2))) = some form' ∧
        form.Akin w form' := by
  obtain ⟨m, found, rfl⟩ := Option.map_eq_some_iff.1 is_form
  obtain ⟨same, groups⟩ := find_peers (p := funcPattern) peers
    fun front back _ _ => inert_plain front back (by decide)
  obtain ⟨ascii, left_out⟩ := leavesOut_name _ w.is_mark
  have markless := (isMatch_of_find? found).not_mem_group ascii left_out
  have name := (groups m found 1).eq_of_not_mem markless
  rw [same, found]
  refine ⟨_, rfl, ?_⟩
  show Form.Akin w _ (.func (m.group head' 1) _)
  rw [name]
  exact .func _ _ markless

/-- The headers of classes that are peers have forms that are akin. -/
theorem classForm_peers {head head' : Text} (peers : Peers w head head') {form : Form}
    (is_form : ((classPattern.find? head).map fun m => Form.classDef (m.group head 1)) =
      some form) :
    ∃ form', ((classPattern.find? head').map fun m => Form.classDef (m.group head' 1)) =
      some form' ∧ form.Akin w form' := by
  obtain ⟨m, found, rfl⟩ := Option.map_eq_some_iff.1 is_form
  obtain ⟨same, -⟩ := find_peers (p := classPattern) peers
    fun front back _ _ => inert_plain front back (by decide)
  rw [same, found]
  exact ⟨_, rfl, .classDef _ _⟩

/-- The headers of loops that are peers have forms that are akin. -/
theorem forForm_peers {head head' : Text} (peers : Peers w head head')
    (begins : firstWord head ∈ loopWords) {form : Form}
    (is_form : ((forPattern.find? head).map fun m =>
      Form.forLoop (Text.trim (m.group head 1)) (Text.trim (m.group head 2))) = some form) :
    ∃ form', ((forPattern.find? head').map fun m =>
      Form.forLoop (Text.trim (m.group head' 1)) (Text.trim (m.group head' 2))) = some form' ∧
        form.Akin w form' := by
  obtain ⟨m, found, rfl⟩ := Option.map_eq_some_iff.1 is_form
  obtain ⟨same, -⟩ := find_peers (p := forPattern) peers fun front back clear whole => by
    have filled : ∀ word ∈ loopWords, word ≠ [] := by decide
    have stands : firstWord head <:+: front := by
      subst whole
      exact firstWord_prefix (filled _ begins)
    exact inert_for front back (clear.wordless _ begins stands)
  rw [same, found]
  exact ⟨_, rfl, .forLoop _ _ _ _⟩

/-- Conditions of peers are missing alike. -/
theorem conditionForm_peers (make : Text → Form) {condition condition' : Text}
    (peers : Peers w condition condition') (akin : (make condition).Akin w (make condition'))
    {form : Form}
    (is_form : (if condition.isEmpty then none else some (make condition)) = some form) :
    ∃ form', (if condition'.isEmpty then none else some (make condition')) = some form' ∧
      form.Akin w form' := by
  rw [peers.isEmpty_eq]
  split at is_form
  · cases is_form
  · rename_i filled
    cases is_form
    exact ⟨_, if_neg filled, akin⟩

/-- Peers are the same keyword, or neither is one. -/
theorem beq_peers {keyword : Text} (peers : Peers w t t') (markless : w.mark ∉ keyword) :
    (t' == keyword) = (t == keyword) := by
  rcases peers with rfl | ⟨front, back, -, rfl, rfl⟩
  · rfl
  · have other (contents : Text) : (Text.enquote w.mark front contents back == keyword) = false :=
      beq_eq_false_iff_ne.2 fun same =>
        markless (same ▸ List.mem_append_right _ List.mem_cons_self)
    exact (other _).trans (other _).symm

/-- The keyword behind `async`, or the first word. -/
theorem mem_loopWords {head : Text} (is_for : headerWord head (firstWord head) = "for") :
    firstWord head ∈ loopWords := by
  rw [headerWord] at is_for
  split at is_for
  · rename_i is_async
    rw [beq_iff_eq.1 is_async]
    decide
  · rw [is_for]
    decide

/-- **Headers of peers are akin.** -/
theorem headerForm_peers {head head' : Text} (peers : Peers w head head') {form : Form}
    (is_form : headerForm? head (firstWord head) = some form) :
    ∃ form', headerForm? head' (firstWord head) = some form' ∧ form.Akin w form' := by
  rcases headerWord_peers peers with same | ⟨member', member⟩
  -- The keywords are tried in the order of the reader; both sides have the same one.
  · rw [headerForm?] at is_form
    rw [headerForm?, same]
    split at is_form
    next is_def =>
      rw [if_pos is_def]
      exact funcForm_peers peers is_form
    rename_i no_def
    rw [if_neg no_def]
    split at is_form
    next is_class =>
      rw [if_pos is_class]
      exact classForm_peers peers is_form
    rename_i no_class
    rw [if_neg no_class]
    split at is_form
    next is_if =>
      have markless : ∀ c ∈ headerWord head (firstWord head), c ∉ Text.marks := by
        rw [Bool.or_eq_true, beq_iff_eq, beq_iff_eq] at is_if
        rcases is_if with is_if | is_elif
        · rw [is_if]
          exact markless_keyword (by decide)
        · rw [is_elif]
          exact markless_keyword (by decide)
      rw [if_pos is_if]
      exact conditionForm_peers (fun condition => .branch condition _ false)
        (peers.dropStart markless).trim (.branch _ _ _ _) is_form
    rename_i no_if
    rw [if_neg no_if]
    split at is_form
    next is_while =>
      have markless : ∀ c ∈ headerWord head (firstWord head), c ∉ Text.marks := by
        rw [beq_iff_eq.1 is_while]
        exact markless_keyword (by decide)
      rw [if_pos is_while]
      exact conditionForm_peers .whileLoop (peers.dropStart markless).trim (.whileLoop _ _) is_form
    rename_i no_while
    rw [if_neg no_while]
    split at is_form
    next is_for =>
      rw [if_pos is_for]
      exact forForm_peers peers (mem_loopWords (beq_iff_eq.1 is_for)) is_form
    rename_i no_for
    rw [if_neg no_for]
    split at is_form
    next is_try =>
      have markless := markless_keyword (by decide : Text.of "try" ∈ keywords)
      rw [if_pos is_try, beq_peers peers fun member => markless _ member w.is_mark]
      split at is_form
      · rename_i alone
        cases is_form
        exact ⟨_, if_pos alone, .attempt⟩
      · cases is_form
    rename_i no_try
    rw [if_neg no_try]
    split at is_form
    next ends =>
      have is_keyword : headerWord head (firstWord head) ∈ keywords := by
        rw [Bool.or_eq_true, beq_iff_eq, beq_iff_eq] at ends
        rcases ends with is_else | is_finally
        · rw [is_else]
          decide
        · rw [is_finally]
          decide
      rw [if_pos ends, beq_peers peers fun member =>
        markless_keyword is_keyword _ member w.is_mark]
      split at is_form
      · rename_i alone
        cases is_form
        exact ⟨_, if_pos alone, .block⟩
      · cases is_form
    rename_i goes_on
    rw [if_neg goes_on]
    cases is_form
    exact ⟨_, rfl, .block⟩
  -- The literal stands in the first word, which is no keyword then.
  · rw [headerForm_of_mark member] at is_form
    cases is_form
    exact ⟨_, headerForm_of_mark member', .block⟩

/-! ## Simple statements -/

/-- Peers are updates of the same form, or none of them is one. -/
theorem updateForm_peers (peers : Peers w t t') :
    (∃ m, updatePattern.find? t = some m ∧ updatePattern.find? t' = some m) ∨
      updatePattern.find? t = none ∧ updatePattern.find? t' = none := by
  obtain ⟨same, -⟩ := find_peers (p := updatePattern) peers
    fun front back _ _ => inert_plain front back (by decide)
  cases found : updatePattern.find? t with
  | none => exact Or.inr ⟨rfl, same.trans found⟩
  | some m => exact Or.inl ⟨m, rfl, same.trans found⟩

/-- **Simple statements of peers are akin.** -/
theorem simpleForm_peers (peers : Peers w t t') : (simpleForm t).Akin w (simpleForm t') := by
  have parts := peers.splitAssignment
  have length := parts.length_eq
  obtain ⟨colons, sides⟩ := peers.headerColon
  simp only [simpleForm, peers.firstWord_eq, ← length, colons]
  split
  · exact .ret _ _
  · split
    · exact .other
    · rcases updateForm_peers peers with ⟨m, found, found'⟩ | ⟨missing, missing'⟩
      · rw [found, found']
        exact .update _ _ _ _ _ _
      · rw [missing, missing']
        simp only
        split
        · have targets : List.Forall₂ (Peers w) ((splitAssignment t).dropLast.map Text.trim)
              ((splitAssignment t').dropLast.map Text.trim) := by
            rw [List.dropLast_eq_take, List.dropLast_eq_take, ← length]
            exact List.rel_map (fun _ _ peers => peers.trim) (List.forall₂_take _ parts)
          exact .assign _ _ (targetNames_peers targets)
        · cases found : headerColon? t with
          | none => exact .expr
          | some colon =>
            cases colon with
            | zero => exact .expr
            | succ i =>
              have before := (sides _ found).1.trim
              simp only [(isName_twin before.twin).1]
              split
              · exact .other
              · exact .expr

/-! ## Statements -/

/-- **Peers are headers or not.** -/
theorem isHeader_peers (peers : Peers w t t') : isHeader t' = isHeader t := by
  have colons := peers.headerColon.1
  have parts := peers.splitAssignment.length_eq
  rw [isHeader, isHeader, peers.firstWord_eq, colons, ← parts]
  -- What stands behind the first word are peers, so it begins with the same byte.
  have heads : (Text.trim (t'.drop (firstWord t).length)).head? =
      (Text.trim (t.drop (firstWord t).length)).head? := by
    by_cases filled : firstWord t = []
    · rw [filled]
      exact peers.trim.head_eq
    · obtain ⟨rest, whole, -⟩ := exists_behind_firstWord filled
      obtain ⟨rest', whole', behind⟩ := (whole ▸ peers : Peers w (firstWord t ++ rest) t').of_append
        (markless_firstWord t)
      have dropped := congrArg (List.drop (firstWord t).length) whole
      rw [List.drop_left] at dropped
      rw [dropped, whole', List.drop_left]
      exact behind.trim.head_eq
  cases before : Text.trim (t.drop (firstWord t).length) with
  | nil =>
    rw [before, List.head?_nil, List.head?_eq_none_iff] at heads
    rw [heads]
  | cons c rest =>
    rw [before, List.head?_cons] at heads
    obtain ⟨rest', before'⟩ := List.head?_eq_some_iff.1 heads
    rw [before']

/-- Readings are akin when their statements are, and begin with the same word; what follows a
header are peers. -/
inductive Reading.Akin (w : Rewording loud) : Reading → Reading → Prop where
  | header {s s' : Statement} {inline_ inline' : Text} (akin : s.Akin w s')
      (words : firstWord s'.head = firstWord s.head) (rests : Peers w inline_ inline') :
      Akin w (.header s inline_) (.header s' inline')
  | simple {s s' : Statement} (akin : s.Akin w s') : Akin w (.simple s) (.simple s')

/-- Readings that are akin have statements that are akin. -/
theorem Reading.Akin.statement {reading reading' : Reading} (akin : reading.Akin w reading') :
    reading.statement.Akin w reading'.statement := by
  cases akin with
  | header akin => exact akin
  | simple akin => exact akin

/-- **What is read of peers is akin.** -/
theorem readStatement_peers (peers : Peers w t t') (line : Nat) :
    Follows (Reading.Akin w) (readStatement line t) (readStatement line t') := by
  intro reading read
  obtain ⟨colons, sides⟩ := peers.headerColon
  rw [readStatement] at read
  rw [readStatement, isHeader_peers peers, colons, peers.firstWord_eq]
  split at read
  · rename_i is_header
    rw [if_pos is_header]
    cases found : headerColon? t with
    | none =>
      rw [found] at read
      cases read
    | some colon =>
      obtain ⟨before, behind⟩ := sides colon found
      have filled : firstWord t ≠ [] := by
        rintro missing
        rw [isHeader, missing] at is_header
        cases is_header
      -- The first word stands before the colon.
      have first := firstWord_trim_take filled found
      rw [found] at read
      simp only [← first] at read ⊢
      split at read
      · cases read
      · rename_i form is_form
        obtain ⟨form', is_form', akin⟩ := headerForm_peers before.trim is_form
        cases read
        rw [is_form']
        exact ⟨_, rfl, .header (Statement.akin_leaf akin line before.trim.twin)
          before.trim.firstWord_eq behind⟩
  · rename_i no_header
    rw [if_neg no_header]
    cases read
    exact ⟨_, rfl, .simple (Statement.akin_leaf (simpleForm_peers peers) line peers.twin)⟩

end FlowTrace.Python
