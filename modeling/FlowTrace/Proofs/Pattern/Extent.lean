import FlowTrace.Pattern.Search
import FlowTrace.Proofs.Text.Utf8

/-! # What a match takes in

The matcher tries the ways to match in order of priority and hands them to a continuation. What a
pattern can take in does not depend on that order: `Pattern.Takes` says it without one, and every
match that a search reports is such a way (`IsMatch`).

* The extents of a match and of its groups **lie inside the text** (`IsMatch.inside`,
  `IsMatch.extent_inside`).
* A group that every way to match passes is **never missing** (`IsMatch.exists_extent`).
* The text of a group is what its body took in (`IsMatch.group_taken`). -/

namespace FlowTrace.Pattern

/-! ## Places -/

namespace Place

/-- Reading on: the text `read` stands between the place `a` and the place `b`. -/
structure Reads (a : Place) (read : Text) (b : Place) : Prop where
  /-- What is left to read. -/
  rest : a.rest = read ++ b.rest
  /-- The number of bytes that were read. -/
  offset : b.offset = a.offset + read.length

variable {a b c : Place} {read more t : Text}

/-- Nothing is read between a place and itself. -/
theorem Reads.refl (a : Place) : a.Reads [] a := ⟨rfl, rfl⟩

/-- What is read up to one place and from there on is read in all. -/
theorem Reads.trans (first : a.Reads read b) (second : b.Reads more c) :
    a.Reads (read ++ more) c :=
  ⟨by rw [first.rest, second.rest, List.append_assoc],
    by rw [second.offset, first.offset, List.length_append, Nat.add_assoc]⟩

/-- One byte is read. -/
theorem reads_byte (offset : Nat) (before : Option UInt8) (c : UInt8) (rest : Text) :
    Reads ⟨offset, before, c :: rest⟩ [c] ⟨offset + 1, some c, rest⟩ := ⟨rfl, rfl⟩

/-- Reading goes forward. -/
theorem Reads.le (reads : a.Reads read b) : a.offset ≤ b.offset :=
  reads.offset ▸ Nat.le_add_right ..

/-- Skipping bytes reads them. -/
theorem reads_skip (n : Nat) (a : Place) : a.Reads (a.rest.take n) (a.skip n) := by
  induction n generalizing a with
  | zero => exact Reads.refl a
  | succ n ih =>
    obtain ⟨offset, before, rest⟩ := a
    cases rest with
    | nil => exact Reads.refl _
    | cons c rest => exact (reads_byte offset before c rest).trans (ih _)

/-- The code point at a place is read from the bytes up to the next place. -/
theorem reads_next {rune : Rune} (next : a.next? = some (rune, b)) :
    ∃ c t, rune = (Text.decodeHead c t).1 ∧ a.Reads (c :: t.take (Text.decodeHead c t).2) b := by
  obtain ⟨offset, before, rest⟩ := a
  cases rest with
  | nil => cases next
  | cons c rest =>
    obtain ⟨same, behind⟩ : (Text.decodeHead c rest).1 = rune ∧
        skip ⟨offset + 1, some c, rest⟩ (Text.decodeHead c rest).2 = b := by
      simpa [next?] using next
    have reads := (reads_byte offset before c rest).trans (reads_skip (Text.decodeHead c rest).2 _)
    exact ⟨c, rest, same.symm, behind ▸ reads⟩

/-- A place of a text stands inside it. -/
theorem Reads.offset_le (reads : (start t).Reads read a) : a.offset ≤ t.length := by
  have whole : t = read ++ a.rest := reads.rest
  have ahead : a.offset = 0 + read.length := reads.offset
  rw [whole, List.length_append]
  omega

/-- What stands between two places of a text is cut out by their offsets. -/
theorem Reads.slice (here : (start t).Reads read a) (there : a.Reads more b) :
    t.slice a.offset b.offset = more := by
  have whole : t = read ++ (more ++ b.rest) := there.rest ▸ here.rest
  have ahead : a.offset = read.length := by simpa [start] using here.offset
  rw [Text.slice, there.offset, ahead, Nat.add_sub_cancel_left, whole, List.drop_left,
    List.take_left]

end Place

/-! ## Ways to match -/

/-- A **way to match**: the pattern takes in what stands between two places, and remembers the
given extents. -/
inductive Takes : Pattern → Place → Place → Captures → Prop where
  | empty (a : Place) : Takes .empty a a []
  | one {set : RuneSet} {a b : Place} {rune : Rune} (next : a.next? = some (rune, b))
      (held : set.holds rune = true) : Takes (.one set) a b []
  | assert {assertion : Assertion} {a : Place} (satisfied : a.satisfies assertion = true) :
      Takes (.assert assertion) a a []
  | seq {p q : Pattern} {a b c : Place} {first second : Captures} (left : Takes p a b first)
      (right : Takes q b c second) : Takes (.seq p q) a c (second ++ first)
  | altLeft {p q : Pattern} {a b : Place} {new : Captures} (left : Takes p a b new) :
      Takes (.alt p q) a b new
  | altRight {p q : Pattern} {a b : Place} {new : Captures} (right : Takes q a b new) :
      Takes (.alt p q) a b new
  | starNone (greedy : Bool) (p : Pattern) (a : Place) : Takes (.star greedy p) a a []
  | starMore {greedy : Bool} {p : Pattern} {a b c : Place} {first later : Captures}
      (once : Takes p a b first) (again : Takes (.star greedy p) b c later) :
      Takes (.star greedy p) a c (later ++ first)
  | group {index : Nat} {p : Pattern} {a b : Place} {new : Captures} (body : Takes p a b new) :
      Takes (.group index p) a b ((index, a.offset, b.offset) :: new)

section Run

variable {β : Type} {found : β}

/-- Whatever a repetition hands on is a row of ways to match its body. -/
theorem takes_of_iterate {greedy : Bool} {body : Pattern}
    (sound : ∀ (a : Place) (captures : Captures) (accept : Place → Captures → Option β),
      body.run a captures accept = some found →
        ∃ b new, body.Takes a b new ∧ accept b (new ++ captures) = some found)
    (bound : Nat) (a : Place) (captures : Captures) (accept : Place → Captures → Option β)
    (ran : iterate body.run greedy bound a captures accept = some found) :
    ∃ b new, (star greedy body).Takes a b new ∧ accept b (new ++ captures) = some found := by
  -- The extents of later rounds stand in front of those of earlier ones, as in `Takes.starMore`.
  induction bound generalizing a captures with
  | zero => exact ⟨a, [], .starNone greedy body a, ran⟩
  | succ bound ih =>
    have stopped (accepted : accept a captures = some found) :
        ∃ b new, (star greedy body).Takes a b new ∧ accept b (new ++ captures) = some found :=
      ⟨a, [], .starNone greedy body a, accepted⟩
    have repeated (ran : body.run a captures (fun b captures' =>
          if a.offset < b.offset then iterate body.run greedy bound b captures' accept else none) =
        some found) :
        ∃ b new, (star greedy body).Takes a b new ∧ accept b (new ++ captures) = some found := by
      obtain ⟨b, first, once, went_on⟩ := sound a captures _ ran
      split at went_on
      · obtain ⟨c, later, again, accepted⟩ := ih b (first ++ captures) went_on
        exact ⟨c, later ++ first, .starMore once again, by rwa [List.append_assoc]⟩
      · cases went_on
    rw [iterate] at ran
    split at ran
    · split at ran
      · rename_i went_on
        exact repeated (went_on.trans ran)
      · exact stopped ran
    · split at ran
      · rename_i accepted
        exact stopped (accepted.trans ran)
      · exact repeated ran

/-- **The matcher is sound**: what it hands on is a way to match. -/
theorem exists_takes (p : Pattern) (a : Place) (captures : Captures)
    (accept : Place → Captures → Option β) (ran : p.run a captures accept = some found) :
    ∃ b new, p.Takes a b new ∧ accept b (new ++ captures) = some found := by
  induction p generalizing a captures accept with
  | empty => exact ⟨a, [], .empty a, ran⟩
  | one set =>
    rw [run] at ran
    split at ran
    · rename_i next
      split at ran
      · rename_i held
        exact ⟨_, [], .one next held, ran⟩
      · cases ran
    · cases ran
  | assert assertion =>
    rw [run] at ran
    split at ran
    · rename_i satisfied
      exact ⟨a, [], .assert satisfied, ran⟩
    · cases ran
  | seq p q ihp ihq =>
    -- What accepts the first part is the run of the second one.
    obtain ⟨b, first, left, went_on⟩ := ihp a captures _ ran
    obtain ⟨c, second, right, accepted⟩ := ihq b _ accept went_on
    exact ⟨c, second ++ first, .seq left right, by rwa [List.append_assoc]⟩
  | alt p q ihp ihq =>
    rw [run] at ran
    split at ran
    · rename_i went_on
      obtain ⟨b, new, left, accepted⟩ := ihp a captures accept (went_on.trans ran)
      exact ⟨b, new, .altLeft left, accepted⟩
    · obtain ⟨b, new, right, accepted⟩ := ihq a captures accept ran
      exact ⟨b, new, .altRight right, accepted⟩
  | star greedy body ih => exact takes_of_iterate ih _ a captures accept ran
  | group index body ih =>
    obtain ⟨b, new, taken, accepted⟩ := ih a captures _ ran
    exact ⟨b, _, .group taken, accepted⟩

end Run

/-! ## What lies between the places -/

/-- Whether all that a pattern can take in is ASCII. -/
def isAscii : Pattern → Bool
  | empty | assert _ => true
  | one set => !set.negated && set.ranges.all fun range => range.2 < 0x80
  | seq first second | alt first second => first.isAscii && second.isAscii
  | star _ body | group _ body => body.isAscii

variable {p : Pattern} {a b : Place} {new : Captures}

/-- A code point of an ASCII set is ASCII. -/
theorem lt_of_holds {set : RuneSet} {rune : Rune} (ascii : (one set).isAscii = true)
    (held : set.holds rune = true) : rune < 0x80 := by
  obtain ⟨negated, ranges⟩ := set
  simp only [isAscii, Bool.and_eq_true, Bool.not_eq_true', List.all_eq_true,
    decide_eq_true_eq] at ascii
  obtain ⟨rfl, low⟩ := ascii
  simp only [RuneSet.holds, Bool.false_bne, Intervals.holds, List.any_eq_true, Bool.and_eq_true,
    decide_eq_true_eq] at held
  obtain ⟨range, member, -, at_most⟩ := held
  exact Nat.lt_of_le_of_lt at_most (low range member)

/-- The only byte of an ASCII code point. -/
theorem ascii_of_decodeHead {c : UInt8} {t : Text} (low : (Text.decodeHead c t).1 < 0x80) :
    ∀ d ∈ c :: t.take (Text.decodeHead c t).2, d < 0x80 := by
  rcases Text.decodeHead_cases c t with written | ⟨-, stray⟩
  · rw [← written.2, Text.ofRune_one low]
    intro d member
    rw [List.mem_singleton] at member
    have small : (Text.decodeHead c t).1 < 0x100 := Nat.lt_trans low (by decide)
    rw [member, UInt8.lt_iff_toNat_lt, Nat.toUInt8, UInt8.toNat_ofNat_of_lt' small]
    exact low
  · rw [stray] at low
    exact absurd low (by decide)

/-- A pattern **takes in a text**, and nothing but ASCII if it knows nothing else. -/
theorem Takes.exists_reads (taken : p.Takes a b new) :
    ∃ read, a.Reads read b ∧ (p.isAscii = true → ∀ c ∈ read, c < 0x80) := by
  induction taken with
  | empty | assert | starNone => exact ⟨[], .refl _, fun _ => nofun⟩
  | one next held =>
    obtain ⟨c, t, rfl, reads⟩ := Place.reads_next next
    exact ⟨_, reads, fun ascii => ascii_of_decodeHead (lt_of_holds ascii held)⟩
  | seq _ _ ih₁ ih₂ =>
    obtain ⟨read, first, low⟩ := ih₁
    obtain ⟨more, second, low'⟩ := ih₂
    refine ⟨read ++ more, first.trans second, fun ascii => ?_⟩
    rw [isAscii, Bool.and_eq_true] at ascii
    exact List.forall_mem_append.2 ⟨low ascii.1, low' ascii.2⟩
  | starMore _ _ ih₁ ih₂ =>
    obtain ⟨read, first, low⟩ := ih₁
    obtain ⟨more, second, low'⟩ := ih₂
    exact ⟨read ++ more, first.trans second, fun ascii =>
      List.forall_mem_append.2 ⟨low ascii, low' ascii⟩⟩
  | altLeft _ ih =>
    obtain ⟨read, reads, low⟩ := ih
    refine ⟨read, reads, fun ascii => low ?_⟩
    rw [isAscii, Bool.and_eq_true] at ascii
    exact ascii.1
  | altRight _ ih =>
    obtain ⟨read, reads, low⟩ := ih
    refine ⟨read, reads, fun ascii => low ?_⟩
    rw [isAscii, Bool.and_eq_true] at ascii
    exact ascii.2
  | group _ ih => exact ih

/-- The least number of code points that a pattern takes in. -/
def least : Pattern → Nat
  | empty | assert _ | star _ _ => 0
  | one _ => 1
  | seq first second => first.least + second.least
  | alt first second => min first.least second.least
  | group _ body => body.least

/-- A pattern takes as many bytes as it takes at least. -/
theorem Takes.least_le (taken : p.Takes a b new) : a.offset + p.least ≤ b.offset := by
  induction taken with
  | empty | assert => exact Nat.le_refl _
  | starNone => exact Nat.le_refl _
  | one next _ =>
    obtain ⟨c, t, -, reads⟩ := Place.reads_next next
    rw [reads.offset, List.length_cons]
    exact Nat.add_le_add_left (Nat.le_add_left 1 _) _
  | seq _ _ ih₁ ih₂ =>
    rw [least]
    omega
  | starMore _ _ ih₁ ih₂ =>
    simp only [least] at *
    omega
  | altLeft _ ih => exact Nat.le_trans (Nat.add_le_add_left (Nat.min_le_left ..) _) ih
  | altRight _ ih => exact Nat.le_trans (Nat.add_le_add_left (Nat.min_le_right ..) _) ih
  | group _ ih => exact ih

/-- Taking goes forward. -/
theorem Takes.le (taken : p.Takes a b new) : a.offset ≤ b.offset :=
  Nat.le_of_add_right_le taken.least_le

/-! ## Groups -/

/-- The bodies of the groups with an index. -/
def bodies (index : Nat) : Pattern → List Pattern
  | empty | one _ | assert _ => []
  | seq first second | alt first second => first.bodies index ++ second.bodies index
  | star _ body => body.bodies index
  | group i body => if i = index then body :: body.bodies index else body.bodies index

/-- Whether every way to match passes a group with an index. -/
def passes (index : Nat) : Pattern → Bool
  | empty | one _ | assert _ | star _ _ => false
  | seq first second => first.passes index || second.passes index
  | alt first second => first.passes index && second.passes index
  | group i body => i == index || body.passes index

/-- An **extent** that is remembered on the way from one place to another: the body of its group
took in what stands there. -/
def Remembered (p : Pattern) (a b : Place) (entry : Nat × Nat × Nat) : Prop :=
  ∃ body ∈ p.bodies entry.1, ∃ x y new, body.Takes x y new ∧ x.offset = entry.2.1 ∧
    y.offset = entry.2.2 ∧ (∃ read, a.Reads read x) ∧ ∃ read, y.Reads read b

/-- An extent stays remembered when more is read in front of it and behind it. -/
theorem Remembered.widen {q : Pattern} {a' b' : Place} {entry : Nat × Nat × Nat}
    (remembered : p.Remembered a b entry) (bodies : p.bodies entry.1 ⊆ q.bodies entry.1)
    (front : ∃ read, a'.Reads read a) (back : ∃ read, b.Reads read b') :
    q.Remembered a' b' entry := by
  obtain ⟨body, member, x, y, new, taken, start, stop, ⟨before, reads⟩, behind, reads'⟩ :=
    remembered
  obtain ⟨front, reads_front⟩ := front
  obtain ⟨back, reads_back⟩ := back
  exact ⟨body, bodies member, x, y, new, taken, start, stop, ⟨_, reads_front.trans reads⟩,
    ⟨_, reads'.trans reads_back⟩⟩

/-- Whatever is taken was read. -/
theorem Takes.reads (taken : p.Takes a b new) : ∃ read, a.Reads read b := by
  obtain ⟨read, reads, -⟩ := taken.exists_reads
  exact ⟨read, reads⟩

/-- All extents of a way to match are remembered on that way. -/
theorem Takes.remembered (taken : p.Takes a b new) : ∀ entry ∈ new, p.Remembered a b entry := by
  have stay (a : Place) : ∃ read, a.Reads read a := ⟨[], .refl a⟩
  induction taken with
  | empty | assert | starNone | one => exact fun _ => nofun
  | seq left right ih₁ ih₂ =>
    intro entry member
    rcases List.mem_append.1 member with second | first
    · exact (ih₂ entry second).widen (List.subset_append_right ..) left.reads (stay _)
    · exact (ih₁ entry first).widen (List.subset_append_left ..) (stay _) right.reads
  | starMore once again ih₁ ih₂ =>
    intro entry member
    rcases List.mem_append.1 member with later | first
    · exact (ih₂ entry later).widen (List.Subset.refl _) once.reads (stay _)
    · exact (ih₁ entry first).widen (List.Subset.refl _) (stay _) again.reads
  | altLeft _ ih => exact fun entry member =>
      (ih entry member).widen (List.subset_append_left ..) (stay _) (stay _)
  | altRight _ ih => exact fun entry member =>
      (ih entry member).widen (List.subset_append_right ..) (stay _) (stay _)
  | @group index p a b new body ih =>
    intro entry member
    rcases List.mem_cons.1 member with rfl | inner
    · exact ⟨p, by simp [bodies], a, b, new, body, rfl, rfl, stay a, stay b⟩
    · refine (ih entry inner).widen ?_ (stay _) (stay _)
      rw [bodies]
      split
      · exact List.subset_cons_self ..
      · exact List.Subset.refl _

/-- A group that every way to match passes is remembered. -/
theorem Takes.exists_mem_of_passes {index : Nat} (taken : p.Takes a b new)
    (passed : p.passes index = true) : ∃ entry ∈ new, entry.1 = index := by
  induction taken with
  | empty | assert | starNone | starMore | one => cases passed
  | seq _ _ ih₁ ih₂ =>
    rw [passes, Bool.or_eq_true] at passed
    rcases passed with first | second
    · obtain ⟨entry, member, same⟩ := ih₁ first
      exact ⟨entry, List.mem_append_right _ member, same⟩
    · obtain ⟨entry, member, same⟩ := ih₂ second
      exact ⟨entry, List.mem_append_left _ member, same⟩
  | altLeft _ ih =>
    rw [passes, Bool.and_eq_true] at passed
    exact ih passed.1
  | altRight _ ih =>
    rw [passes, Bool.and_eq_true] at passed
    exact ih passed.2
  | group _ ih =>
    rw [passes, Bool.or_eq_true, beq_iff_eq] at passed
    rcases passed with here | inside
    · exact ⟨_, List.mem_cons_self .., here⟩
    · obtain ⟨entry, member, same⟩ := ih inside
      exact ⟨entry, List.mem_cons_of_mem _ member, same⟩

/-! ## Searching -/

variable {t : Text} {m : Match}

/-- A match that **reading on** from a place leads to. -/
def MatchBehind (p : Pattern) (place : Place) (m : Match) : Prop :=
  ∃ read a b, place.Reads read a ∧ p.Takes a b m.captures ∧ m.start = a.offset ∧
    m.stop = b.offset

/-- A match behind a place is one behind every earlier place. -/
theorem MatchBehind.widen {place place' : Place} {read : Text} (behind : p.MatchBehind place' m)
    (reads : place.Reads read place') : p.MatchBehind place m := by
  obtain ⟨more, a, b, reads', rest⟩ := behind
  exact ⟨read ++ more, a, b, reads.trans reads', rest⟩

/-- A match at a place is behind it. -/
theorem matchBehind_of_matchAt {place : Place} (found : p.matchAt? place = some m) :
    p.MatchBehind place m := by
  obtain ⟨b, new, taken, same⟩ := exists_takes p place [] _ found
  cases same
  exact ⟨[], place, b, .refl place, by simpa using taken, rfl, rfl⟩

/-- A match that is found from a place on is behind it. -/
theorem matchBehind_of_findFrom {place : Place} (found : p.findFrom? place = some m) :
    p.MatchBehind place m := by
  have searched : ∀ (rest : Text) (offset : Nat) (before : Option UInt8) (skip : Nat),
      findFrom?.go p rest offset before skip = some m →
        p.MatchBehind ⟨offset, before, rest⟩ m := by
    intro rest
    induction rest with
    | nil => exact fun _ _ _ found => matchBehind_of_matchAt found
    | cons c rest ih =>
      intro offset before skip found
      have step := Place.reads_byte offset before c rest
      cases skip with
      | succ skip => exact (ih _ _ _ found).widen step
      | zero =>
        -- The first byte of a code point: a match begins here, or further on.
        rw [findFrom?.go] at found
        split at found
        · rename_i here
          exact matchBehind_of_matchAt (here.trans found)
        · exact (ih _ _ _ found).widen step
  exact searched _ _ _ _ found

/-- The matches that are found one after the other are behind the place. -/
theorem matchBehind_of_mem_findAll_go {bound : Nat} {place : Place} {last : Option Nat}
    (member : m ∈ findAll.go p bound place last) : p.MatchBehind place m := by
  induction bound generalizing place last with
  | zero => cases member
  | succ bound ih =>
    rw [findAll.go] at member
    split at member
    · cases member
    · rename_i first found
      have later {place' : Place} {read : Text} {last' : Option Nat}
          (reads : place.Reads read place') (member : m ∈ findAll.go p bound place' last') :
          p.MatchBehind place m := (ih member).widen reads
      have here := matchBehind_of_findFrom found
      by_cases empty : (first.stop == place.offset) = true
      · -- Behind an empty match the search goes on at the next place, if there is one.
        rw [if_pos empty] at member
        have member : m = first ∨ ∃ c place',
            place.next? = some (c, place') ∧ m ∈ findAll.go p bound place' (some first.stop) := by
          cases next : place.next? with
          | none =>
            simp only [next] at member
            split at member
            · cases member
            · exact Or.inl (List.mem_singleton.1 member)
          | some after =>
            simp only [next] at member
            split at member
            · exact Or.inr ⟨_, _, rfl, member⟩
            · exact (List.mem_cons.1 member).imp id fun member => ⟨_, _, rfl, member⟩
        rcases member with rfl | ⟨c, place', next, member⟩
        · exact here
        · obtain ⟨c, t, -, reads⟩ := Place.reads_next next
          exact later reads member
      · rw [if_neg empty] at member
        rcases List.mem_cons.1 member with rfl | member
        · exact here
        · exact later (Place.reads_skip _ _) member

/-- A **match** of a pattern in a text. -/
def IsMatch (p : Pattern) (t : Text) (m : Match) : Prop := p.MatchBehind (Place.start t) m

/-- **What a search finds is a match.** -/
theorem isMatch_of_find? (found : p.find? t = some m) : p.IsMatch t m :=
  matchBehind_of_findFrom found

/-- All matches that are found are matches of the text. -/
theorem isMatch_of_mem_findAll (member : m ∈ p.findAll t) : p.IsMatch t m :=
  matchBehind_of_mem_findAll_go member

/-- Behind a match, the search goes on where it ends. -/
theorem MatchBehind.skip_offset {place : Place} (behind : p.MatchBehind place m) :
    (place.skip (m.stop - place.offset)).offset = m.stop := by
  obtain ⟨read, a, b, reads, taken, -, stop⟩ := behind
  obtain ⟨more, reads'⟩ := taken.reads
  obtain ⟨rest, offset⟩ := reads.trans reads'
  have ahead := (Place.reads_skip (m.stop - place.offset) place).offset
  rw [List.length_take, rest, List.length_append] at ahead
  omega

/-- **Matches do not overlap**, and come from left to right. -/
theorem pairwise_findAll (nonempty : 1 ≤ p.least) : (p.findAll t).Pairwise (·.stop ≤ ·.start) := by
  have searched (bound : Nat) (place : Place) (last : Option Nat) :
      (findAll.go p bound place last).Pairwise (·.stop ≤ ·.start) := by
    induction bound generalizing place last with
    | zero => exact .nil
    | succ bound ih =>
      rw [findAll.go]
      split
      · exact .nil
      · rename_i m found
        have here := matchBehind_of_findFrom found
        obtain ⟨read, a, b, reads, taken, start, stop⟩ := here
        have ahead := reads.le
        have filled := taken.least_le
        rw [if_neg (by simp; omega)]
        refine List.pairwise_cons.2 ⟨fun later member => ?_, ih _ _⟩
        obtain ⟨_, a', _, reads', -, start', -⟩ := matchBehind_of_mem_findAll_go member
        have from_stop := reads'.le
        rw [(matchBehind_of_findFrom found).skip_offset] at from_stop
        exact start' ▸ from_stop
  exact searched _ _ _

namespace IsMatch

/-- **A match lies inside the text.** -/
theorem inside (found : p.IsMatch t m) : m.start + p.least ≤ m.stop ∧ m.stop ≤ t.length := by
  obtain ⟨read, a, b, reads, taken, start, stop⟩ := found
  obtain ⟨more, reads'⟩ := taken.reads
  exact ⟨start ▸ stop ▸ taken.least_le, stop ▸ (reads.trans reads').offset_le⟩

/-- The entry of an extent among the captures. -/
theorem mem_of_extent {index : Nat} {extent : Nat × Nat}
    (is_extent : m.extent? index = some extent) : (index, extent) ∈ m.captures := by
  obtain ⟨entry, found, rfl⟩ := Option.map_eq_some_iff.1 is_extent
  have same : entry.1 = index := by simpa using List.find?_some found
  rw [← same]
  exact List.mem_of_find?_eq_some found

/-- **The extent of a group lies inside the match.** -/
theorem extent_inside (found : p.IsMatch t m) {index : Nat} {extent : Nat × Nat}
    (is_extent : m.extent? index = some extent) :
    m.start ≤ extent.1 ∧ extent.1 ≤ extent.2 ∧ extent.2 ≤ m.stop := by
  obtain ⟨read, a, b, reads, taken, start, stop⟩ := found
  obtain ⟨body, -, x, y, new, inner, first, last, ⟨_, before⟩, ⟨_, behind⟩⟩ :=
    taken.remembered _ (mem_of_extent is_extent)
  rw [start, stop, ← first, ← last]
  exact ⟨before.le, inner.le, behind.le⟩

/-- **A group that every way to match passes** is not missing. -/
theorem exists_extent (found : p.IsMatch t m) {index : Nat} (passed : p.passes index = true) :
    ∃ extent, m.extent? index = some extent := by
  obtain ⟨read, a, b, reads, taken, -⟩ := found
  obtain ⟨entry, member, same⟩ := taken.exists_mem_of_passes passed
  have present : (m.captures.find? (·.1 == index)).isSome := by
    rw [List.find?_isSome]
    exact ⟨entry, member, beq_iff_eq.2 same⟩
  obtain ⟨entry', found⟩ := Option.isSome_iff_exists.1 present
  exact ⟨entry'.2, by rw [Match.extent?, found]; rfl⟩

/-- **The text of a group** is what a body of that group took in. -/
theorem group_taken (found : p.IsMatch t m) {index : Nat} {text : Text}
    (is_text : m.group? t index = some text) :
    ∃ body ∈ p.bodies index, ∃ x y new, body.Takes x y new ∧ x.Reads text y := by
  obtain ⟨extent, is_extent, rfl⟩ := Option.map_eq_some_iff.1 is_text
  obtain ⟨read, a, b, reads, taken, -⟩ := found
  obtain ⟨body, member, x, y, new, inner, first, last, ⟨_, before⟩, -⟩ :=
    taken.remembered _ (mem_of_extent is_extent)
  obtain ⟨more, reads'⟩ := inner.reads
  refine ⟨body, member, x, y, new, inner, ?_⟩
  rwa [← first, ← last, (reads.trans before).slice reads']

/-- The text of a group that knows nothing but ASCII **is ASCII**. -/
theorem group_ascii (found : p.IsMatch t m) {index : Nat}
    (ascii : ∀ body ∈ p.bodies index, body.isAscii = true) : ∀ c ∈ m.group t index, c < 0x80 := by
  rw [Match.group]
  cases is_text : m.group? t index with
  | none => exact fun _ => nofun
  | some text =>
    obtain ⟨body, member, x, y, new, inner, reads⟩ := found.group_taken is_text
    obtain ⟨read, reads', low⟩ := inner.exists_reads
    have same : text = read :=
      List.append_cancel_right (reads.rest.symm.trans reads'.rest)
    exact same ▸ low (ascii body member)

end IsMatch

end FlowTrace.Pattern
