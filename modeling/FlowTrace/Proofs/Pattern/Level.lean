import FlowTrace.Proofs.Pattern.Reach
import FlowTrace.Proofs.Text.Rewording

/-! # The matcher between two marks

When the contents of a literal are reworded, the matcher goes its way as before in front of the
literal and behind it; what it does between the marks may change. Whether that can have
consequences is read off the pattern from its end to its beginning. There are three **levels** of
what is known about the matcher from some point of the pattern on, when it comes there between the
marks: nothing, or that all ends in the same way wherever it stands there, or that it fails
(`Pattern.level`).

* A code point that no quiet contents have, or the end of the text, makes it fail.
* A repetition that takes in all quiet contents and the mark behind them leads to the same end from
  everywhere.
* Words can be asked not to stand between the marks (`stops`).

This file shows that a pattern **fails between the marks** if its level says so (`fails_run`). -/

namespace FlowTrace

/-- Whether every range of a set is a single loud byte. -/
def Loud.isMadeOf (loud : Loud) (ranges : Intervals) : Bool :=
  ranges.all fun range => range.1 == range.2 && loud.bytes.any (·.toNat == range.1)

/-- A code point is **quiet** when it is none of the loud bytes. -/
def Loud.QuietRune (loud : Loud) (rune : Rune) : Prop := ∀ c ∈ loud.bytes, rune ≠ c.toNat

/-- A quiet code point is in no set that is made of the loud ones. -/
theorem Loud.holds_eq_false {loud : Loud} {ranges : Intervals} {rune : Rune}
    (made : loud.isMadeOf ranges = true) (quiet : loud.QuietRune rune) :
    ranges.holds rune = false := by
  rw [Intervals.holds, List.any_eq_false]
  intro range member
  obtain ⟨single, known⟩ := Bool.and_eq_true_iff.1 (List.all_eq_true.1 made range member)
  obtain ⟨c, among, same⟩ := List.any_eq_true.1 known
  rw [beq_iff_eq] at single same
  have other := quiet c among
  simp only [Bool.and_eq_true, decide_eq_true_eq]
  rintro ⟨low, high⟩
  exact other (Nat.le_antisymm (by rw [same, single]; exact high) (by rw [same]; exact low))

namespace Pattern

open Text (enquote)

/-! ## Levels -/

/-- What is known of the matcher when it stands between the marks. -/
inductive Level where
  /-- Nothing. -/
  | any
  /-- It ends in the same way, wherever it stands there and whatever the contents are. -/
  | steady
  /-- It fails. -/
  | dead
  deriving DecidableEq

namespace Level

/-- What remains known when the place or the captures may have changed. -/
def weakened : Level → Level
  | dead => dead
  | _ => any

/-- What is known of either of two patterns. -/
def join : Level → Level → Level
  | dead, dead => dead
  | any, _ | _, any => any
  | _, _ => steady

end Level

/-- Whether a repetition of the pattern takes in all quiet contents and the mark behind them. -/
def sweeps (loud : Loud) (mark : UInt8) : Pattern → Bool
  | one set => set.holds mark.toNat && set.negated && loud.isMadeOf set.ranges
  | _ => false

/-- The level in front of a pattern, by the level behind it; `none` when the matcher might go on
differently in front of the marks or behind them. -/
def level (loud : Loud) (mark : UInt8) (stops : Pattern → Bool) (p : Pattern) (l : Level) :
    Option Level :=
  (match p with
    | empty => some l
    | one set =>
      if set.holds mark.toNat then if l = Level.any then none else some .any
      else if !set.negated && loud.isMadeOf set.ranges then some .dead
      else some l.weakened
    | assert assertion =>
      if assertion = Assertion.textStart ∨ assertion = Assertion.textEnd then some .dead
      else some l.weakened
    | seq first second => (level loud mark stops second l).bind (level loud mark stops first)
    | alt first second => (level loud mark stops first l).bind fun m =>
        (level loud mark stops second l).map m.join
    | star _ body =>
      if body.sweeps loud mark then if l = Level.any then none else some .steady
      else (level loud mark stops body l.weakened).bind fun m =>
        if l.weakened = Level.any ∨ m = Level.dead then some l.weakened else none
    | group _ body => (level loud mark stops body l.weakened).map Level.weakened).map
  fun m => if stops p then .dead else m

/-! ## Steps through a quoted text -/

variable {loud : Loud} {mark : UInt8} {front contents back : Text} {o : Nat}

/-- Offsets **between** two marks: behind the first one, and not behind the second one. -/
def Between (start size o : Nat) : Prop := start < o ∧ o ≤ start + 1 + size

instance (start size o : Nat) : Decidable (Between start size o) :=
  inferInstanceAs (Decidable (_ ∧ _))

/-- In front of a literal the next place does not depend on its contents. -/
theorem next_front (back : Text) (ascii : mark < 0x80) (before : o < front.length) : ∃ rune o', o < o' ∧
    o' ≤ front.length ∧ ∀ contents, (placeAt (enquote mark front contents back) o).next? =
      some (rune, placeAt (enquote mark front contents back) o') := by
  have split := List.drop_eq_getElem_cons before
  have size : front.length - o = (front.drop (o + 1)).length + 1 := by
    rw [List.length_drop]
    omega
  obtain ⟨-, few⟩ := Text.decodeHead_enquote ascii front[o] (front.drop (o + 1)) back
  refine ⟨(Text.decodeHead front[o] (front.drop (o + 1))).1,
    o + 1 + (Text.decodeHead front[o] (front.drop (o + 1))).2, by omega, by omega,
    fun contents => ?_⟩
  have here : (enquote mark front contents back).drop o =
      front[o] :: (front.drop (o + 1) ++ mark :: (contents ++ mark :: back)) := by
    rw [Text.drop_enquote_front (Nat.le_of_lt before), split]
    rfl
  rw [next?_placeAt here, (Text.decodeHead_enquote ascii _ _ _).1]

/-- The next place behind the beginning of a literal is behind its mark. -/
theorem next_open (ascii : mark < 0x80) :
    (placeAt (enquote mark front contents back) front.length).next? =
      some (mark.toNat, placeAt (enquote mark front contents back) (front.length + 1)) := by
  have here : (enquote mark front contents back).drop front.length =
      mark :: (contents ++ mark :: back) := by
    rw [Text.drop_enquote_front (Nat.le_refl _), List.drop_length]
    rfl
  rw [next?_placeAt here, Text.decodeHead_mark ascii]
  rfl

/-- A quiet byte begins a quiet code point. -/
theorem quietRune_decodeHead {c : UInt8} {t : Text} (quiet : c ∉ loud.bytes) :
    loud.QuietRune (Text.decodeHead c t).1 := by
  intro d among same
  have low : (Text.decodeHead c t).1 < 0x80 := by
    rw [same]
    exact UInt8.lt_iff_toNat_lt.1 (loud.ascii d among)
  have ascii : c < 0x80 := ascii_of_decodeHead low c List.mem_cons_self
  rw [Text.decodeHead_mark ascii] at same
  exact quiet (UInt8.toNat_inj.1 same ▸ among)

/-- Inside of a literal the next code point is quiet, and the next place is inside of it too. -/
theorem next_between (back : Text) (ascii : mark < 0x80) (quiet : loud.Quiet contents)
    (inside : front.length < o) (ahead : o < front.length + 1 + contents.length) :
    ∃ rune o', o < o' ∧ o' ≤ front.length + 1 + contents.length ∧ loud.QuietRune rune ∧
      (placeAt (enquote mark front contents back) o).next? =
        some (rune, placeAt (enquote mark front contents back) o') := by
  obtain ⟨k, rfl⟩ := Nat.exists_eq_add_of_lt inside
  rw [Nat.add_right_comm] at *
  have before : k < contents.length := by omega
  have split := List.drop_eq_getElem_cons before
  have size : contents.length - k = (contents.drop (k + 1)).length + 1 := by
    rw [List.length_drop]
    omega
  obtain ⟨same, few⟩ := Text.decodeHead_enquote ascii contents[k] (contents.drop (k + 1)) back
  have here : (enquote mark front contents back).drop (front.length + 1 + k) =
      contents[k] :: (contents.drop (k + 1) ++ mark :: back) := by
    rw [Text.drop_enquote_contents k (Nat.le_of_lt before), split]
    rfl
  refine ⟨(Text.decodeHead contents[k] (contents.drop (k + 1))).1,
    front.length + 1 + k + 1 + (Text.decodeHead contents[k] (contents.drop (k + 1))).2,
    by omega, by omega, quietRune_decodeHead (quiet _ (List.getElem_mem before)), ?_⟩
  rw [next?_placeAt here, same]

/-- The next place behind the contents of a literal is behind its mark. -/
theorem next_close (ascii : mark < 0x80) :
    (placeAt (enquote mark front contents back) (front.length + 1 + contents.length)).next? =
      some (mark.toNat,
        placeAt (enquote mark front contents back) (front.length + 1 + contents.length + 1)) := by
  have here : (enquote mark front contents back).drop (front.length + 1 + contents.length) =
      mark :: back := by
    rw [Text.drop_enquote_contents contents.length (Nat.le_refl _), List.drop_length]
    rfl
  rw [next?_placeAt here, Text.decodeHead_mark ascii]
  rfl

/-- Behind the marks nothing changes with the contents. -/
theorem placeAt_behind (mark : UInt8) (front back : Text) {contents contents' : Text}
    (same : contents'.length = contents.length)
    (behind : front.length + 1 + contents.length < o) :
    placeAt (enquote mark front contents' back) o = placeAt (enquote mark front contents back) o := by
  obtain ⟨k, rfl⟩ := Nat.exists_eq_add_of_lt behind
  rw [Nat.add_right_comm] at *
  have last (contents : Text) :
      ((enquote mark front contents back).take (front.length + 1 + contents.length + 1 + k)).getLast?
        = (mark :: back.take k).getLast? := by
    have split : enquote mark front contents back = (front ++ [mark] ++ contents) ++
        (mark :: back) := by
      rw [Text.enquote_eq]
      simp
    have length : (front ++ [mark] ++ contents).length = front.length + 1 + contents.length := by
      simp only [List.length_append, List.length_singleton]
    rw [split, Nat.add_assoc _ 1 k, ← length, List.take_length_add_append, List.getLast?_append,
      Nat.one_add, List.take_succ_cons]
    rw [Option.or_of_isSome]
    simp
  have before := last contents'
  rw [same] at before
  have rest : (enquote mark front contents' back).drop
      (front.length + 1 + contents'.length + 1 + k) = back.drop k := Text.drop_enquote_back k
  rw [same] at rest
  rw [placeAt, placeAt, before, last, rest, Text.drop_enquote_back]

/-! ## Failing between the marks -/

variable {stops : Pattern → Bool} {p : Pattern} {l m : Level} {β : Type}

/-- What follows in a match: it accepts the place and the captures, or not. -/
abbrev Accept (β : Type) := Place → Captures → Option β

/-- What follows **fails** everywhere between the marks. -/
def Fails (mark : UInt8) (front contents back : Text) (accept : Accept β) : Prop :=
  ∀ o, Between front.length contents.length o → ∀ captures,
    accept (placeAt (enquote mark front contents back) o) captures = none

/-- The patterns at which to stop do not match between the marks, whatever follows. -/
def Stopped (mark : UInt8) (front contents back : Text) (stops : Pattern → Bool) : Prop :=
  ∀ p, stops p = true → ∀ (β : Type) (accept : Accept β),
    Fails mark front contents back fun place captures => p.run place captures accept

/-- What follows, if the place is further on than an offset. -/
def further (o : Nat) (accept : Accept β) : Accept β := fun place captures =>
  if o < place.offset then accept place captures else none

/-- The first result, or else the other one. -/
theorem first_eq_or (x y : Option β) : (match x with
    | some found => some found
    | none => y) = x.or y := by
  cases x <;> rfl

/-- Another round of a repetition or none, in order of priority. -/
def prefer (greedy : Bool) (again stay : Option β) : Option β :=
  if greedy then again.or stay else stay.or again

/-- A round of a repetition, and what follows when there is none. -/
theorem iterate_succ (body : Place → Captures → (Place → Captures → Option β) → Option β)
    (greedy : Bool) (bound : Nat) (place : Place) (captures : Captures) (accept : Accept β) :
    iterate body greedy (bound + 1) place captures accept =
      prefer greedy (body place captures (further place.offset fun place captures =>
        iterate body greedy bound place captures accept)) (accept place captures) := by
  cases greedy with
  | true => exact first_eq_or _ _
  | false => exact first_eq_or _ _

/-- An alternative runs its parts until one of them succeeds. -/
theorem run_alt (p q : Pattern) (place : Place) (captures : Captures) (accept : Accept β) :
    (alt p q).run place captures accept =
      (p.run place captures accept).or (q.run place captures accept) := first_eq_or _ _

/-- A repetition is iterated as long as there are bytes. -/
theorem run_star (greedy : Bool) (body : Pattern) (place : Place) (captures : Captures)
    (accept : Accept β) : (star greedy body).run place captures accept =
      iterate body.run greedy place.rest.length place captures accept := rfl

/-- Only a dead level is dead when it is weakened. -/
theorem weakened_eq_dead (weak : l.weakened = .dead) : l = .dead := by
  cases l with
  | any | steady => cases weak
  | dead => rfl

/-- A search that fails does so when it may go on only further. -/
theorem Fails.further {accept : Accept β} (fails : Fails mark front contents back accept)
    (o : Nat) : Fails mark front contents back (further o accept) := by
  intro o' between captures
  simp only [Pattern.further, fails o' between captures, ite_self]

/-- Two searches that fail do so together. -/
theorem Fails.or {accept accept' : Accept β} (fails : Fails mark front contents back accept)
    (fails' : Fails mark front contents back accept') :
    Fails mark front contents back fun place captures =>
      (accept place captures).or (accept' place captures) := by
  intro o between captures
  simp only [fails o between captures, fails' o between captures, Option.or_none]

/-- A repetition fails between the marks if its body and what follows do. -/
theorem Fails.iterate {body : Pattern} {accept : Accept β}
    (keeps : ∀ accept : Accept β, Fails mark front contents back accept →
      Fails mark front contents back fun place captures => body.run place captures accept)
    (fails : Fails mark front contents back accept) (greedy : Bool) (bound : Nat) :
    Fails mark front contents back fun place captures =>
      Pattern.iterate body.run greedy bound place captures accept := by
  induction bound with
  | zero => exact fails
  | succ bound ih =>
    intro o between captures
    have again := keeps _ (ih.further o) o between captures
    simp only [iterate_succ, offset_placeAt, again, fails o between captures, prefer,
      Option.or_none, ite_self]

/-- A code point that none of the quiet contents has stands neither between the marks nor is it the
mark. -/
theorem fails_one {set : RuneSet} (ascii : mark < 0x80) (quiet : loud.Quiet contents)
    (no_mark : set.holds mark.toNat = false)
    (held : ∀ rune, loud.QuietRune rune → set.holds rune = false) (accept : Accept β) :
    Fails mark front contents back fun place captures => (one set).run place captures accept := by
  intro o between captures
  rcases Nat.lt_or_ge o (front.length + 1 + contents.length) with ahead | last
  · obtain ⟨rune, o', -, -, is_quiet, next⟩ :=
      next_between back ascii quiet between.1 ahead
    simp only [run, next, held rune is_quiet, Bool.false_eq_true, if_false]
  · obtain rfl : o = front.length + 1 + contents.length := Nat.le_antisymm between.2 last
    simp only [run, next_close ascii, no_mark, Bool.false_eq_true, if_false]

/-- What does not take in the mark stays between the marks. -/
theorem Fails.one {set : RuneSet} (ascii : mark < 0x80) (quiet : loud.Quiet contents)
    (no_mark : set.holds mark.toNat = false) {accept : Accept β}
    (fails : Fails mark front contents back accept) :
    Fails mark front contents back fun place captures =>
      (Pattern.one set).run place captures accept := by
  intro o between captures
  rcases Nat.lt_or_ge o (front.length + 1 + contents.length) with ahead | last
  · obtain ⟨rune, o', further, inside, -, next⟩ :=
      next_between back ascii quiet between.1 ahead
    simp only [run, next, fails o' ⟨Nat.lt_trans between.1 further, inside⟩ captures, ite_self]
  · obtain rfl : o = front.length + 1 + contents.length := Nat.le_antisymm between.2 last
    simp only [run, next_close ascii, no_mark, Bool.false_eq_true, if_false]

/-- Neither the beginning nor the end of the text is between the marks. -/
theorem fails_assert {assertion : Assertion}
    (bound : assertion = .textStart ∨ assertion = .textEnd) (accept : Accept β) :
    Fails mark front contents back fun place captures =>
      (assert assertion).run place captures accept := by
  intro o between captures
  have denied : (placeAt (enquote mark front contents back) o).satisfies assertion = false := by
    obtain ⟨behind, inside⟩ := between
    have length := Text.length_enquote mark front contents back
    rcases bound with rfl | rfl
    · show ((enquote mark front contents back).take o).getLast?.isNone = false
      rw [Option.isNone_eq_false_iff, ← Option.ne_none_iff_isSome, Ne, List.getLast?_eq_none_iff,
        ← List.length_eq_zero_iff, List.length_take]
      omega
    · show ((enquote mark front contents back).drop o).isEmpty = false
      rw [List.isEmpty_eq_false_iff, Ne, List.drop_eq_nil_iff]
      omega
  simp only [run, denied, Bool.false_eq_true, if_false]

/-- Levels that join to a dead one are dead. -/
theorem join_eq_dead (joined : l.join m = .dead) : l = .dead ∧ m = .dead := by
  cases l <;> cases m <;> first | exact ⟨rfl, rfl⟩ | cases joined

/-- It is enough to look at patterns at which there is no need to stop. -/
theorem Stopped.fails (stopped : Stopped mark front contents back stops) {found : Option Level}
    (is_level : (found.map fun m => if stops p then .dead else m) = some Level.dead)
    (accept : Accept β) (otherwise : found = some .dead →
      Fails mark front contents back fun place captures => p.run place captures accept) :
    Fails mark front contents back fun place captures => p.run place captures accept := by
  by_cases stop : stops p = true
  · exact stopped p stop β accept
  · simp only [if_neg stop, Option.map_id'] at is_level
    exact otherwise is_level

/-- **A pattern at level `dead` fails between the marks**, if what follows does as its level says. -/
theorem fails_run (ascii : mark < 0x80) (quiet : loud.Quiet contents)
    (stopped : Stopped mark front contents back stops) {accept : Accept β}
    (is_level : p.level loud mark stops l = some .dead)
    (follows : l = .dead → Fails mark front contents back accept) :
    Fails mark front contents back fun place captures => p.run place captures accept := by
  induction p generalizing l accept with
  | empty =>
    refine stopped.fails is_level accept fun found => ?_
    exact follows (Option.some.inj found)
  | one set =>
    refine stopped.fails is_level accept fun found => ?_
    split at found
    · split at found <;> cases found
    -- The set does not take the mark, so that the contents are all that it could take.
    · rename_i no_mark
      rw [Bool.not_eq_true] at no_mark
      split at found
      · rename_i made
        rw [Bool.and_eq_true, Bool.not_eq_true'] at made
        refine fails_one ascii quiet no_mark (fun rune is_quiet => ?_) accept
        rw [RuneSet.holds, made.1, Loud.holds_eq_false made.2 is_quiet]
        rfl
      · exact (follows (weakened_eq_dead (Option.some.inj found))).one ascii quiet no_mark
  | assert assertion =>
    refine stopped.fails is_level accept fun found => ?_
    split at found
    · rename_i bound
      exact fails_assert bound accept
    · have fails := follows (weakened_eq_dead (Option.some.inj found))
      intro o between captures
      simp only [run, fails o between captures, ite_self]
  | seq first second ih ih' =>
    refine stopped.fails is_level accept fun found => ?_
    obtain ⟨m, behind, before⟩ := Option.bind_eq_some_iff.1 found
    -- The second part fails first: it is what follows the first part.
    exact ih before fun dead => ih' (dead ▸ behind) follows
  | alt first second ih ih' =>
    refine stopped.fails is_level accept fun found => ?_
    obtain ⟨m, left, more⟩ := Option.bind_eq_some_iff.1 found
    obtain ⟨m', right, joined⟩ := Option.map_eq_some_iff.1 more
    obtain ⟨rfl, rfl⟩ := join_eq_dead joined
    simp only [run_alt]
    exact Fails.or (ih left follows) (ih' right follows)
  | star greedy body ih =>
    refine stopped.fails is_level accept fun found => ?_
    split at found
    · split at found <;> cases found
    · obtain ⟨m, round, more⟩ := Option.bind_eq_some_iff.1 found
      split at more
      · rename_i enough
        have weak := Option.some.inj more
        -- A round of the body fails as well, so that only the way around it is left.
        have dead : m = .dead := enough.resolve_left (by rw [weak]; decide)
        have fails := follows (weakened_eq_dead weak)
        intro o between captures
        exact Fails.iterate (fun accept fails => ih (dead ▸ round) fun _ => fails) fails greedy _ o
          between captures
      · cases more
  | group index body ih =>
    refine stopped.fails is_level accept fun found => ?_
    obtain ⟨m, inner, weak⟩ := Option.map_eq_some_iff.1 found
    obtain rfl := weakened_eq_dead weak
    intro o between captures
    have inside : Fails mark front contents back fun place captures => body.run place captures
        fun place captures' => accept place ((index, o, place.offset) :: captures') :=
      ih inner fun dead o' between' captures' => follows (weakened_eq_dead dead) o' between' _
    exact inside o between captures

end Pattern

end FlowTrace
