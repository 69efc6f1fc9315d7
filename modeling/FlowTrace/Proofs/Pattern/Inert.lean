import FlowTrace.Proofs.Pattern.Level

/-! # Patterns that pass by what is quoted

Two texts that differ between two quotation marks only, and a pattern that fails there: **all its
matches are the same in both texts** (`Inert.findAll_eq`). They begin and end outside the marks, and
so do their groups.

The two runs of the matcher are followed side by side (`holds_run`), from the end of the pattern to
its beginning, with what the level of the pattern says of the runs between the marks. -/

namespace FlowTrace.Pattern

open Text (enquote)

variable {loud : Loud} {mark : UInt8} {front back : Text} {stops : Pattern → Bool} {p : Pattern}
  {β : Type}

/-! ## Two runs side by side -/

section Sides

variable (w : Rewording loud) (front back : Text)

/-- Offsets that are not between the marks. -/
def Outside (o : Nat) : Prop :=
  o ≤ (w.original front back).length ∧ ¬ Between front.length w.old.length o

/-- All groups begin and end outside the marks. -/
def Kept (captures : Captures) : Prop :=
  ∀ entry ∈ captures, Outside w front back entry.2.1 ∧ Outside w front back entry.2.2

/-- The results are the same, and are as they should be. -/
def Agree (good : β → Prop) (x y : Option β) : Prop := x = y ∧ ∀ found, x = some found → good found

/-- Outside the marks, what follows in a match of either text has results that agree. -/
def AgreeOutside (good : β → Prop) (accept accept' : Accept β) : Prop :=
  ∀ o, Outside w front back o → ∀ captures, Kept w front back captures →
    Agree good (accept (placeAt (w.original front back) o) captures)
      (accept' (placeAt (w.reworded front back) o) captures)

/-- Between the marks, what follows in a match of either text has the same result everywhere. -/
def SteadyBetween (good : β → Prop) (accept accept' : Accept β) : Prop :=
  ∀ captures, Kept w front back captures → ∃ result, Agree good result result ∧
    ∀ o, Between front.length w.old.length o →
      accept (placeAt (w.original front back) o) captures = result ∧
        accept' (placeAt (w.reworded front back) o) captures = result

/-- Between the marks, what follows in a match of either text fails. -/
def FailBetween (accept accept' : Accept β) : Prop :=
  Fails w.mark front w.old back accept ∧ Fails w.mark front w.new back accept'

/-- What follows in a match of either text **agrees** outside the marks, and between them is known
as the level says. -/
structure Holds (good : β → Prop) (l : Level) (accept accept' : Accept β) : Prop where
  /-- Outside the marks the results agree. -/
  outside : AgreeOutside w front back good accept accept'
  /-- Between the marks all results are the same one. -/
  steady : l ≠ .any → SteadyBetween w front back good accept accept'
  /-- Between the marks there is no result. -/
  dead : l = .dead → FailBetween w front back accept accept'

end Sides

section Sides

variable {w : Rewording loud} {front back : Text} {good : β → Prop} {accept accept' : Accept β}

/-- Without results searches agree. -/
theorem Agree.none : Agree good none none := ⟨rfl, nofun⟩

/-- Searches that agree do so in a row. -/
theorem Agree.or {x x' y y' : Option β} (first : Agree good x x') (second : Agree good y y') :
    Agree good (x.or y) (x'.or y') := by
  obtain ⟨rfl, first⟩ := first
  obtain ⟨rfl, second⟩ := second
  refine ⟨rfl, fun found result => ?_⟩
  cases x with
  | none => exact second found result
  | some v => exact first found result

/-- The length of a text with a literal in it. -/
theorem length_original (w : Rewording loud) (front back : Text) : (w.original front back).length =
    front.length + 1 + w.old.length + 1 + back.length := Text.length_enquote ..

/-- Rewording a literal keeps the length. -/
theorem length_reworded (w : Rewording loud) (front back : Text) :
    (w.reworded front back).length = (w.original front back).length := by
  rw [Text.length_enquote, Text.length_enquote, w.length_new]

/-- An offset outside of the literal that is behind its front is behind the whole literal. -/
theorem Outside.past {o : Nat} (outside : Outside w front back o) (behind : front.length < o) :
    front.length + 1 + w.old.length < o :=
  Nat.not_le.1 fun within => outside.2 ⟨behind, within⟩

/-- Outside the marks, both texts have the same code point to read, and the same next place, which
is between the marks only if the code point is the mark. -/
theorem next_outside {o : Nat} (outside : Outside w front back o) :
    (∃ rune o', o < o' ∧ (Outside w front back o' ∨
        rune = w.mark.toNat ∧ Between front.length w.old.length o') ∧
      (placeAt (w.original front back) o).next? =
        some (rune, placeAt (w.original front back) o') ∧
      (placeAt (w.reworded front back) o).next? =
        some (rune, placeAt (w.reworded front back) o')) ∨
    ((placeAt (w.original front back) o).next? = none ∧
      (placeAt (w.reworded front back) o).next? = none) := by
  have length := length_original w front back
  rcases Nat.lt_trichotomy o front.length with before | rfl | behind
  · obtain ⟨rune, o', ahead, within, next⟩ := next_front back w.mark_lt before
    refine Or.inl ⟨rune, o', ahead, Or.inl ⟨?_, ?_⟩, next _, next _⟩
    · omega
    · exact fun between => Nat.not_lt.2 within between.1
  · exact Or.inl ⟨_, _, Nat.lt_succ_self _, Or.inr ⟨rfl, Nat.lt_succ_self _, by omega⟩,
      next_open w.mark_lt, next_open w.mark_lt⟩
  · have past := outside.past behind
    rw [placeAt_behind _ _ _ w.length_new past]
    cases next : (placeAt (w.original front back) o).next? with
    | none => exact Or.inr ⟨rfl, rfl⟩
    | some found =>
      obtain ⟨rune, place⟩ := found
      obtain ⟨o', ahead, within, same⟩ := exists_offset_of_next next
      refine Or.inl ⟨rune, o', ahead, Or.inl ⟨within, ?_⟩, ?_, ?_⟩
      · exact fun between => absurd between.2 (by omega)
      · rw [← same]
      · rw [placeAt_behind _ _ _ w.length_new (Nat.lt_trans past ahead), ← same]

/-- Outside the marks, both texts satisfy the same assertions. -/
theorem satisfies_outside {o : Nat} (outside : Outside w front back o) (assertion : Assertion) :
    (placeAt (w.reworded front back) o).satisfies assertion =
      (placeAt (w.original front back) o).satisfies assertion := by
  rcases Nat.lt_or_ge front.length o with behind | ahead
  · rw [placeAt_behind _ _ _ w.length_new (outside.past behind)]
  · have before (contents : Text) : (placeAt (enquote w.mark front contents back) o).before =
        ((front ++ [w.mark]).take o).getLast? := by
      rw [← Text.take_enquote (Nat.le_succ_of_le ahead)]
      rfl
    have head (contents : Text) : (placeAt (enquote w.mark front contents back) o).rest.head? =
        some ((front.drop o).headD w.mark) := by
      rw [rest_placeAt, Text.drop_enquote_front ahead]
      cases front.drop o <;> rfl
    have empty (contents : Text) :
        (placeAt (enquote w.mark front contents back) o).rest.isEmpty = false := by
      rw [rest_placeAt, Text.drop_enquote_front ahead]
      cases front.drop o <;> rfl
    cases assertion <;>
      simp only [Place.satisfies, Place.atWordEdge, before, head, empty]

/-! ## The steps of a pattern -/

variable {l m : Level}

/-- Searches that fail between the marks are steady there. -/
theorem FailBetween.steady (fail : FailBetween w front back accept accept') :
    SteadyBetween w front back good accept accept' := fun captures _ =>
  ⟨none, .none, fun o between =>
    ⟨fail.1 o between captures, fail.2 o (w.length_new ▸ between) captures⟩⟩

/-- What is known outside of a literal is enough if nothing is claimed inside of it. -/
theorem Holds.of_unsteady (unsteady : l ≠ .steady)
    (outside : AgreeOutside w front back good accept accept')
    (dead : l = .dead → FailBetween w front back accept accept') :
    Holds w front back good l accept accept' := by
  refine ⟨outside, fun known => (dead ?_).steady, dead⟩
  cases l with
  | dead => rfl
  | any => exact absurd rfl known
  | steady => exact absurd rfl unsteady

/-- A weakened level is not steady. -/
theorem weakened_ne_steady (l : Level) : l.weakened ≠ .steady := by
  cases l <;> exact nofun

/-- Less need be known. -/
theorem Holds.weaken (holds : Holds w front back good l accept accept') :
    Holds w front back good l.weakened accept accept' :=
  .of_unsteady (weakened_ne_steady l) holds.outside fun dead => holds.dead (weakened_eq_dead dead)

/-- One code point is taken in. -/
theorem agree_one {set : RuneSet} (holds : Holds w front back good l accept accept')
    (known : set.holds w.mark.toNat = true → l ≠ .any) :
    AgreeOutside w front back good (fun place captures => (one set).run place captures accept)
      fun place captures => (one set).run place captures accept' := by
  intro o outside captures kept
  rcases next_outside outside with ⟨rune, o', -, where_, next, next'⟩ | ⟨next, next'⟩
  · simp only [run, next, next']
    split
    · rename_i held
      rcases where_ with outside | ⟨rfl, between⟩
      · exact holds.outside o' outside captures kept
      · obtain ⟨result, agree, same⟩ := holds.steady (known held) captures kept
        rw [(same o' between).1, (same o' between).2]
        exact agree
    · exact .none
  · simp only [run, next, next']
    exact .none

/-- An assertion is checked. -/
theorem agree_assert (assertion : Assertion) (holds : Holds w front back good l accept accept') :
    AgreeOutside w front back good
      (fun place captures => (assert assertion).run place captures accept)
      fun place captures => (assert assertion).run place captures accept' := by
  intro o outside captures kept
  simp only [run, satisfies_outside outside]
  split
  · exact holds.outside o outside captures kept
  · exact .none

/-- The extent of a group is remembered. -/
theorem agree_group (index : Nat) {body : Pattern}
    (inner : ∀ {accept accept' : Accept β}, Holds w front back good l.weakened accept accept' →
      AgreeOutside w front back good (fun place captures => body.run place captures accept)
        fun place captures => body.run place captures accept')
    (holds : Holds w front back good l accept accept') :
    AgreeOutside w front back good
      (fun place captures => (group index body).run place captures accept)
      fun place captures => (group index body).run place captures accept' := by
  intro o outside captures kept
  have extended : Holds w front back good l.weakened
      (fun place captures' => accept place ((index, o, place.offset) :: captures'))
      fun place captures' => accept' place ((index, o, place.offset) :: captures') := by
    refine .of_unsteady (weakened_ne_steady l) (fun o' outside' captures' kept' => ?_) fun dead => ?_
    · exact holds.outside o' outside' _ (List.forall_mem_cons.2 ⟨⟨outside, outside'⟩, kept'⟩)
    · have fail := holds.dead (weakened_eq_dead dead)
      exact ⟨fun o' between' _ => fail.1 o' between' _, fun o' between' _ => fail.2 o' between' _⟩
  exact inner extended o outside captures kept

/-! ## Repetitions -/

/-- Preferences between searches that agree agree. -/
theorem Agree.prefer {x x' y y' : Option β} (greedy : Bool) (first : Agree good x x')
    (second : Agree good y y') : Agree good (prefer greedy x y) (prefer greedy x' y') := by
  unfold Pattern.prefer
  split
  · exact first.or second
  · exact second.or first

/-- Going on only further keeps what holds, one level weaker. -/
theorem Holds.further (holds : Holds w front back good l accept accept') (o : Nat) :
    Holds w front back good l.weakened (further o accept) (further o accept') := by
  refine .of_unsteady (weakened_ne_steady l) (fun o' outside captures kept => ?_) fun dead => ?_
  · show Agree good (if o < o' then _ else none) (if o < o' then _ else none)
    split
    · exact holds.outside o' outside captures kept
    · exact .none
  · have fail := holds.dead (weakened_eq_dead dead)
    exact ⟨fail.1.further o, fail.2.further o⟩

/-- Weakening a level twice is weakening it once. -/
theorem weakened_weakened (l : Level) : l.weakened.weakened = l.weakened := by
  cases l <;> rfl

/-- A repetition goes on in the same way, round by round. -/
theorem Holds.iterate {body : Pattern}
    (round : ∀ {accept accept' : Accept β}, Holds w front back good l.weakened accept accept' →
      AgreeOutside w front back good (fun place captures => body.run place captures accept)
        fun place captures => body.run place captures accept')
    (keeps : l.weakened = .dead → ∀ accept : Accept β, Fails w.mark front w.old back accept →
      Fails w.mark front w.old back fun place captures => body.run place captures accept)
    (keeps' : l.weakened = .dead → ∀ accept : Accept β, Fails w.mark front w.new back accept →
      Fails w.mark front w.new back fun place captures => body.run place captures accept)
    (greedy : Bool) (bound : Nat) (holds : Holds w front back good l.weakened accept accept') :
    Holds w front back good l.weakened
      (fun place captures => Pattern.iterate body.run greedy bound place captures accept)
      fun place captures => Pattern.iterate body.run greedy bound place captures accept' := by
  induction bound with
  | zero => exact holds
  | succ bound ih =>
    refine .of_unsteady (weakened_ne_steady l) (fun o outside captures kept => ?_) fun dead => ?_
    · simp only [iterate_succ, offset_placeAt]
      have again := ih.further o
      rw [weakened_weakened] at again
      exact (round again o outside captures kept).prefer greedy
        (holds.outside o outside captures kept)
    · have fail := holds.dead dead
      exact ⟨fail.1.iterate (keeps dead) greedy _, fail.2.iterate (keeps' dead) greedy _⟩

/-! ## Sweeping over the contents -/

section Sweep

variable {set : RuneSet} {greedy : Bool} {t : Text} {rune : Rune} {o o' : Nat} {captures : Captures}

/-- Without another round a repetition stays. -/
theorem prefer_none (greedy : Bool) (stay : Option β) : prefer greedy none stay = stay := by
  cases greedy
  · exact Option.or_none
  · rfl

/-- A preference for staying is met once. -/
theorem prefer_prefer (greedy : Bool) (again stay : Option β) :
    prefer greedy (prefer greedy again stay) stay = prefer greedy again stay := by
  cases greedy <;> cases again <;> cases stay <;> rfl

/-- The round of a repetition of a single code point. -/
theorem run_one_further {bound : Nat} (next : (placeAt t o).next? = some (rune, placeAt t o'))
    (ahead : o < o') : (one set).run (placeAt t o) captures
      (further o fun place captures => iterate (one set).run greedy bound place captures accept) =
    if set.holds rune then iterate (one set).run greedy bound (placeAt t o') captures accept
    else none := by
  simp only [run, next]
  split
  · exact if_pos ahead
  · rfl

/-- A repetition of one code point ends where the text does. -/
theorem iterate_one_end (last : (placeAt t o).next? = none) (bound : Nat) :
    iterate (one set).run greedy bound (placeAt t o) captures accept =
      accept (placeAt t o) captures := by
  cases bound with
  | zero => rfl
  | succ bound => simp only [iterate_succ, run, last, prefer_none]

/-- More rounds than bytes are of no use. -/
theorem iterate_one_eq {bound bound' : Nat} (enough : t.length - o ≤ bound)
    (enough' : t.length - o ≤ bound') :
    iterate (one set).run greedy bound (placeAt t o) captures accept =
      iterate (one set).run greedy bound' (placeAt t o) captures accept := by
  induction o using place_induction (t := t) generalizing bound bound' with
  | step o ih =>
    cases next : (placeAt t o).next? with
    | none => rw [iterate_one_end next, iterate_one_end next]
    | some found =>
      obtain ⟨rune, place⟩ := found
      obtain ⟨o', ahead, inside, rfl⟩ := exists_offset_of_next next
      obtain ⟨bound, rfl⟩ := Nat.exists_eq_add_one.2 (show 0 < bound by omega)
      obtain ⟨bound', rfl⟩ := Nat.exists_eq_add_one.2 (show 0 < bound' by omega)
      have later : iterate (one set).run greedy bound (placeAt t o') captures accept =
          iterate (one set).run greedy bound' (placeAt t o') captures accept :=
        ih o' ahead inside (by omega) (by omega)
      rw [iterate_succ, iterate_succ, offset_placeAt, run_one_further next ahead,
        run_one_further next ahead, later]

/-- A repetition of one code point takes nothing at the end of a text. -/
theorem run_star_one_end (last : (placeAt t o).next? = none) :
    (star greedy (one set)).run (placeAt t o) captures accept = accept (placeAt t o) captures :=
  iterate_one_end last _

/-- A repetition of a single code point, from one place to the next. -/
theorem run_star_one (next : (placeAt t o).next? = some (rune, placeAt t o')) (ahead : o < o')
    (inside : o' ≤ t.length) : (star greedy (one set)).run (placeAt t o) captures accept =
      if set.holds rune then
        prefer greedy ((star greedy (one set)).run (placeAt t o') captures accept)
          (accept (placeAt t o) captures)
      else accept (placeAt t o) captures := by
  have length : (placeAt t o).rest.length = (t.length - o - 1) + 1 := by
    rw [rest_placeAt, List.length_drop]
    omega
  have rest : (placeAt t o').rest.length = t.length - o' := List.length_drop
  have later : iterate (one set).run greedy (t.length - o - 1) (placeAt t o') captures accept =
      iterate (one set).run greedy (t.length - o') (placeAt t o') captures accept :=
    iterate_one_eq (by omega) (Nat.le_refl _)
  rw [run_star, length, iterate_succ, offset_placeAt, run_one_further next ahead, run_star, rest,
    later]
  split
  · rfl
  · exact prefer_none ..

/-- From between the marks, a repetition that takes in all that stands there leads behind them,
unless it stays there. -/
theorem run_sweep {contents : Text} {result : Option β} (ascii : mark < 0x80)
    (quiet : loud.Quiet contents) (takes_mark : set.holds mark.toNat = true)
    (takes_quiet : ∀ rune, loud.QuietRune rune → set.holds rune = true)
    (same : ∀ o, Between front.length contents.length o →
      accept (placeAt (enquote mark front contents back) o) captures = result)
    (between : Between front.length contents.length o) :
    (star greedy (one set)).run (placeAt (enquote mark front contents back) o) captures accept =
      prefer greedy ((star greedy (one set)).run (placeAt (enquote mark front contents back)
        (front.length + 1 + contents.length + 1)) captures accept) result := by
  have length := Text.length_enquote mark front contents back
  induction o using place_induction (t := enquote mark front contents back) with
  | step o ih =>
    rcases Nat.lt_or_ge o (front.length + 1 + contents.length) with ahead | last
    · obtain ⟨rune, o', more, inside, is_quiet, next⟩ :=
        next_between back ascii quiet between.1 ahead
      have between' : Between front.length contents.length o' :=
        ⟨Nat.lt_trans between.1 more, inside⟩
      rw [run_star_one next more (by omega), if_pos (takes_quiet rune is_quiet), same o between,
        ih o' more (by omega) between', prefer_prefer]
    · obtain rfl : o = front.length + 1 + contents.length := Nat.le_antisymm between.2 last
      rw [run_star_one (next_close ascii) (Nat.lt_succ_self _) (by omega), if_pos takes_mark,
        same _ between]

end Sweep

/-- Searches that agree with a literal reworded agree with themselves. -/
theorem Agree.left {x y : Option β} (agree : Agree good x y) : Agree good x x := ⟨rfl, agree.2⟩

/-- The place behind the marks. -/
theorem outside_behind : Outside w front back (front.length + 1 + w.old.length + 1) := by
  have length := length_original w front back
  exact ⟨by omega, fun between => absurd between.2 (by omega)⟩

section Sweep

variable {set : RuneSet} (takes_mark : set.holds w.mark.toNat = true)
  (takes_quiet : ∀ rune, loud.QuietRune rune → set.holds rune = true) (known : l ≠ .any)
  (holds : Holds w front back good l accept accept') (greedy : Bool)

include takes_mark takes_quiet known holds

/-- Outside the marks, a repetition that sweeps over the contents goes on in the same way. -/
theorem agree_sweep : AgreeOutside w front back good
    (fun place captures => (star greedy (one set)).run place captures accept)
    fun place captures => (star greedy (one set)).run place captures accept' := by
  intro o outside captures kept
  have length := length_original w front back
  have length' := length_reworded w front back
  induction o using place_induction (t := w.original front back) with
  | step o ih =>
    have stay := holds.outside o outside captures kept
    rcases next_outside outside with ⟨rune, o', ahead, where_, next, next'⟩ | ⟨next, next'⟩
    · have inside : o' ≤ (w.original front back).length := by
        rcases where_ with outside' | ⟨-, between⟩
        · exact outside'.1
        · have := between.2
          omega
      simp only [run_star_one next ahead inside, run_star_one next' ahead (length' ▸ inside)]
      split
      · refine Agree.prefer greedy ?_ stay
        rcases where_ with outside' | ⟨-, between⟩
        · exact ih o' ahead inside outside'
        -- The sweep enters the contents and leaves them behind in one go.
        · obtain ⟨result, agree, same⟩ := holds.steady known captures kept
          have behind := ih (front.length + 1 + w.old.length + 1)
            (by have := between.2; omega) (by omega) outside_behind
          rw [run_sweep w.mark_lt w.quiet_old takes_mark takes_quiet
              (fun o between => (same o between).1) between,
            run_sweep w.mark_lt w.quiet_new takes_mark takes_quiet
              (fun o between => (same o (w.length_new ▸ between)).2) (w.length_new.symm ▸ between),
            w.length_new]
          exact behind.prefer greedy agree
      · exact stay
    · simp only [run_star_one_end next, run_star_one_end next']
      exact stay

/-- Between the marks, a repetition that sweeps over the contents has the same result
everywhere. -/
theorem steady_sweep : SteadyBetween w front back good
    (fun place captures => (star greedy (one set)).run place captures accept)
    fun place captures => (star greedy (one set)).run place captures accept' := by
  intro captures kept
  obtain ⟨result, agree, same⟩ := holds.steady known captures kept
  have behind := agree_sweep takes_mark takes_quiet known holds greedy _ outside_behind captures
    kept
  refine ⟨_, (behind.prefer greedy agree).left, fun o between => ⟨?_, ?_⟩⟩
  · exact run_sweep w.mark_lt w.quiet_old takes_mark takes_quiet
      (fun o between => (same o between).1) between
  · rw [behind.1]
    have sweep : (star greedy (one set)).run (placeAt (w.reworded front back) o) captures accept' =
        prefer greedy ((star greedy (one set)).run (placeAt (w.reworded front back)
          (front.length + 1 + w.new.length + 1)) captures accept') result :=
      run_sweep w.mark_lt w.quiet_new takes_mark takes_quiet
        (fun o between => (same o (w.length_new ▸ between)).2) (w.length_new.symm ▸ between)
    rw [w.length_new] at sweep
    exact sweep

end Sweep

/-! ## A whole pattern -/

/-- A pattern that sweeps over a literal is a set with its mark and all quiet code points. -/
theorem exists_of_sweeps (sweeps : p.sweeps loud mark = true) : ∃ set, p = one set ∧
    set.holds mark.toNat = true ∧ ∀ rune, loud.QuietRune rune → set.holds rune = true := by
  cases p with
  | one set =>
    rw [Pattern.sweeps, Bool.and_eq_true, Bool.and_eq_true] at sweeps
    obtain ⟨⟨takes_mark, negated⟩, made⟩ := sweeps
    refine ⟨set, rfl, takes_mark, fun rune is_quiet => ?_⟩
    rw [RuneSet.holds, negated, Loud.holds_eq_false made is_quiet]
    rfl
  | empty | assert | seq | alt | star | group => cases sweeps

/-- It is enough to look at patterns at which there is no need to stop. -/
theorem Holds.of_level {found : Option Level}
    (is_level : (found.map fun m => if stops p then Level.dead else m) = some m)
    (dead : m = .dead → FailBetween w front back accept accept')
    (inner : ∀ m', found = some m' → AgreeOutside w front back good accept accept' ∧
      (m' = .steady → SteadyBetween w front back good accept accept')) :
    Holds w front back good m accept accept' := by
  obtain ⟨m', is_found, same⟩ := Option.map_eq_some_iff.1 is_level
  obtain ⟨outside, steady⟩ := inner m' is_found
  by_cases unsteady : m = .steady
  · refine ⟨outside, fun _ => steady ?_, dead⟩
    rw [unsteady] at same
    split at same
    · cases same
    · exact same
  · exact .of_unsteady unsteady outside dead

/-- What both sides of an alternative end in. -/
theorem SteadyBetween.or {first first' second second' : Accept β}
    (left : SteadyBetween w front back good first first')
    (right : SteadyBetween w front back good second second') :
    SteadyBetween w front back good
      (fun place captures => (first place captures).or (second place captures))
      fun place captures => (first' place captures).or (second' place captures) := by
  intro captures kept
  obtain ⟨result, agree, same⟩ := left captures kept
  obtain ⟨result', agree', same'⟩ := right captures kept
  refine ⟨_, agree.or agree', fun o between => ⟨?_, ?_⟩⟩
  · simp only [(same o between).1, (same' o between).1]
  · simp only [(same o between).2, (same' o between).2]

/-- Levels that join to steady ones have something to say. -/
theorem join_eq_steady (joined : l.join m = .steady) : l ≠ .any ∧ m ≠ .any := by
  refine ⟨?_, ?_⟩
  · rintro rfl
    cases joined
  · rintro rfl
    cases l <;> cases joined

/-- **The two runs of a pattern agree** if what follows does: what is known behind the pattern makes
known what its level says. -/
theorem holds_run (stopped : Stopped w.mark front w.old back stops)
    (stopped' : Stopped w.mark front w.new back stops)
    (is_level : p.level loud w.mark stops l = some m)
    (holds : Holds w front back good l accept accept') :
    Holds w front back good m (fun place captures => p.run place captures accept)
      fun place captures => p.run place captures accept' := by
  have fails {p : Pattern} {l m : Level} {accept accept' : Accept β}
      (is_level : p.level loud w.mark stops l = some m)
      (holds : Holds w front back good l accept accept') (dead : m = .dead) :
      FailBetween w front back (fun place captures => p.run place captures accept)
        fun place captures => p.run place captures accept' :=
    ⟨fails_run w.mark_lt w.quiet_old stopped (dead ▸ is_level) fun dead => (holds.dead dead).1,
      fails_run w.mark_lt w.quiet_new stopped' (dead ▸ is_level) fun dead => (holds.dead dead).2⟩
  -- The induction is on the pattern; what follows it is generalised, since a sequence puts its
  -- second part there.
  induction p generalizing l m accept accept' with
  | empty =>
    refine .of_level is_level (fails is_level holds) fun m' found => ?_
    obtain rfl := Option.some.inj found
    exact ⟨holds.outside, fun steady => holds.steady (by rw [steady]; exact nofun)⟩
  | one set =>
    refine .of_level is_level (fails is_level holds) fun m' found => ⟨agree_one holds ?_, ?_⟩
    · intro takes_mark known
      rw [if_pos takes_mark, if_pos known] at found
      cases found
    · rintro rfl
      split at found
      · split at found <;> cases found
      · split at found
        · cases found
        · exact absurd (Option.some.inj found) (weakened_ne_steady l)
  | assert assertion =>
    refine .of_level is_level (fails is_level holds) fun m' found =>
      ⟨agree_assert assertion holds, ?_⟩
    rintro rfl
    split at found
    · cases found
    · exact absurd (Option.some.inj found) (weakened_ne_steady l)
  | seq first second ih ih' =>
    refine .of_level is_level (fails is_level holds) fun m' found => ?_
    obtain ⟨between, behind, before⟩ := Option.bind_eq_some_iff.1 found
    -- The second part is what follows the first one.
    have both := ih before (ih' behind holds)
    exact ⟨both.outside, fun steady => both.steady (by rw [steady]; exact nofun)⟩
  | alt first second ih ih' =>
    refine .of_level is_level (fails is_level holds) fun m' found => ?_
    obtain ⟨left, is_left, more⟩ := Option.bind_eq_some_iff.1 found
    obtain ⟨right, is_right, joined⟩ := Option.map_eq_some_iff.1 more
    have first_holds := ih is_left holds
    have second_holds := ih' is_right holds
    simp only [run_alt]
    refine ⟨fun o outside captures kept => (first_holds.outside o outside captures kept).or
      (second_holds.outside o outside captures kept), fun steady => ?_⟩
    obtain ⟨known, known'⟩ := join_eq_steady (joined.trans steady)
    exact (first_holds.steady known).or (second_holds.steady known')
  | star greedy body ih =>
    refine .of_level is_level (fails is_level holds) fun m' found => ?_
    split at found
    -- A sweep passes over the contents whatever they are, as it takes the mark and all quiet runes.
    · rename_i sweeps
      obtain ⟨set, rfl, takes_mark, takes_quiet⟩ := exists_of_sweeps sweeps
      split at found
      · cases found
      · rename_i known
        exact ⟨agree_sweep takes_mark takes_quiet known holds greedy,
          fun _ => steady_sweep takes_mark takes_quiet known holds greedy⟩
    -- Any other repetition is known outside only: what its rounds make known is forgotten again.
    · obtain ⟨round, is_round, more⟩ := Option.bind_eq_some_iff.1 found
      split at more
      · rename_i enough
        obtain rfl := Option.some.inj more
        refine ⟨fun o outside captures kept => ?_, fun steady =>
          absurd steady (weakened_ne_steady l)⟩
        have dead (weak : l.weakened = .dead) :
            body.level loud w.mark stops l.weakened = some .dead :=
          enough.resolve_left (by rw [weak]; exact nofun) ▸ is_round
        simp only [run_star, rest_placeAt, List.length_drop, length_reworded]
        exact (holds.weaken.iterate (fun holds => (ih is_round holds).outside)
          (fun weak _ fails => fails_run w.mark_lt w.quiet_old stopped (dead weak) fun _ => fails)
          (fun weak _ fails => fails_run w.mark_lt w.quiet_new stopped' (dead weak) fun _ => fails)
          greedy _).outside o outside captures kept
      · cases more
  | group index body ih =>
    refine .of_level is_level (fails is_level holds) fun m' found => ?_
    obtain ⟨inner, is_inner, weak⟩ := Option.map_eq_some_iff.1 found
    refine ⟨agree_group index (fun holds => (ih is_inner holds).outside) holds, ?_⟩
    rintro rfl
    exact absurd weak (weakened_ne_steady inner)

end Sides

/-! ## Searching -/

/-- A match **passes by** the marks: it begins and ends outside, and so do its groups. -/
structure Match.PassesBy (w : Rewording loud) (front back : Text) (m : Match) : Prop where
  /-- It begins outside. -/
  start : Outside w front back m.start
  /-- It ends outside. -/
  stop : Outside w front back m.stop
  /-- Its groups begin and end outside. -/
  kept : Kept w front back m.captures

/-- A pattern is **inert** if it fails between the marks of either text. -/
structure Inert (w : Rewording loud) (front back : Text) (p : Pattern) : Prop where
  /-- There are words that stand in neither of the contents. -/
  exists_level : ∃ stops, Stopped w.mark front w.old back stops ∧
    Stopped w.mark front w.new back stops ∧ p.level loud w.mark stops .any = some .dead

section Search

variable {w : Rewording loud} {o : Nat} (inert : Inert w front back p)

include inert

/-- No match of an inert pattern begins inside of the literal. -/
theorem Inert.matchAt_none (between : Between front.length w.old.length o) :
    p.matchAt? (placeAt (w.original front back) o) = none ∧
      p.matchAt? (placeAt (w.reworded front back) o) = none := by
  obtain ⟨stops, stopped, stopped', dead⟩ := inert.exists_level
  exact ⟨fails_run w.mark_lt w.quiet_old stopped dead nofun o between [],
    fails_run w.mark_lt w.quiet_new stopped' dead nofun o (w.length_new.symm ▸ between) []⟩

/-- Outside the marks the matches are the same. -/
theorem Inert.agree_matchAt (outside : Outside w front back o) :
    Agree (Match.PassesBy w front back) (p.matchAt? (placeAt (w.original front back) o))
      (p.matchAt? (placeAt (w.reworded front back) o)) := by
  obtain ⟨stops, stopped, stopped', dead⟩ := inert.exists_level
  let accept : Accept Match := fun place captures => some ⟨o, place.offset, captures⟩
  have accepts : Holds w front back (Match.PassesBy w front back) .any accept accept := by
    refine .of_unsteady nofun (fun o' outside' captures kept => ⟨rfl, ?_⟩) nofun
    rintro _ ⟨⟩
    exact ⟨outside, outside', kept⟩
  exact (holds_run stopped stopped' dead accepts).outside o outside [] (fun _ => nofun)

omit inert in
/-- A search that fails between the marks goes on behind them. -/
theorem findFrom_between {contents : Text} (ascii : mark < 0x80) (quiet : loud.Quiet contents)
    (fails : ∀ o, Between front.length contents.length o →
      p.matchAt? (placeAt (enquote mark front contents back) o) = none)
    (between : Between front.length contents.length o) :
    p.findFrom? (placeAt (enquote mark front contents back) o) =
      p.findFrom? (placeAt (enquote mark front contents back)
        (front.length + 1 + contents.length + 1)) := by
  have length := Text.length_enquote mark front contents back
  induction o using place_induction (t := enquote mark front contents back) with
  | step o ih =>
    rw [findFrom?_placeAt, fails o between]
    rcases Nat.lt_or_ge o (front.length + 1 + contents.length) with ahead | last
    · obtain ⟨rune, o', more, inside, -, next⟩ :=
        next_between back ascii quiet between.1 ahead
      simp only [next]
      exact ih o' more (by omega) ⟨Nat.lt_trans between.1 more, inside⟩
    · obtain rfl : o = front.length + 1 + contents.length := Nat.le_antisymm between.2 last
      simp only [next_close ascii]

/-- Outside the marks, both searches find the same match. -/
theorem Inert.agree_findFrom (outside : Outside w front back o) :
    Agree (Match.PassesBy w front back) (p.findFrom? (placeAt (w.original front back) o))
      (p.findFrom? (placeAt (w.reworded front back) o)) := by
  have length := length_original w front back
  induction o using place_induction (t := w.original front back) with
  | step o ih =>
    obtain ⟨same, passes⟩ := inert.agree_matchAt outside
    rw [findFrom?_placeAt, findFrom?_placeAt, ← same]
    cases here : p.matchAt? (placeAt (w.original front back) o) with
    | some m => exact ⟨rfl, by rintro _ ⟨⟩; exact passes m here⟩
    | none =>
      rcases next_outside outside with ⟨rune, o', ahead, where_, next, next'⟩ | ⟨next, next'⟩
      · simp only [next, next']
        rcases where_ with outside' | ⟨-, between⟩
        · exact ih o' ahead outside'.1 outside'
        · have behind := ih (front.length + 1 + w.old.length + 1)
            (by have := between.2; omega) (by omega) outside_behind
          rw [findFrom_between w.mark_lt w.quiet_old
              (fun o between => (inert.matchAt_none between).1) between,
            findFrom_between w.mark_lt w.quiet_new
              (fun o between => (inert.matchAt_none (w.length_new ▸ between)).2)
              (w.length_new.symm ▸ between), w.length_new]
          exact behind
      · simp only [next, next']
        exact .none

omit inert in
/-- The beginning of the text is outside the marks. -/
theorem outside_zero : Outside w front back 0 :=
  ⟨Nat.zero_le _, fun between => absurd between.1 (Nat.not_lt_zero _)⟩

/-- **The first match is the same in both texts**, and passes by the marks. -/
theorem Inert.agree_find : Agree (Match.PassesBy w front back) (p.find? (w.original front back))
    (p.find? (w.reworded front back)) := inert.agree_findFrom outside_zero

/-- **Whether there is a match** does not depend on the contents. -/
theorem Inert.matchesIn_eq :
    p.matchesIn (w.reworded front back) = p.matchesIn (w.original front back) := by
  rw [matchesIn_eq_isSome_find?, matchesIn_eq_isSome_find?, inert.agree_find.1]

/-- **All matches are the same in both texts**, and pass by the marks. -/
theorem Inert.findAll_eq (nonempty : 1 ≤ p.least) :
    p.findAll (w.reworded front back) = p.findAll (w.original front back) ∧
      ∀ m ∈ p.findAll (w.original front back), m.PassesBy w front back := by
  -- The search for the next match begins behind the last one, and so outside of the marks again.
  have searched (bound : Nat) {o : Nat} (outside : Outside w front back o) (last : Option Nat) :
      findAll.go p bound (placeAt (w.reworded front back) o) last =
          findAll.go p bound (placeAt (w.original front back) o) last ∧
        ∀ m ∈ findAll.go p bound (placeAt (w.original front back) o) last,
          m.PassesBy w front back := by
    induction bound generalizing o last with
    | zero => exact ⟨rfl, List.forall_mem_nil _⟩
    | succ bound ih =>
      obtain ⟨same, passes⟩ := inert.agree_findFrom outside
      rw [findAll.go, findAll.go, ← same]
      cases found : p.findFrom? (placeAt (w.original front back) o) with
      | none => exact ⟨rfl, List.forall_mem_nil _⟩
      | some m =>
        have passes := passes m found
        obtain ⟨read, a, b, reads, taken, start, stop⟩ := matchBehind_of_findFrom found
        have first : o ≤ a.offset := reads.le
        have later := taken.least_le
        have ahead : o < m.stop := by omega
        have skip (t : Text) (length : m.stop ≤ t.length) :
            (placeAt t o).skip (m.stop - o) = placeAt t m.stop := by
          rw [skip_placeAt (by omega), Nat.add_sub_cancel' (Nat.le_of_lt ahead)]
        have apart : (m.stop == o) = false := beq_eq_false_iff_ne.2 (Nat.ne_of_gt ahead)
        have inside := passes.stop.1
        simp only [offset_placeAt, apart, Bool.false_eq_true, if_false, skip _ inside,
          skip _ (length_reworded w front back ▸ inside)]
        obtain ⟨same, later⟩ := ih passes.stop (some m.stop)
        exact ⟨by rw [same], List.forall_mem_cons.2 ⟨passes, later⟩⟩
  have length := length_reworded w front back
  rw [findAll, findAll, length]
  exact searched _ outside_zero none

end Search

end FlowTrace.Pattern
