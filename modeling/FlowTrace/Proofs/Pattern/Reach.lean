import FlowTrace.Proofs.Pattern.Extent

/-! # The two searches agree

There are two ways to ask whether a pattern matches in a text: the search for the first match tries
the ways to match one after the other, and `Pattern.matchesIn` follows all of them at once. Both
find out whether there is a way to match at all (`isSome_find?_iff`, `matchesIn_iff`), and so they
agree on every pattern and text (`matchesIn_eq_isSome_find?`).

Places of one text are told apart by their offsets (`placeAt`). Sets of places are compared as
lists in order of the offsets, which holds of what a pattern reaches because a step goes to the
next code point, and never past one (`exists_offset_of_next`). -/

namespace FlowTrace.Pattern

variable {t : Text} {o : Nat} {p : Pattern} {a b : Place} {new : Captures}

/-! ## Places of a text -/

/-- The place of a text behind its first `offset` bytes. -/
def placeAt (t : Text) (offset : Nat) : Place := ⟨offset, (t.take offset).getLast?, t.drop offset⟩

/-- A place has the offset that it is made of. -/
@[simp] theorem offset_placeAt (t : Text) (o : Nat) : (placeAt t o).offset = o := rfl

/-- What stands behind a place is the text from its offset on. -/
@[simp] theorem rest_placeAt (t : Text) (o : Nat) : (placeAt t o).rest = t.drop o := rfl

/-- The place behind a byte. -/
theorem placeAt_succ {c : UInt8} {rest : Text} (here : t.drop o = c :: rest) :
    placeAt t (o + 1) = ⟨o + 1, some c, rest⟩ := by
  have inside : o < t.length := by
    rw [← Nat.not_le, ← List.drop_eq_nil_iff, here]
    exact List.cons_ne_nil _ _
  rw [List.drop_eq_getElem_cons inside] at here
  obtain ⟨rfl, rfl⟩ := List.cons.inj here
  rw [placeAt, List.take_add_one, List.getElem?_eq_getElem inside, List.getLast?_append]
  rfl

/-- Skipping bytes leads to the place that is as many further. -/
theorem skip_placeAt {n : Nat} (inside : o + n ≤ t.length) :
    (placeAt t o).skip n = placeAt t (o + n) := by
  induction n generalizing o with
  | zero => rfl
  | succ n ih =>
    have here : o < t.length := Nat.lt_of_lt_of_le (Nat.lt_add_of_pos_right n.succ_pos) inside
    have split := List.drop_eq_getElem_cons here
    have step : (placeAt t o).skip (n + 1) = (placeAt t (o + 1)).skip n := by
      rw [placeAt_succ split]
      show Place.skip ⟨o, _, t.drop o⟩ (n + 1) = _
      rw [split]
      rfl
    rw [step, ih (by omega), Nat.add_right_comm, Nat.add_assoc]

/-- A code point ends inside the text. -/
theorem more_le (c : UInt8) (t : Text) : (Text.decodeHead c t).2 ≤ t.length :=
  Nat.le_trans (Text.decodeHead_le c t) (List.takeWhile_prefix _).length_le

/-- The code point at a place, and the next place. -/
theorem next?_placeAt {c : UInt8} {rest : Text} (here : t.drop o = c :: rest) :
    (placeAt t o).next? = some ((Text.decodeHead c rest).1,
      placeAt t (o + 1 + (Text.decodeHead c rest).2)) := by
  have size : t.length - o = rest.length + 1 := by
    rw [← List.length_drop, here, List.length_cons]
  have inside : o + 1 + (Text.decodeHead c rest).2 ≤ t.length := by
    have few := more_le c rest
    omega
  rw [← skip_placeAt inside, placeAt_succ here]
  show Place.next? ⟨o, _, t.drop o⟩ = _
  rw [here]
  rfl

/-- There is no next place at the end of a text. -/
theorem next?_placeAt_end (here : t.drop o = []) : (placeAt t o).next? = none := by
  show Place.next? ⟨o, _, t.drop o⟩ = _
  rw [here]
  rfl

/-- The next place of a text is further on, and a place of the text. -/
theorem exists_offset_of_next {rune : Rune} (next : (placeAt t o).next? = some (rune, b)) :
    ∃ o', o < o' ∧ o' ≤ t.length ∧ b = placeAt t o' := by
  cases here : t.drop o with
  | nil => rw [next?_placeAt_end here] at next; cases next
  | cons c rest =>
    rw [next?_placeAt here] at next
    obtain ⟨-, rfl⟩ := Prod.mk.inj (Option.some.inj next)
    have size : t.length - o = rest.length + 1 := by
      rw [← List.length_drop, here, List.length_cons]
    have few := more_le c rest
    exact ⟨_, by omega, by omega, rfl⟩

/-- A way to match that begins at a place of a text **ends at one**. -/
theorem Takes.exists_placeAt (taken : p.Takes (placeAt t o) b new) (inside : o ≤ t.length) :
    ∃ o', o ≤ o' ∧ o' ≤ t.length ∧ b = placeAt t o' := by
  generalize is_place : placeAt t o = a at taken
  induction taken generalizing o with
  | empty | assert | starNone => exact ⟨o, Nat.le_refl _, inside, is_place.symm⟩
  | one next _ =>
    rw [← is_place] at next
    obtain ⟨o', less, inside', same⟩ := exists_offset_of_next next
    exact ⟨o', Nat.le_of_lt less, inside', same⟩
  | seq _ _ ih₁ ih₂ | starMore _ _ ih₁ ih₂ =>
    obtain ⟨o₁, le₁, inside₁, same₁⟩ := ih₁ inside is_place
    obtain ⟨o₂, le₂, inside₂, same₂⟩ := ih₂ inside₁ same₁.symm
    exact ⟨o₂, Nat.le_trans le₁ le₂, inside₂, same₂⟩
  | altLeft _ ih | altRight _ ih | group _ ih => exact ih inside is_place

/-! ## Where code points begin -/

/-- The places from one on where a code point begins. -/
def placesFrom (t : Text) (o : Nat) : List Place :=
  Place.all.go (t.drop o) o (t.take o).getLast? 0

/-- A search that goes through a text byte by byte passes over what belongs to the code point
before. -/
theorem go_skip {α : Type} (go : Text → Nat → Option UInt8 → Nat → α)
    (passes : ∀ c t o last skip, go (c :: t) o last (skip + 1) = go t (o + 1) (some c) skip)
    (skip : Nat) (inside : o + skip ≤ t.length) :
    go (t.drop o) o (t.take o).getLast? skip =
      go (t.drop (o + skip)) (o + skip) (t.take (o + skip)).getLast? 0 := by
  induction skip generalizing o with
  | zero => rfl
  | succ skip ih =>
    have here : o < t.length := Nat.lt_of_lt_of_le (Nat.lt_add_of_pos_right skip.succ_pos) inside
    have split := List.drop_eq_getElem_cons here
    have last : (t.take (o + 1)).getLast? = some t[o] :=
      congrArg Place.before (placeAt_succ split)
    have step := ih (o := o + 1) (by omega)
    rw [Nat.add_right_comm, Nat.add_assoc, last] at step
    rw [split, passes, step]

/-- So behind the first byte of a code point it goes on with the next code point. -/
theorem go_behind {α : Type} (go : Text → Nat → Option UInt8 → Nat → α)
    (passes : ∀ c t o last skip, go (c :: t) o last (skip + 1) = go t (o + 1) (some c) skip)
    {c : UInt8} {rest : Text} (here : t.drop o = c :: rest) :
    let next := placeAt t (o + 1 + (Text.decodeHead c rest).2)
    go rest (o + 1) (some c) (Text.decodeHead c rest).2 = go next.rest next.offset next.before 0 := by
  have size : t.length - o = rest.length + 1 := by
    rw [← List.length_drop, here, List.length_cons]
  have few := more_le c rest
  have later := go_skip (t := t) (o := o + 1) go passes (Text.decodeHead c rest).2 (by omega)
  have step := placeAt_succ here
  rw [placeAt] at step
  obtain ⟨-, last, behind⟩ := Place.mk.inj step
  rwa [last, behind] at later

/-- The first of the places, and those from the next one on. -/
theorem placesFrom_eq (t : Text) (o : Nat) : placesFrom t o = placeAt t o ::
    match (placeAt t o).next? with
    | some (_, next) => placesFrom t next.offset
    | none => [] := by
  cases here : t.drop o with
  | nil =>
    rw [next?_placeAt_end here, placesFrom, here]
    show [_] = [placeAt t o]
    rw [placeAt, here]
  | cons c rest =>
    rw [next?_placeAt here, placesFrom, here]
    show ⟨o, _, c :: rest⟩ :: Place.all.go rest (o + 1) (some c) (Text.decodeHead c rest).2 =
      placeAt t o :: placesFrom t (o + 1 + (Text.decodeHead c rest).2)
    rw [go_behind Place.all.go (fun _ _ _ _ _ => rfl) here]
    have place : placeAt t o = ⟨o, (t.take o).getLast?, c :: rest⟩ := by rw [placeAt, here]
    rw [place]
    rfl

/-- What holds of a place and the next ones in turn, by what is left to read. -/
theorem place_induction {motive : Nat → Prop}
    (step : ∀ o, (∀ o', o < o' → o' ≤ t.length → motive o') → motive o) (o : Nat) : motive o := by
  induction left : t.length - o using Nat.strongRecOn generalizing o with
  | ind n ih => exact step o fun o' less inside => ih _ (by omega) o' rfl

/-- The places from one on are places of the text, and none of them stands before it. -/
theorem exists_of_mem_placesFrom (inside : o ≤ t.length) (member : a ∈ placesFrom t o) :
    ∃ o', o ≤ o' ∧ o' ≤ t.length ∧ a = placeAt t o' := by
  induction o using place_induction (t := t) with
  | step o ih =>
    rw [placesFrom_eq] at member
    rcases List.mem_cons.1 member with rfl | member
    · exact ⟨o, Nat.le_refl _, inside, rfl⟩
    · cases next : (placeAt t o).next? with
      | none => rw [next] at member; cases member
      | some found =>
        rw [next] at member
        obtain ⟨o', less, inside', same⟩ := exists_offset_of_next next
        simp only [same, offset_placeAt] at member
        obtain ⟨o'', le, rest⟩ := ih o' less inside' inside' member
        exact ⟨o'', Nat.le_trans (Nat.le_of_lt less) le, rest⟩

/-- A set of places as a list: places of the text where a code point begins, in order. -/
structure Ordered (t : Text) (places : List Place) : Prop where
  /-- A code point begins there. -/
  begins : ∀ a ∈ places, a ∈ Place.all t
  /-- The offsets increase. -/
  sorted : places.Pairwise fun a b => a.offset < b.offset

/-- The places from an offset on stand in the order of their offsets. -/
theorem pairwise_placesFrom (inside : o ≤ t.length) :
    (placesFrom t o).Pairwise fun a b => a.offset < b.offset := by
  induction o using place_induction (t := t) with
  | step o ih =>
    rw [placesFrom_eq]
    cases next : (placeAt t o).next? with
    | none => exact List.pairwise_singleton ..
    | some found =>
      obtain ⟨o', less, inside', same⟩ := exists_offset_of_next next
      simp only [same, offset_placeAt]
      refine List.pairwise_cons.2 ⟨fun a member => ?_, ih o' less inside' inside'⟩
      obtain ⟨o'', le, -, rfl⟩ := exists_of_mem_placesFrom inside' member
      exact Nat.lt_of_lt_of_le less le

/-- Behind one of the places comes the next one, and **none stands in between**. -/
theorem next_of_mem_placesFrom {rune : Rune} (inside : o ≤ t.length) (member : a ∈ placesFrom t o)
    (next : a.next? = some (rune, b)) : b ∈ placesFrom t o ∧
      ∀ other ∈ placesFrom t o, a.offset < other.offset → b.offset ≤ other.offset := by
  induction o using place_induction (t := t) with
  | step o ih =>
    rw [placesFrom_eq] at member ⊢
    rcases List.mem_cons.1 member with rfl | member
    · obtain ⟨o', less, inside', rfl⟩ := exists_offset_of_next next
      simp only [next, offset_placeAt]
      refine ⟨List.mem_cons_of_mem _ ?_, fun other member behind => ?_⟩
      · rw [placesFrom_eq]
        exact List.mem_cons_self
      · rcases List.mem_cons.1 member with rfl | member
        · exact absurd behind (Nat.lt_irrefl _)
        · obtain ⟨o'', le, -, rfl⟩ := exists_of_mem_placesFrom inside' member
          exact le
    · cases next' : (placeAt t o).next? with
      | none => rw [next'] at member; cases member
      | some found =>
        obtain ⟨o', less, inside', same⟩ := exists_offset_of_next next'
        simp only [next', same, offset_placeAt] at member ⊢
        obtain ⟨among, least⟩ := ih o' less inside' inside' member
        refine ⟨List.mem_cons_of_mem _ among, fun other member' behind => ?_⟩
        rcases List.mem_cons.1 member' with rfl | member'
        · obtain ⟨o'', le, -, rfl⟩ := exists_of_mem_placesFrom inside' member
          rw [offset_placeAt, offset_placeAt] at behind
          omega
        · exact least other member' behind

namespace Ordered

variable {xs ys : List Place}

/-- The members of an ordered set are places of the text. -/
theorem exists_placeAt (ordered : Ordered t xs) (member : a ∈ xs) :
    ∃ o, o ≤ t.length ∧ a = placeAt t o := by
  obtain ⟨o, -, inside, same⟩ :=
    exists_of_mem_placesFrom (Nat.zero_le _) (ordered.begins a member)
  exact ⟨o, inside, same⟩

/-- Places of one text are told apart by their offsets. -/
theorem eq_of_offset (ordered : Ordered t xs) (ordered' : Ordered t ys) (member : a ∈ xs)
    (member' : b ∈ ys) (same : a.offset = b.offset) : a = b := by
  obtain ⟨o, -, rfl⟩ := ordered.exists_placeAt member
  obtain ⟨o', -, rfl⟩ := ordered'.exists_placeAt member'
  exact congrArg (placeAt t) same

/-- An ordered set stays so without its first place. -/
theorem tail (ordered : Ordered t (a :: xs)) : Ordered t xs :=
  ⟨fun x member => ordered.begins x (List.mem_cons_of_mem _ member), ordered.sorted.of_cons⟩

/-- A part of a set, in the same order. -/
theorem sublist (ordered : Ordered t ys) (part : xs.Sublist ys) : Ordered t xs :=
  ⟨fun x member => ordered.begins x (part.subset member), ordered.sorted.sublist part⟩

end Ordered

/-- All places of a text are an ordered set. -/
theorem ordered_all (t : Text) : Ordered t (Place.all t) :=
  ⟨fun _ member => member, pairwise_placesFrom (Nat.zero_le _)⟩

/-! ## Sets of places -/

section Sets

variable {xs ys : List Place}

/-- The members of a union are members of one of the sets. -/
theorem mem_of_mem_union (member : a ∈ Place.union xs ys) : a ∈ xs ∨ a ∈ ys := by
  fun_induction Place.union xs ys with
  | case1 ys => exact Or.inr member
  | case2 xs => exact Or.inl member
  | case3 x xs y ys less ih =>
    rcases List.mem_cons.1 member with rfl | member
    · exact Or.inl List.mem_cons_self
    · exact (ih member).imp_left (List.mem_cons_of_mem _)
  | case4 x xs y ys _ less ih =>
    rcases List.mem_cons.1 member with rfl | member
    · exact Or.inr List.mem_cons_self
    · exact (ih member).imp_right (List.mem_cons_of_mem _)
  | case5 x xs y ys _ _ ih =>
    rcases List.mem_cons.1 member with rfl | member
    · exact Or.inl List.mem_cons_self
    · exact (ih member).imp (List.mem_cons_of_mem _) (List.mem_cons_of_mem _)

/-- The members of a union are those of the two sets. -/
theorem mem_union (first : Ordered t xs) (second : Ordered t ys) :
    a ∈ Place.union xs ys ↔ a ∈ xs ∨ a ∈ ys := by
  refine ⟨mem_of_mem_union, fun member => ?_⟩
  fun_induction Place.union xs ys with
  | case1 ys => exact member.resolve_left (by simp)
  | case2 xs => exact member.resolve_right (by simp)
  | case3 x xs y ys less ih =>
    rw [List.mem_cons, or_assoc] at member
    exact List.mem_cons.2 (member.imp_right (ih first.tail second))
  | case4 x xs y ys _ less ih =>
    rw [List.mem_cons (a := a) (b := y), or_left_comm] at member
    exact List.mem_cons.2 (member.imp_right (ih first second.tail))
  | case5 x xs y ys not_less not_less' ih =>
    have same : x = y := first.eq_of_offset second List.mem_cons_self List.mem_cons_self
      (Nat.le_antisymm (Nat.not_lt.1 not_less') (Nat.not_lt.1 not_less))
    rw [List.mem_cons, List.mem_cons, ← same] at member
    refine List.mem_cons.2 ?_
    rcases member with (here | inside) | (here | inside)
    · exact Or.inl here
    · exact Or.inr (ih first.tail second.tail (Or.inl inside))
    · exact Or.inl here
    · exact Or.inr (ih first.tail second.tail (Or.inr inside))

/-- The union of ordered sets is ordered. -/
theorem Ordered.union (first : Ordered t xs) (second : Ordered t ys) :
    Ordered t (Place.union xs ys) := by
  refine ⟨fun a member => ?_, ?_⟩
  · rcases mem_of_mem_union member with member | member
    · exact first.begins a member
    · exact second.begins a member
  · fun_induction Place.union xs ys with
    | case1 ys => exact second.sorted
    | case2 xs => exact first.sorted
    | case3 x xs y ys less ih =>
      refine List.pairwise_cons.2 ⟨fun a member => ?_, ih first.tail second⟩
      rcases mem_of_mem_union member with member | member
      · exact (List.pairwise_cons.1 first.sorted).1 a member
      · rcases List.mem_cons.1 member with rfl | member
        · exact less
        · exact Nat.lt_trans less ((List.pairwise_cons.1 second.sorted).1 a member)
    | case4 x xs y ys _ less ih =>
      refine List.pairwise_cons.2 ⟨fun a member => ?_, ih first second.tail⟩
      rcases mem_of_mem_union member with member | member
      · rcases List.mem_cons.1 member with rfl | member
        · exact less
        · exact Nat.lt_trans less ((List.pairwise_cons.1 first.sorted).1 a member)
      · exact (List.pairwise_cons.1 second.sorted).1 a member
    | case5 x xs y ys not_less not_less' ih =>
      refine List.pairwise_cons.2 ⟨fun a member => ?_, ih first.tail second.tail⟩
      rcases mem_of_mem_union member with member | member
      · exact (List.pairwise_cons.1 first.sorted).1 a member
      · exact Nat.lt_of_le_of_lt (Nat.not_lt.1 not_less')
          ((List.pairwise_cons.1 second.sorted).1 a member)

/-- Taking places out of a set leaves the others in their order. -/
theorem without_sublist (xs ys : List Place) : (Place.without xs ys).Sublist xs := by
  fun_induction Place.without xs ys with
  | case1 => exact List.Sublist.refl _
  | case2 => exact List.Sublist.refl _
  | case3 x xs y ys less ih => exact ih.cons_cons x
  | case4 x xs y ys _ less ih => exact ih
  | case5 x xs y ys _ _ ih => exact ih.cons x

/-- A place that is in one set and not in the other stays. -/
theorem mem_without (first : Ordered t xs) (second : Ordered t ys) (member : a ∈ xs)
    (absent : a ∉ ys) : a ∈ Place.without xs ys := by
  fun_induction Place.without xs ys with
  | case1 => exact member
  | case2 => exact member
  | case3 x xs y ys less ih =>
    rcases List.mem_cons.1 member with rfl | member
    · exact List.mem_cons_self
    · exact List.mem_cons_of_mem _ (ih first.tail second member absent)
  | case4 x xs y ys _ less ih =>
    exact ih first second.tail member (mt (List.mem_cons_of_mem _) absent)
  | case5 x xs y ys not_less not_less' ih =>
    have same : x = y := first.eq_of_offset second List.mem_cons_self List.mem_cons_self
      (Nat.le_antisymm (Nat.not_lt.1 not_less') (Nat.not_lt.1 not_less))
    rcases List.mem_cons.1 member with rfl | member
    · exact absurd (same ▸ List.mem_cons_self) absent
    · exact ih first.tail second.tail member (mt (List.mem_cons_of_mem _) absent)

end Sets

/-! ## Rounds of a repetition -/

/-- A way to match that reads nothing stays where it is. -/
theorem Takes.eq_of_offset (taken : p.Takes a b new) (same : a.offset = b.offset) : a = b := by
  induction taken with
  | empty | assert | starNone => rfl
  | one next _ =>
    obtain ⟨c, t, -, reads⟩ := Place.reads_next next
    rw [reads.offset, List.length_cons] at same
    omega
  | seq left right ih₁ ih₂ | starMore left right ih₁ ih₂ =>
    have le₁ := left.le
    have le₂ := right.le
    rw [ih₁ (by omega), ih₂ (by omega)]
  | altLeft _ ih | altRight _ ih | group _ ih => exact ih same

/-- A repetition goes from place to place, in a number of **rounds** that each read something. -/
inductive Rounds (body : Pattern) : Nat → Place → Place → Prop where
  | stay (a : Place) : Rounds body 0 a a
  | more {n : Nat} {a b c : Place} {new : Captures} (once : body.Takes a b new)
      (further : a.offset < b.offset) (again : Rounds body n b c) : Rounds body (n + 1) a c

/-- What a repetition takes is a number of rounds, each of which goes further. -/
theorem exists_rounds {greedy : Bool} {body : Pattern}
    (taken : (star greedy body).Takes a b new) :
    ∃ n, Rounds body n a b ∧ a.offset + n ≤ b.offset := by
  generalize is_star : star greedy body = p at taken
  induction taken with
  | starNone => exact ⟨0, .stay _, Nat.le_refl _⟩
  | starMore once again _ ih =>
    obtain ⟨rfl, rfl⟩ := Pattern.star.inj is_star
    obtain ⟨n, rounds, room⟩ := ih rfl
    rcases Nat.lt_or_ge _ _ with further | stays
    · exact ⟨n + 1, .more once further rounds, by omega⟩
    · -- A round that reads nothing is left out.
      rw [once.eq_of_offset (Nat.le_antisymm once.le stays)]
      exact ⟨n, rounds, room⟩
  | empty | one | assert | seq | altLeft | altRight | group => cases is_star

/-- A repetition can take any number of rounds. -/
theorem Rounds.exists_takes {greedy : Bool} {body : Pattern} {n : Nat}
    (rounds : Rounds body n a b) : ∃ new, (star greedy body).Takes a b new := by
  induction rounds with
  | stay a => exact ⟨_, .starNone greedy body a⟩
  | more once _ _ ih =>
    obtain ⟨later, again⟩ := ih
    exact ⟨_, .starMore once again⟩

/-- What it means that a step on sets of places is the step of a pattern. -/
def IsStep (t : Text) (body : Pattern) (step : List Place → List Place) : Prop :=
  ∀ xs, Ordered t xs → Ordered t (step xs) ∧
    ∀ b, b ∈ step xs ↔ ∃ a ∈ xs, ∃ new, body.Takes a b new

section Closure

variable {body : Pattern} {step : List Place → List Place} {seen fresh : List Place}

/-- The closure of an ordered set is ordered. -/
theorem ordered_closure (is_step : IsStep t body step) (bound : Nat) (first : Ordered t seen)
    (second : Ordered t fresh) : Ordered t (Place.closure step bound seen fresh) := by
  induction bound generalizing seen fresh with
  | zero => exact first
  | succ bound ih =>
    have found := (is_step fresh second).1.sublist (without_sublist (step fresh) seen)
    rw [Place.closure]
    split
    · exact first
    · exact ih (first.union found) found

/-- The closure of a set holds it. -/
theorem subset_closure (is_step : IsStep t body step) (bound : Nat) (first : Ordered t seen)
    (second : Ordered t fresh) : seen ⊆ Place.closure step bound seen fresh := by
  induction bound generalizing seen fresh with
  | zero => exact List.Subset.refl _
  | succ bound ih =>
    have found := (is_step fresh second).1.sublist (without_sublist (step fresh) seen)
    rw [Place.closure]
    split
    · exact List.Subset.refl _
    · exact fun a member => ih (first.union found) found ((mem_union first found).2 (Or.inl member))

/-- Whatever is in the closure is reached in rounds. -/
theorem exists_rounds_of_mem_closure (is_step : IsStep t body step) (bound : Nat)
    (first : Ordered t seen) (second : Ordered t fresh)
    (part : fresh ⊆ seen) (member : b ∈ Place.closure step bound seen fresh) :
    ∃ a ∈ seen, ∃ new, (star true body).Takes a b new := by
  induction bound generalizing seen fresh with
  | zero => exact ⟨b, member, _, .starNone true body b⟩
  | succ bound ih =>
    have found := (is_step fresh second).1.sublist (without_sublist (step fresh) seen)
    rw [Place.closure] at member
    split at member
    · exact ⟨b, member, _, .starNone true body b⟩
    · obtain ⟨a, among, later, again⟩ := ih (first.union found) found
        (fun _ new => (mem_union first found).2 (Or.inr new)) member
      rcases (mem_union first found).1 among with old | new
      · exact ⟨a, old, later, again⟩
      · -- A place just found is one round away from a place seen before.
        obtain ⟨a', among', new', once⟩ :=
          ((is_step fresh second).2 a).1 ((without_sublist _ _).subset new)
        exact ⟨a', part among', _, .starMore once again⟩

/-- **The closure holds what is reached in as many rounds as it is given**, if the step from places
seen before leads to no new ones. -/
theorem mem_closure_of_rounds (is_step : IsStep t body step) {bound n : Nat}
    (first : Ordered t seen) (second : Ordered t fresh)
    (done : ∀ x ∈ seen, x ∉ fresh → ∀ y new, body.Takes x y new → y ∈ seen)
    (enough : n ≤ bound) (member : a ∈ seen) (rounds : Rounds body n a b) :
    b ∈ Place.closure step bound seen fresh := by
  induction bound generalizing seen fresh n a b with
  | zero =>
    obtain rfl := Nat.le_zero.1 enough
    cases rounds
    exact member
  | succ bound ih =>
    have found := (is_step fresh second).1.sublist (without_sublist (step fresh) seen)
    have stepped {x y : Place} {new : Captures} (among : x ∈ fresh) (once : body.Takes x y new)
        (absent : y ∉ seen) : y ∈ Place.without (step fresh) seen :=
      mem_without (is_step fresh second).1 first
        (((is_step fresh second).2 y).2 ⟨x, among, new, once⟩) absent
    -- As long as the rounds lead to places seen before, they are passed over.
    induction rounds with
    | stay => exact subset_closure is_step _ first second member
    | @more n a b c new once further again ih' =>
      by_cases old : b ∈ seen
      · exact ih' (Nat.le_of_succ_le enough) old
      · have among : a ∈ fresh := by
          by_contra absent
          exact old (done a member absent b new once)
        have here := stepped among once old
        rw [Place.closure]
        split
        · rename_i nothing
          rw [nothing] at here
          cases here
        · refine ih (first.union found) found ?_ (Nat.le_of_succ_le_succ enough)
            ((mem_union first found).2 (Or.inr here)) again
          intro x member' absent y new' once'
          rw [mem_union first found] at member' ⊢
          have old' := member'.resolve_right absent
          by_cases behind : y ∈ seen
          · exact Or.inl behind
          · refine Or.inr (stepped ?_ once' behind)
            by_contra absent'
            exact behind (done x old' absent' y new' once')

end Closure

/-! ## What is reached -/

/-- Nothing is reached from no place. -/
theorem reach_nil (p : Pattern) : p.reach [] = [] := by
  cases p <;> rfl

/-- One code point leads to the next places where it is in the set. -/
theorem reach_one (set : RuneSet) (xs : List Place) : (one set).reach xs =
    xs.filterMap fun place =>
      match place.next? with
      | some (rune, next) => if set.holds rune then some next else none
      | none => none := by
  cases xs <;> rfl

/-- The places that one code point leads to are what the pattern reaches. -/
theorem isStep_one (t : Text) (set : RuneSet) : IsStep t (one set) (one set).reach := by
  intro xs ordered
  have advanced (a b : Place) : (match a.next? with
        | some (rune, next) => if set.holds rune then some next else none
        | none => none) = some b ↔ ∃ rune, a.next? = some (rune, b) ∧ set.holds rune = true := by
    cases next : a.next? with
    | none => simp
    | some found =>
      obtain ⟨rune, b'⟩ := found
      simp only [Option.ite_none_right_eq_some, Option.some.injEq, Prod.mk.injEq]
      constructor
      · rintro ⟨held, rfl⟩
        exact ⟨rune, ⟨rfl, rfl⟩, held⟩
      · rintro ⟨_, ⟨rfl, rfl⟩, held⟩
        exact ⟨held, rfl⟩
  refine ⟨⟨fun b member => ?_, ?_⟩, fun b => ?_⟩
  · rw [reach_one] at member
    obtain ⟨a, among, is_next⟩ := List.mem_filterMap.1 member
    obtain ⟨rune, next, -⟩ := (advanced a b).1 is_next
    exact (next_of_mem_placesFrom (Nat.zero_le _) (ordered.begins a among) next).1
  · -- The next place stands no further on than any later one, which is followed by its own.
    rw [reach_one, List.pairwise_filterMap]
    refine ordered.sorted.imp_of_mem fun {a a'} among among' less b is_b b' is_b' => ?_
    obtain ⟨_, next, -⟩ := (advanced a b).1 is_b
    obtain ⟨_, next', -⟩ := (advanced a' b').1 is_b'
    have between := (next_of_mem_placesFrom (Nat.zero_le _) (ordered.begins a among) next).2 a'
      (ordered.begins a' among') less
    obtain ⟨c, t, -, reads⟩ := Place.reads_next next'
    have further := reads.offset
    rw [List.length_cons] at further
    omega
  · rw [reach_one, List.mem_filterMap]
    refine exists_congr fun a => and_congr_right fun _ => (advanced a b).trans ?_
    constructor
    · rintro ⟨rune, next, held⟩
      exact ⟨[], .one next held⟩
    · rintro ⟨new, taken⟩
      cases taken with
      | one next held => exact ⟨_, next, held⟩

/-- The places that an assertion holds at are what the pattern reaches. -/
theorem isStep_assert (t : Text) (assertion : Assertion) :
    IsStep t (assert assertion) (assert assertion).reach := by
  intro xs ordered
  have filtered : (assert assertion).reach xs = xs.filter (·.satisfies assertion) := by
    cases xs <;> rfl
  rw [filtered]
  refine ⟨ordered.sublist List.filter_sublist, fun b => ?_⟩
  rw [List.mem_filter]
  constructor
  · rintro ⟨member, satisfied⟩
    exact ⟨b, member, [], .assert satisfied⟩
  · rintro ⟨a, member, new, taken⟩
    cases taken with
    | assert satisfied => exact ⟨member, satisfied⟩

/-- The closure under a body is what the repetition reaches. -/
theorem isStep_star {greedy : Bool} {body : Pattern} (is_step : IsStep t body body.reach) :
    IsStep t (star greedy body) (star greedy body).reach := by
  intro xs ordered
  cases xs with
  | nil =>
    rw [reach_nil]
    exact ⟨ordered, fun b => by simp⟩
  | cons x xs =>
    show Ordered t (Place.closure body.reach (x.rest.length + 1) (x :: xs) (x :: xs)) ∧ _
    refine ⟨ordered_closure is_step _ ordered ordered, fun b => ⟨fun member => ?_, ?_⟩⟩
    · obtain ⟨a, among, _, taken⟩ := exists_rounds_of_mem_closure is_step _ ordered ordered
        (List.Subset.refl _) member
      obtain ⟨n, rounds, -⟩ := exists_rounds taken
      exact ⟨a, among, rounds.exists_takes⟩
    · rintro ⟨a, among, new, taken⟩
      obtain ⟨n, rounds, room⟩ := exists_rounds taken
      refine mem_closure_of_rounds is_step ordered ordered (fun x member absent => absurd member absent)
        ?_ among rounds
      -- The first place has the most left to read, and every round reads something.
      obtain ⟨o, inside, rfl⟩ := ordered.exists_placeAt List.mem_cons_self
      obtain ⟨o', inside', rfl⟩ := ordered.exists_placeAt among
      obtain ⟨o'', -, inside'', rfl⟩ := taken.exists_placeAt inside'
      have first : o ≤ o' := by
        rcases List.mem_cons.1 among with same | later
        · exact Nat.le_of_eq (congrArg Place.offset same).symm
        · exact Nat.le_of_lt ((List.pairwise_cons.1 ordered.sorted).1 _ later)
      rw [rest_placeAt, List.length_drop]
      simp only [offset_placeAt] at room
      omega

/-- **A pattern reaches exactly the places where it may end.** -/
theorem isStep_reach (t : Text) (p : Pattern) : IsStep t p p.reach := by
  induction p with
  | empty =>
    intro xs ordered
    have same : (empty : Pattern).reach xs = xs := by cases xs <;> rfl
    rw [same]
    refine ⟨ordered, fun b => ⟨fun member => ⟨b, member, _, .empty b⟩, ?_⟩⟩
    rintro ⟨a, member, new, taken⟩
    cases taken with
    | empty => exact member
  | one set => exact isStep_one t set
  | assert assertion => exact isStep_assert t assertion
  | seq p q ihp ihq =>
    intro xs ordered
    -- With no place to start at there is nothing to reach, which `reach` decides first.
    have composed : (seq p q).reach xs = q.reach (p.reach xs) := by
      cases xs with
      | nil => rw [reach_nil, reach_nil, reach_nil]
      | cons => rfl
    obtain ⟨first, mem_first⟩ := ihp xs ordered
    obtain ⟨second, mem_second⟩ := ihq _ first
    rw [composed]
    refine ⟨second, fun b => (mem_second b).trans ⟨?_, ?_⟩⟩
    · rintro ⟨a', member, _, right⟩
      obtain ⟨a, among, _, left⟩ := (mem_first a').1 member
      exact ⟨a, among, _, .seq left right⟩
    · rintro ⟨a, among, _, taken⟩
      cases taken with
      | seq left right => exact ⟨_, (mem_first _).2 ⟨a, among, _, left⟩, _, right⟩
  | alt p q ihp ihq =>
    intro xs ordered
    have united : (alt p q).reach xs = Place.union (p.reach xs) (q.reach xs) := by
      cases xs with
      | nil =>
        rw [reach_nil, reach_nil, reach_nil]
        rw [Place.union]
      | cons => rfl
    obtain ⟨first, mem_first⟩ := ihp xs ordered
    obtain ⟨second, mem_second⟩ := ihq xs ordered
    rw [united]
    refine ⟨first.union second, fun b => (mem_union first second).trans ?_⟩
    rw [mem_first, mem_second]
    constructor
    · rintro (⟨a, among, _, left⟩ | ⟨a, among, _, right⟩)
      · exact ⟨a, among, _, .altLeft left⟩
      · exact ⟨a, among, _, .altRight right⟩
    · rintro ⟨a, among, _, taken⟩
      cases taken with
      | altLeft left => exact Or.inl ⟨a, among, _, left⟩
      | altRight right => exact Or.inr ⟨a, among, _, right⟩
  -- The closure of the body, reached in rounds.
  | star greedy body ih => exact isStep_star ih
  | group index body ih =>
    intro xs ordered
    have same : (group index body).reach xs = body.reach xs := by
      cases xs with
      | nil => rw [reach_nil, reach_nil]
      | cons => rfl
    obtain ⟨reached, mem_reached⟩ := ih xs ordered
    rw [same]
    refine ⟨reached, fun b => (mem_reached b).trans ⟨?_, ?_⟩⟩
    · rintro ⟨a, among, _, taken⟩
      exact ⟨a, among, _, .group taken⟩
    · rintro ⟨a, among, _, taken⟩
      cases taken with
      | group taken => exact ⟨a, among, _, taken⟩

/-- **A pattern is found in a text** exactly when there is a way to match. -/
theorem matchesIn_iff : p.matchesIn t = true ↔
    ∃ a ∈ Place.all t, ∃ b new, p.Takes a b new := by
  obtain ⟨-, mem_reach⟩ := isStep_reach t p (Place.all t) (ordered_all t)
  rw [matchesIn, Bool.not_eq_true', List.isEmpty_eq_false_iff_exists_mem]
  constructor
  · rintro ⟨b, member⟩
    obtain ⟨a, among, new, taken⟩ := (mem_reach b).1 member
    exact ⟨a, among, b, new, taken⟩
  · rintro ⟨a, among, b, new, taken⟩
    exact ⟨b, (mem_reach b).2 ⟨a, among, new, taken⟩⟩

/-! ## The first match -/

section Complete

variable {β : Type} {accept : Place → Captures → Option β}

/-- The first of two answers, or else the second. -/
theorem isSome_orElse {x y : Option β} (found : x.isSome = true ∨ y.isSome = true) :
    (match x with
      | some v => some v
      | none => y).isSome = true := by
  cases x with
  | some v => rfl
  | none => exact found.resolve_left (by simp)

/-- A repetition that is given enough rounds misses nothing if its body does not. -/
theorem Rounds.isSome_iterate {greedy : Bool} {body : Pattern} {n bound : Nat}
    (complete : ∀ {a b new} {accept : Place → Captures → Option β}, body.Takes a b new →
      (∀ captures, (accept b captures).isSome = true) → ∀ captures,
        (body.run a captures accept).isSome = true)
    (rounds : Rounds body n a b) (enough : n ≤ bound)
    (accepts : ∀ captures, (accept b captures).isSome = true) (captures : Captures) :
    (iterate body.run greedy bound a captures accept).isSome = true := by
  induction bound generalizing n a captures with
  | zero =>
    obtain rfl := Nat.le_zero.1 enough
    cases rounds
    exact accepts captures
  | succ bound ih =>
    have either : (accept a captures).isSome = true ∨
        (body.run a captures fun next captures' =>
          if a.offset < next.offset then iterate body.run greedy bound next captures' accept
          else none).isSome = true := by
      cases rounds with
      | stay => exact Or.inl (accepts captures)
      | more once further again =>
        refine Or.inr (complete once (fun captures' => ?_) captures)
        rw [if_pos further]
        exact ih again (Nat.le_of_succ_le_succ enough) captures'
    rw [iterate]
    split
    · exact isSome_orElse either.symm
    · exact isSome_orElse either

/-- **The matcher misses nothing**: a continuation that accepts all that ends where some way to
match ends is satisfied. -/
theorem Takes.isSome_run (taken : p.Takes a b new)
    (accepts : ∀ captures, (accept b captures).isSome = true) (captures : Captures) :
    (p.run a captures accept).isSome = true := by
  induction p generalizing a b new captures accept with
  | empty =>
    cases taken with
    | empty => exact accepts captures
  | one set =>
    cases taken with
    | one next held =>
      rw [run, next]
      simp only [held, if_true, accepts]
  | assert assertion =>
    cases taken with
    | assert satisfied =>
      rw [run, if_pos satisfied]
      exact accepts captures
  | seq p q ihp ihq =>
    cases taken with
    | seq left right => exact ihp left (ihq right accepts) captures
  | alt p q ihp ihq =>
    rw [run]
    cases taken with
    | altLeft left => exact isSome_orElse (Or.inl (ihp left accepts captures))
    | altRight right => exact isSome_orElse (Or.inr (ihq right accepts captures))
  | star greedy body ih =>
    -- No more rounds are needed than there are bytes left, which is the bound of the matcher.
    obtain ⟨n, rounds, room⟩ := exists_rounds taken
    obtain ⟨read, reads⟩ := taken.reads
    have left : a.rest.length = read.length + b.rest.length := by
      rw [reads.rest, List.length_append]
    have enough : n ≤ a.rest.length := by
      have further := reads.offset
      omega
    exact rounds.isSome_iterate ih enough accepts captures
  | group index body ih =>
    cases taken with
    | group inner =>
      rw [run]
      refine ih inner (fun captures' => ?_) captures
      exact accepts _

end Complete

/-- **A pattern matches at a place** exactly when there is a way to match that begins there. -/
theorem isSome_matchAt?_iff : (p.matchAt? a).isSome = true ↔ ∃ b new, p.Takes a b new := by
  constructor
  · intro found
    obtain ⟨m, is_match⟩ := Option.isSome_iff_exists.1 found
    obtain ⟨b, new, taken, -⟩ := exists_takes p a [] _ is_match
    exact ⟨b, new, taken⟩
  · rintro ⟨b, new, taken⟩
    exact taken.isSome_run (fun _ => rfl) []

/-- **The search** tries a place, and goes on to the next one. -/
theorem findFrom?_placeAt (p : Pattern) (t : Text) (o : Nat) : p.findFrom? (placeAt t o) =
    match p.matchAt? (placeAt t o) with
    | some m => some m
    | none =>
      match (placeAt t o).next? with
      | some (_, next) => p.findFrom? next
      | none => none := by
  cases here : t.drop o with
  | nil =>
    have place : placeAt t o = ⟨o, (t.take o).getLast?, []⟩ := by rw [placeAt, here]
    rw [next?_placeAt_end here, place]
    show p.matchAt? ⟨o, _, []⟩ = _
    cases p.matchAt? ⟨o, (t.take o).getLast?, []⟩ <;> rfl
  | cons c rest =>
    have place : placeAt t o = ⟨o, (t.take o).getLast?, c :: rest⟩ := by rw [placeAt, here]
    rw [next?_placeAt here, place]
    show (match p.matchAt? ⟨o, _, c :: rest⟩ with
      | some m => some m
      | none => findFrom?.go p rest (o + 1) (some c) (Text.decodeHead c rest).2) = _
    rw [go_behind (findFrom?.go p) (fun _ _ _ _ _ => rfl) here]
    rfl

/-- The search finds a match exactly when there is a way to match. -/
theorem isSome_find?_iff : (p.find? t).isSome = true ↔
    ∃ a ∈ Place.all t, ∃ b new, p.Takes a b new := by
  have searched (o : Nat) : (p.findFrom? (placeAt t o)).isSome = true ↔
      ∃ a ∈ placesFrom t o, ∃ b new, p.Takes a b new := by
    induction o using place_induction (t := t) with
    | step o ih =>
      rw [findFrom?_placeAt, placesFrom_eq, List.exists_mem_cons_iff, ← isSome_matchAt?_iff]
      cases p.matchAt? (placeAt t o) with
      | some m => simp
      | none =>
        cases next : (placeAt t o).next? with
        | none => simp
        | some found =>
          obtain ⟨o', less, inside, same⟩ := exists_offset_of_next next
          simp only [same, offset_placeAt, ih o' less inside, Option.isSome_none,
            Bool.false_eq_true, false_or]
  exact searched 0

/-- **Both searches agree** on whether a pattern matches in a text. -/
theorem matchesIn_eq_isSome_find? (p : Pattern) (t : Text) :
    p.matchesIn t = (p.find? t).isSome :=
  Bool.eq_iff_iff.2 (matchesIn_iff.trans isSome_find?_iff.symm)

end FlowTrace.Pattern
