import FlowTrace.Pattern.Basic

/-! # Searching with patterns

The first match of a pattern in a text, and all its matches from left to right without
overlap. -/

namespace FlowTrace.Pattern

/-- A **match**: its extent, and the extents of its groups, the latest first. -/
structure Match where
  /-- The offset of the first byte. -/
  start : Nat
  /-- The offset behind the last byte. -/
  stop : Nat
  /-- The extents of the groups. -/
  captures : Captures
  deriving Repr

/-- The extent of a group, if it took part in the match. -/
def Match.extent? (m : Match) (index : Nat) : Option (Nat × Nat) :=
  (m.captures.find? (·.1 == index)).map (·.2)

/-- The text of a group, `none` if it took no part in the match. -/
def Match.group? (m : Match) (t : Text) (index : Nat) : Option Text :=
  (m.extent? index).map fun extent => t.slice extent.1 extent.2

/-- The text of a group, empty if it took no part in the match. -/
def Match.group (m : Match) (t : Text) (index : Nat) : Text := (m.group? t index).getD []

/-- The offset where a group starts. -/
def Match.groupStart (m : Match) (index : Nat) : Nat :=
  ((m.extent? index).map (·.1)).getD m.start

/-- The match at a place, if there is one. -/
def matchAt? (p : Pattern) (place : Place) : Option Match :=
  p.run place [] fun place' captures => some ⟨place.offset, place'.offset, captures⟩

/-- The first match at or behind a place. The search goes from code point to code point. -/
def findFrom? (p : Pattern) (place : Place) : Option Match :=
  go place.rest place.offset place.before 0
where
  /-- The next `skip` bytes belong to a code point that was already tried. -/
  go : Text → Nat → Option UInt8 → Nat → Option Match
    | [], offset, before, _ => p.matchAt? ⟨offset, before, []⟩
    | c :: rest, offset, _, skip + 1 => go rest (offset + 1) (some c) skip
    | c :: rest, offset, before, 0 =>
      match p.matchAt? ⟨offset, before, c :: rest⟩ with
      | some m => some m
      | none => go rest (offset + 1) (some c) (Text.decodeHead c rest).2

/-- The first match in a text. -/
def find? (p : Pattern) (t : Text) : Option Match := p.findFrom? (Place.start t)

/-- All matches from left to right. After a match the search goes on behind it; an empty match
is left out when it stands where the match before it ended. -/
def findAll (p : Pattern) (t : Text) : List Match := go (t.length + 1) (Place.start t) none
where
  /-- At most `bound` further matches; `last` is where the match before ended. -/
  go : Nat → Place → Option Nat → List Match
    | 0, _, _ => []
    | bound + 1, place, last =>
      match p.findFrom? place with
      | none => []
      | some m =>
        if m.stop == place.offset then
          let more (_ : Unit) :=
            match place.next? with
            | some (_, place') => go bound place' (some m.stop)
            | none => []
          if last == some m.start then more () else m :: more ()
        else m :: go bound (place.skip (m.stop - place.offset)) (some m.stop)

/-! ## Reaching places

Whether a pattern matches at all does not depend on the priority of the ways to match. It is enough
to know which places can be **reached**: `Pattern.reach` takes the places where a pattern may begin
to the places where it may end, all at once. Every place is counted once however many ways lead to
it, so the work grows with the lengths of pattern and text and not with the number of ways.

Sets of places are lists in order of their offsets, without repetition. -/

namespace Place

/-- The places of a text where a code point begins, and its end. -/
def all (t : Text) : List Place := go t 0 none 0
where
  /-- The next `skip` bytes belong to a code point that was already passed. -/
  go : Text → Nat → Option UInt8 → Nat → List Place
    | [], offset, before, _ => [⟨offset, before, []⟩]
    | c :: rest, offset, _, skip + 1 => go rest (offset + 1) (some c) skip
    | c :: rest, offset, before, 0 =>
      ⟨offset, before, c :: rest⟩ :: go rest (offset + 1) (some c) (Text.decodeHead c rest).2

/-- The places of either of two sets. -/
def union : List Place → List Place → List Place
  | [], ys => ys
  | xs, [] => xs
  | x :: xs, y :: ys =>
    if x.offset < y.offset then x :: union xs (y :: ys)
    else if y.offset < x.offset then y :: union (x :: xs) ys
    else x :: union xs ys
termination_by xs ys => xs.length + ys.length

/-- The places of the first set that are not in the second. -/
def without : List Place → List Place → List Place
  | [], _ => []
  | xs, [] => xs
  | x :: xs, y :: ys =>
    if x.offset < y.offset then x :: without xs (y :: ys)
    else if y.offset < x.offset then without (x :: xs) ys
    else without xs ys
termination_by xs ys => xs.length + ys.length

/-- All that a step reaches when it is taken again and again, at most `bound` times. `fresh` holds
those of the places `seen` from which the step was not taken yet. -/
def closure (step : List Place → List Place) :
    Nat → List Place → List Place → List Place
  | 0, seen, _ => seen
  | bound + 1, seen, fresh =>
    match without (step fresh) seen with
    | [] => seen
    | found => closure step bound (union seen found) found

end Place

/-- The places where a pattern may end when it begins at one of the given places. -/
def reach : Pattern → List Place → List Place
  | _, [] => []
  | empty, places => places
  | one set, places => places.filterMap fun place =>
    match place.next? with
    | some (rune, place') => if set.holds rune then some place' else none
    | none => none
  | assert assertion, places => places.filter (·.satisfies assertion)
  | seq first second, places => second.reach (first.reach places)
  | alt first second, places => Place.union (first.reach places) (second.reach places)
  | star _ body, place :: places =>
    Place.closure body.reach (place.rest.length + 1) (place :: places) (place :: places)
  | group _ body, places => body.reach places

/-- Whether the pattern matches somewhere in the text. -/
def matchesIn (p : Pattern) (t : Text) : Bool := !(p.reach (Place.all t)).isEmpty

end FlowTrace.Pattern
