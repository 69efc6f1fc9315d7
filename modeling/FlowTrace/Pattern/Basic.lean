import FlowTrace.Text.Blank
import FlowTrace.Text.Intervals

/-! # Patterns

A **pattern** describes texts: regular expressions with groups, greedy and reluctant repetition,
and assertions about the place where they stand. Matching reads code points, and of several ways
to match the first in priority order wins: the left side of an alternative before the right one,
one more iteration before none (the other way round when reluctant).

* **`Pattern.run`** matches at a given place and hands each way to match, in priority order, to a
  continuation until one accepts.
* Repetition is bounded by the text left to read, because an iteration that reads nothing ends
  its path (`iterate`). -/

namespace FlowTrace

/-- A **set of code points**: those inside one of the closed `ranges`, or, when `negated`, those
outside all of them. -/
structure RuneSet where
  /-- Whether the set is the complement of the ranges. -/
  negated : Bool
  /-- Closed intervals of code points. -/
  ranges : Intervals
  deriving DecidableEq, Repr

/-- Whether the set holds a code point. -/
def RuneSet.holds (s : RuneSet) (r : Rune) : Bool :=
  s.negated != s.ranges.holds r

/-- What an assertion asks of the place where it stands. -/
inductive Assertion where
  /-- The beginning of the text. -/
  | textStart
  /-- The end of the text. -/
  | textEnd
  /-- The beginning of a line. -/
  | lineStart
  /-- The end of a line. -/
  | lineEnd
  /-- Between a word byte and something else. -/
  | wordEdge
  /-- Not between a word byte and something else. -/
  | noWordEdge
  deriving DecidableEq, Repr

/-- A **pattern**. -/
inductive Pattern where
  /-- The empty text. -/
  | empty
  /-- One code point of a set. -/
  | one (set : RuneSet)
  /-- The empty text, where the assertion holds. -/
  | assert (assertion : Assertion)
  /-- One pattern, then another. -/
  | seq (first second : Pattern)
  /-- Either of two patterns, the first before the second. -/
  | alt (first second : Pattern)
  /-- Any number of copies; as many as possible when greedy, else as few as possible. -/
  | star (greedy : Bool) (body : Pattern)
  /-- A pattern whose extent is remembered under an index. -/
  | group (index : Nat) (body : Pattern)
  deriving DecidableEq, Repr

namespace Pattern

/-- A **place** in a text: the bytes before it are summed up by their number and the last of
them. -/
structure Place where
  /-- The number of bytes before the place. -/
  offset : Nat
  /-- The byte just before the place. -/
  before : Option UInt8
  /-- The bytes from the place on. -/
  rest : Text
  deriving Repr

/-- The place at the beginning of a text. -/
def Place.start (t : Text) : Place := ⟨0, none, t⟩

/-- The place `n` bytes further on. -/
def Place.skip (place : Place) : Nat → Place
  | 0 => place
  | n + 1 =>
    match place.rest with
    | [] => place
    | c :: rest => Place.skip ⟨place.offset + 1, some c, rest⟩ n

/-- The code point at a place and the place behind it. -/
def Place.next? (place : Place) : Option (Rune × Place) :=
  match place.rest with
  | [] => none
  | c :: rest =>
    let (rune, more) := Text.decodeHead c rest
    some (rune, Place.skip ⟨place.offset + 1, some c, rest⟩ more)

/-- Whether there is a word byte on exactly one side of the place. -/
def Place.atWordEdge (place : Place) : Bool :=
  place.before.any Text.isWord != place.rest.head?.any Text.isWord

/-- Whether an assertion holds at a place. -/
def Place.satisfies (place : Place) : Assertion → Bool
  | .textStart => place.before.isNone
  | .textEnd => place.rest.isEmpty
  | .lineStart => place.before.all (· == Text.newline)
  | .lineEnd => place.rest.head?.all (· == Text.newline)
  | .wordEdge => place.atWordEdge
  | .noWordEdge => !place.atWordEdge

/-- The extents of the groups matched so far, the latest first: index, start and stop. -/
abbrev Captures := List (Nat × Nat × Nat)

/-- Repeats a matcher at most `bound` times. An iteration that reads nothing ends its path. -/
def iterate {β : Type} (body : Place → Captures → (Place → Captures → Option β) → Option β)
    (greedy : Bool) :
    Nat → Place → Captures → (Place → Captures → Option β) → Option β
  | 0, place, captures, accept => accept place captures
  | bound + 1, place, captures, accept =>
    let again (place' : Place) (captures' : Captures) : Option β :=
      if place.offset < place'.offset then iterate body greedy bound place' captures' accept
      else none
    if greedy then
      match body place captures again with
      | some found => some found
      | none => accept place captures
    else
      match accept place captures with
      | some found => some found
      | none => body place captures again

/-- Matches a pattern at a place. The ways to match are offered to `accept` in priority order,
and the first that it accepts is the answer. -/
def run {β : Type} :
    Pattern → Place → Captures → (Place → Captures → Option β) → Option β
  | empty, place, captures, accept => accept place captures
  | one set, place, captures, accept =>
    match place.next? with
    | some (rune, place') => if set.holds rune then accept place' captures else none
    | none => none
  | assert assertion, place, captures, accept =>
    if place.satisfies assertion then accept place captures else none
  | seq first second, place, captures, accept =>
    first.run place captures fun place' captures' => second.run place' captures' accept
  | alt first second, place, captures, accept =>
    match first.run place captures accept with
    | some found => some found
    | none => second.run place captures accept
  | star greedy body, place, captures, accept =>
    iterate body.run greedy place.rest.length place captures accept
  | group index body, place, captures, accept =>
    body.run place captures fun place' captures' =>
      accept place' ((index, place.offset, place'.offset) :: captures')

/-! ## Building patterns -/

/-- Patterns one after the other. -/
def inOrder : List Pattern → Pattern
  | [] => empty
  | [p] => p
  | p :: ps => seq p (inOrder ps)

/-- The first of several patterns that leads to a match. -/
def oneOfAll : List Pattern → Pattern
  | [] => one ⟨false, []⟩
  | [p] => p
  | p :: ps => alt p (oneOfAll ps)

/-- A fixed text. -/
def literal (t : Text) : Pattern := inOrder (t.runes.map fun r => one ⟨false, [(r, r)]⟩)

instance stringToPattern : Coe String Pattern := ⟨fun s => literal s⟩

/-- Any number of copies, as many as possible. -/
def many (p : Pattern) : Pattern := star true p

/-- At least one copy, as many as possible. -/
def many1 (p : Pattern) : Pattern := seq p (star true p)

/-- One copy, or none. -/
def optional (p : Pattern) : Pattern := alt p empty

/-- The blanks of the ASCII pattern class. -/
def blankRanges : Intervals := [(0x09, 0x0A), (0x0C, 0x0D), (0x20, 0x20)]

/-- Letters, digits and the underscore. -/
def wordRanges : Intervals := [(0x30, 0x39), (0x41, 0x5A), (0x5F, 0x5F), (0x61, 0x7A)]

/-- Letters and the underscore. -/
def nameStartRanges : Intervals := [(0x41, 0x5A), (0x5F, 0x5F), (0x61, 0x7A)]

/-- The decimal digits. -/
def digitRanges : Intervals := [(0x30, 0x39)]

/-- Each character of a string, as a range of its own. -/
def charRanges (s : String) : Intervals := s.toList.map fun c => (c.toNat, c.toNat)

/-- One code point of the given ranges. -/
def among (ranges : Intervals) : Pattern := one ⟨false, ranges⟩

/-- One code point that is none of the given characters. -/
def noneOf (s : String) : Pattern := one ⟨true, charRanges s⟩

/-- Any number of blanks. -/
def blanks : Pattern := many (among blankRanges)

/-- At least one blank. -/
def blanks1 : Pattern := many1 (among blankRanges)

/-- At least one word byte. -/
def word : Pattern := many1 (among wordRanges)

/-- At least one decimal digit. -/
def digits : Pattern := many1 (among digitRanges)

/-- A name: a letter or underscore, then word bytes. -/
def name : Pattern := seq (among nameStartRanges) (many (among wordRanges))

/-- A dotted name: a letter or underscore, then word bytes and points. -/
def dottedName : Pattern :=
  seq (among nameStartRanges) (many (among ((0x2E, 0x2E) :: wordRanges)))

/-- One code point that is not a newline. -/
def inLine : Pattern := one ⟨true, [(0x0A, 0x0A)]⟩

/-- One code point. -/
def anyRune : Pattern := one ⟨true, []⟩

/-- The edge of a word. -/
def edge : Pattern := assert .wordEdge

/-- The pattern standing for the whole text. -/
def whole (ps : List Pattern) : Pattern :=
  inOrder (assert .textStart :: ps ++ [assert .textEnd])

/-- The pattern standing at the beginning of the text. -/
def leading (ps : List Pattern) : Pattern := inOrder (assert .textStart :: ps)

end Pattern

end FlowTrace
