import FlowTrace.Text.Rune

/-! # Intervals of code points

Sets of code points as lists of closed intervals. The intervals of a list may overlap and stand in
any order; `merged` puts them in order and apart from each other.

Long lists are written as text (`read`): hexadecimal numbers with blanks between them, where
`41-5A` is an interval and `100-136/2` every second code point of one. -/

namespace FlowTrace

/-- A set of code points, as closed **intervals**. -/
abbrev Intervals := List (Rune × Rune)

namespace Intervals

/-- Whether a code point is in one of the intervals. -/
def holds (s : Intervals) (r : Rune) : Bool := s.any fun range => range.1 ≤ r && r ≤ range.2

/-- Adds an interval in front of a list, whose first interval starts no later; the two become one
where they touch. -/
def join : Intervals → Rune × Rune → Intervals
  | [], range => [range]
  | (low, high) :: rest, (low', high') =>
    if low' ≤ high + 1 then (low, max high high') :: rest
    else (low', high') :: (low, high) :: rest

/-- The same set, as intervals in order that do not touch each other. -/
def merged (s : Intervals) : Intervals :=
  ((s.mergeSort fun a b => a.1 ≤ b.1).foldl join []).reverse

/-- The last code point. -/
abbrev last : Rune := 0x10FFFF

/-- The code points that are in none of the intervals. -/
def complement (s : Intervals) : Intervals := go s.merged 0
where
  /-- The gaps between intervals in order, from `next` on. -/
  go : Intervals → Rune → Intervals
    | [], next => if next ≤ last then [(next, last)] else []
    | (low, high) :: rest, next =>
      if next < low then (next, low - 1) :: go rest (high + 1) else go rest (high + 1)

/-- The value of a hexadecimal digit. -/
def digitValue (c : Char) : Nat := if c.isDigit then c.toNat - 48 else c.toNat - 55

/-- The value of hexadecimal digits. -/
def number (digits : List Char) : Nat := digits.foldl (fun n c => n * 16 + digitValue c) 0

/-- The intervals that one part of the written form stands for. -/
def readPart (part : List Char) : Intervals :=
  let low := part.takeWhile (· != '-')
  match part.drop (low.length + 1) with
  | [] => [(number low, number low)]
  | tail =>
    let high := tail.takeWhile (· != '/')
    if high.length == tail.length then [(number low, number high)]
    else
      (List.range ((number high - number low) / 2 + 1)).map fun i =>
        (number low + 2 * i, number low + 2 * i)

/-- The intervals that a written form stands for. -/
def read (s : String) : Intervals := go s.toList []
where
  /-- `part` holds the characters of the current part, last first. -/
  go : List Char → List Char → Intervals
    | [], part => readPart part.reverse
    | c :: cs, part => if c == ' ' then readPart part.reverse ++ go cs [] else go cs (c :: part)

end Intervals

end FlowTrace
