import FlowTrace.Storage.Path
import FlowTrace.Text.Rune

/-! # Wildcard patterns for names

A **glob** describes names: `*` stands for any bytes except the separator, `?` for one code point,
`[…]` for one code point of a class, and a backslash makes the next byte stand for itself. -/

namespace FlowTrace.Glob

/-- One element of a glob. -/
inductive Item where
  /-- Any bytes except the separator. -/
  | star
  /-- One code point except the separator. -/
  | one
  /-- This byte. -/
  | byte (value : UInt8)
  /-- One code point inside the ranges, or outside them all when negated. -/
  | among (negated : Bool) (ranges : List (Rune × Rune))
  deriving DecidableEq, Repr

/-- One end of a range and the rest of the class behind it; `none` when the class is malformed
or ends there. -/
def rangeEnd? (t : Text) : Option (Rune × Text) :=
  match t with
  | [] => none
  | c :: rest =>
    if c == '-' || c == ']' then none
    else
      let t := if c == Text.backslash then rest else c :: rest
      match t with
      | [] => none
      | c :: rest =>
        let (rune, more) := Text.decodeHead c rest
        if rune == Rune.replacement && more == 0 then none
        else
          let rest := rest.drop more
          if rest.isEmpty then none else some (rune, rest)

/-- The ranges of a class up to its closing bracket and what follows. At most `bound` ranges are
read. -/
def readRanges? : Nat → Text → List (Rune × Rune) → Option (List (Rune × Rune) × Text)
  | 0, _, _ => none
  | bound + 1, t, ranges =>
    if t.head? == some (']' : UInt8) && !ranges.isEmpty then some (ranges.reverse, t.drop 1)
    else
      match rangeEnd? t with
      | none => none
      | some (low, t) =>
        if t.head? == some ('-' : UInt8) then
          match rangeEnd? (t.drop 1) with
          | none => none
          | some (high, t) => readRanges? bound t ((low, high) :: ranges)
        else readRanges? bound t ((low, low) :: ranges)

/-- The items of a glob; `none` when it is malformed. The next `skip` bytes belong to an item
that was already read. -/
def parse? : Text → Nat → Option (List Item)
  | [], _ => some []
  | _ :: t, skip + 1 => parse? t skip
  | c :: t, 0 =>
    if c == '*' then (parse? t 0).map (.star :: ·)
    else if c == '?' then (parse? t 0).map (.one :: ·)
    else if c == Text.backslash then
      match t with
      | [] => none
      | d :: _ => (parse? t 1).map (.byte d :: ·)
    else if c == '[' then
      let negated := t.head? == some ('^' : UInt8)
      let body := if negated then t.drop 1 else t
      match readRanges? (body.length + 1) body [] with
      | none => none
      | some (ranges, rest) =>
        (parse? t (t.length - rest.length)).map (.among negated ranges :: ·)
    else (parse? t 0).map (.byte c :: ·)

/-- Whether a name has the form that the items describe. -/
def fits : List Item → Text → Bool
  | [], name => name.isEmpty
  | .star :: items, name => anyTail (fits items) name
  | .byte b :: items, name =>
    match name with
    | [] => false
    | c :: rest => b == c && fits items rest
  | .one :: items, name =>
    match name with
    | [] => false
    | c :: rest => c != Path.separator && fits items (rest.drop (Text.decodeHead c rest).2)
  | .among negated ranges :: items, name =>
    match name with
    | [] => false
    | c :: rest =>
      let (rune, more) := Text.decodeHead c rest
      (negated != ranges.any fun range => range.1 ≤ rune && rune ≤ range.2) &&
        fits items (rest.drop more)
where
  /-- Whether some tail of the name, reached without passing a separator, is accepted. -/
  anyTail (accept : Text → Bool) : Text → Bool
    | [] => accept []
    | c :: rest => accept (c :: rest) || (c != Path.separator && anyTail accept rest)

/-- Whether a text has a byte with a special meaning in globs. -/
def isMagic (t : Text) : Bool := t.any (Text.isOneOf "*?[\\")

end FlowTrace.Glob
