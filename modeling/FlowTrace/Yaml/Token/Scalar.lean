import FlowTrace.Yaml.Token.Cursor

/-! # Reading scalars

A scalar is written **plain**, **quoted**, or as a **block** of its own lines. In the first two, the
end of a line counts as a space, and of several only the first one is dropped; separators other than
the newline stay. The number that bounds each function has to be larger than the number of characters
left: every call reads one of them. -/

namespace FlowTrace.Yaml.Cursor

/-- What stands between two words of a scalar. -/
structure Gap where
  /-- The blanks, the latest first, as long as the line does not end. -/
  blanks : List Char := []
  /-- The ends of lines, the latest first. -/
  breaks : List Char := []
  /-- Whether the first end of a line was escaped. -/
  escaped : Bool := false
  deriving Repr

/-- Whether a line ends in a gap. -/
def Gap.endsLine (gap : Gap) : Bool := gap.escaped || !gap.breaks.isEmpty

/-- A gap with one more blank; blanks at the beginning of a line do not count. -/
def Gap.blank (gap : Gap) (c : Char) : Gap :=
  if gap.endsLine then gap else { gap with blanks := c :: gap.blanks }

/-- A gap with one more end of a line. -/
def Gap.newLine (gap : Gap) (c : Char) : Gap := { gap with blanks := [], breaks := c :: gap.breaks }

/-- What a gap amounts to in the scalar. -/
def Gap.characters (gap : Gap) : List Char :=
  if gap.escaped then gap.breaks.reverse
  else
    match gap.breaks.reverse with
    | [] => gap.blanks.reverse
    | ['\n'] => [' ']
    | '\n' :: more => more
    | breaks => breaks

/-! ## Plain scalars -/

/-- Reads a plain scalar. `out` is its text so far, last character first, and `gap` what was read
behind it. -/
def plain (indent : Int) : Nat → Cursor → List Char → Gap → Option (Cursor × Text)
  | 0, _, _, _ => none
  | bound + 1, s, out, gap =>
    let finish : Option (Cursor × Text) :=
      some (if gap.endsLine then { s with keyAllowed := true } else s, textOf out.reverse)
    match s.rest with
    | [] => finish
    | c :: rest =>
      if isBreak c then plain indent bound s.skip out (gap.newLine c)
      else if isSpacing c then
        if gap.endsLine && c == '\t' && (s.column : Int) < indent then none
        else plain indent bound s.skip out (gap.blank c)
      else
        let afterGap := gap.endsLine || !gap.blanks.isEmpty
        if afterGap && !s.inFlow && (s.column : Int) < indent then finish
        else if s.column == 0 && startsMark s.rest then finish
        else if afterGap && c == '#' then finish
        else if c == ':' && startsBlank rest then finish
        else if s.inFlow && isFlowMark c then finish
        else plain indent bound s.skip (c :: (gap.characters.reverse ++ out)) {}

/-! ## Quoted scalars -/

/-- What a backslash and a letter stand for. -/
def escapes : List (Char × Char) :=
  [('0', '\x00'), ('a', '\x07'), ('b', '\x08'), ('t', '\t'), ('\t', '\t'), ('n', '\n'),
    ('v', '\x0b'), ('f', '\x0c'), ('r', '\r'), ('e', '\x1b'), (' ', ' '), ('\x22', '\x22'),
    ('\x27', '\x27'), ('\\', '\\'), ('N', '\u0085'), ('_', '\u00a0'), ('L', '\u2028'), ('P', '\u2029')]

/-- The number of hexadecimal digits behind a backslash and a letter. -/
def escapeWidths : List (Char × Nat) := [('x', 2), ('u', 4), ('U', 8)]

/-- The character that is written behind a backslash, and the number of characters it takes. -/
def escaped? : List Char → Option (Char × Nat)
  | [] => none
  | c :: digits =>
    match escapes.lookup c with
    | some meant => some (meant, 1)
    | none => do
      let width ← escapeWidths.lookup c
      if digits.length < width then none
      else
        let n ← hexNumber? (digits.take width)
        if n.isValidChar then some (Char.ofNat n, width + 1) else none

/-- Reads a quoted scalar behind its opening quotation mark. -/
def quoted (mark : Char) : Nat → Cursor → List Char → Gap → Option (Cursor × Text)
  | 0, _, _, _ => none
  | bound + 1, s, out, gap =>
    match s.rest with
    | [] => none
    | c :: rest =>
      let out' := gap.characters.reverse ++ out
      if s.column == 0 && startsMark s.rest then none
      else if isBreak c then quoted mark bound s.skip out (gap.newLine c)
      else if isSpacing c then quoted mark bound s.skip out (gap.blank c)
      else if c == mark then
        if mark == '\x27' && rest.head? == some '\x27' then
          quoted mark bound (s.skipMany 2) (c :: out') {}
        else some (s.skip, textOf out'.reverse)
      else if mark == '\x22' && c == '\\' then
        if rest.head?.any isBreak then quoted mark bound (s.skipMany 2) out' { escaped := true }
        else
          match escaped? rest with
          | none => none
          | some (meant, width) => quoted mark bound (s.skipMany (width + 1)) (meant :: out') {}
      else quoted mark bound s.skip (c :: out') {}

/-! ## Block scalars -/

/-- What becomes of the ends of lines at the end of a block scalar. -/
inductive Chomp where
  /-- There is none. -/
  | strip
  /-- There is one. -/
  | clip
  /-- They all stay. -/
  | keep
  deriving DecidableEq, Repr

/-- The sign for the ends of lines at the head of the input. -/
def chomp? : List Char → Option Chomp
  | '+' :: _ => some .keep
  | '-' :: _ => some .strip
  | _ => none

/-- The digit for the indentation at the head of the input. -/
def width? : List Char → Option Nat
  | c :: _ => if c.isDigit then some (c.toNat - 48) else none
  | [] => none

/-- Reads the marks behind the bar or arrow of a block scalar, in either order. The indentation is
zero when it is not given, and may not be given as zero. -/
def blockHeader (s : Cursor) : Option (Cursor × Chomp × Nat) :=
  let (chomp, behind) := match chomp? s.rest with
    | some chomp => (some chomp, s.skip)
    | none => (none, s)
  match width? behind.rest with
  | none => some (behind, chomp.getD .clip, 0)
  | some 0 => none
  | some width =>
    let behind := behind.skip
    match chomp with
    | some chomp => some (behind, chomp, width)
    | none =>
      match chomp? behind.rest with
      | some chomp => some (behind.skip, chomp, width)
      | none => some (behind, .clip, width)

/-- Reads indentation and empty lines in front of a line of a block scalar; without a known
indentation the widest is found. Given are the ends of lines read, the latest first, and the widest
column. -/
def blockBreaks (indent : Nat) : Nat → Cursor → List Char → Nat → Option (Cursor × List Char × Nat)
  | 0, _, _, _ => none
  | bound + 1, s, breaks, widest =>
    let inside := indent == 0 || s.column < indent
    match s.rest with
    | [] => some (s, breaks, max widest s.column)
    | c :: _ =>
      if inside && c == ' ' then blockBreaks indent bound s.skip breaks widest
      else if inside && c == '\t' then none
      else if isBreak c then blockBreaks indent bound s.skip (c :: breaks) (max widest s.column)
      else some (s, breaks, max widest s.column)

/-- What joins a line of a block scalar to the one before. In a folded scalar a newline between two
lines that do not begin with a blank is dropped, and becomes a space unless empty lines follow. -/
def joint (folded : Bool) (pending : Option Char) (breaks : List Char) : List Char :=
  match pending with
  | none => []
  | some c => if folded && c == '\n' then if breaks.isEmpty then [' '] else [] else [c]

/-- Reads the lines of a block scalar. `pending` is the end of the line before, still to be written,
and `breaks` are those of the empty lines that follow it. -/
def blockLines (literal : Bool) (indent : Nat) : Nat → Cursor → List Char → Option Char →
    List Char → Bool → Option (Cursor × List Char × Option Char × List Char)
  | 0, _, _, _, _, _ => none
  | bound + 1, s, out, pending, breaks, afterBlank =>
    if s.column != indent || s.rest.isEmpty then some (s, out, pending, breaks)
    else
      let atBlank := s.rest.head?.any isSpacing
      let before := (joint (!literal && !afterBlank && !atBlank) pending breaks).reverse
      let lineText := s.rest.takeWhile fun c => !isBreak c
      let s := s.skipMany lineText.length
      let out := lineText.reverse ++ (breaks ++ (before ++ out))
      match blockBreaks indent (bound + 1) s.skip [] 0 with
      | none => none
      | some (next, breaks, _) => blockLines literal indent bound next out s.rest.head? breaks atBlank

/-- Reads a block scalar behind its bar or arrow. -/
def block (bound : Nat) (literal : Bool) (s : Cursor) : Option (Cursor × Text) := do
  let (s, chomp, width) ← s.blockHeader
  let s := s.skipWhile isSpacing
  let s := if s.rest.head? == some '#' then s.skipLine else s
  if !startsBreak s.rest then none
  else
    let s := s.skip
    let known := if width == 0 then 0 else s.indent.toNat + width
    let (s, breaks, widest) ← blockBreaks known bound s [] 0
    let indent := if known != 0 then known else max widest (max (s.indent + 1).toNat 1)
    let (s, out, pending, breaks) ← blockLines literal indent bound s [] none breaks false
    let tail := match chomp with
      | .strip => []
      | .clip => pending.toList
      | .keep => pending.toList ++ breaks.reverse
    return (s, textOf (out.reverse ++ tail))

end FlowTrace.Yaml.Cursor
