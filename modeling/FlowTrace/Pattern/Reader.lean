import FlowTrace.Pattern.Search
import FlowTrace.Text.Category
import FlowTrace.Text.LetterCase
import FlowTrace.Text.Script

/-! # Reading patterns

Patterns can be written as regular expressions. The reader goes through the expression from left
to right with a stack of the groups that are still open (`Reader.State`); each step reads one atom,
one operator or one parenthesis. An expression that is not a pattern is refused with the part of it
that is at fault. Patterns that would grow too large or too deep are refused as well: each atom
carries its size and its height (`Reader.Atom`). -/

namespace FlowTrace.Pattern

namespace NamedSet

/-! ## Named sets of code points

Patterns can name a general category, a script, or one of a few further sets. Upper and lower case
of a name, and its blanks, underscores and hyphens, do not count. -/

/-- A name without what does not count in it. -/
def key (name : Text) : Text :=
  Text.asciiLower (name.filter fun c => !(c == '_' || c == '-' || c == ' '))

/-- Whether two names are the same. -/
def same (name : Text) (known : String) : Bool := key name == key known

/-- The set with a given name. -/
def find? (name : Text) : Option Intervals :=
  if same name "Any" then some [(0, Intervals.last)]
  else if same name "Assigned" then some (Intervals.complement Category.unassigned)
  else if same name "ASCII" then some [(0, 0x7F)]
  else
    match Category.groups.find? (same name ·.1), Script.table.find? (same name ·.1),
      Category.longNames.find? (same name ·.1) with
    | some (short, _), _, _ => Category.intervals? short
    | none, some (script, _), _ => Script.intervals? script
    | none, none, some (_, short) => Category.intervals? short
    | none, none, none => none

end NamedSet

/-! ## Faults -/

/-- Why an expression is not a pattern. -/
inductive ReadFault where
  /-- A range that runs backwards, or an unknown class. -/
  | badRange
  /-- A backslash in front of a byte that it gives no meaning. -/
  | badEscape
  /-- A group name that is not a name, or not closed. -/
  | badGroupName
  /-- A group with an unknown flag. -/
  | badGroup
  /-- A repetition of a repetition. -/
  | nestedRepetition
  /-- A repetition with too large or reversed bounds. -/
  | badCount
  /-- A class without its closing bracket. -/
  | openClass
  /-- A group without its closing parenthesis. -/
  | openGroup
  /-- A repetition of nothing. -/
  | nothingRepeated
  /-- A backslash at the very end. -/
  | trailingBackslash
  /-- A closing parenthesis without a group. -/
  | strayParenthesis
  /-- A byte outside well-formed UTF-8. -/
  | invalidUtf8
  /-- Groups and repetitions that are nested too deep. -/
  | tooDeep
  /-- A pattern with too many steps. -/
  | tooLarge
  deriving DecidableEq, Repr

/-- The wording of a fault. -/
def ReadFault.message : ReadFault → Text
  | badRange => "invalid character class range"
  | badEscape => "invalid escape sequence"
  | badGroupName => "invalid named capture"
  | badGroup => "invalid or unsupported Perl syntax"
  | nestedRepetition => "invalid nested repetition operator"
  | badCount => "invalid repeat count"
  | openClass => "missing closing ]"
  | openGroup => "missing closing )"
  | nothingRepeated => "missing argument to repetition operator"
  | trailingBackslash => "trailing backslash at end of expression"
  | strayParenthesis => "unexpected )"
  | invalidUtf8 => "invalid UTF-8"
  | tooDeep => "expression nests too deeply"
  | tooLarge => "expression too large"

/-- A fault and the part of the expression that it is about. -/
structure ReadError where
  /-- What is wrong. -/
  fault : ReadFault
  /-- Where it is wrong. -/
  part : Text
  deriving Repr

/-- The message of an error. -/
def ReadError.message (e : ReadError) : Text :=
  "error parsing regexp: " ++ e.fault.message ++ ": `" ++ e.part ++ "`"

namespace Reader

/-- What may be switched on inside an expression. -/
structure Flags where
  /-- Upper and lower case are the same. -/
  foldCase : Bool := false
  /-- The line assertions look at lines, not at the whole text. -/
  multiLine : Bool := false
  /-- A point stands for the newline, too. -/
  dotAll : Bool := false
  /-- Repetitions are reluctant. -/
  reluctant : Bool := false
  deriving DecidableEq, Repr

/-- What an atom is made of. Literals that follow each other are one literal, and a sequence inside
a sequence, or a choice inside a choice, is no level of its own. -/
inductive Shape where
  /-- Code points one after the other; `folded` when their case does not count. -/
  | literal (folded : Bool)
  /-- Several atoms one after the other. -/
  | sequence
  /-- Several alternatives. -/
  | choice
  /-- Anything else. -/
  | single
  deriving DecidableEq, Repr

/-- A pattern with its **weight**, the largest product of the counts of repetitions nested in it,
its **size**, the number of steps of a machine that matches it, and its **height**, the depth of
its nesting. -/
structure Atom where
  /-- The pattern. -/
  pattern : Pattern
  /-- The weight. -/
  weight : Nat := 1
  /-- The size. -/
  size : Nat := 1
  /-- The height. -/
  height : Nat := 1
  /-- What it is made of. -/
  shape : Shape := .single
  deriving Repr

/-- The largest size of a pattern. -/
abbrev sizeLimit : Nat := 3355443

/-- The largest height of a pattern. -/
abbrev heightLimit : Nat := 1000

/-- The largest number of ends of intervals in the sets of a pattern, its code points included. -/
abbrev intervalLimit : Nat := 33554432

/-- The fault of an atom beyond the limits. -/
def Atom.fault? (atom : Atom) : Option ReadFault :=
  if sizeLimit < atom.size then some .tooLarge
  else if heightLimit < atom.height then some .tooDeep
  else none

/-- A group that is still open: what stands in front of it. -/
structure Frame where
  /-- The flags in front of the group. -/
  flags : Flags
  /-- The number of the group, if it is remembered. -/
  index : Option Nat
  /-- The alternatives in front of the group, last first. -/
  alternatives : List Atom
  /-- The atoms in front of the group, last first. -/
  atoms : List Atom
  deriving Repr

/-- The state of the reader inside the innermost open group. -/
structure State where
  /-- The flags. -/
  flags : Flags := {}
  /-- The alternatives that are complete, last first. -/
  alternatives : List Atom := []
  /-- The atoms of the current alternative, last first. -/
  atoms : List Atom := []
  /-- The groups that are open, the innermost first. -/
  frames : List Frame := []
  /-- The number of remembered groups so far. -/
  groups : Nat := 0
  /-- The number of code points and of ends of intervals in the sets so far. -/
  ends : Nat := 0
  /-- The expression from the repetition just read on. -/
  lastRepetition : Option Text := none
  deriving Repr

/-! ## Code points -/

/-- Whether the byte `c` in front of a text is outside well-formed UTF-8. -/
def isStray (c : UInt8) (t : Text) : Bool := 0x80 ≤ c && (Text.decodeHead c t).2 == 0

/-- A text from its first byte outside well-formed UTF-8 on; the next `skip` bytes belong to a code
point that was already passed. -/
def fromStray? : Text → Nat → Option Text
  | [], _ => none
  | _ :: t, skip + 1 => fromStray? t skip
  | c :: t, 0 => if isStray c t then some (c :: t) else fromStray? t (Text.decodeHead c t).2

/-- Refuses a text that is not well-formed UTF-8. -/
def checkUtf8 (t : Text) : Except ReadError Unit :=
  match fromStray? t 0 with
  | some rest => .error ⟨.invalidUtf8, rest⟩
  | none => .ok ()

/-- The code point at the head of a text and what follows it. -/
def nextRune (t : Text) : Except ReadError (Rune × Text) :=
  match t with
  | [] => .ok (Rune.replacement, [])
  | c :: rest =>
    let (rune, more) := Text.decodeHead c rest
    if isStray c rest then .error ⟨.invalidUtf8, t⟩ else .ok (rune, rest.drop more)

/-! ## Sets of code points -/

/-- A set, with the case variants of its letters where case does not count. -/
def Flags.widen (flags : Flags) (s : Intervals) : Intervals :=
  if flags.foldCase then s.foldClosure else s

/-- A set, or its complement when `negated`, where case does not count if the flags say so. -/
def Flags.select (flags : Flags) (negated : Bool) (s : Intervals) : Intervals :=
  if negated then Intervals.complement (flags.widen s) else flags.widen s

/-- The classes that are written with a backslash and a letter; a capital letter stands for the
complement. -/
def letterClass? (c : UInt8) : Option (Bool × Intervals) :=
  if c == 'd' then some (false, digitRanges)
  else if c == 's' then some (false, blankRanges)
  else if c == 'w' then some (false, wordRanges)
  else if c == 'D' then some (true, digitRanges)
  else if c == 'S' then some (true, blankRanges)
  else if c == 'W' then some (true, wordRanges)
  else none

/-- The classes that are named inside brackets and colons. -/
def namedClasses : List (Text × Intervals) :=
  [("alnum", [(0x30, 0x39), (0x41, 0x5A), (0x61, 0x7A)]), ("alpha", [(0x41, 0x5A), (0x61, 0x7A)]),
    ("ascii", [(0x00, 0x7F)]), ("blank", [(0x09, 0x09), (0x20, 0x20)]),
    ("cntrl", [(0x00, 0x1F), (0x7F, 0x7F)]), ("digit", [(0x30, 0x39)]), ("graph", [(0x21, 0x7E)]),
    ("lower", [(0x61, 0x7A)]), ("print", [(0x20, 0x7E)]),
    ("punct", [(0x21, 0x2F), (0x3A, 0x40), (0x5B, 0x60), (0x7B, 0x7E)]),
    ("space", [(0x09, 0x0D), (0x20, 0x20)]), ("upper", [(0x41, 0x5A)]), ("word", wordRanges),
    ("xdigit", [(0x30, 0x39), (0x41, 0x46), (0x61, 0x66)])]

/-- A class named inside brackets and colons at the head of a text, and what follows it; `none`
when there is no such class there. -/
def namedClass (flags : Flags) (t : Text) :
    Except ReadError (Option (Intervals × Text)) :=
  if !t.startsWith "[:" then .ok none
  else
    match Text.indexOf? (t.drop 2) ":]" with
    | none => .ok none
    | some length =>
      let name : Text := (t.drop 2).take length
      let negated := name.startsWith "^"
      let name : Text := if negated then name.drop 1 else name
      match namedClasses.find? (·.1 == name) with
      | none => .error ⟨.badRange, t.take (length + 4)⟩
      | some (_, ranges) => .ok (some (flags.select negated ranges, t.drop (length + 4)))

/-! ## Escapes -/

/-- The value of a hexadecimal digit. -/
def hexDigit? (r : Rune) : Option Nat :=
  if 0x30 ≤ r && r ≤ 0x39 then some (r - 0x30)
  else if 0x61 ≤ r && r ≤ 0x66 then some (r - 0x57)
  else if 0x41 ≤ r && r ≤ 0x46 then some (r - 0x37)
  else none

/-- Hexadecimal digits up to a closing brace. On failure the rest behind the offending code point
is refused. At most `bound` digits are read. -/
def bracedHex (refuse : Text → ReadError) : Nat → Text → Nat → Nat → Except ReadError (Rune × Text)
  | 0, t, _, _ => .error (refuse t)
  | bound + 1, t, value, count =>
    if t.isEmpty then .error (refuse t)
    else do
      let (r, rest) ← nextRune t
      if r == 0x7D then if count == 0 then .error (refuse rest) else .ok (value, rest)
      else
        match hexDigit? r with
        | none => .error (refuse rest)
        | some d =>
          let value := value * 16 + d
          if value > 0x10FFFF then .error (refuse rest)
          else bracedHex refuse bound rest value (count + 1)

/-- Whether a byte is an octal digit. -/
def isOctal (c : UInt8) : Bool := '0' ≤ c && c ≤ '7'

/-- The code point of the escape at the head of a text, which begins with a backslash, and what
follows it. -/
def escape (t : Text) : Except ReadError (Rune × Text) :=
  let refuse (rest : Text) : ReadError := ⟨.badEscape, t.take (t.length - rest.length)⟩
  match t.drop 1 with
  | [] => .error ⟨.trailingBackslash, []⟩
  | c :: rest => do
    let (rune, rest') ← nextRune (c :: rest)
    if isOctal c && (c == '0' || rest.head?.any isOctal) then
      let more := (rest.take 2).takeWhile isOctal
      .ok ((more.foldl (fun n d => n * 8 + (d.toNat - 48)) (c.toNat - 48)), rest.drop more.length)
    else if c == 'x' then
      match rest with
      | [] => .error (refuse [])
      | d :: digits =>
        if d == '\x7b' then bracedHex refuse (digits.length + 1) digits 0 0
        else
          let (r, rest) ← nextRune rest
          let (s, rest) ← nextRune rest
          match hexDigit? r, hexDigit? s with
          | some x, some y => .ok (x * 16 + y, rest)
          | _, _ => .error (refuse rest)
    else if c == 'a' then .ok (0x07, rest)
    else if c == 'f' then .ok (0x0C, rest)
    else if c == 'n' then .ok (0x0A, rest)
    else if c == 'r' then .ok (0x0D, rest)
    else if c == 't' then .ok (0x09, rest)
    else if c == 'v' then .ok (0x0B, rest)
    else if c < 0x80 && !Text.isLetter c && !Text.isDigit c then .ok (rune, rest')
    else .error (refuse rest')

/-- A named set at the head of a text: a backslash and the letter `p`, then a name of one code point
or a name in braces. The capital letter and a circumflex in front of the name each stand for the
complement. -/
def namedSet (flags : Flags) (t : Text) : Except ReadError (Option (Intervals × Text)) :=
  match t with
  | b :: p :: rest =>
    if b == Text.backslash && (p == 'p' || p == 'P') then do
      let (c, after) ← nextRune rest
      let found? : Option (Text × Text) :=
        if c != 0x7B then some (rest.take (rest.length - after.length), after)
        else
          (Text.indexOf? rest "\x7d").map fun stop => ((rest.take stop).drop 1, rest.drop (stop + 1))
      match found? with
      | none =>
        checkUtf8 t
        .error ⟨.badRange, t⟩
      | some (name, after) =>
        checkUtf8 name
        let negated := (p == 'P') != name.startsWith "^"
        match NamedSet.find? (name.dropStart "^") with
        | some ranges => .ok (some (flags.select negated ranges, after))
        | none => .error ⟨.badRange, t.take (t.length - after.length)⟩
    else .ok none
  | _ => .ok none

/-- A class written with a backslash at the head of a text, and what follows it. -/
def backslashClass? (flags : Flags) (t : Text) : Option (Intervals × Text) :=
  match t with
  | b :: c :: rest =>
    if b == Text.backslash then
      (letterClass? c).map fun (negated, ranges) => (flags.select negated ranges, rest)
    else none
  | _ => none

/-- One code point inside a class, and what follows it. -/
def classRune (whole t : Text) : Except ReadError (Rune × Text) :=
  match t with
  | [] => .error ⟨.openClass, whole⟩
  | c :: _ => if c == Text.backslash then escape t else nextRune t

/-- The ranges of a class up to its closing bracket, and what follows it. At most `bound` elements
are read. -/
def classBody (flags : Flags) (whole : Text) :
    Nat → Bool → Text → Intervals → Except ReadError (Intervals × Text)
  | 0, _, _, _ => .error ⟨.openClass, whole⟩
  | bound + 1, first, t, ranges =>
    if t.head? == some (']' : UInt8) && !first then .ok (ranges, t.drop 1)
    else do
      match ← namedClass flags t with
      | some (found, rest) => classBody flags whole bound false rest (ranges ++ found)
      | none =>
        match ← namedSet flags t with
        | some (found, rest) => classBody flags whole bound false rest (ranges ++ found)
        | none =>
          match backslashClass? flags t with
          | some (found, rest) => classBody flags whole bound false rest (ranges ++ found)
          | none =>
            let (low, rest) ← classRune whole t
            match rest with
            | dash :: next :: _ =>
              if dash == '-' && next != ']' then
                let (high, rest) ← classRune whole (rest.drop 1)
                if high < low then throw ⟨.badRange, t.take (t.length - rest.length)⟩
                else classBody flags whole bound false rest (ranges ++ flags.widen [(low, high)])
              else classBody flags whole bound false rest (ranges ++ flags.widen [(low, low)])
            | _ => classBody flags whole bound false rest (ranges ++ flags.widen [(low, low)])

/-! ## Steps -/

/-- Two literals that follow each other are one. -/
def Atom.append? (first second : Atom) : Option Atom :=
  match first.shape, second.shape with
  | .literal folded, .literal folded' =>
    if folded == folded' then
      some { first with pattern := seq first.pattern second.pattern, size := first.size + second.size }
    else none
  | _, _ => none

/-- The last two atoms of a list, which holds the last one first, become one if both are
literals. -/
def joinLast (atoms : List Atom) : List Atom :=
  match atoms with
  | second :: first :: rest =>
    match first.append? second with
    | some joined => joined :: rest
    | none => atoms
  | atoms => atoms

/-- Adds an atom. The atoms in front of it are out of reach of a repetition from now on. -/
def State.push (s : State) (atom : Atom) : State :=
  { s with atoms := atom :: joinLast s.atoms, lastRepetition := none }

/-- Adds an assertion. -/
def State.addAssertion (s : State) (assertion : Assertion) : State :=
  s.push { pattern := assert assertion }

/-- Adds a set. -/
def State.addSet (s : State) (set : RuneSet) : State :=
  let ranges := set.ranges.merged
  { s.push { pattern := one ⟨set.negated, ranges⟩ } with ends := s.ends + 2 * ranges.length }

/-- Adds a code point. -/
def State.addRune (s : State) (r : Rune) : State :=
  { s.push {
      pattern := among (s.flags.widen [(r, r)])
      shape := .literal s.flags.foldCase } with ends := s.ends + 1 }

/-- The height of a node of the given shape over some atoms. -/
def heightOver (shape : Shape) (atoms : List Atom) : Nat :=
  (atoms.map fun atom => if atom.shape == shape then atom.height else atom.height + 1).foldl max 1

/-- The size of several atoms together. -/
def sizeOver (atoms : List Atom) : Nat := atoms.foldl (fun total atom => total + atom.size) 0

/-- The atoms of an alternative, last first, as one atom. -/
def sequenced (atoms : List Atom) : Atom :=
  match joinLast atoms with
  | [] => { pattern := empty }
  | [atom] => atom
  | atoms =>
    { pattern := inOrder (atoms.reverse.map (·.pattern))
      weight := (atoms.map (·.weight)).foldl max 1
      size := sizeOver atoms
      height := heightOver .sequence atoms
      shape := .sequence }

/-- The alternatives of a group as one atom. -/
def State.closed (s : State) : Atom :=
  match sequenced s.atoms :: s.alternatives with
  | [atom] => atom
  | all =>
    { pattern := oneOfAll (all.reverse.map (·.pattern))
      weight := (all.map (·.weight)).foldl max 1
      size := sizeOver all + all.length - 1
      height := heightOver .choice all
      shape := .choice }

/-- Opens a group. -/
def State.openGroup (s : State) (remembered : Bool) (flags : Flags) : State :=
  let groups := if remembered then s.groups + 1 else s.groups
  { flags := flags, groups := groups, ends := s.ends
    frames := ⟨s.flags, if remembered then some groups else none, s.alternatives, s.atoms⟩ ::
      s.frames }

/-- Closes the innermost group. -/
def State.closeGroup? (s : State) : Option State :=
  match s.frames with
  | [] => none
  | frame :: frames =>
    let body := s.closed
    let atom := match frame.index with
      | some index =>
        { body with
          pattern := .group index body.pattern, size := body.size + 2, height := body.height + 1
          shape := .single }
      | none => body
    let outside : State := {
      flags := frame.flags, alternatives := frame.alternatives, atoms := frame.atoms
      frames := frames, groups := s.groups, ends := s.ends }
    some (outside.push atom)

/-- `n` copies of a pattern. -/
def copies (p : Pattern) (n : Nat) : Pattern := inOrder (List.replicate n p)

/-- At most `n` copies of a pattern, as many as possible when greedy. -/
def atMost (greedy : Bool) (p : Pattern) : Nat → Pattern
  | 0 => empty
  | n + 1 =>
    if greedy then alt (seq p (atMost greedy p n)) empty else alt empty (seq p (atMost greedy p n))

/-- A pattern repeated at least `low` times, and at most `high` times if there is a bound. -/
def repeated (greedy : Bool) (p : Pattern) (low : Nat) (high : Option Nat) : Pattern :=
  match high with
  | none => seq (copies p low) (star greedy p)
  | some high => seq (copies p low) (atMost greedy p (high - low))

/-- A repetition of an atom. Counted repetitions multiply weight and size. -/
def Atom.repeated (atom : Atom) (greedy : Bool) (low : Nat) (high : Option Nat) (counted : Bool) :
    Atom :=
  let factor := match high with
    | some high => high
    | none => low
  { pattern := Reader.repeated greedy atom.pattern low high
    weight :=
      if !counted then atom.weight
      else if high == some 0 then 1
      else if factor == 0 then atom.weight
      else factor * atom.weight
    size :=
      match counted, high with
      | true, some high => max 1 (high * atom.size + (high - low))
      | true, none => if low == 0 then atom.size + 2 else low * atom.size + 1
      | false, some _ => atom.size + 1
      | false, none => if low == 0 then atom.size + 2 else atom.size + 1
    height := atom.height + 1 }

/-- Applies a repetition in the expression `whole` to the last atom. `before` is the expression from
the repetition on, `after` what follows it. Returns how many bytes were read. -/
def State.repetition (whole : Text) (s : State) (low : Nat) (high : Option Nat) (counted : Bool)
    (before after : Text) : Except ReadError (Nat × State) :=
  let reluctant := after.head? == some ('?' : UInt8)
  let after := if reluctant then after.drop 1 else after
  let read := before.length - after.length
  match s.lastRepetition with
  | some last => .error ⟨.nestedRepetition, last.take (last.length - after.length)⟩
  | none =>
    match s.atoms with
    | [] => .error ⟨.nothingRepeated, before.take read⟩
    | atom :: atoms =>
      let atom := atom.repeated (reluctant == s.flags.reluctant) low high counted
      match atom.fault? with
      | some fault => .error ⟨fault, whole⟩
      | none =>
        if counted && (2 ≤ low || high.any (2 ≤ ·)) && 1000 < atom.weight then
          .error ⟨.badCount, before.take read⟩
        else .ok (read, { s with atoms := atom :: atoms, lastRepetition := some before })

/-- Digits of a count at the head of a text: none when there are no digits or a superfluous zero
leads them. A count that is too large is reported as one above every limit. -/
def count? (t : Text) : Option (Nat × Text) :=
  let digits := t.takeWhile Text.isDigit
  if digits.isEmpty || (1 < digits.length && digits.head? == some ('0' : UInt8)) then none
  else
    let n := if 8 < digits.length then 100000000 else (Text.toNat? digits).getD 0
    some (n, t.drop digits.length)

/-- The bounds of a counted repetition behind its opening brace, and what follows; `none` when the
brace is no repetition. -/
def bounds? (t : Text) : Option (Nat × Option Nat × Text) := do
  let (low, rest) ← count? t
  match rest with
  | c :: rest =>
    if c == '\x7d' then some (low, some low, rest)
    else if c == ',' then
      match rest with
      | d :: rest' =>
        if d == '\x7d' then some (low, none, rest')
        else do
          let (high, rest) ← count? rest
          match rest with
          | e :: rest => if e == '\x7d' then some (low, some high, rest) else none
          | [] => none
      | [] => none
    else none
  | [] => none

/-- Whether a text is a group name. -/
def isGroupName (t : Text) : Bool := !t.isEmpty && t.all Text.isWord

/-- The flags of a group, from the position behind `(?` on. Returns the flags, whether a group is
opened, and the rest; on failure the rest behind the offending code point is refused. -/
def groupFlags (refuse : Text → ReadError) :
    Nat → Text → Flags → Bool → Bool → Except ReadError (Flags × Bool × Text)
  | 0, t, _, _, _ => .error (refuse t)
  | bound + 1, t, flags, off, seen =>
    if t.isEmpty then .error (refuse t)
    else do
      let (c, rest) ← nextRune t
      if c == 0x69 then groupFlags refuse bound rest { flags with foldCase := !off } off true
      else if c == 0x6D then groupFlags refuse bound rest { flags with multiLine := !off } off true
      else if c == 0x73 then groupFlags refuse bound rest { flags with dotAll := !off } off true
      else if c == 0x55 then groupFlags refuse bound rest { flags with reluctant := !off } off true
      else if c == 0x2D then
        if off then .error (refuse rest) else groupFlags refuse bound rest flags true false
      else if c == 0x3A || c == 0x29 then
        if off && !seen then .error (refuse rest) else .ok (flags, c == 0x3A, rest)
      else .error (refuse rest)

/-- Reads what stands behind an opening parenthesis with a question mark. -/
def State.special (s : State) (t : Text) : Except ReadError (Nat × State) :=
  let named? : Option Nat :=
    if 4 < t.length && Text.startsWith (t.drop 2) "P<" then some 4
    else if 3 < t.length && Text.startsWith (t.drop 2) "<" then some 3
    else none
  match named? with
  | some start =>
    match t.indexOf? ">" with
    | none => do
      checkUtf8 t
      .error ⟨.badGroupName, t⟩
    | some stop => do
      checkUtf8 (t.slice start stop)
      if isGroupName (t.slice start stop) then
        .ok (stop + 1, s.openGroup true s.flags)
      else .error ⟨.badGroupName, t.take (stop + 1)⟩
  | none => do
    let refuse (rest : Text) : ReadError := ⟨.badGroup, t.take (t.length - rest.length)⟩
    let (flags, opens, rest) ← groupFlags refuse t.length (t.drop 2) s.flags false false
    let read := t.length - rest.length
    if opens then .ok (read, s.openGroup false flags)
    else .ok (read, { s with flags := flags, lastRepetition := none })

/-- Reads what begins with a backslash. -/
def State.backslashed (s : State) (t : Text) : Except ReadError (Nat × State) := do
  let simple? : Option Assertion := match t.drop 1 with
    | c :: _ =>
      if c == 'A' then some .textStart
      else if c == 'b' then some .wordEdge
      else if c == 'B' then some .noWordEdge
      else if c == 'z' then some .textEnd
      else none
    | [] => none
  match simple? with
  | some assertion => return (2, s.addAssertion assertion)
  | none =>
    if t.startsWith "\\C" then throw ⟨.badEscape, t.take 2⟩
    else if t.startsWith "\\Q" then
      let body : Text := t.drop 2
      let (literal, read) : Text × Nat := match body.indexOf? "\\E" with
        | some stop => (body.take stop, stop + 4)
        | none => (body, t.length)
      checkUtf8 literal
      return (read, literal.runes.foldl State.addRune { s with lastRepetition := none })
    else
      match ← namedSet s.flags t with
      | some (ranges, rest) => return (t.length - rest.length, s.addSet ⟨false, ranges⟩)
      | none =>
        match backslashClass? s.flags t with
        | some (ranges, rest) => return (t.length - rest.length, s.addSet ⟨false, ranges⟩)
        | none =>
          let (r, rest) ← escape t
          return (t.length - rest.length, s.addRune r)

/-- Reads one element of the expression `whole` at the head of `c :: t`. Returns how many bytes
were read. -/
def State.step (whole : Text) (s : State) (c : UInt8) (t : Text) :
    Except ReadError (Nat × State) :=
  if c == '(' then
    if t.head? == some ('?' : UInt8) then s.special (c :: t)
    else .ok (1, s.openGroup true s.flags)
  else if c == '|' then
    .ok (1, { s with
      alternatives := sequenced s.atoms :: s.alternatives, atoms := [], lastRepetition := none })
  else if c == ')' then
    match s.closeGroup? with
    | some s => .ok (1, s)
    | none => .error ⟨.strayParenthesis, whole⟩
  else if c == '^' then
    .ok (1, s.addAssertion (if s.flags.multiLine then .lineStart else .textStart))
  else if c == '$' then
    .ok (1, s.addAssertion (if s.flags.multiLine then .lineEnd else .textEnd))
  else if c == '.' then .ok (1, s.push { pattern := if s.flags.dotAll then anyRune else inLine })
  else if c == '[' then do
    let negated := t.head? == some ('^' : UInt8)
    let body := if negated then t.drop 1 else t
    let (ranges, rest) ← classBody s.flags (c :: t) (t.length + 1) true body []
    return (t.length + 1 - rest.length, s.addSet ⟨negated, ranges⟩)
  else if c == '*' then s.repetition whole 0 none false (c :: t) t
  else if c == '+' then s.repetition whole 1 none false (c :: t) t
  else if c == '?' then s.repetition whole 0 (some 1) false (c :: t) t
  else if c == '\x7b' then
    match bounds? t with
    | none => .ok (1, s.addRune 0x7B)
    | some (low, high, rest) =>
      if 1000 < low || high.any (1000 < ·) || high.any (· < low) then
        .error ⟨.badCount, (c :: t).take (t.length + 1 - rest.length)⟩
      else s.repetition whole low high true (c :: t) rest
  else if c == Text.backslash then s.backslashed (c :: t)
  else if isStray c t then .error ⟨.invalidUtf8, c :: t⟩
  else
    let (r, more) := Text.decodeHead c t
    .ok (more + 1, s.addRune r)

/-- The fault of a state in which something has grown beyond the limits. -/
def State.fault? (s : State) : Option ReadFault :=
  if intervalLimit < s.ends then some .tooLarge
  else (s.atoms.head?.bind Atom.fault?).or (s.alternatives.head?.bind Atom.fault?)

/-- Reads an expression to its end. The next `skip` bytes belong to an element that was already
read. -/
def run (whole : Text) : Text → Nat → State → Except ReadError State
  | [], _, s => .ok s
  | _ :: t, skip + 1, s => run whole t skip s
  | c :: t, 0, s => do
    let (read, s) ← s.step whole c t
    match s.fault? with
    | some fault => throw ⟨fault, whole⟩
    | none => run whole t (read - 1) s

end Reader

/-- The pattern that an expression describes. -/
def read (t : Text) : Except ReadError Pattern := do
  let s ← Reader.run t t 0 {}
  match s.closed.fault? with
  | some fault => throw ⟨fault, t⟩
  | none => if s.frames.isEmpty then return s.closed.pattern else throw ⟨.openGroup, t⟩

end FlowTrace.Pattern
