import FlowTrace.Storage.Path
import FlowTrace.Text.Blank

/-! # Environments and their files

A program finds variables in its environment, and in a file that adds those that are missing. -/

/-! ## Variables

An **environment** is a list of named variables. A variable that is missing and one that is empty
are different where variables are added, and the same where they are used. -/

namespace FlowTrace

/-- An **environment**: names and values, each name once. -/
structure Environment where
  /-- The variables. -/
  bindings : List (Text × Text) := []
  deriving Repr

namespace Environment

/-- Whether a variable is there. -/
def has (env : Environment) (name : Text) : Bool := env.bindings.any (·.1 == name)

/-- The value of a variable, empty when it is missing. -/
def get (env : Environment) (name : Text) : Text :=
  ((env.bindings.find? (·.1 == name)).map (·.2)).getD []

/-- The value of a variable, unless it is empty. -/
def get? (env : Environment) (name : Text) : Option Text :=
  let value := env.get name
  if value.isEmpty then none else some value

/-- Adds a variable unless there is one of its name. Names without a letter, names with an equals
sign and anything with a zero byte are not accepted. -/
def add (env : Environment) (name value : Text) : Environment :=
  let isProper := !name.isEmpty && !name.contains ('=' : UInt8) && !name.contains 0 &&
    !value.contains 0
  if isProper && !env.has name then { env with bindings := env.bindings ++ [(name, value)] }
  else env

/-- The home directory, empty when it is not known. -/
def home (env : Environment) : Text := env.get "HOME"

/-- A path with the home directory in place of a leading `~/`. -/
def expandHome (env : Environment) (path : Text) : Text :=
  if path.startsWith "~/" && !env.home.isEmpty then Path.join [env.home, path.drop 2] else path

/-- A variable that is there stays as it is. -/
theorem add_of_has (env : Environment) {name : Text} (value : Text) (h : env.has name = true) :
    env.add name value = env := by
  simp [add, h]

end Environment

end FlowTrace

/-! ## Files of variables

A file may hold variables, one behind the other: a name, an equals sign or a colon, and a value. A
value in quotation marks may span lines; any other ends with its line or before a comment. Values
refer to variables defined above them with a dollar sign. A file with a mistake defines nothing. -/

namespace FlowTrace.Environment

/-- Bindings defined so far, the latest first. -/
abbrev Definitions := List (Text × Text)

/-- The value of a variable defined so far. -/
def Definitions.value (definitions : Definitions) (name : Text) : Text :=
  ((definitions.find? (·.1 == name)).map (·.2)).getD []

/-- Whether a code point is a blank inside a line. -/
def isLineBlank (r : Rune) : Bool :=
  r == 0x09 || r == 0x0B || r == 0x0C || r == 0x0D || r == 0x20 || r == 0x85 || r == 0xA0

/-- The text without blanks at the beginning of its line. -/
def dropLineBlanks (t : Text) : Text :=
  Text.ofGlyphs (t.glyphs.dropWhile fun g => isLineBlank g.rune)

/-- The text without blanks at its two ends. -/
def trimLineBlanks (t : Text) : Text :=
  let gs := t.glyphs.dropWhile fun g => isLineBlank g.rune
  Text.ofGlyphs (gs.reverse.dropWhile fun g => isLineBlank g.rune).reverse

/-- Whether the code point of a single byte is a letter or a number. -/
def isNameByte (c : UInt8) : Bool :=
  Text.isWord c || c == '.' || c == 0xAA || c == 0xB2 || c == 0xB3 || c == 0xB5 || c == 0xB9 ||
    c == 0xBA || (0xBC ≤ c && c ≤ 0xBE) || (0xC0 ≤ c && c != 0xD7 && c != 0xF7)

/-! ## References and escapes -/

/-- Whether a byte can stand in the name of a variable that is referred to. -/
def isReferenceByte (c : UInt8) : Bool := ('A' ≤ c && c ≤ 'Z') || Text.isDigit c || c == '_'

/-- The length of a reference at the head of a text, and the name it refers to. Behind the dollar
sign there may be a parenthesis and a brace. -/
def reference (t : Text) : Nat × Text :=
  let rest := t.drop 1
  let rest := if rest.head? == some ('(' : UInt8) then rest.drop 1 else rest
  let rest := if rest.head? == some ('\x7b' : UInt8) then rest.drop 1 else rest
  let name := rest.takeWhile isReferenceByte
  let rest := rest.drop name.length
  let rest := if rest.head? == some ('\x7d' : UInt8) then rest.drop 1 else rest
  (t.length - rest.length, name)

/-- The text with references replaced by values. A reference behind a backslash stays and loses
the backslash; one without a name stays. -/
def expand (definitions : Definitions) (t : Text) : Text := go t 0
where
  /-- `skip` bytes are part of what was dealt with before. -/
  go : Text → Nat → Text
    | [], _ => []
    | _ :: rest, skip + 1 => go rest skip
    | c :: rest, 0 =>
      if c == Text.backslash && rest.head? == some ('$' : UInt8) then
        let (length, _) := reference rest
        rest.take length ++ go rest length
      else if c == '$' then
        let (length, name) := reference (c :: rest)
        (if name.isEmpty then (c :: rest).take length else definitions.value name) ++
          go rest (length - 1)
      else c :: go rest 0

/-- The text with the escapes for line ends replaced. -/
def lineEscapes : Text → Text
  | c :: d :: rest =>
    if c == Text.backslash && d != Text.newline then
      (if d == 'n' then [Text.newline] else if d == 'r' then [0x0D] else [c, d]) ++
        lineEscapes rest
    else c :: lineEscapes (d :: rest)
  | rest => rest

/-- The text without backslashes in front of anything but a dollar sign. -/
def dropBackslashes : Text → Text
  | c :: d :: rest =>
    if c == Text.backslash && d != '$' then d :: dropBackslashes rest
    else c :: dropBackslashes (d :: rest)
  | rest => rest

/-! ## Statements -/

/-- The text from its next statement on: without blank lines and comments. -/
def toStatement : Nat → Text → Text
  | 0, _ => []
  | bound + 1, t =>
    let t := Text.ofGlyphs (t.glyphs.dropWhile Text.Glyph.isBlank)
    if t.head? == some ('#' : UInt8) then
      toStatement bound (t.dropWhile fun c => c != Text.newline)
    else t

/-- The text behind the word `export` and the blanks that follow it. -/
def dropExport (t : Text) : Text :=
  let t := dropLineBlanks t
  if t.startsWith "export" then
    let rest : Text := t.drop 6
    if rest.glyphs.head?.any fun g => isLineBlank g.rune then dropLineBlanks rest else t
  else t

/-- Reads the name of a variable up to its equals sign or colon. A last line without either is a
value without a name. -/
def name? (t : Text) : Option (Text × Text) :=
  let t := dropExport t
  let isSign (c : UInt8) : Bool := c == '=' || c == ':'
  let name := t.takeWhile fun c => !isSign c
  if !name.all fun c => isLineBlank c.toNat || isNameByte c then none
  else if name.length == t.length then if t.isEmpty then none else some ([], dropLineBlanks t)
  else
    let trimmed := ((Text.glyphs name).reverse.dropWhile Text.Glyph.isBlank).reverse
    some (Text.ofGlyphs trimmed, dropLineBlanks (t.drop (name.length + 1)))

/-- Where a value in quotation marks ends: at the next mark without a backslash in front of it. -/
def closing? (mark : UInt8) : Text → UInt8 → Nat → Option Nat
  | [], _, _ => none
  | c :: rest, before, n =>
    if c == mark && before != Text.backslash then some n else closing? mark rest c (n + 1)

/-- The text of a line up to a comment that follows a blank. -/
def beforeComment : List Text.Glyph → Bool → Text
  | [], _ => []
  | g :: gs, afterBlank =>
    if afterBlank && g.rune == 0x23 then []
    else Text.ofRune g.rune ++ beforeComment gs (isLineBlank g.rune)

/-- Reads a value. Given are the value and the rest. -/
def value? (definitions : Definitions) (t : Text) : Option (Text × Text) :=
  match t with
  | [] => some ([], [])
  | mark :: rest =>
    if mark == Text.doubleQuote || mark == Text.apostrophe then
      (closing? mark rest mark 0).map fun length =>
        let inner := Text.trimRight (Text.trimLeft (rest.take length) (· == mark)) (· == mark)
        let value := if mark == Text.doubleQuote then
            expand definitions (dropBackslashes (lineEscapes inner))
          else inner
        (value, rest.drop (length + 1))
    else
      let line := t.takeWhile fun c => c != Text.newline && c != 0x0D
      some (expand definitions (trimLineBlanks (beforeComment (Text.glyphs line) false)),
        t.drop line.length)

/-- Reads statements to the end. At most `bound` of them are read. -/
def statements? : Nat → Text → Definitions → Option Definitions
  | 0, _, _ => none
  | bound + 1, t, definitions =>
    let t := toStatement (t.length + 1) t
    if t.isEmpty then some definitions
    else do
      let (name, rest) ← name? t
      let (value, rest) ← value? definitions rest
      statements? bound rest ((name, value) :: definitions)

/-- The variables that a file defines; `none` when there is a mistake in it. -/
def definitions? (t : Text) : Option Definitions :=
  let t := t.replace [0x0D, 0x0A] [0x0A]
  statements? (t.length + 1) t []

/-- The environment with the variables of a file that it does not have yet. -/
def withFile (env : Environment) (t : Text) : Environment :=
  ((definitions? t).getD []).foldl (fun env (name, value) => env.add name value) env

end FlowTrace.Environment
