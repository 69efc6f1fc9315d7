import FlowTrace.Yaml.Token

/-! # Where the reading of tokens stands

A **cursor** is the state between two tokens: the input left, its position, the blocks that are open
by layout, and the tokens so far. Whether a scalar is the key of a table shows only at the colon
behind it; so the cursor remembers for each nesting of brackets where a key may begin
(`PossibleKey`), and the key token is put in there later. -/

namespace FlowTrace.Yaml

/-- The largest number of blocks, or of brackets, inside each other. -/
def nestingLimit : Nat := 10000

/-- The largest distance between the beginning of a key and its colon. -/
def keyLimit : Nat := 1024

/-- A place where a key may begin. -/
structure PossibleKey where
  /-- The number of tokens before it. -/
  number : Nat
  /-- The line. -/
  line : Nat
  /-- The column. -/
  column : Nat
  /-- The number of characters before it. -/
  offset : Nat
  /-- Whether the layout asks for a key here. -/
  required : Bool
  deriving Repr

/-- The state of the reading. -/
structure Cursor where
  /-- The input left. -/
  rest : List Char
  /-- The line of the next character. -/
  line : Nat := 0
  /-- The column of the next character. -/
  column : Nat := 0
  /-- The number of characters read. -/
  offset : Nat := 0
  /-- The indentation of the innermost block, `-1` outside all blocks. -/
  indent : Int := -1
  /-- The indentations of the blocks around it. -/
  outer : List Int := []
  /-- The possible key inside the innermost brackets. -/
  key : Option PossibleKey := none
  /-- The possible keys around the brackets that are open, innermost first. -/
  flow : List (Option PossibleKey) := []
  /-- Whether a key may begin at the next token. -/
  keyAllowed : Bool := true
  /-- The tokens so far, the latest first. -/
  done : List Token := []
  deriving Repr

namespace Cursor

/-- Whether the cursor is inside brackets. -/
def inFlow (s : Cursor) : Bool := !s.flow.isEmpty

/-- Reads one character. -/
def skip (s : Cursor) : Cursor :=
  match s.rest with
  | [] => s
  | c :: rest =>
    if isBreak c then
      { s with rest := rest, line := s.line + 1, column := 0, offset := s.offset + 1 }
    else { s with rest := rest, column := s.column + 1, offset := s.offset + 1 }

/-- Reads several characters. -/
def skipMany (s : Cursor) : Nat → Cursor
  | 0 => s
  | n + 1 => s.skip.skipMany n

/-- Reads up to characters that the input ends with. -/
def skipTo (s : Cursor) (rest : List Char) : Cursor := s.skipMany (s.rest.length - rest.length)

/-- Reads the characters at the head that satisfy a predicate. -/
def skipWhile (s : Cursor) (p : Char → Bool) : Cursor := s.skipMany (s.rest.takeWhile p).length

/-- Reads up to the end of the line. -/
def skipLine (s : Cursor) : Cursor := s.skipWhile fun c => !isBreak c

/-- Reads a comment behind a token, on the same line. -/
def skipRemark (s : Cursor) : Cursor :=
  if (s.rest.dropWhile isSpacing).head? == some '#' then s.skipLine else s

/-- Adds a token. -/
def emit (s : Cursor) (token : Token) : Cursor := { s with done := token :: s.done }

/-- Puts a token in at a place, given by the number of tokens before it. -/
def insertAt (s : Cursor) (number : Nat) (token : Token) : Cursor :=
  let behind := s.done.length - number
  { s with done := s.done.take behind ++ token :: s.done.drop behind }

/-! ## Blocks and brackets -/

/-- Opens a block at a column, if it is indented further than the block around it. The token of
the block is put in at a place. -/
def openBlock (s : Cursor) (column number : Nat) (token : Token) : Option Cursor :=
  if s.inFlow || (column : Int) ≤ s.indent then some s
  else if nestingLimit ≤ s.outer.length then none
  else some ({ s with outer := s.indent :: s.outer, indent := column }.insertAt number token)

/-- Closes the blocks that are indented further than a column. -/
def closeBlocks (column : Int) : List Int → Cursor → Cursor
  | [], s => s
  | parent :: outer, s =>
    if s.indent ≤ column then s
    else closeBlocks column outer ({ s with indent := parent, outer := outer }.emit .blockEnd)

/-- Closes the blocks that end before a column, outside brackets. -/
def unindent (s : Cursor) (column : Int) : Cursor :=
  if s.inFlow then s else closeBlocks column s.outer s

/-- Opens brackets. -/
def openFlow (s : Cursor) : Option Cursor :=
  if nestingLimit ≤ s.flow.length then none
  else some { s with flow := s.key :: s.flow, key := none, keyAllowed := true }

/-- Closes brackets, if there are any. -/
def closeFlow (s : Cursor) : Cursor :=
  match s.flow with
  | [] => { s with keyAllowed := false }
  | key :: flow => { s with key := key, flow := flow, keyAllowed := false }

/-! ## Possible keys -/

/-- Whether the cursor is still near enough to a possible key. -/
def reaches (s : Cursor) (key : PossibleKey) : Bool :=
  key.line == s.line && s.offset ≤ key.offset + keyLimit

/-- The possible key, if the cursor still reaches it. A key that is required cannot be given up. -/
def currentKey? (s : Cursor) : Option (Option PossibleKey) :=
  match s.key with
  | none => some none
  | some key =>
    if s.reaches key then some (some key)
    else if key.required then none
    else some none

/-- Gives up the possible key. -/
def dropKey (s : Cursor) : Option Cursor :=
  if s.key.any (·.required) then none else some { s with key := none }

/-- Remembers that a key may begin here. -/
def saveKey (s : Cursor) : Option Cursor :=
  if !s.keyAllowed then some s
  else do
    let required := !s.inFlow && s.indent == (s.column : Int)
    let s ← s.dropKey
    return { s with key := some ⟨s.done.length, s.line, s.column, s.offset, required⟩ }

/-- The number of tokens before the first one that may still turn out to be a key. -/
def waiting (s : Cursor) : Nat :=
  (s.key :: s.flow).foldl (fun least key? =>
    match key? with
    | some key => if s.reaches key then min key.number least else least
    | none => least) s.done.length

end Cursor

end FlowTrace.Yaml
