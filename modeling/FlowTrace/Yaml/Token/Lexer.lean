import FlowTrace.Yaml.Token
import FlowTrace.Yaml.Token.Scalar

/-! # Cutting a document into tokens

`Token.scan` reads one token after the other (`Cursor.step?`). Where there is none, because the
input is not YAML, the tokens end with a broken one. -/

/-! ## Tags and directives

A **tag** gives a type to a node. It is written in full, `!<address>`, or with a handle in front,
`!handle!suffix`, that a **directive** at the beginning of the document explains. The functions here
read one of them from the head of a list of characters, and give the characters that follow. -/

namespace FlowTrace.Yaml

/-- Whether a character may stand in the address of a tag as itself. -/
def isAddressPart (c : Char) : Bool := isNamePart c || ";/?:@&=+$,.!~*'()[]".toList.contains c

/-- The number of octets of a character that are still to come behind one of its octets, if `more`
were to come before; `none` when the octet cannot stand there. -/
def octetsBehind? (more octet : Nat) : Option Nat :=
  match more with
  | n + 1 => if 0x80 ≤ octet && octet < 0xC0 then some n else none
  | 0 =>
    if octet < 0x80 then some 0
    else if octet < 0xC0 then none
    else if octet < 0xE0 then some 1
    else if octet < 0xF0 then some 2
    else if octet < 0xF8 then some 3
    else none

/-- Reads the **address** of a tag, of which `more` octets of a character are still to come. Octets
may be written with a percent sign and two digits. -/
def address? : Nat → List Char → Option (Text × List Char)
  | more, '%' :: a :: b :: cs =>
    match (hexNumber? [a, b]).bind fun octet => (octetsBehind? more octet).map fun n => (octet, n) with
    | none => none
    | some (octet, more) => (address? more cs).map fun (t, rest) => (octet.toUInt8 :: t, rest)
  | more, [] => if more == 0 then some ([], []) else none
  | more, c :: cs =>
    if more != 0 || c == '%' then none
    else if isAddressPart c then (address? 0 cs).map fun (t, rest) => (c.toUInt8 :: t, rest)
    else some ([], c :: cs)

/-- Reads an address that may not be empty. -/
def someAddress? (cs : List Char) : Option (Text × List Char) :=
  (address? 0 cs).filter fun (t, _) => !t.isEmpty

/-- Reads the **handle** of a tag, from its exclamation mark to the next one. The second mark may be
missing. -/
def tagHandle? : List Char → Option (Text × List Char)
  | '!' :: cs =>
    let name := cs.takeWhile isNamePart
    match cs.drop name.length with
    | '!' :: rest => some (textOf ('!' :: (name ++ ['!'])), rest)
    | rest => some (textOf ('!' :: name), rest)
  | _ => none

/-- Whether a handle is complete, with a mark at both ends. -/
def isWholeHandle (handle : Text) : Bool := 1 < handle.length && handle.endsWith "!"

/-- Reads a **tag**. One without a handle has the handle `!`; the exclamation mark alone is a tag
without any. -/
def tag? (cs : List Char) : Option (Token × List Char) := do
  let (token, rest) ← match cs with
    | '!' :: '<' :: cs => do
      let (address, rest) ← someAddress? cs
      match rest with
      | '>' :: rest => some (Token.tag [] address, rest)
      | _ => none
    | _ => do
      let (handle, rest) ← tagHandle? cs
      if isWholeHandle handle then
        let (suffix, rest) ← someAddress? rest
        some (Token.tag handle suffix, rest)
      else
        let (address, rest) ← address? 0 rest
        let suffix := handle.drop 1 ++ address
        some (if suffix.isEmpty then Token.tag [] "!" else Token.tag "!" suffix, rest)
  if startsBlank rest then some (token, rest) else none

/-- Reads a number of one or two digits. -/
def versionNumber? (cs : List Char) : Option (Nat × List Char) :=
  let digits := cs.takeWhile Char.isDigit
  if digits.length == 1 || digits.length == 2 then
    some (digits.foldl (fun n c => n * 10 + (c.toNat - 48)) 0, cs.drop digits.length)
  else none

/-- Reads the version of the format. -/
def version? (cs : List Char) : Option (Token × List Char) := do
  let (major, rest) ← versionNumber? cs
  match rest with
  | '.' :: rest =>
    let (minor, rest) ← versionNumber? rest
    some (.version major minor, rest)
  | _ => none

/-- Reads a handle and what it stands for. -/
def handle? (cs : List Char) : Option (Token × List Char) := do
  let (name, rest) ← tagHandle? cs
  if !(name == "!" || isWholeHandle name) || !rest.head?.any isSpacing then none
  else
    let (start, rest) ← someAddress? (rest.dropWhile isSpacing)
    if startsBlank rest then some (.handle name start, rest) else none

/-- Reads a **directive** behind its percent sign, with a comment and the end of the line. -/
def directive? (cs : List Char) : Option (Token × List Char) := do
  let name := cs.takeWhile isNamePart
  let rest := cs.drop name.length
  if !startsBlank rest then none
  else
    let value := rest.dropWhile isSpacing
    let (token, rest) ←
      if name == "YAML".toList then version? value
      else if name == "TAG".toList then handle? value
      else none
    let rest := rest.dropWhile isSpacing
    let rest := if rest.head? == some '#' then rest.dropWhile fun c => !isBreak c else rest
    if startsBreak rest then some (token, rest.drop 1) else none

end FlowTrace.Yaml

/-! ## Tokens -/

namespace FlowTrace.Yaml

namespace Cursor

/-- Reads blanks, comments and the ends of lines. Behind the end of a line a key may begin, and then
tabs are no blanks, except between two lines of comments. -/
def toNext : Nat → Cursor → Cursor
  | 0, s => s
  | bound + 1, s =>
    match s.rest with
    | [] => s
    | c :: _ =>
      if c == ' ' || (c == '\t' && (s.inFlow || !s.keyAllowed)) then toNext bound s.skip
      else if c == '#' then
        let s := s.skipLine
        let next := s.skipWhile fun c => isSpacing c || c == '\n'
        toNext bound (if s.rest.head? == some '\n' && next.rest.head? == some '#' then next else s)
      else if isBreak c then
        let s := s.skip
        toNext bound (if s.inFlow then s else { s with keyAllowed := true })
      else s

/-- The name of an anchor or alias at the head of the input. -/
def name? (cs : List Char) : Option (List Char) :=
  let name := cs.takeWhile isNamePart
  let rest := cs.drop name.length
  if name.isEmpty then none
  else if startsBlank rest || rest.head?.any "?:,]\x7d%@`".toList.contains then some name
  else none

/-- Whether a plain scalar may begin with the head of the input. -/
def startsPlain (s : Cursor) (c : Char) (rest : List Char) : Bool :=
  !(isSpacing c || isBreak c || "-?:,[]\x7b\x7d#&*!|>'\"%@`".toList.contains c) ||
    (c == '-' && !rest.head?.any isSpacing) ||
    (!s.inFlow && (c == '?' || c == ':') && !startsBlank rest)

/-- A mark of one character, given up the possible key. -/
def mark? (s : Cursor) (keyAllowed : Bool) (token : Token) : Option Cursor :=
  s.dropKey.map fun s => { s with keyAllowed := keyAllowed }.skip.emit token

/-- The colon behind a key, or in front of a value whose key was marked. -/
def colon? (s : Cursor) : Option Cursor := do
  match ← s.currentKey? with
  | some key =>
    let s ← (s.insertAt key.number .key).openBlock key.column key.number .tableStart
    return { s with key := none, keyAllowed := false }.skip.emit .colon
  | none =>
    if !s.inFlow && !s.keyAllowed then none
    else
      let s ← s.openBlock s.column s.done.length .tableStart
      return { s with keyAllowed := !s.inFlow }.skip.emit .colon

/-- Reads a token that stands on one line, or a plain scalar. -/
def inline? (bound : Nat) (s : Cursor) (c : Char) (rest : List Char) : Option Cursor := do
  if c == '[' || c == '\x7b' then
    let s ← (← s.saveKey).openFlow
    return s.skip.emit (if c == '[' then .bracketOpen else .braceOpen)
  else if c == ']' || c == '\x7d' then
    return (← s.dropKey).closeFlow.skip.emit (if c == ']' then .bracketClose else .braceClose)
  else if c == ',' then s.mark? true .comma
  else if c == '?' && (s.inFlow || startsBlank rest) then
    if !s.inFlow && !s.keyAllowed then none
    else (← s.openBlock s.column s.done.length .tableStart).mark? (!s.inFlow) .key
  else if c == ':' && (s.inFlow || startsBlank rest) then s.colon?
  else if c == '*' || c == '&' then
    let s ← s.saveKey
    let name ← name? rest
    return ({ s with keyAllowed := false }.skipMany (name.length + 1)).emit
      (if c == '*' then .alias (textOf name) else .anchor (textOf name))
  else if c == '!' then
    let s ← s.saveKey
    let (token, rest) ← tag? s.rest
    return ({ s with keyAllowed := false }.skipTo rest).emit token
  else if c == '\x27' || c == '\x22' then
    let s ← s.saveKey
    let (s, text) ← quoted c bound { s with keyAllowed := false }.skip [] {}
    return s.emit (.scalar text false)
  else if s.startsPlain c rest then
    let s ← s.saveKey
    let (s, text) ← plain (s.indent + 1) bound { s with keyAllowed := false } [] {}
    return s.emit (.scalar text true)
  else none

/-- Whether the latest token ended a line: a plain scalar may read beyond its last line. -/
def endedLine (s : Cursor) : Bool :=
  s.keyAllowed && s.done.head?.any fun token =>
    match token with
    | .scalar .. => true
    | _ => false

/-- Reads one token, given the character at the head of the input. -/
def token? (bound : Nat) (s : Cursor) (c : Char) (rest : List Char) : Option Cursor := do
  if s.column == 0 && c == '%' then
    let s ← (s.unindent (-1)).dropKey
    let (token, rest) ← directive? rest
    return ({ s with keyAllowed := false }.skipTo rest).emit token
  else if s.column == 0 && startsMark s.rest then
    let s ← (s.unindent (-1)).dropKey
    return ({ s with keyAllowed := false }.skipMany 3).emit
      (if c == '-' then .documentStart else .documentEnd)
  else if c == '-' && startsBlank rest then
    if !s.inFlow && !s.keyAllowed then none
    else (← s.openBlock s.column s.done.length .listStart).mark? true .dash
  else if (c == '|' || c == '>') && !s.inFlow then
    let (s, text) ← block bound (c == '|') (← s.dropKey).skip
    return { s with keyAllowed := true }.emit (.scalar text false)
  else
    let s ← s.inline? bound c rest
    return if s.endedLine then s else s.skipRemark

/-- Reads one token, with the layout tokens in front of it. At the end of the input there are only
those. -/
def step? (bound : Nat) (s : Cursor) : Option Cursor :=
  let s := toNext bound s
  match s.rest with
  | [] => (s.unindent (-1)).dropKey
  | c :: rest => (s.unindent s.column).token? bound c rest

/-- Reads all tokens. -/
def run : Nat → Cursor → Cursor
  | 0, s => s
  | bound + 1, s =>
    match s.step? (bound + 1) with
    | none => s.emit (.broken s.waiting)
    | some next => if next.rest.isEmpty && s.rest.isEmpty then next else run bound next

end Cursor

/-- The **tokens** of a document. -/
def Token.scan (cs : List Char) : List Token :=
  (Cursor.run (cs.length + 2) { rest := cs }).done.reverse

end FlowTrace.Yaml
