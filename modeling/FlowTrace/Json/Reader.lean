import FlowTrace.Json.Basic

/-! # Reading JSON

A reader for JSON that tells malformed input from input that merely ends too early. Strings are
made well-formed while they are read: a byte outside UTF-8 and a surrogate without a partner
become U+FFFD. Values may be nested ten thousand deep. -/

namespace FlowTrace.Json

/-- Why no value could be read. -/
inductive ReadError where
  /-- No continuation of the input read so far is a value. -/
  | malformed
  /-- The input ends inside a value, or before one. -/
  | incomplete
  deriving DecidableEq, Repr

/-- Whether a byte is blank space between tokens. -/
def isSpace (c : UInt8) : Bool := c == 0x20 || c == 0x09 || c == 0x0A || c == 0x0D

/-- The number that hexadecimal digits denote. -/
def hexNumber? (digits : Text) : Option Nat :=
  digits.foldl (fun n? c => do return (← n?) * 16 + (← Text.hexValue? c)) (some 0)

/-- The number written by the four hexadecimal digits at the head of the input. -/
def hexQuad (t : Text) : Except ReadError Nat :=
  match hexNumber? (t.take 4) with
  | none => .error .malformed
  | some n => if t.length < 4 then .error .incomplete else .ok n

/-- The partner of a leading surrogate, if the input goes on with one. -/
def trailingSurrogate? : Text → Option Nat
  | a :: b :: rest =>
    if a == Text.backslash && b == 'u' then
      match hexQuad rest with
      | .ok n => if 0xDC00 ≤ n && n < 0xE000 then some n else none
      | .error _ => none
    else none
  | _ => none

/-- The byte that a simple escape stands for. -/
def simpleEscape? (c : UInt8) : Option UInt8 :=
  if c == Text.doubleQuote || c == Text.backslash || c == '/' then some c
  else if c == 'b' then some 0x08
  else if c == 'f' then some 0x0C
  else if c == 'n' then some 0x0A
  else if c == 'r' then some 0x0D
  else if c == 't' then some 0x09
  else none

/-- Reads a string behind its opening quotation mark. The next `skip` bytes belong to an escape
that was already read; `out` is the string so far, last byte first. -/
def readString : Text → Nat → Text → Except ReadError (Text × Text)
  | [], _, _ => .error .incomplete
  | _ :: t, skip + 1, out => readString t skip out
  | c :: t, 0, out =>
    if c == Text.doubleQuote then .ok (Text.repaired out.reverse, t)
    else if c < 0x20 then .error .malformed
    else if c == Text.backslash then
      match t with
      | [] => .error .incomplete
      | e :: rest =>
        if e == 'u' then
          match hexQuad rest with
          | .error error => .error error
          | .ok n =>
            if 0xD800 ≤ n && n < 0xDC00 then
              match trailingSurrogate? (rest.drop 4) with
              | some low =>
                let rune := 0x10000 + (n - 0xD800) * 1024 + (low - 0xDC00)
                readString t 11 ((Text.ofRune rune).reverse ++ out)
              | none => readString t 5 ((Text.ofRune Rune.replacement).reverse ++ out)
            else readString t 5 ((Text.ofRune n).reverse ++ out)
        else
          match simpleEscape? e with
          | some b => readString t 1 (b :: out)
          | none => .error .malformed
    else readString t 0 (c :: out)

/-- The digits at the head of the input, at least one, and what follows them. -/
def readDigits (t : Text) : Except ReadError (Text × Text) :=
  match t with
  | [] => .error .incomplete
  | c :: _ =>
    if Text.isDigit c then .ok (t.takeWhile Text.isDigit, t.dropWhile Text.isDigit)
    else .error .malformed

/-- The fraction of a number, which may be missing. -/
def readFraction (t : Text) : Except ReadError (Text × Text) :=
  match t with
  | [] => .ok ([], [])
  | c :: rest =>
    if c == '.' then do
      let (digits, rest) ← readDigits rest
      return (c :: digits, rest)
    else .ok ([], t)

/-- The exponent of a number, which may be missing. -/
def readExponent (t : Text) : Except ReadError (Text × Text) :=
  match t with
  | [] => .ok ([], [])
  | c :: rest =>
    if c == 'e' || c == 'E' then do
      let (sign, rest) := match rest with
        | s :: rest' => if s == '+' || s == '-' then ([s], rest') else ([], rest)
        | [] => ([], rest)
      let (digits, rest) ← readDigits rest
      return (c :: sign ++ digits, rest)
    else .ok ([], t)

/-- Reads the literal of a number. A zero is not followed by further digits of the integer
part. -/
def readNumber (t : Text) : Except ReadError (Text × Text) := do
  let (sign, t) := match t with
    | c :: rest => if c == '-' then ([c], rest) else ([], t)
    | [] => ([], t)
  let (whole, t) ← match t with
    | c :: rest => if c == '0' then .ok ([c], rest) else readDigits t
    | [] => .error .incomplete
  let (fraction, t) ← readFraction t
  let (exponent, t) ← readExponent t
  return (sign ++ whole ++ fraction ++ exponent, t)

/-- Reads one of the three words of JSON. -/
def readWord (word : Text) (value : Json) (t : Text) : Except ReadError (Json × Text) :=
  if word.isPrefixOf t then .ok (value, t.drop word.length)
  else if t.isPrefixOf word then .error .incomplete
  else .error .malformed

/-- The deepest nesting of lists and objects. -/
def maxDepth : Nat := 10000

mutual
/-- Reads a value at the head of the input, which may begin with blank space. `bound` bounds the
number of values, items and members still to be read, and `depth` is the nesting left. -/
def readValue : Nat → Nat → Text → Except ReadError (Json × Text)
  | 0, _, _ => .error .malformed
  | bound + 1, depth, t =>
    match t.dropWhile isSpace with
    | [] => .error .incomplete
    | c :: t =>
      if c == '\x7b' then
        match depth with
        | 0 => .error .malformed
        | depth + 1 =>
          match t.dropWhile isSpace with
          | [] => .error .incomplete
          | d :: rest =>
            if d == '\x7d' then .ok (.obj [], rest) else readMembers bound depth (d :: rest) []
      else if c == '[' then
        match depth with
        | 0 => .error .malformed
        | depth + 1 =>
          match t.dropWhile isSpace with
          | [] => .error .incomplete
          | d :: rest =>
            if d == ']' then .ok (.arr [], rest) else readItems bound depth (d :: rest) []
      else if c == Text.doubleQuote then do
        let (text, rest) ← readString t 0 []
        return (.str text, rest)
      else if c == 't' then readWord "true" (.bool true) (c :: t)
      else if c == 'f' then readWord "false" (.bool false) (c :: t)
      else if c == 'n' then readWord "null" .null (c :: t)
      else if c == '-' || Text.isDigit c then do
        let (literal, rest) ← readNumber (c :: t)
        return (.num literal, rest)
      else .error .malformed

/-- Reads the items of a list up to its closing bracket; `done` holds those read, last first. -/
def readItems : Nat → Nat → Text → List Json → Except ReadError (Json × Text)
  | 0, _, _, _ => .error .malformed
  | bound + 1, depth, t, done =>
    match readValue bound depth t with
    | .error error => .error error
    | .ok (item, t) =>
      match t.dropWhile isSpace with
      | [] => .error .incomplete
      | c :: rest =>
        if c == ',' then readItems bound depth rest (item :: done)
        else if c == ']' then .ok (.arr (item :: done).reverse, rest)
        else .error .malformed

/-- Reads the members of an object up to its closing brace; `done` holds those read, last
first. -/
def readMembers : Nat → Nat → Text → List (Text × Json) → Except ReadError (Json × Text)
  | 0, _, _, _ => .error .malformed
  | bound + 1, depth, t, done =>
    match t.dropWhile isSpace with
    | [] => .error .incomplete
    | q :: t =>
      if q != Text.doubleQuote then .error .malformed
      else
        match readString t 0 [] with
        | .error error => .error error
        | .ok (name, t) =>
          match t.dropWhile isSpace with
          | [] => .error .incomplete
          | c :: t =>
            if c != ':' then .error .malformed
            else
              match readValue bound depth t with
              | .error error => .error error
              | .ok (value, t) =>
                match t.dropWhile isSpace with
                | [] => .error .incomplete
                | c :: rest =>
                  if c == ',' then readMembers bound depth rest ((name, value) :: done)
                  else if c == '\x7d' then .ok (.obj ((name, value) :: done).reverse, rest)
                  else .error .malformed
end

/-- Reads the first value of the input and returns what follows it. -/
def readFirst (t : Text) : Except ReadError (Json × Text) :=
  readValue (2 * t.length + 2) maxDepth t

/-- Reads an input that holds one value and nothing else. -/
def read? (t : Text) : Option Json :=
  match readFirst t with
  | .ok (value, rest) => if rest.all isSpace then some value else none
  | .error _ => none

end FlowTrace.Json
