/-! # Texts

A **text** is a finite sequence of bytes. Source code may hold bytes that are not valid UTF-8, so
every stage of the analysis works on bytes; code points are read from them where a rule needs
them (`FlowTrace.Text.Rune`). This file holds the byte-level operations: literals, decimal
numerals, searching, splitting, replacing and trimming. -/

namespace FlowTrace

/-- A **text**: a finite sequence of bytes, usually UTF-8. -/
abbrev Text := List UInt8

/-- A character literal stands for its byte where a byte is expected. Only characters below
`0x80` are used this way. -/
instance charToByte : Coe Char UInt8 := ⟨Char.toUInt8⟩

namespace Text

/-- The UTF-8 bytes of a character string. -/
def of (s : String) : Text := s.toUTF8.data.toList

instance stringToText : Coe String Text := ⟨of⟩

/-- The byte of the newline character. -/
abbrev newline : UInt8 := 0x0A

/-- The byte of the single quotation mark. -/
abbrev apostrophe : UInt8 := 0x27

/-- The byte of the double quotation mark. -/
abbrev doubleQuote : UInt8 := 0x22

/-- The byte of the backslash. -/
abbrev backslash : UInt8 := 0x5C

/-! ## Numerals -/

/-- The decimal digits of a natural number. -/
def ofNat (n : Nat) : Text := (Nat.toDigits 10 n).map Char.toUInt8

/-- The decimal digits of an integer, after a minus sign when it is negative. -/
def ofInt : Int → Text
  | .ofNat n => ofNat n
  | .negSucc n => '-' :: ofNat (n + 1)

/-- Whether a byte is a decimal digit. -/
def isDigit (c : UInt8) : Bool := '0' ≤ c && c ≤ '9'

/-- Whether a byte is an ASCII letter. -/
def isLetter (c : UInt8) : Bool := ('a' ≤ c && c ≤ 'z') || ('A' ≤ c && c ≤ 'Z')

/-- Whether a byte is an ASCII letter, a digit or the underscore: a **word byte**. -/
def isWord (c : UInt8) : Bool := isLetter c || isDigit c || c == '_'

/-- The number that a string of decimal digits denotes; `none` when the text is empty or has
another byte in it. -/
def toNat? (t : Text) : Option Nat :=
  if t.isEmpty || !t.all isDigit then none
  else some (t.foldl (fun n c => n * 10 + (c.toNat - 48)) 0)

/-- The value of a hexadecimal digit. -/
def hexValue? (c : UInt8) : Option Nat :=
  if isDigit c then some (c.toNat - 48)
  else if 'a' ≤ c && c ≤ 'f' then some (c.toNat - 87)
  else if 'A' ≤ c && c ≤ 'F' then some (c.toNat - 55)
  else none

/-! ## Searching -/

/-- Whether the text begins with `start`. -/
def startsWith (t start : Text) : Bool := start.isPrefixOf t

/-- Whether the text ends with `last`. -/
def endsWith (t last : Text) : Bool := last.isSuffixOf t

/-- The text without `start` at its beginning, if it is there. -/
def dropStart (t start : Text) : Text := if t.startsWith start then t.drop start.length else t

/-- The text without `last` at its end, if it is there. -/
def dropEnd (t last : Text) : Text :=
  if t.endsWith last then t.take (t.length - last.length) else t

/-- The offset of the first occurrence of `part`. -/
def indexOf? (t part : Text) : Option Nat := go t 0
where
  /-- Looks for `part` at the head of each tail, counting the bytes passed. -/
  go : Text → Nat → Option Nat
    | [], n => if part.isEmpty then some n else none
    | c :: t, n => if part.isPrefixOf (c :: t) then some n else go t (n + 1)

/-- Whether `part` occurs in the text. -/
def includes (t part : Text) : Bool := (t.indexOf? part).isSome

/-- The offset of the last occurrence of `part`. -/
def lastIndexOf? (t part : Text) : Option Nat := go t 0 none
where
  /-- As `indexOf?`, keeping the last offset found. -/
  go : Text → Nat → Option Nat → Option Nat
    | [], n, found => if part.isEmpty then some n else found
    | c :: t, n, found => go t (n + 1) (if part.isPrefixOf (c :: t) then some n else found)

/-- The offset of the first byte for which `p` holds. -/
def indexWhere? (t : Text) (p : UInt8 → Bool) : Option Nat := t.findIdx? p

/-- The number of newlines. -/
def newlines (t : Text) : Nat := t.count newline

/-- The **line number**, from one, of the byte at `offset`. -/
def lineAt (t : Text) (offset : Nat) : Nat := newlines (t.take offset) + 1

/-- The bytes from `start` up to but not including `stop`. -/
def slice (t : Text) (start stop : Nat) : Text := (t.drop start).take (stop - start)

@[simp] theorem lineAt_zero (t : Text) : t.lineAt 0 = 1 := by simp [lineAt, newlines]

/-! ## Splitting and joining -/

/-- The parts between occurrences of the byte `sep`; there is one part more than separators. -/
def splitAtByte (t : Text) (sep : UInt8) : List Text := go t []
where
  /-- `part` holds the bytes of the current part, last first. -/
  go : Text → Text → List Text
    | [], part => [part.reverse]
    | c :: t, part => if c == sep then part.reverse :: go t [] else go t (c :: part)

/-- The parts between occurrences of `sep`, found from left to right. An empty separator
divides nothing. -/
def split (t sep : Text) : List Text := go t 0 []
where
  /-- `skip` bytes still belong to the separator just found; `part` holds the current part,
  last byte first. -/
  go : Text → Nat → Text → List Text
    | [], _, part => [part.reverse]
    | _ :: t, skip + 1, part => go t skip part
    | c :: t, 0, part =>
      if !sep.isEmpty && sep.isPrefixOf (c :: t) then part.reverse :: go t (sep.length - 1) []
      else go t 0 (c :: part)

/-- The parts with `sep` between each and the next. -/
def joinWith (sep : Text) (parts : List Text) : Text := sep.intercalate parts

/-- The text with every occurrence of `part` replaced, found from left to right. -/
def replace (t part by_ : Text) : Text := joinWith by_ (t.split part)

/-- `n` copies of the text, one after the other. -/
def repeated (t : Text) (n : Nat) : Text := (List.replicate n t).flatten

/-- The lines of a text: the parts between newlines. -/
def lines (t : Text) : List Text := t.splitAtByte newline

/-- **Simultaneous replacement**: at each place the first rule of the list that applies there is
used, and the scan goes on behind the bytes it consumed. -/
def substitute (rules : List (Text × Text)) (t : Text) : Text := (go t 0 []).reverse
where
  /-- `skip` bytes were consumed by the rule just used; `out` is the result, last byte first. -/
  go : Text → Nat → Text → Text
    | [], _, out => out
    | _ :: t, skip + 1, out => go t skip out
    | c :: t, 0, out =>
      match rules.find? fun rule => rule.1.isPrefixOf (c :: t) with
      | some rule => go t (rule.1.length - 1) (rule.2.reverse ++ out)
      | none => go t 0 (c :: out)

/-! ## Trimming -/

/-- The text without the leading bytes for which `p` holds. -/
def trimLeft (t : Text) (p : UInt8 → Bool) : Text := t.dropWhile p

/-- The text without the trailing bytes for which `p` holds. -/
def trimRight (t : Text) (p : UInt8 → Bool) : Text := (t.reverse.dropWhile p).reverse

/-- Whether a byte is one of those of a literal. -/
def isOneOf (bytes : Text) (c : UInt8) : Bool := bytes.contains c

/-- The ASCII letters of the text in lower case, all other bytes as they are. -/
def asciiLower (t : Text) : Text := t.map fun (c : UInt8) => if 'A' ≤ c && c ≤ 'Z' then c + 32 else c

/-- The ASCII letters of the text in upper case, all other bytes as they are. -/
def asciiUpper (t : Text) : Text := t.map fun (c : UInt8) => if 'a' ≤ c && c ≤ 'z' then c - 32 else c

/-- Lexicographic order of bytes. -/
def le (a b : Text) : Bool := !(decide (b < a))

/-- The order of texts is transitive. -/
theorem le_trans {a b c : Text} (ab : a.le b = true) (bc : b.le c = true) : a.le c = true := by
  simp only [le, Bool.not_eq_true', decide_eq_false_iff_not, List.not_lt] at *
  exact List.le_trans ab bc

/-- Texts that come before each other are the same. -/
theorem le_antisymm {a b : Text} (ab : a.le b = true) (ba : b.le a = true) : a = b := by
  simp only [le, Bool.not_eq_true', decide_eq_false_iff_not, List.not_lt] at *
  exact List.le_antisymm ab ba

/-- Of two texts one comes before the other. -/
theorem le_total (a b : Text) : (a.le b || b.le a) = true := by
  simp only [le, Bool.or_eq_true, Bool.not_eq_true', decide_eq_false_iff_not, List.not_lt]
  exact List.le_total a b

/-- Sorted texts are in order. -/
theorem pairwise_mergeSort (ts : List Text) :
    (ts.mergeSort le).Pairwise fun a b => a.le b = true := by
  refine List.pairwise_mergeSort ?_ le_total ts
  intro a b c
  exact le_trans

end Text

end FlowTrace
