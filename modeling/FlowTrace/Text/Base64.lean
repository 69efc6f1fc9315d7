import FlowTrace.Text.Basic

/-! # Base 64

Bytes written with 64 characters: every four characters stand for three bytes, and padding fills
the last group. Line breaks do not count. -/

namespace FlowTrace.Text.Base64

/-- The value of a character. -/
def sextet? (c : UInt8) : Option Nat :=
  if 'A' ≤ c && c ≤ 'Z' then some (c.toNat - 65)
  else if 'a' ≤ c && c ≤ 'z' then some (c.toNat - 71)
  else if isDigit c then some (c.toNat + 4)
  else if c == '+' then some 62
  else if c == '/' then some 63
  else none

/-- Whether a byte breaks a line. -/
def isBreak (c : UInt8) : Bool := c == 0x0A || c == 0x0D

/-- The bytes of a group of characters, given by their values, last first. -/
def bytes : List Nat → Text
  | [d, c, b, a] =>
    let n := ((a * 64 + b) * 64 + c) * 64 + d
    [(n / 65536).toUInt8, (n / 256).toUInt8, n.toUInt8]
  | [c, b, a] =>
    let n := (a * 64 + b) * 64 + c
    [(n / 1024).toUInt8, (n / 4).toUInt8]
  | [b, a] => [((a * 64 + b) / 16).toUInt8]
  | _ => []

/-- Reads the rest of the padding behind its first character, up to the end of the text. The group
in front of it has `count` characters, and the first character of the padding stands at `offset`.
On failure the offset of the fault is returned. -/
def padding (count offset : Nat) (t : Text) : Except Nat Unit :=
  let atEnd (offset : Nat) (t : Text) : Except Nat Unit :=
    match t.dropWhile isBreak with
    | [] => .ok ()
    | rest => .error (offset + t.length - rest.length)
  if count < 2 then .error offset
  else if count == 2 then
    match t.dropWhile isBreak with
    | [] => .error (offset + 1 + t.length)
    | c :: rest =>
      if c == '=' then atEnd (offset + 1 + t.length - rest.length) rest
      else .error (offset + t.length - (rest.length + 1))
  else atEnd (offset + 1) t

/-- The bytes that a text stands for, or the offset at which it is at fault. -/
def decode (t : Text) : Except Nat Text := go t 0 []
where
  /-- `group` holds the values of the current group, last first. -/
  go : Text → Nat → List Nat → Except Nat Text
    | [], offset, group => if group.isEmpty then .ok [] else .error (offset - group.length)
    | c :: t, offset, group =>
      match sextet? c with
      | some value =>
        if group.length == 3 then do return bytes (value :: group) ++ (← go t (offset + 1) [])
        else go t (offset + 1) (value :: group)
      | none =>
        if isBreak c then go t (offset + 1) group
        else if c == '=' then do
          padding group.length offset t
          return bytes group
        else .error offset

end FlowTrace.Text.Base64
