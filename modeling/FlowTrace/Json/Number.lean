import FlowTrace.Json.Basic
import FlowTrace.Text.Binary64

/-! # JSON numbers in canonical form

A value of no particular type keeps its numbers as binary64 values. They are written with their
shortest digits: in full between `10 ^ -6` and `10 ^ 21`, with an exponent outside. -/

namespace FlowTrace.Json

/-- A number literal taken apart: its sign, its digits and the power of ten of the last one. -/
structure Numeral where
  /-- Whether there is a minus sign. -/
  negative : Bool
  /-- All digits, those after the point included. -/
  digits : Text
  /-- The power of ten of the last digit. -/
  exponent : Int
  deriving Repr

/-- The integer written by digits after an optional sign. -/
def signedNat (t : Text) : Int :=
  match t with
  | [] => 0
  | c :: rest =>
    if c == '-' then -(((Text.toNat? rest).getD 0 : Nat) : Int)
    else if c == '+' then ((Text.toNat? rest).getD 0 : Nat)
    else ((Text.toNat? t).getD 0 : Nat)

/-- Takes a number literal apart. -/
def Numeral.ofLiteral (literal : Text) : Numeral :=
  let negative := literal.head? == some ('-' : UInt8)
  let t := if negative then literal.drop 1 else literal
  let isExponent (c : UInt8) : Bool := c == 'e' || c == 'E'
  let mantissa := t.takeWhile fun c => !isExponent c
  let exponent := signedNat ((t.dropWhile fun c => !isExponent c).drop 1)
  let whole := mantissa.takeWhile Text.isDigit
  let fraction := (mantissa.dropWhile Text.isDigit).drop 1
  ⟨negative, whole ++ fraction, exponent - fraction.length⟩

/-- The magnitude of a numeral; `none` when it is too large for the format. -/
def Numeral.magnitude? (n : Numeral) : Option Binary64 :=
  let digits := n.digits.dropWhile (· == ('0' : UInt8))
  Binary64.ofDecimal? ((Text.toNat? digits).getD 0) digits.length n.exponent

/-- Digits written in full, with a point where one is needed. -/
def positional (digits : Text) (exponent : Int) : Text :=
  if exponent ≥ 0 then digits ++ List.replicate exponent.toNat ('0' : UInt8)
  else
    let places := exponent.natAbs
    let padded := Decimal.padLeft (places + 1) digits
    padded.take (padded.length - places) ++ "." ++ padded.drop (padded.length - places)

/-- Digits written with one of them in front of the point and an exponent. -/
def scientific (digits : Text) (exponent : Int) : Text :=
  let power := exponent + (digits.length : Int) - 1
  let mantissa := match digits with
    | [] => []
    | [c] => [c]
    | c :: rest => [c] ++ "." ++ rest
  mantissa ++ (if power < 0 then "e-" else "e+") ++ Text.ofNat power.natAbs

/-- The written form of a magnitude. -/
def magnitudeText (value : Binary64) : Text :=
  let (number, exponent) := value.shortest
  let digits := Text.ofNat number
  let power := exponent + (digits.length : Int) - 1
  if number == 0 || (-6 ≤ power && power < 21) then positional digits exponent
  else scientific digits exponent

/-- The canonical form of a number literal; `none` when the number is too large for the
format. -/
def canonicalLiteral? (literal : Text) : Option Text :=
  let numeral := Numeral.ofLiteral literal
  numeral.magnitude?.map fun value =>
    (if numeral.negative then ("-" : Text) else []) ++ magnitudeText value

/-- The members of an object by name, a later one replacing an earlier one of the same name. -/
def setMember (members : List (Text × Json)) (name : Text) (value : Json) : List (Text × Json) :=
  match members with
  | [] => [(name, value)]
  | (other, old) :: rest =>
    if name = other then (name, value) :: rest
    else if name < other then (name, value) :: (other, old) :: rest
    else (other, old) :: setMember rest name value

mutual
/-- The **canonical form** of a value: numbers in canonical form, the members of each object in
the order of their names and none of them twice. `none` when a number is too large. -/
def canonical? : Json → Option Json
  | null => some .null
  | bool b => some (.bool b)
  | num literal => (canonicalLiteral? literal).map .num
  | str text => some (.str text)
  | arr items => (canonicalItems? items).map .arr
  | obj members => (canonicalMembers? members []).map .obj

/-- The canonical forms of a list of values. -/
def canonicalItems? : List Json → Option (List Json)
  | [] => some []
  | item :: items => do return (← item.canonical?) :: (← canonicalItems? items)

/-- The canonical forms of members, added to those already `done`. -/
def canonicalMembers? : List (Text × Json) → List (Text × Json) → Option (List (Text × Json))
  | [], done => some done
  | (name, value) :: members, done => do
    canonicalMembers? members (setMember done name (← value.canonical?))
end

end FlowTrace.Json
