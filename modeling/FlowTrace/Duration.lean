import FlowTrace.Power
import FlowTrace.Text.Basic
import FlowTrace.Text.Binary64

/-! # Durations

A **duration** is a whole number of nanoseconds of at most 63 bits and a sign. It is written as
numbers with units, the largest unit first: `1h2m3.5s`.

* **`Duration.read?`** reads such a text; a number may have a fraction, which is computed in the
  binary64 format and cut to whole nanoseconds.
* **`Duration.toText`** writes a duration, without zeros at the end of a fraction. -/

namespace FlowTrace

/-- A **duration**. -/
structure Duration where
  /-- The number of nanoseconds. -/
  nanoseconds : Int
  deriving DecidableEq, Repr

namespace Duration

/-- A number of milliseconds. -/
def milliseconds (n : Nat) : Duration := ⟨n * 1000000⟩

/-- A number of seconds. -/
def seconds (n : Nat) : Duration := ⟨n * 1000000000⟩

/-- A number of minutes. -/
def minutes (n : Nat) : Duration := seconds (n * 60)

/-! ## Reading -/

/-- The units, with their nanoseconds. The micro sign has two code points. -/
def units : List (Text × Nat) :=
  [("ns", 1), ("us", 1000), ("µs", 1000), ("μs", 1000), ("ms", 1000000), ("s", 1000000000),
    ("m", 60000000000), ("h", 3600000000000)]

/-- The nanoseconds of a unit. -/
def unit? (name : Text) : Option Nat := (units.find? (·.1 == name)).map (·.2)

/-- The largest magnitude that is read. -/
def limit : Nat := wordLimit

/-- A fraction given by its digits, as a numerator and a power of ten. Digits that do not fit into
63 bits are left out. -/
def fraction : Text → Nat × Nat → Bool → Nat × Nat
  | [], found, _ => found
  | c :: digits, (value, scale), full =>
    let next := value * 10 + (c.toNat - 48)
    if full || (limit - 1) / 10 < value || limit < next then fraction digits (value, scale) true
    else fraction digits (next, scale * 10) false

/-- The whole nanoseconds of a fraction of a unit. Both the quotient of the unit and the power of
ten and the product with the digits are rounded to the binary64 format. -/
def fractionOf (unit : Nat) (value scale : Nat) : Nat :=
  let step := (Binary64.ofFraction? unit scale).getD .zero
  let (num, den) := Binary64.scaled (Decimal.toBinary53 value * step.significand) 1 step.power
  match Binary64.ofFraction? num den with
  | none => 0
  | some product =>
    let (num, den) := Binary64.scaled product.significand 1 product.power
    num / den

/-- Whether a byte can stand in a number. -/
def isNumeric (c : UInt8) : Bool := c == '.' || Text.isDigit c

/-- Reads one number with its unit. Given are its nanoseconds and the rest of the text. -/
def part? (t : Text) : Option (Nat × Text) :=
  let whole := t.takeWhile Text.isDigit
  let rest := t.dropWhile Text.isDigit
  let hasPoint := rest.head? == some ('.' : UInt8)
  let places := if hasPoint then (rest.drop 1).takeWhile Text.isDigit else []
  let rest := if hasPoint then (rest.drop 1).dropWhile Text.isDigit else rest
  if whole.isEmpty && places.isEmpty then none
  else
    let name := rest.takeWhile fun c => !isNumeric c
    let rest := rest.dropWhile fun c => !isNumeric c
    let value := (Text.toNat? whole).getD 0
    (unit? name).bind fun unit =>
      let (digits, scale) := fraction places (0, 1) false
      let total := value * unit + fractionOf unit digits scale
      if limit / unit < value || limit < total then none else some (total, rest)

/-- Reads numbers with units up to the end of the text. At most `bound` of them are read. -/
def parts? : Nat → Text → Nat → Option Nat
  | 0, _, _ => none
  | bound + 1, t, total =>
    if t.isEmpty then some total
    else
      (part? t).bind fun (value, rest) =>
        if limit < total + value then none else parts? bound rest (total + value)

/-- **Reads** a duration: a sign, if any, and numbers with units, or zero without a unit. -/
def read? (t : Text) : Option Duration :=
  let negative := t.head? == some ('-' : UInt8)
  let body := if negative || t.head? == some ('+' : UInt8) then t.drop 1 else t
  if body == "0" then some ⟨0⟩
  else if body.isEmpty then none
  else
    (parts? (body.length + 1) body 0).bind fun total =>
      if negative then some ⟨-(total : Int)⟩
      else if total < limit then some ⟨total⟩
      else none

/-! ## Writing -/

/-- A number of parts of which `10 ^ places` make one, without zeros at the end. -/
def decimal (n places : Nat) : Text :=
  let digits := Decimal.padLeft places (Text.ofNat (n % tenTo places))
  let shown := if places = 0 then [] else Text.trimRight digits (· == ('0' : UInt8))
  Text.ofNat (n / tenTo places) ++ (if shown.isEmpty then [] else ('.' : UInt8) :: shown)

/-- The written form of a magnitude. -/
def magnitudeText (n : Nat) : Text :=
  if n = 0 then "0s"
  else if n < 1000 then decimal n 0 ++ "ns"
  else if n < 1000000 then decimal n 3 ++ "µs"
  else if n < 1000000000 then decimal n 6 ++ "ms"
  else
    let total := n / 1000000000
    let hours := total / 3600
    let lead : Text := if hours = 0 then [] else Text.ofNat hours ++ "h"
    let middle : Text := if total < 60 then [] else Text.ofNat (total / 60 % 60) ++ "m"
    lead ++ middle ++ decimal (n % 60000000000) 9 ++ "s"

/-- **Writes** a duration. -/
def toText (d : Duration) : Text :=
  (if d.nanoseconds < 0 then ("-" : Text) else []) ++ magnitudeText d.nanoseconds.natAbs

end Duration

end FlowTrace
