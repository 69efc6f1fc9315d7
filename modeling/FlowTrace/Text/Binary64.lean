import FlowTrace.Power
import FlowTrace.Text.Decimal

/-! # Numbers of the binary64 format

A **binary64 magnitude** is `significand · 2 ^ power` with a significand of at most 53 bits and a
power of at least `-1074`. A decimal literal denotes the nearest magnitude, a tie going to the
even significand. A magnitude is written with the fewest decimal digits that are read back as the
same magnitude; of several such digit strings the nearest to the value is taken. All of it is
exact arithmetic on natural numbers. -/

namespace FlowTrace

/-- A **binary64 magnitude**, `significand · 2 ^ power`. -/
structure Binary64 where
  /-- At most 53 bits. -/
  significand : Nat
  /-- The power of two, at least `-1074`. -/
  power : Int
  deriving DecidableEq, Repr

namespace Binary64

/-- The magnitude zero. -/
def zero : Binary64 := ⟨0, -1074⟩

/-- `num · 2 ^ power / den` as a numerator and a denominator. -/
def scaled (num den : Nat) (power : Int) : Nat × Nat :=
  if power < 0 then (num, den * twoTo power.natAbs) else (num * twoTo power.natAbs, den)

/-- The magnitude nearest to a positive fraction; `none` when it is too large. -/
def ofFraction? (num den : Nat) : Option Binary64 :=
  if num == 0 || den == 0 then some zero
  else
    let estimate : Int := (num.log2 : Int) - den.log2 - 52
    let (n, d) := scaled num den (-estimate)
    let power := max (if n < d * twoTo 52 then estimate - 1 else estimate) (-1074)
    let (n, d) := scaled num den (-power)
    let significand := Decimal.roundDiv n d
    let value : Binary64 :=
      if significand == twoTo 53 then ⟨twoTo 52, power + 1⟩ else ⟨significand, power⟩
    if value.power > 971 then none else some value

/-- The magnitude nearest to `digits · 10 ^ exponent`, where `length` is the number of decimal
digits of `digits`; `none` when it is too large. Exponents far outside the range of the format
are decided without computing the power of ten. -/
def ofDecimal? (digits length : Nat) (exponent : Int) : Option Binary64 :=
  if digits == 0 then some zero
  else if (length : Int) + exponent > 310 then none
  else if (length : Int) + exponent < -330 then some zero
  else if exponent < 0 then ofFraction? digits (tenTo exponent.natAbs)
  else ofFraction? (digits * tenTo exponent.natAbs) 1

/-- Whether a fraction lies in the interval of the numbers that are rounded to the magnitude. The
ends belong to it when the significand is even; below a power of two the interval is half as
wide. -/
def attracts (value : Binary64) (num den : Nat) : Bool :=
  let (n, d) := scaled (4 * num) den (-value.power)
  let middle := 4 * value.significand * d
  let narrow := value.significand == twoTo 52 && value.power > -1074
  let low := middle - (if narrow then d else 2 * d)
  let high := middle + 2 * d
  if value.significand % 2 == 0 then low ≤ n && n ≤ high else low < n && n < high

/-- A digit string `digits · 10 ^ exponent`. -/
abbrev Digits := Nat × Int

/-- The neighbours of a magnitude on the grid of multiples of `10 ^ exponent`, the nearer one
first; a tie puts the even one first. -/
def neighbours (value : Binary64) (exponent : Int) : List Digits :=
  let (n, d) := scaled value.significand 1 value.power
  let (n, d) := if exponent < 0 then (n * tenTo exponent.natAbs, d)
    else (n, d * tenTo exponent.natAbs)
  let below := n / d
  if Decimal.roundDiv n d == below then [(below, exponent), (below + 1, exponent)]
  else [(below + 1, exponent), (below, exponent)]

/-- Whether a digit string is read back as the magnitude. -/
def readsBack (value : Binary64) (digits : Digits) : Bool :=
  if digits.2 < 0 then value.attracts digits.1 (tenTo digits.2.natAbs)
  else value.attracts (digits.1 * tenTo digits.2.natAbs) 1

/-- The shortest digit string on the grids from `10 ^ exponent` downwards, of which `count` are
tried. -/
def shortestFrom (value : Binary64) : Nat → Int → Digits
  | 0, exponent => ((value.neighbours exponent).head?).getD (0, 0)
  | count + 1, exponent =>
    match (value.neighbours exponent).find? fun digits => digits.1 != 0 && value.readsBack digits with
    | some digits => digits
    | none => shortestFrom value count (exponent - 1)

/-- A number not below the number of decimal places in front of the point. -/
def decimalPlaces (value : Binary64) : Int :=
  let bits : Int := value.significand.log2 + 1 + value.power
  bits * 30103 / 100000 + 1

/-- The **shortest digits** of a magnitude, without zeros at their end. -/
def shortest (value : Binary64) : Digits :=
  if value.significand == 0 then (0, 0)
  else
    let (digits, exponent) := value.shortestFrom 19 value.decimalPlaces
    strip digits.log2 digits exponent
where
  /-- Moves zeros at the end of the digits into the exponent. -/
  strip : Nat → Nat → Int → Digits
    | 0, digits, exponent => (digits, exponent)
    | bound + 1, digits, exponent =>
      if digits % 10 == 0 then strip bound (digits / 10) (exponent + 1) else (digits, exponent)

end Binary64

end FlowTrace
