import FlowTrace.Power
import FlowTrace.Text.Basic

/-! # Decimal fractions

Exact fractions written with a fixed number of places. A tie between two neighbours goes to the
even one, and a negative value keeps its sign even where all its digits are zero. -/

namespace FlowTrace.Decimal

/-- The quotient rounded to the nearest natural number; a tie goes to the even neighbour. -/
def roundDiv (num den : Nat) : Nat :=
  let quotient := num / den
  let twice := 2 * (num % den)
  if twice < den then quotient
  else if den < twice then quotient + 1
  else if quotient % 2 == 0 then quotient else quotient + 1

/-- `digits` with zeros in front, at least `width` long. -/
def padLeft (width : Nat) (digits : Text) : Text :=
  List.replicate (width - digits.length) ('0' : UInt8) ++ digits

/-- The fraction `num / den` with `places` digits after the point. -/
def fixedNat (places num den : Nat) : Text :=
  let scaled := roundDiv (num * tenTo places) den
  Text.ofNat (scaled / tenTo places) ++ "." ++
    padLeft places (Text.ofNat (scaled % tenTo places))

/-- The fraction `num / den` with `places` digits after the point, with its sign. -/
def fixed (places : Nat) (num : Int) (den : Nat) : Text :=
  if num < 0 then '-' :: fixedNat places num.natAbs den else fixedNat places num.natAbs den

/-- The nearest number with a significand of 53 bits; a tie goes to the even significand. -/
def toBinary53 (n : Nat) : Nat :=
  let excess := n.log2 + 1 - 53
  roundDiv n (twoTo excess) * twoTo excess

end FlowTrace.Decimal
