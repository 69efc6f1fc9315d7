/-! # Powers

The powers that number formats are made of: those of two and of ten, and the size of a machine
word. -/

namespace FlowTrace

/-- A power of two. -/
def twoTo (n : Nat) : Nat := Nat.pow 2 n

/-- A power of ten. -/
def tenTo (n : Nat) : Nat := Nat.pow 10 n

/-- The number of non-negative words of 64 bits, half the number of all words. -/
abbrev wordLimit : Nat := 9223372036854775808

end FlowTrace
