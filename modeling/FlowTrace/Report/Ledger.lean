import FlowTrace.Report.Basic
import FlowTrace.Text.Decimal

/-! # Memory ledgers

A **ledger** collects the allocations of a program while it is walked. Sizes are 64-bit words, and
their sum wraps around like every other word. -/

namespace FlowTrace

/-- A **ledger** of allocations and of places where memory is wasted. -/
structure Ledger where
  /-- The sum of all sizes. -/
  total : Int64 := 0
  /-- The allocations, in order. -/
  breakdown : List Allocation := []
  /-- The places where memory is wasted, in order. -/
  bottlenecks : List Bottleneck := []
  /-- What could be done about each of them. -/
  remedies : List Remedy := []
  deriving Repr

namespace Ledger

/-- The decimal text of a word. -/
def wordText (n : Int64) : Text := Text.ofInt n.toInt

/-- The text of a size in bytes. -/
def bytesText (size : Int64) : Text := wordText size ++ " bytes"

/-- Records an allocation that is shown as `shown`. -/
def allocateAs (ledger : Ledger) (holder kind shown : Text) (size : Int64) (line : Nat) : Ledger :=
  { ledger with
    total := ledger.total + size
    breakdown := ledger.breakdown ++ [⟨holder, kind, shown, line⟩] }

/-- Records an allocation, shown as its number of bytes. -/
def allocate (ledger : Ledger) (holder kind : Text) (size : Int64) (line : Nat) : Ledger :=
  ledger.allocateAs holder kind (bytesText size) size line

/-- Records a place where memory is wasted and what could be done about it. -/
def flag (ledger : Ledger) (line : Nat) (description suggestion : Text) : Ledger :=
  { ledger with
    bottlenecks := ledger.bottlenecks ++ [⟨line, description⟩]
    remedies := ledger.remedies ++ [⟨line, suggestion⟩] }

/-- Whether an allocation for this holder was recorded. -/
def has (ledger : Ledger) (holder : Text) : Bool := ledger.breakdown.any (·.holder == holder)

/-- A number of bytes in units of 1024, with two decimal places. The number is first rounded to
a significand of 53 bits. -/
def kilobytes (bytes : Int64) : Text :=
  let n := bytes.toInt
  let magnitude := Decimal.toBinary53 n.natAbs
  Decimal.fixed 2 (if n < 0 then -(magnitude : Int) else magnitude) 1024 ++ " KB"

/-- The estimate that a ledger amounts to. -/
def close (ledger : Ledger) : MemoryUse :=
  { total := kilobytes ledger.total
    breakdown := ledger.breakdown
    bottlenecks := some ledger.bottlenecks
    remedies := some ledger.remedies }

/-- A bottleneck adds nothing to the total. -/
@[simp] theorem total_flag (ledger : Ledger) (line : Nat) (description suggestion : Text) :
    (ledger.flag line description suggestion).total = ledger.total := rfl

/-- An entry adds its size to the total. -/
@[simp] theorem total_allocateAs (ledger : Ledger) (holder kind shown : Text) (size : Int64)
    (line : Nat) :
    (ledger.allocateAs holder kind shown size line).total = ledger.total + size := rfl

end Ledger

end FlowTrace
