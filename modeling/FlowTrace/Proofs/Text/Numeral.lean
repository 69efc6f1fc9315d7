import Mathlib.Data.List.Basic
import FlowTrace.Text.Basic

/-! # Numerals

The decimal digits of a number are digits, and they tell the number. So a name that ends in an
underscore and a numeral tells its number too (`number_of_numbered`), whatever stands before. -/

namespace FlowTrace.Text

/-- The byte of the underscore. -/
abbrev underscore : UInt8 := 0x5F

/-- A digit as a byte has the same code. -/
theorem toNat_toUInt8_of_isDigit {c : Char} (h : c.isDigit = true) : c.toUInt8.toNat = c.toNat := by
  have bound : c.toNat ≤ 57 := by
    simp only [Char.isDigit, Bool.and_eq_true, decide_eq_true_eq] at h
    exact h.2
  show c.toNat % 256 = c.toNat
  omega

/-- Every byte of a numeral is a digit. -/
theorem isDigit_of_mem_ofNat {n : Nat} {c : UInt8} (h : c ∈ ofNat n) : isDigit c = true := by
  obtain ⟨char, member, rfl⟩ := List.mem_map.1 h
  have digit := Nat.isDigit_of_mem_toDigits (by decide) (by decide) member
  have same := toNat_toUInt8_of_isDigit digit
  simp only [Char.isDigit, Bool.and_eq_true, decide_eq_true_eq] at digit
  simp only [isDigit, Bool.and_eq_true, decide_eq_true_eq, UInt8.le_iff_toNat_le]
  rw [same]
  exact digit

/-- No numeral is empty. -/
theorem ofNat_ne_nil (n : Nat) : ofNat n ≠ [] := by
  simp [ofNat]

/-- Reading the bytes of digits as digits. -/
theorem foldl_digits (chars : List Char) (digits : ∀ c ∈ chars, c.isDigit = true) (n : Nat) :
    (chars.map Char.toUInt8).foldl (fun n c => n * 10 + (c.toNat - 48)) n =
      Nat.ofDigitChars 10 chars n := by
  induction chars generalizing n with
  | nil => simp
  | cons c chars ih =>
    have same := toNat_toUInt8_of_isDigit (digits c (List.mem_cons_self ..))
    rw [List.map_cons, List.foldl_cons, Nat.ofDigitChars_cons, same,
      ih fun d member => digits d (List.mem_cons_of_mem _ member), Nat.mul_comm]
    rfl

/-- A numeral **reads back** as its number. -/
theorem toNat?_ofNat (n : Nat) : toNat? (ofNat n) = some n := by
  have all : (ofNat n).all isDigit = true := List.all_eq_true.2 fun _ => isDigit_of_mem_ofNat
  have some' : (ofNat n).isEmpty = false := by simpa using ofNat_ne_nil n
  rw [toNat?, all, some', if_neg (by simp)]
  have read := foldl_digits (Nat.toDigits 10 n)
    (fun c member => Nat.isDigit_of_mem_toDigits (by decide) (by decide) member) 0
  rw [Nat.ofDigitChars_ten_toDigits] at read
  exact congrArg some read

/-- Different numbers are written differently. -/
theorem ofNat_injective : Function.Injective ofNat := by
  intro m n same
  have read := toNat?_ofNat m
  rw [same, toNat?_ofNat] at read
  exact (Option.some.inj read).symm

/-- A numeral has no underscore in it. -/
theorem ne_underscore_of_mem_ofNat {n : Nat} {c : UInt8} (h : c ∈ ofNat n) : c ≠ underscore := by
  rintro rfl
  have digit := isDigit_of_mem_ofNat h
  exact absurd digit (by decide)

/-- What follows the last underscore, read from behind. -/
theorem takeWhile_numbered (stem : Text) (n : Nat) :
    (stem ++ "_" ++ ofNat n).reverse.takeWhile (· != underscore) = (ofNat n).reverse := by
  have split : (stem ++ "_" ++ ofNat n).reverse =
      (ofNat n).reverse ++ underscore :: stem.reverse := by
    rw [List.reverse_append, List.reverse_append]
    rfl
  rw [split, List.takeWhile_append_of_pos]
  · simp
  · intro c member
    rw [List.mem_reverse] at member
    simpa using ne_underscore_of_mem_ofNat member

/-- **A numbered name tells its number**, whatever its stem. -/
theorem number_of_numbered {stem stem' : Text} {m n : Nat}
    (h : stem ++ "_" ++ ofNat m = stem' ++ "_" ++ ofNat n) : m = n := by
  have same := takeWhile_numbered stem m
  rw [h, takeWhile_numbered] at same
  exact ofNat_injective (List.reverse_injective same).symm

/-- A numbered name has an underscore in it. -/
theorem underscore_mem_numbered (stem : Text) (n : Nat) : underscore ∈ stem ++ "_" ++ ofNat n := by
  refine List.mem_append_left _ (List.mem_append_right _ ?_)
  exact List.mem_singleton_self _

end FlowTrace.Text
