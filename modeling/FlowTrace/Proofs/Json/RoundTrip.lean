import FlowTrace.Proofs.Attempt
import FlowTrace.Proofs.Json.Quote
import FlowTrace.Proofs.Text.Numeral

/-! # Values on the wire

A value that is written is read back (`read_render_repaired`), if it is **legible**
(`Json.isLegible`): its numbers are numbers, and it is not nested too deep. All that changes are the
strings, in which invalid bytes are replaced (`Json.repaired`). In particular a **sendable** value
(`Json.isSendable`), whose strings are valid and whose numbers are integers, is read back unchanged
(`read_render`). -/

namespace FlowTrace.Json

variable {rest digits : Text} {c : UInt8}

/-! ## Numbers -/

/-- Whether a text does not go on with a number that stands before it. -/
def endsNumber : Text → Bool
  | [] => true
  | c :: _ => !(Text.isDigit c || c == '.' || c == 'e' || c == 'E')

/-- The digits in front of something that ends a number are its longest row of digits. -/
theorem takeWhile_digits (all : ∀ c ∈ digits, Text.isDigit c = true)
    (ended : endsNumber rest = true) : (digits ++ rest).takeWhile Text.isDigit = digits := by
  rw [List.takeWhile_append_of_pos all]
  cases rest with
  | nil => simp
  | cons c rest =>
    have stop : Text.isDigit c = false := by simp_all [endsNumber]
    rw [List.takeWhile_cons_of_neg (by simp [stop]), List.append_nil]

/-- Behind that row stands what ends the number. -/
theorem dropWhile_digits (all : ∀ c ∈ digits, Text.isDigit c = true)
    (ended : endsNumber rest = true) : (digits ++ rest).dropWhile Text.isDigit = rest := by
  rw [List.dropWhile_append_of_pos all]
  cases rest with
  | nil => rfl
  | cons c rest =>
    have stop : Text.isDigit c = false := by simp_all [endsNumber]
    exact List.dropWhile_cons_of_neg (by simp [stop])

/-- A row of digits is read up to what ends the number. -/
theorem readDigits_append (some_digit : digits ≠ [])
    (all : ∀ c ∈ digits, Text.isDigit c = true) (ended : endsNumber rest = true) :
    readDigits (digits ++ rest) = .ok (digits, rest) := by
  have taken := takeWhile_digits all ended
  have dropped := dropWhile_digits all ended
  cases digits with
  | nil => exact absurd rfl some_digit
  | cons c digits =>
    rw [List.cons_append] at taken dropped ⊢
    rw [readDigits, if_pos (all c List.mem_cons_self), taken, dropped]

/-- What ends a number begins no fraction. -/
theorem readFraction_of_ended (ended : endsNumber rest = true) :
    readFraction rest = .ok ([], rest) := by
  cases rest with
  | nil => rfl
  | cons c rest =>
    have no_point : (c == ('.' : UInt8)) = false := by simp_all [endsNumber]
    rw [readFraction, if_neg (by rw [no_point]; decide)]

/-- What ends a number begins no exponent. -/
theorem readExponent_of_ended (ended : endsNumber rest = true) :
    readExponent rest = .ok ([], rest) := by
  cases rest with
  | nil => rfl
  | cons c rest =>
    have no_exponent : (c == ('e' : UInt8) || c == ('E' : UInt8)) = false := by
      simp_all [endsNumber]
    exact if_neg (by rw [no_exponent]; decide)

/-! ### Numbers with something behind them -/

/-- What ends a number does not lengthen a row of digits in front of it. -/
theorem takeWhile_append_ended (t : Text) (ended : endsNumber rest = true) :
    (t ++ rest).takeWhile Text.isDigit = t.takeWhile Text.isDigit := by
  induction t with
  | nil => exact takeWhile_digits (by simp) ended
  | cons c t ih =>
    rw [List.cons_append, List.takeWhile_cons, List.takeWhile_cons, ih]

/-- What ends a number stays behind the digits that are passed over. -/
theorem dropWhile_append_ended (t : Text) (ended : endsNumber rest = true) :
    (t ++ rest).dropWhile Text.isDigit = t.dropWhile Text.isDigit ++ rest := by
  induction t with
  | nil => exact dropWhile_digits (by simp) ended
  | cons c t ih =>
    rw [List.cons_append, List.dropWhile_cons, List.dropWhile_cons, ih]
    split <;> rfl

variable {t left part : Text}

/-- Digits are read the same whatever ends the number behind them. -/
theorem readDigits_append_ended (read : readDigits t = .ok (part, left))
    (ended : endsNumber rest = true) : readDigits (t ++ rest) = .ok (part, left ++ rest) := by
  cases t with
  | nil => cases read
  | cons c t =>
    rw [readDigits] at read
    split at read
    · rename_i digit
      cases read
      rw [List.cons_append, readDigits, if_pos digit, ← List.cons_append,
        takeWhile_append_ended _ ended, dropWhile_append_ended _ ended]
    · cases read

/-- A fraction is read the same whatever ends the number behind it. -/
theorem readFraction_append_ended (read : readFraction t = .ok (part, left))
    (ended : endsNumber rest = true) : readFraction (t ++ rest) = .ok (part, left ++ rest) := by
  cases t with
  | nil =>
    cases read
    exact readFraction_of_ended ended
  | cons c t =>
    rw [List.cons_append]
    by_cases point : (c == ('.' : UInt8)) = true
    · rw [readFraction, if_pos point] at read ⊢
      obtain ⟨⟨digits, left'⟩, digits_read, same⟩ := bind_eq_ok.1 read
      cases same
      exact bind_eq_ok.2 ⟨_, readDigits_append_ended digits_read ended, rfl⟩
    · rw [readFraction, if_neg point] at read ⊢
      cases read
      rfl

/-- An exponent is read the same whatever ends the number behind it. -/
theorem readExponent_append_ended (read : readExponent t = .ok (part, left))
    (ended : endsNumber rest = true) : readExponent (t ++ rest) = .ok (part, left ++ rest) := by
  cases t with
  | nil =>
    cases read
    exact readExponent_of_ended ended
  | cons c t =>
    rw [List.cons_append]
    by_cases mark : (c == ('e' : UInt8) || c == ('E' : UInt8)) = true
    · simp only [readExponent, mark, if_true] at read ⊢
      cases t with
      | nil => cases read
      | cons s t =>
        -- The digits come after a sign, or at once.
        rw [List.cons_append]
        by_cases sign : (s == ('+' : UInt8) || s == ('-' : UInt8)) = true
        · simp only [sign, if_true] at read ⊢
          obtain ⟨⟨digits, left'⟩, digits_read, same⟩ := bind_eq_ok.1 read
          cases same
          exact bind_eq_ok.2 ⟨_, readDigits_append_ended digits_read ended, rfl⟩
        · simp only [sign, Bool.false_eq_true, if_false] at read ⊢
          obtain ⟨⟨digits, left'⟩, digits_read, same⟩ := bind_eq_ok.1 read
          cases same
          exact bind_eq_ok.2 ⟨_, readDigits_append_ended digits_read ended, rfl⟩
    · simp only [readExponent, mark, Bool.false_eq_true, if_false] at read ⊢
      cases read
      rfl

/-- Reads the integer part of a number. -/
def readWhole : Text → Except ReadError (Text × Text)
  | c :: rest => if c == ('0' : UInt8) then .ok ([c], rest) else readDigits (c :: rest)
  | [] => .error .incomplete

/-- The integer part of a number is read the same whatever ends the number behind it. -/
theorem readWhole_append_ended (read : readWhole t = .ok (part, left))
    (ended : endsNumber rest = true) : readWhole (t ++ rest) = .ok (part, left ++ rest) := by
  cases t with
  | nil => cases read
  | cons c t =>
    rw [List.cons_append]
    by_cases zero : (c == ('0' : UInt8)) = true
    · rw [readWhole, if_pos zero] at read ⊢
      cases read
      rfl
    · rw [readWhole, if_neg zero] at read ⊢
      exact readDigits_append_ended read ended

/-- A number is read part by part behind its sign. -/
theorem readNumber_cons (c : UInt8) (t : Text) :
    readNumber (c :: t) =
      (readWhole (if c == ('-' : UInt8) then t else c :: t)) >>= fun (whole, t) =>
        readFraction t >>= fun (fraction, t) => readExponent t >>= fun (exponent, t) =>
          .ok ((if c == ('-' : UInt8) then [c] else []) ++ whole ++ fraction ++ exponent, t) := by
  -- The reader goes on in either case of the integer part, so that each case is compared.
  by_cases minus : (c == ('-' : UInt8)) = true
  · simp only [readNumber, minus, if_true]
    cases t with
    | nil => rfl
    | cons d t =>
      simp only [readWhole]
      split <;> rfl
  · simp only [readNumber, minus, Bool.false_eq_true, if_false, readWhole]
    split <;> rfl

/-- **A number is read as before** when something stands behind it that ends it. -/
theorem readNumber_append_ended (read : readNumber t = .ok (part, left))
    (ended : endsNumber rest = true) : readNumber (t ++ rest) = .ok (part, left ++ rest) := by
  cases t with
  | nil => cases read
  | cons c t =>
    rw [readNumber_cons] at read
    obtain ⟨⟨whole, t₁⟩, whole_read, read⟩ := bind_eq_ok.1 read
    obtain ⟨⟨fraction, t₂⟩, fraction_read, read⟩ := bind_eq_ok.1 read
    obtain ⟨⟨exponent, t₃⟩, exponent_read, same⟩ := bind_eq_ok.1 read
    cases same
    have behind : (if c == ('-' : UInt8) then t ++ rest else c :: (t ++ rest)) =
        (if c == ('-' : UInt8) then t else c :: t) ++ rest := by
      split <;> rfl
    rw [List.cons_append, readNumber_cons, behind]
    exact bind_eq_ok.2 ⟨_, readWhole_append_ended whole_read ended,
      bind_eq_ok.2 ⟨_, readFraction_append_ended fraction_read ended,
        bind_eq_ok.2 ⟨_, readExponent_append_ended exponent_read ended, rfl⟩⟩⟩

/-- Whether a literal is a number, all of it. -/
def isNumber (literal : Text) : Bool :=
  match readNumber literal with
  | .ok (read, rest) => read == literal && rest.isEmpty
  | .error _ => false

/-- **A number is read up to its end.** -/
theorem readNumber_of_isNumber {literal : Text} (number : isNumber literal = true)
    (ended : endsNumber rest = true) : readNumber (literal ++ rest) = .ok (literal, rest) := by
  unfold isNumber at number
  split at number
  · rename_i part left read
    simp only [Bool.and_eq_true, beq_iff_eq, List.isEmpty_iff] at number
    obtain ⟨rfl, rfl⟩ := number
    exact readNumber_append_ended read ended
  · cases number

/-! ### Integers -/

/-- The digits of a positive number do not begin with a zero. -/
theorem head_toDigits {n : Nat} (positive : 0 < n) : (Nat.toDigits 10 n).head? ≠ some '0' := by
  induction n using Nat.strongRecOn with
  | ind n ih =>
    rw [Nat.toDigits_eq_if (by decide)]
    split
    · simp only [List.head?_cons, ne_eq, Option.some.injEq, Nat.digitChar_eq_zero]
      omega
    · rw [List.head?_append_of_ne_nil _ Nat.toDigits_ne_nil]
      exact ih (n / 10) (by omega) (by omega)

/-- Zero is the only number that is written with a leading zero. -/
theorem ofNat_of_head_zero {n : Nat} (h : (Text.ofNat n).head? = some 0x30) :
    Text.ofNat n = [0x30] := by
  obtain rfl | positive := Nat.eq_zero_or_pos n
  · rfl
  · exfalso
    rw [Text.ofNat, List.head?_map, Option.map_eq_some_iff] at h
    obtain ⟨char, first, code⟩ := h
    have digit := Nat.isDigit_of_mem_toDigits (by decide) (by decide) (List.mem_of_head? first)
    have same : char.toNat = 48 := by
      rw [← Text.toNat_toUInt8_of_isDigit digit, code]
      rfl
    have zero : char = '0' := Char.toNat_inj.1 same
    exact head_toDigits positive (zero ▸ first)

/-- A numeral: digits, of which the first one is no zero unless it is the only one. -/
structure IsNumeral (digits : Text) : Prop where
  /-- There is a digit. -/
  some_digit : digits ≠ []
  /-- There is nothing but digits. -/
  all : ∀ c ∈ digits, Text.isDigit c = true
  /-- A zero stands alone. -/
  zero : digits.head? = some 0x30 → digits = [0x30]

/-- Decimal digits are a numeral. -/
theorem isNumeral_ofNat (n : Nat) : IsNumeral (Text.ofNat n) :=
  ⟨Text.ofNat_ne_nil n, fun _ => Text.isDigit_of_mem_ofNat, ofNat_of_head_zero⟩

/-- A numeral is read up to its end, with a sign before it or without. -/
theorem readNumber_numeral (numeral : IsNumeral digits) (ended : endsNumber rest = true) :
    readNumber (digits ++ rest) = .ok (digits, rest) ∧
      readNumber (0x2D :: digits ++ rest) = .ok (0x2D :: digits, rest) := by
  have read := readDigits_append numeral.some_digit numeral.all ended
  have fraction := readFraction_of_ended ended
  have exponent := readExponent_of_ended ended
  have minus : ('-' : Char).toUInt8 = 0x2D := rfl
  have nought : ('0' : Char).toUInt8 = 0x30 := rfl
  cases digits with
  | nil => exact absurd rfl numeral.some_digit
  | cons c more =>
    have digit : Text.isDigit c = true := numeral.all c List.mem_cons_self
    have no_sign : c ≠ 0x2D := by
      rintro rfl
      cases digit
    rw [List.cons_append] at read
    by_cases zero : c = 0x30
    · have alone := numeral.zero (by rw [List.head?_cons, zero])
      obtain ⟨rfl, rfl⟩ := List.cons.inj alone
      constructor <;>
        simp [readNumber, minus, nought, fraction, exponent, bind, Except.bind, pure, Except.pure]
    · constructor <;>
        simp [readNumber, minus, nought, zero, no_sign, fraction, exponent, read, bind, Except.bind,
          pure, Except.pure]

/-- **An integer is a number.** -/
theorem isNumber_ofInt (n : Int) : isNumber (Text.ofInt n) = true := by
  have read : readNumber (Text.ofInt n) = .ok (Text.ofInt n, []) := by
    cases n with
    | ofNat n =>
      have read := (readNumber_numeral (isNumeral_ofNat n) (show endsNumber [] = true from rfl)).1
      rwa [List.append_nil] at read
    | negSucc n =>
      have read :=
        (readNumber_numeral (isNumeral_ofNat (n + 1)) (show endsNumber [] = true from rfl)).2
      rwa [List.append_nil] at read
  simp [isNumber, read]

/-! ## Legible values -/

mutual
/-- Whether a value is **legible** where only so much nesting is left: its numbers are numbers. -/
def isLegible (depth : Nat) : Json → Bool
  | null => true
  | bool _ => true
  | num literal => isNumber literal
  | str _ => true
  | arr items =>
    match depth with
    | 0 => false
    | depth + 1 => legibleItems depth items
  | obj members =>
    match depth with
    | 0 => false
    | depth + 1 => legibleMembers depth members

/-- Whether all items are legible. -/
def legibleItems (depth : Nat) : List Json → Bool
  | [] => true
  | item :: items => item.isLegible depth && legibleItems depth items

/-- Whether the values of all members are legible. -/
def legibleMembers (depth : Nat) : List (Text × Json) → Bool
  | [] => true
  | (_, value) :: members => value.isLegible depth && legibleMembers depth members
end

/-- A list of items is legible when each of them is. -/
theorem legibleItems_iff {depth : Nat} {items : List Json} :
    legibleItems depth items = true ↔ ∀ item ∈ items, item.isLegible depth = true := by
  induction items with
  | nil => simp [legibleItems]
  | cons item items ih => simp [legibleItems, ih]

/-- Members are legible when the value of each of them is. -/
theorem legibleMembers_iff {depth : Nat} {members : List (Text × Json)} :
    legibleMembers depth members = true ↔ ∀ entry ∈ members, entry.2.isLegible depth = true := by
  induction members with
  | nil => simp [legibleMembers]
  | cons entry members ih => simp [legibleMembers, ih]

mutual
/-- The value with the invalid bytes of its strings replaced. -/
def repaired : Json → Json
  | null => null
  | bool value => bool value
  | num literal => num literal
  | str text => str text.repaired
  | arr items => arr (repairedItems items)
  | obj members => obj (repairedMembers members)

/-- The items of a list, repaired. -/
def repairedItems : List Json → List Json
  | [] => []
  | item :: items => item.repaired :: repairedItems items

/-- The members of an object, repaired, with their names. -/
def repairedMembers : List (Text × Json) → List (Text × Json)
  | [] => []
  | (name, value) :: members => (name.repaired, value.repaired) :: repairedMembers members
end

variable {depth bound : Nat} {literal : Text}

/-! ## Beginnings -/

/-- Whether a value may begin with a byte. -/
def isFirst (c : UInt8) : Bool := !isSpace c && c != ']'

/-- A value begins with no blank space. -/
theorem dropWhile_isSpace (first : isFirst c = true) (t : Text) :
    (c :: t).dropWhile isSpace = c :: t := by
  refine List.dropWhile_cons_of_neg ?_
  simp_all [isFirst]

/-- Whether a number may begin with a byte. -/
def startsNumber (c : UInt8) : Bool := c == '-' || Text.isDigit c

/-- A number begins with a minus sign or a digit. -/
theorem exists_number_cons (number : isNumber literal = true) :
    ∃ c t, literal = c :: t ∧ startsNumber c = true := by
  cases literal with
  | nil => cases number
  | cons c t =>
    refine ⟨c, t, rfl, ?_⟩
    by_contra other
    simp only [startsNumber, Bool.or_eq_true, not_or] at other
    have no_zero : ¬ (c == ('0' : UInt8)) = true := by
      intro zero
      rw [eq_of_beq zero] at other
      exact other.2 rfl
    have no_whole : readWhole (if c == ('-' : UInt8) then t else c :: t) = .error .malformed := by
      rw [if_neg other.1, readWhole, if_neg no_zero, readDigits, if_neg other.2]
    rw [isNumber, readNumber_cons, no_whole] at number
    cases number

/-- A byte that begins a number is none that does not. -/
theorem beq_of_startsNumber (number : startsNumber c = true) {d : UInt8}
    (other : startsNumber d = false) : (c == d) = false := by
  rw [Bool.eq_false_iff]
  intro same
  rw [eq_of_beq same, other] at number
  cases number

/-- A value may begin with a byte that begins a number. -/
theorem isFirst_of_startsNumber (number : startsNumber c = true) : isFirst c = true := by
  simp only [isFirst, isSpace, bne, Bool.and_eq_true, Bool.not_eq_true', Bool.or_eq_false_iff]
  refine ⟨⟨⟨⟨?_, ?_⟩, ?_⟩, ?_⟩, ?_⟩ <;> exact beq_of_startsNumber number (by decide)

/-- A written value begins with a byte that a value may begin with. -/
theorem exists_render_cons (value : Json) (legible : value.isLegible depth = true) :
    ∃ c t, value.render = c :: t ∧ isFirst c = true := by
  match value with
  | null => exact ⟨_, _, rfl, by decide⟩
  | bool true => exact ⟨_, _, rfl, by decide⟩
  | bool false => exact ⟨_, _, rfl, by decide⟩
  | num literal =>
    obtain ⟨c, t, shape, number⟩ := exists_number_cons legible
    exact ⟨c, t, shape, isFirst_of_startsNumber number⟩
  | str text => exact ⟨_, _, rfl, by decide⟩
  | arr items => exact ⟨_, _, rfl, by decide⟩
  | obj members => exact ⟨_, _, rfl, by decide⟩

/-! ## Reading back -/

/-- A string that is quoted is read back, repaired. -/
theorem readValue_str (text : Text) :
    readValue (bound + 1) depth (quote text ++ rest) = .ok (.str text.repaired, rest) := by
  have read := readString_quote text rest
  have split : quote text ++ rest =
      Text.doubleQuote :: (text.glyphs.flatMap escapeGlyph ++ Text.doubleQuote :: rest) := by
    simp [quote]
  rw [split]
  unfold readValue
  rw [dropWhile_isSpace (by decide)]
  simp only [read]
  rw [if_neg (by decide), if_neg (by decide), if_pos (by decide)]
  rfl

/-- A number is read back. -/
theorem readValue_num (is_number : isNumber literal = true) (ended : endsNumber rest = true) :
    readValue (bound + 1) depth (literal ++ rest) = .ok (.num literal, rest) := by
  obtain ⟨c, t, shape, number⟩ := exists_number_cons is_number
  have read := readNumber_of_isNumber is_number ended
  have no {d : UInt8} (other : startsNumber d = false) : ¬ (c == d) = true := by
    rw [beq_of_startsNumber number other]
    decide
  rw [shape, List.cons_append] at read ⊢
  unfold readValue
  rw [dropWhile_isSpace (isFirst_of_startsNumber number)]
  simp only [read]
  rw [if_neg (no (by decide)), if_neg (no (by decide)), if_neg (no (by decide)),
    if_neg (no (by decide)), if_neg (no (by decide)), if_neg (no (by decide))]
  exact if_pos number

/-- A value that can be written takes at least one byte. -/
theorem length_render_pos (value : Json) (legible : value.isLegible depth = true) :
    0 < value.render.length := by
  obtain ⟨c, t, shape, -⟩ := exists_render_cons value legible
  rw [shape]
  exact Nat.succ_pos _

/-- A list is written between brackets. -/
theorem render_arr (items : List Json) :
    (arr items).render = 0x5B :: (renderItems items ++ [0x5D]) := rfl

/-- Items are written with commas between them. -/
theorem renderItems_cons_cons (item next : Json) (more : List Json) :
    renderItems (item :: next :: more) = item.render ++ 0x2C :: renderItems (next :: more) := rfl

/-- An object is written between braces. -/
theorem render_obj (members : List (Text × Json)) :
    (obj members).render = 0x7B :: (renderMembers members ++ [0x7D]) := rfl

/-- A member is written as its name, a colon and its value. -/
theorem renderMembers_singleton (name : Text) (value : Json) :
    renderMembers [(name, value)] = quote name ++ 0x3A :: value.render := rfl

/-- Members are written with commas between them. -/
theorem renderMembers_cons_cons (name : Text) (value : Json) (next : Text × Json)
    (more : List (Text × Json)) : renderMembers ((name, value) :: next :: more) =
      quote name ++ 0x3A :: (value.render ++ 0x2C :: renderMembers (next :: more)) := rfl

/-- A list is read item by item. -/
theorem readValue_arr {t : Text} (first : isFirst c = true) :
    readValue (bound + 1) (depth + 1) (0x5B :: c :: t) = readItems bound depth (c :: t) [] := by
  have no_end : ¬ (c == (']' : UInt8)) = true := by
    simp_all [isFirst]
  unfold readValue
  rw [dropWhile_isSpace (by decide)]
  simp only [dropWhile_isSpace first]
  rw [if_neg (by decide), if_pos (by decide), if_neg no_end]

/-- An object is read member by member. -/
theorem readValue_obj {t : Text} :
    readValue (bound + 1) (depth + 1) (0x7B :: Text.doubleQuote :: t) =
      readMembers bound depth (Text.doubleQuote :: t) [] := rfl

/-- The last item of a list is read up to the closing bracket. -/
theorem readItems_last {item : Json} {t : Text} {done : List Json}
    (read : readValue bound depth t = .ok (item, 0x5D :: rest)) :
    readItems (bound + 1) depth t done = .ok (.arr (done.reverse ++ [item]), rest) := by
  rw [readItems, read, ← List.reverse_cons]
  rfl

/-- An item that a comma follows is read, and the reader goes on behind the comma. -/
theorem readItems_next {item : Json} {t : Text} {done : List Json}
    (read : readValue bound depth t = .ok (item, 0x2C :: rest)) :
    readItems (bound + 1) depth t done = readItems bound depth rest (item :: done) := by
  rw [readItems, read]
  rfl

/-- The name of a member is read, and then its value. -/
theorem readMembers_named (name t : Text) (done : List (Text × Json)) :
    readMembers (bound + 1) depth (quote name ++ 0x3A :: t) done =
      match readValue bound depth t with
      | .error error => .error error
      | .ok (value, t) =>
        match t.dropWhile isSpace with
        | [] => .error .incomplete
        | c :: rest =>
          if c == (',' : UInt8) then readMembers bound depth rest ((name.repaired, value) :: done)
          else if c == ('\x7d' : UInt8) then
            .ok (.obj ((name.repaired, value) :: done).reverse, rest)
          else .error .malformed := by
  have read := readString_quote name (0x3A :: t)
  have split : quote name ++ 0x3A :: t =
      Text.doubleQuote :: (name.glyphs.flatMap escapeGlyph ++ Text.doubleQuote :: 0x3A :: t) := by
    simp [quote]
  rw [split, readMembers, dropWhile_isSpace (by decide)]
  simp only [read]
  rfl

/-- The last member of an object is read up to the closing brace. -/
theorem readMembers_last {name t : Text} {value : Json} {done : List (Text × Json)}
    (read : readValue bound depth t = .ok (value, 0x7D :: rest)) :
    readMembers (bound + 1) depth (quote name ++ 0x3A :: t) done =
      .ok (.obj (done.reverse ++ [(name.repaired, value)]), rest) := by
  rw [readMembers_named, read, ← List.reverse_cons]
  rfl

/-- A member that a comma follows is read, and the reader goes on behind the comma. -/
theorem readMembers_next {name t : Text} {value : Json} {done : List (Text × Json)}
    (read : readValue bound depth t = .ok (value, 0x2C :: rest)) :
    readMembers (bound + 1) depth (quote name ++ 0x3A :: t) done =
      readMembers bound depth rest ((name.repaired, value) :: done) := by
  rw [readMembers_named, read]
  rfl

/-- Items that are written begin with a byte that a value may begin with. -/
theorem exists_renderItems_cons (item : Json) (items : List Json)
    (legible : item.isLegible depth = true) :
    ∃ c t, renderItems (item :: items) = c :: t ∧ isFirst c = true := by
  obtain ⟨c, t, shape, first⟩ := exists_render_cons item legible
  cases items with
  | nil => exact ⟨c, t, shape, first⟩
  | cons next more =>
    refine ⟨c, t ++ 0x2C :: renderItems (next :: more), ?_, first⟩
    rw [renderItems_cons_cons, shape, List.cons_append]

/-- Members that are written begin with a quotation mark. -/
theorem exists_renderMembers_cons (name : Text) (value : Json) (members : List (Text × Json)) :
    ∃ t, renderMembers ((name, value) :: members) = Text.doubleQuote :: t := by
  cases members with
  | nil => exact ⟨_, rfl⟩
  | cons => exact ⟨_, rfl⟩

mutual
/-- **A legible value is read back as it was written**, once it is repaired. -/
theorem readValue_render : ∀ (value : Json) {bound depth : Nat} {rest : Text},
    value.isLegible depth = true → 2 * value.render.length ≤ bound → endsNumber rest = true →
    readValue bound depth (value.render ++ rest) = .ok (value.repaired, rest)
  | null, bound + 1, _, _, _, _, _ => rfl
  | bool true, bound + 1, _, _, _, _, _ => rfl
  | bool false, bound + 1, _, _, _, _, _ => rfl
  | num literal, bound + 1, depth, rest, legible, enough, ended => readValue_num legible ended
  | str text, bound + 1, depth, rest, legible, enough, ended => readValue_str text
  | arr [], bound + 1, depth + 1, rest, legible, enough, ended => rfl
  | arr (item :: items), bound + 1, depth + 1, rest, legible, enough, ended => by
    rw [render_arr, List.length_cons, List.length_append, List.length_singleton] at enough
    obtain ⟨c, t, shape, first⟩ :=
      exists_renderItems_cons item items (Bool.and_eq_true_iff.1 legible).1
    have enough : 2 * (renderItems (item :: items)).length + 1 ≤ bound := by omega
    have read := readItems_render item items legible enough rest []
    rw [render_arr, List.cons_append, List.append_assoc, List.singleton_append]
    rw [shape, List.cons_append] at read ⊢
    rw [readValue_arr first]
    exact read
  | obj [], bound + 1, depth + 1, rest, legible, enough, ended => rfl
  | obj ((name, value) :: members), bound + 1, depth + 1, rest, legible, enough, ended => by
    rw [render_obj, List.length_cons, List.length_append, List.length_singleton] at enough
    obtain ⟨t, shape⟩ := exists_renderMembers_cons name value members
    have enough : 2 * (renderMembers ((name, value) :: members)).length + 1 ≤ bound := by omega
    have read := readMembers_render name value members legible enough rest []
    rw [render_obj, List.cons_append, List.append_assoc, List.singleton_append]
    rw [shape, List.cons_append] at read ⊢
    rw [readValue_obj]
    exact read
  | value, 0, depth, rest, legible, enough, ended => by
    -- The bound is never used up: there is a byte to read, and each byte is good for two calls.
    have some_byte := length_render_pos value legible
    omega

/-- The items of a list are read back. -/
theorem readItems_render : ∀ (item : Json) (items : List Json) {bound depth : Nat},
    legibleItems depth (item :: items) = true →
    2 * (renderItems (item :: items)).length + 1 ≤ bound → ∀ (rest : Text) (done : List Json),
    readItems bound depth (renderItems (item :: items) ++ 0x5D :: rest) done =
      .ok (.arr (done.reverse ++ repairedItems (item :: items)), rest)
  | item, [], bound + 1, depth, legible, enough, rest, done => by
    have enough : 2 * item.render.length + 1 ≤ bound + 1 := enough
    have only := (Bool.and_eq_true_iff.1 legible).1
    exact readItems_last (readValue_render item only (by omega) rfl)
  | item, next :: more, bound + 1, depth, legible, enough, rest, done => by
    obtain ⟨first, others⟩ := Bool.and_eq_true_iff.1 legible
    rw [renderItems_cons_cons, List.length_append, List.length_cons] at enough
    rw [renderItems_cons_cons, List.append_assoc, List.cons_append,
      readItems_next (readValue_render item first (by omega) rfl),
      readItems_render next more others (by omega), List.reverse_cons, List.append_assoc]
    rfl

/-- The members of an object are read back. -/
theorem readMembers_render : ∀ (name : Text) (value : Json) (members : List (Text × Json))
    {bound depth : Nat}, legibleMembers depth ((name, value) :: members) = true →
    2 * (renderMembers ((name, value) :: members)).length + 1 ≤ bound →
    ∀ (rest : Text) (done : List (Text × Json)),
    readMembers bound depth (renderMembers ((name, value) :: members) ++ 0x7D :: rest) done =
      .ok (.obj (done.reverse ++ repairedMembers ((name, value) :: members)), rest)
  | name, value, [], bound + 1, depth, legible, enough, rest, done => by
    have only := (Bool.and_eq_true_iff.1 legible).1
    rw [renderMembers_singleton, List.length_append, List.length_cons] at enough
    rw [renderMembers_singleton, List.append_assoc, List.cons_append]
    exact readMembers_last (readValue_render value only (by omega) rfl)
  | name, value, (next, nextValue) :: more, bound + 1, depth, legible, enough, rest, done => by
    obtain ⟨first, others⟩ := Bool.and_eq_true_iff.1 legible
    rw [renderMembers_cons_cons, List.length_append, List.length_cons, List.length_append,
      List.length_cons] at enough
    rw [renderMembers_cons_cons, List.append_assoc, List.cons_append, List.append_assoc,
      List.cons_append,
      readMembers_next (readValue_render value first (by omega) rfl),
      readMembers_render next nextValue more others (by omega), List.reverse_cons,
      List.append_assoc]
    rfl
end

/-- **A legible value is read back** from its written form, whatever follows it. -/
theorem readFirst_render_repaired {value : Json} (legible : value.isLegible maxDepth = true)
    (ended : endsNumber rest = true) :
    readFirst (value.render ++ rest) = .ok (value.repaired, rest) := by
  refine readValue_render value legible ?_ ended
  rw [List.length_append]
  omega

/-- A number ends before blank space. -/
theorem endsNumber_of_blank (blank : rest.all isSpace = true) : endsNumber rest = true := by
  cases rest with
  | nil => rfl
  | cons c rest =>
    have space : isSpace c = true := (Bool.and_eq_true_iff.1 blank).1
    simp only [isSpace, Bool.or_eq_true, beq_iff_eq] at space
    rcases space with ((rfl | rfl) | rfl) | rfl <;> rfl

/-- **A legible value is read back** if nothing but blank space follows it. -/
theorem read_render_repaired {value : Json} (legible : value.isLegible maxDepth = true)
    (blank : rest.all isSpace = true) : read? (value.render ++ rest) = some value.repaired := by
  rw [read?, readFirst_render_repaired legible (endsNumber_of_blank blank)]
  simp [blank]

/-! ## Sendable values -/

mutual
/-- Whether a value is **sendable** where only so much nesting is left: its strings are valid and
its numbers are integers. -/
def isSendable (depth : Nat) : Json → Bool
  | null => true
  | bool _ => true
  | num literal => (literalToInt? literal).map Text.ofInt == some literal
  | str text => text.isValid
  | arr items =>
    match depth with
    | 0 => false
    | depth + 1 => sendableItems depth items
  | obj members =>
    match depth with
    | 0 => false
    | depth + 1 => sendableMembers depth members

/-- Whether all items are sendable. -/
def sendableItems (depth : Nat) : List Json → Bool
  | [] => true
  | item :: items => item.isSendable depth && sendableItems depth items

/-- Whether all members are sendable, with their names. -/
def sendableMembers (depth : Nat) : List (Text × Json) → Bool
  | [] => true
  | (name, value) :: members =>
    name.isValid && value.isSendable depth && sendableMembers depth members
end

/-- The numbers of a value that can be sent are integers. -/
theorem exists_ofInt (sendable : (num literal).isSendable depth = true) :
    ∃ n, literal = Text.ofInt n := by
  have same : (literalToInt? literal).map Text.ofInt = some literal := by
    simpa [isSendable] using sendable
  obtain ⟨n, -, is_literal⟩ := Option.map_eq_some_iff.1 same
  exact ⟨n, is_literal.symm⟩

mutual
/-- A sendable value is legible, and there is nothing to repair in it. -/
theorem legible_of_isSendable : ∀ (value : Json) {depth : Nat}, value.isSendable depth = true →
    value.isLegible depth = true ∧ value.repaired = value
  | null, _, _ => ⟨rfl, rfl⟩
  | bool _, _, _ => ⟨rfl, rfl⟩
  | num literal, _, sendable => by
    obtain ⟨n, rfl⟩ := exists_ofInt sendable
    exact ⟨isNumber_ofInt n, rfl⟩
  | str text, _, sendable => ⟨rfl, congrArg str (Text.repaired_of_isValid sendable)⟩
  | arr items, depth + 1, sendable => by
    obtain ⟨legible, same⟩ := legibleItems_of_sendable items sendable
    exact ⟨legible, congrArg arr same⟩
  | obj members, depth + 1, sendable => by
    obtain ⟨legible, same⟩ := legibleMembers_of_sendable members sendable
    exact ⟨legible, congrArg obj same⟩

/-- Items that can be sent are legible, and nothing is repaired in them. -/
theorem legibleItems_of_sendable : ∀ (items : List Json) {depth : Nat},
    sendableItems depth items = true →
    legibleItems depth items = true ∧ repairedItems items = items
  | [], _, _ => ⟨rfl, rfl⟩
  | item :: items, depth, sendable => by
    obtain ⟨first, others⟩ := Bool.and_eq_true_iff.1 sendable
    obtain ⟨legible, same⟩ := legible_of_isSendable item first
    obtain ⟨legible', same'⟩ := legibleItems_of_sendable items others
    exact ⟨Bool.and_eq_true_iff.2 ⟨legible, legible'⟩, congrArg₂ List.cons same same'⟩

/-- Members that can be sent are legible, and nothing is repaired in them. -/
theorem legibleMembers_of_sendable : ∀ (members : List (Text × Json)) {depth : Nat},
    sendableMembers depth members = true →
    legibleMembers depth members = true ∧ repairedMembers members = members
  | [], _, _ => ⟨rfl, rfl⟩
  | (name, value) :: members, depth, sendable => by
    obtain ⟨first, others⟩ := Bool.and_eq_true_iff.1 sendable
    obtain ⟨valid, sendable⟩ := Bool.and_eq_true_iff.1 first
    obtain ⟨legible, same⟩ := legible_of_isSendable value sendable
    obtain ⟨legible', same'⟩ := legibleMembers_of_sendable members others
    refine ⟨Bool.and_eq_true_iff.2 ⟨legible, legible'⟩, ?_⟩
    rw [repairedMembers, Text.repaired_of_isValid valid, same, same']
end

/-- **A sendable value is read back** from its written form, whatever follows it. -/
theorem readFirst_render {value : Json} (sendable : value.isSendable maxDepth = true)
    (ended : endsNumber rest = true) : readFirst (value.render ++ rest) = .ok (value, rest) := by
  obtain ⟨legible, same⟩ := legible_of_isSendable value sendable
  rw [readFirst_render_repaired legible ended, same]

/-- **A sendable value is read back** if nothing but blank space follows it. -/
theorem read_render {value : Json} (sendable : value.isSendable maxDepth = true)
    (blank : rest.all isSpace = true) : read? (value.render ++ rest) = some value := by
  obtain ⟨legible, same⟩ := legible_of_isSendable value sendable
  rw [read_render_repaired legible blank, same]

end FlowTrace.Json
