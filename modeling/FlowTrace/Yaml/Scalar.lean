import FlowTrace.Json.Number
import FlowTrace.Power
import FlowTrace.Text.Base64
import FlowTrace.Text.Rune

/-! # The meaning of plain scalars

A **scalar** that is written without quotation marks may stand for something else than its text: a
null, a truth value, a number or a date. `resolve` tells what it stands for, and so which texts
have to be quoted to stay texts. A tag in front of a scalar asks for a certain kind of meaning
(`Scalar.value?`). -/

namespace FlowTrace.Yaml

/-- What a plain scalar stands for. -/
inductive Meaning where
  /-- Nothing. -/
  | null
  /-- A truth value. -/
  | truth (value : Bool)
  /-- An integer of at most 64 bits. -/
  | integer (value : Int)
  /-- A binary64 number, with its sign. -/
  | real (negative : Bool) (magnitude : Binary64)
  /-- An infinity, or not a number at all. -/
  | unreal (negative : Bool) (isNumber : Bool)
  /-- A date, with or without a time. -/
  | date
  /-- Its own text. -/
  | text
  deriving DecidableEq, Repr

/-- The value of a digit in a base of at most sixteen. -/
def digit? (base : Nat) (c : UInt8) : Option Nat :=
  let value? : Option Nat :=
    if Text.isDigit c then some (c.toNat - 48)
    else if 'a' ≤ c && c ≤ 'f' then some (c.toNat - 87)
    else if 'A' ≤ c && c ≤ 'F' then some (c.toNat - 55)
    else none
  value?.filter (· < base)

/-- The number that digits of a base denote; no digits denote zero. -/
def digits? (base : Nat) (t : Text) : Option Nat :=
  t.foldlM (fun n c => (digit? base c).map fun d => n * base + d) 0

/-- The natural number of a literal whose beginning may tell its base: `0x`, `0o`, `0b`, or a
single `0` for base eight. -/
def natural? (t : Text) : Option Nat :=
  match t with
  | [] => none
  | c :: rest =>
    if c != '0' then digits? 10 t
    else
      match rest with
      | mark :: d :: more =>
        if mark == 'x' || mark == 'X' then digits? 16 (d :: more)
        else if mark == 'o' || mark == 'O' then digits? 8 (d :: more)
        else if mark == 'b' || mark == 'B' then digits? 2 (d :: more)
        else digits? 8 rest
      | _ => digits? 8 rest

/-- The integer of a literal with an optional sign, if it has at most 64 bits; without a sign one
bit more is allowed. -/
def integer? (t : Text) : Option Int :=
  match t with
  | [] => none
  | c :: rest =>
    if c == '-' then (natural? rest).bind fun n => if n ≤ wordLimit then some (-(n : Int)) else none
    else if c == '+' then (natural? rest).bind fun n => if n < wordLimit then some (n : Int) else none
    else (natural? t).bind fun n => if n < 2 * wordLimit then some (n : Int) else none

/-- A sign in front of a literal, and the rest. -/
def splitSign (t : Text) : Text × Text :=
  match t with
  | c :: rest => if c == '+' || c == '-' then ([c], rest) else ([], t)
  | [] => ([], [])

/-- The integer of a literal whose sign stands behind the mark of its base, `0b` or `0o`, if it has
at most 64 bits. -/
def innerSigned? (t : Text) : Option Int := do
  let base ← if t.startsWith "0b" then some 2 else if t.startsWith "0o" then some 8 else none
  let (sign, digits) := splitSign (t.drop 2)
  if sign.isEmpty || digits.isEmpty then none
  else
    let n ← digits? base digits
    if sign == "-" then if n ≤ wordLimit then some (-(n : Int)) else none
    else if n < wordLimit then some (n : Int) else none

/-- The exponent of a decimal literal, which may be missing but not malformed. -/
def isExponent (t : Text) : Bool :=
  match t with
  | [] => true
  | c :: rest =>
    let digits := (splitSign rest).2
    (c == 'e' || c == 'E') && !digits.isEmpty && digits.all Text.isDigit

/-- Whether a text is a decimal literal: digits with at most one point, at least one digit in
front of the point or behind it, and perhaps an exponent. -/
def isDecimal (t : Text) : Bool :=
  let body := (splitSign t).2
  let whole := body.takeWhile Text.isDigit
  let tail := body.dropWhile Text.isDigit
  match tail with
  | [] => !whole.isEmpty
  | c :: rest =>
    if c == '.' then
      let fraction := rest.takeWhile Text.isDigit
      (!whole.isEmpty || !fraction.isEmpty) && isExponent (rest.dropWhile Text.isDigit)
    else !whole.isEmpty && isExponent tail

/-- The number of a decimal literal; none when it is too large. -/
def real? (t : Text) : Option Meaning :=
  let (sign, body) := splitSign t
  let negative := sign == "-"
  ((Json.Numeral.ofLiteral body).magnitude?).map (Meaning.real negative)

/-- Whether underscores in a literal stand between digits only. -/
def underscoresDivideDigits (t : Text) : Bool := go t false
where
  /-- `digit` tells whether the byte before is a digit. -/
  go : Text → Bool → Bool
    | [], _ => true
    | c :: rest, digit =>
      if c == '_' then digit && rest.head?.any Text.isDigit && go rest false
      else go rest (Text.isDigit c)

/-! ## Dates -/

/-- One or two digits at the head of a text, as a number, and the rest. -/
def shortNumber? (t : Text) : Option (Nat × Text) :=
  match t with
  | a :: b :: rest =>
    if !Text.isDigit a then none
    else if Text.isDigit b then some ((a.toNat - 48) * 10 + (b.toNat - 48), rest)
    else some (a.toNat - 48, b :: rest)
  | [a] => if Text.isDigit a then some (a.toNat - 48, []) else none
  | [] => none

/-- The text behind a byte that has to stand at the head. -/
def behind? (c : UInt8) (t : Text) : Option Text :=
  match t with
  | d :: rest => if c == d then some rest else none
  | [] => none

/-- The number of days of a month. -/
def daysIn (year month : Nat) : Nat :=
  if month == 2 then
    if year % 4 == 0 && (year % 100 != 0 || year % 400 == 0) then 29 else 28
  else if month == 4 || month == 6 || month == 9 || month == 11 then 30
  else 31

/-- A date at the head of a text, and the rest. -/
def dateTail? (t : Text) : Option Text := do
  let year := t.takeWhile Text.isDigit
  if year.length != 4 then none
  else
    let rest ← behind? '-' (t.drop 4)
    let (month, rest) ← shortNumber? rest
    let rest ← behind? '-' rest
    let (day, rest) ← shortNumber? rest
    let year := (Text.toNat? year).getD 0
    if 1 ≤ month && month ≤ 12 && 1 ≤ day && day ≤ daysIn year month then some rest else none

/-- A time of day at the head of a text, perhaps with a fraction of a second, and the rest. -/
def timeTail? (t : Text) : Option Text := do
  let (hour, rest) ← shortNumber? t
  let rest ← behind? ':' rest
  let (minute, rest) ← shortNumber? rest
  let rest ← behind? ':' rest
  let (second, rest) ← shortNumber? rest
  if hour < 24 && minute < 60 && second < 60 then
    match rest with
    | c :: d :: more =>
      if (c == '.' || c == ',') && Text.isDigit d then some ((d :: more).dropWhile Text.isDigit)
      else some rest
    | _ => some rest
  else none

/-- Whether a text is the name of a zone: `Z`, or a distance in hours and minutes. -/
def isZone (t : Text) : Bool :=
  match t with
  | [c] => c == 'Z'
  | [sign, a, b, colon, c, d] =>
    (sign == '+' || sign == '-') && Text.isDigit a && Text.isDigit b && colon == ':' &&
      Text.isDigit c && Text.isDigit d &&
      (a.toNat - 48) * 10 + (b.toNat - 48) ≤ 24 && (c.toNat - 48) * 10 + (d.toNat - 48) ≤ 60
  | _ => false

/-- Whether a text is a date: alone, with a time behind a space, or with a time and a zone behind
a `T`. -/
def isDate (t : Text) : Bool :=
  match dateTail? t with
  | none => false
  | some [] => true
  | some (c :: rest) =>
    match timeTail? rest with
    | none => false
    | some tail =>
      if c == 'T' || c == 't' then isZone tail
      else c == 0x20 && tail.isEmpty

/-! ## Resolution -/

/-- The words that stand for something else than their text. -/
def words : List (Text × Meaning) :=
  [("true", .truth true), ("True", .truth true), ("TRUE", .truth true),
    ("false", .truth false), ("False", .truth false), ("FALSE", .truth false),
    ("~", .null), ("null", .null), ("Null", .null), ("NULL", .null),
    (".nan", .unreal false false), (".NaN", .unreal false false), (".NAN", .unreal false false),
    (".inf", .unreal false true), (".Inf", .unreal false true), (".INF", .unreal false true),
    ("+.inf", .unreal false true), ("+.Inf", .unreal false true), ("+.INF", .unreal false true),
    ("-.inf", .unreal true true), ("-.Inf", .unreal true true), ("-.INF", .unreal true true)]

/-- What a text that begins with a digit or a sign stands for. Underscores between its digits do
not count. -/
def numeric (t : Text) : Meaning :=
  if isDate t then .date
  else
    let plain := t.filter fun (c : UInt8) => c != '_'
    match (integer? plain).or (innerSigned? plain) with
    | some n => .integer n
    | none => if isDecimal plain then (real? plain).getD .text else .text

/-- **What a plain scalar stands for.** -/
def resolve (t : Text) : Meaning :=
  match t with
  | [] => .null
  | c :: _ =>
    match words.find? (·.1 == t) with
    | some (_, meaning) => meaning
    | none =>
      if Text.isDigit c || c == '+' || c == '-' then numeric t
      else if c == '.' then
        let plain := t.filter fun (c : UInt8) => c != '_'
        if isDecimal plain && underscoresDivideDigits t then (real? plain).getD .text else .text
      else .text

/-! ## Tagged scalars -/

/-- A **scalar**: its text, whether it is written without quotation marks, and its tag, in short. -/
structure Scalar where
  /-- The text. -/
  text : Text
  /-- Whether it is written without quotation marks, on the lines around it. -/
  plain : Bool
  /-- The tag. -/
  tag : Option Text
  deriving Repr

namespace Scalar

/-- The short name of a tag. -/
def shortTag (tag : Text) : Text :=
  let core : Text := "tag:yaml.org,2002:"
  if tag.startsWith core then "!!" ++ tag.drop core.length else tag

/-- A meaning under a tag; `none` when it does not belong to the tag. An integer of 63 bits and a sign
may be taken for another number. -/
def tagged? (tag text : Text) (meaning : Meaning) : Option Meaning :=
  match meaning with
  | .null => if tag == "!!null" then some meaning else none
  | .truth _ => if tag == "!!bool" then some meaning else none
  | .integer n =>
    if tag == "!!int" then some meaning
    else if tag == "!!float" && n < wordLimit then
      (Binary64.ofFraction? n.natAbs 1).map (Meaning.real (decide (n < 0)))
    else none
  | .real .. => if tag == "!!float" then some meaning else none
  | .unreal .. => if tag == "!!float" then some meaning else none
  | .date => if tag == "!!timestamp" then some meaning else none
  | .text => if tag == "!!merge" && text == "<<" then some meaning else none

/-- The **value** of a scalar: its text, and what it stands for. Without a tag, a plain scalar stands
for what its text resolves to, and any other for its text; `none` when the text does not belong to the
tag. -/
def value? (s : Scalar) : Option (Text × Meaning) :=
  match s.tag with
  | none => some (s.text, if s.plain then resolve s.text else .text)
  | some tag =>
    if tag == "!!str" then some (s.text, .text)
    else if tag == "!!binary" then (Text.Base64.decode s.text).toOption.map fun t => (t, .text)
    else (tagged? tag s.text (resolve s.text)).map fun meaning => (s.text, meaning)

/-- Whether a scalar asks, as a key, for the entries of other tables. -/
def isMerge (s : Scalar) : Bool :=
  s.text == "<<" && s.tag.elim s.plain fun tag => tag == "!!merge"

end Scalar

/-! ## Texts that stay texts -/

/-- The words that an older version of the format takes for truth. -/
def oldTrue : List Text := ["y", "Y", "yes", "Yes", "YES", "on", "On", "ON"]

/-- The words that an older version of the format takes for falsehood. -/
def oldFalse : List Text := ["n", "N", "no", "No", "NO", "off", "Off", "OFF"]

/-- Whether a text is a number in base sixty: digit groups with colons between them, of which an
older version of the format makes a number. -/
def isBaseSixty (t : Text) : Bool :=
  let body := (splitSign t).2
  match body.splitAtByte ':' with
  | first :: group :: groups =>
    let isGroup (g : Text) : Bool := g.length == 1 && g.all Text.isDigit ||
      g.length == 2 && g.all Text.isDigit && g.head?.any (· ≤ ('5' : UInt8))
    let isLast (g : Text) : Bool :=
      let whole := g.takeWhile fun (c : UInt8) => c != '.'
      let fraction := (g.dropWhile fun (c : UInt8) => c != '.').drop 1
      isGroup whole && fraction.all fun (c : UInt8) => Text.isDigit c || c == '_'
    let all := group :: groups
    first.head?.any Text.isDigit && (first.all fun (c : UInt8) => Text.isDigit c || c == '_') &&
      all.dropLast.all isGroup && (all.getLast?.any isLast)
  | _ => false

/-- Whether a text can stand without quotation marks and still be read as itself. -/
def staysText (t : Text) : Bool :=
  resolve t == .text && !isBaseSixty t && !oldTrue.contains t && !oldFalse.contains t

end FlowTrace.Yaml
