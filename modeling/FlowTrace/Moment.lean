import FlowTrace.Text.Decimal

/-! # Moments

A **moment** is a date and a time of day in some zone, as a clock there shows it. It can be read
from its standard text, moved to the zone of offset zero, and written in two ways. -/

namespace FlowTrace

/-- A **moment**, as a clock in its zone shows it. -/
structure Moment where
  /-- The year. -/
  year : Int
  /-- The month, from one. -/
  month : Nat
  /-- The day of the month, from one. -/
  day : Nat
  /-- The hour. -/
  hour : Nat
  /-- The minute. -/
  minute : Nat
  /-- The second. -/
  second : Nat
  /-- The nanosecond. -/
  nanosecond : Nat
  /-- How many minutes the clocks of the zone are ahead. -/
  offset : Int
  deriving DecidableEq, Repr

namespace Moment

/-- A number with zeros in front, at least two digits. -/
def two (n : Nat) : Text := Decimal.padLeft 2 (Text.ofNat n)

/-- A year with at least four digits. -/
def yearText (year : Int) : Text :=
  if year < 0 then "-" ++ Decimal.padLeft 4 (Text.ofNat year.natAbs)
  else Decimal.padLeft 4 (Text.ofNat year.natAbs)

/-- The date, with hyphens. -/
def dateText (m : Moment) : Text :=
  yearText m.year ++ "-" ++ two m.month ++ "-" ++ two m.day

/-- The **stamp** of a moment: its date, hour and minute. -/
def stamp (m : Moment) : Text := m.dateText ++ "_" ++ two m.hour ++ two m.minute

/-- The fraction of the second, without zeros at its end; empty for a whole second. -/
def fractionText (m : Moment) : Text :=
  if m.nanosecond == 0 then []
  else "." ++ Text.trimRight (Decimal.padLeft 9 (Text.ofNat m.nanosecond)) (· == ('0' : UInt8))

/-- The zone: `Z`, or the distance in hours and minutes. -/
def zoneText (m : Moment) : Text :=
  if m.offset == 0 then "Z"
  else
    (if m.offset < 0 then ("-" : Text) else "+") ++ two (m.offset.natAbs / 60) ++ ":" ++
      two (m.offset.natAbs % 60)

/-- The **standard text** of a moment. -/
def text (m : Moment) : Text :=
  m.dateText ++ "T" ++ two m.hour ++ ":" ++ two m.minute ++ ":" ++ two m.second ++
    m.fractionText ++ m.zoneText

/-- The number of days from the first of March of the year zero. -/
def dayNumber (year : Int) (month day : Nat) : Int :=
  let y := if month ≤ 2 then year - 1 else year
  let era := y.fdiv 400
  let yearOfEra := (y - era * 400).toNat
  let dayOfYear := (153 * (if month > 2 then month - 3 else month + 9) + 2) / 5 + day - 1
  era * 146097 + (yearOfEra * 365 + yearOfEra / 4 - yearOfEra / 100 + dayOfYear : Nat)

/-- The year, month and day of a day number. -/
def ofDayNumber (n : Int) : Int × Nat × Nat :=
  let era := n.fdiv 146097
  let d := (n - era * 146097).toNat
  let yearOfEra := (d - d / 1460 + d / 36524 - d / 146096) / 365
  let dayOfYear := d - (365 * yearOfEra + yearOfEra / 4 - yearOfEra / 100)
  let shifted := (5 * dayOfYear + 2) / 153
  let day := dayOfYear - (153 * shifted + 2) / 5 + 1
  let month := if shifted < 10 then shifted + 3 else shifted - 9
  let year := era * 400 + yearOfEra
  (if month ≤ 2 then year + 1 else year, month, day)

/-- The same moment on a clock of offset zero. -/
def toUtc (m : Moment) : Moment :=
  let minutes := dayNumber m.year m.month m.day * 1440 + (m.hour * 60 + m.minute : Nat) - m.offset
  let day := minutes.fdiv 1440
  let rest := (minutes - day * 1440).toNat
  let (year, month, dayOfMonth) := ofDayNumber day
  { m with
    year := year, month := month, day := dayOfMonth
    hour := rest / 60, minute := rest % 60, offset := 0 }

/-- The number written by some bytes of a text. -/
def field (t : Text) (start length : Nat) : Nat :=
  (Text.toNat? ((t.drop start).take length)).getD 0

/-- The moment of a standard text. -/
def ofText (t : Text) : Moment :=
  let tail := t.drop 19
  let digits := if tail.head? == some ('.' : UInt8) then (tail.drop 1).takeWhile Text.isDigit else []
  let zone := if digits.isEmpty then tail else tail.drop (digits.length + 1)
  let minutes : Int := (field zone 1 2 * 60 + field zone 4 2 : Nat)
  { year := field t 0 4, month := field t 5 2, day := field t 8 2
    hour := field t 11 2, minute := field t 14 2, second := field t 17 2
    nanosecond := (Text.toNat? ((digits ++ List.replicate 9 ('0' : UInt8)).take 9)).getD 0
    offset :=
      if zone.head? == some ('-' : UInt8) then -minutes
      else if zone.head? == some ('+' : UInt8) then minutes
      else 0 }

/-- The moment, on a clock of offset zero, some seconds and nanoseconds after the beginning of the
year 1970. -/
def ofSeconds (seconds : Int) (nanoseconds : Nat) : Moment :=
  let day := seconds.fdiv 86400
  let rest := (seconds - day * 86400).toNat
  let (year, month, dayOfMonth) := ofDayNumber (dayNumber 1970 1 1 + day)
  { year := year, month := month, day := dayOfMonth
    hour := rest / 3600, minute := rest / 60 % 60, second := rest % 60
    nanosecond := nanoseconds, offset := 0 }

end Moment

end FlowTrace
