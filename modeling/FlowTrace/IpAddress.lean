import FlowTrace.Text.Quoted

/-! # Addresses of machines

The written form of an address on the internet: four decimal numbers with points between them, or
eight groups of hexadecimal digits with colons between them. In the second form `::` stands for as
many groups of zeros as are missing, the last two groups may be written in the first form, and a
zone may follow behind a percent sign. Only whether a text is an address, and of which form, is of
interest here. -/

namespace FlowTrace.IpAddress

/-- The two forms of an address. -/
inductive Version where
  /-- Four numbers. -/
  | four
  /-- Eight groups. -/
  | six
  deriving DecidableEq, Repr

/-- Why a text is not an address. `rest` is the text from the fault on. -/
inductive Fault where
  /-- There is neither a point nor a colon. -/
  | unreadable
  /-- There is a zone and nothing in front of it. -/
  | onlyZone
  /-- There is a percent sign and no zone behind it. -/
  | emptyZone
  /-- A number starts with a zero. -/
  | leadingZero
  /-- A number is larger than 255. -/
  | largeNumber
  /-- A number has no digits. -/
  | emptyNumber (rest : Text)
  /-- There are more than four numbers. -/
  | manyNumbers
  /-- There are fewer than four numbers. -/
  | fewNumbers
  /-- There is something else than a digit or a point. -/
  | strange (rest : Text)
  /-- A group has more than four digits. -/
  | longGroup (rest : Text)
  /-- A group has no digits. -/
  | emptyGroup (rest : Text)
  /-- Numbers stand where they are not the last two groups. -/
  | misplacedNumbers (rest : Text)
  /-- There is no room for numbers. -/
  | noRoom (rest : Text)
  /-- Something else than a colon follows a group. -/
  | missingColon (rest : Text)
  /-- Nothing follows a colon. -/
  | openColon (rest : Text)
  /-- There are two gaps. -/
  | secondGap (rest : Text)
  /-- Something follows the last group. -/
  | trailing (rest : Text)
  /-- There are fewer than eight groups and no gap. -/
  | fewGroups
  /-- There are eight groups and a gap. -/
  | emptyGap
  deriving DecidableEq, Repr

/-- The wording of a fault. -/
def Fault.reason : Fault → Text
  | unreadable => "unable to parse IP"
  | onlyZone => "missing IPv6 address"
  | emptyZone => "zone must be a non-empty string"
  | leadingZero => "IPv4 field has octet with leading zero"
  | largeNumber => "IPv4 field has value >255"
  | emptyNumber _ => "IPv4 field must have at least one digit"
  | manyNumbers => "IPv4 address too long"
  | fewNumbers => "IPv4 address too short"
  | strange _ => "unexpected character"
  | longGroup _ => "each group must have 4 or fewer digits"
  | emptyGroup _ => "each colon-separated field must have at least one digit"
  | misplacedNumbers _ => "embedded IPv4 address must replace the final 2 fields of the address"
  | noRoom _ => "too many hex fields to fit an embedded IPv4 at the end of the address"
  | missingColon _ => "unexpected character, want colon"
  | openColon _ => "colon must be followed by more characters"
  | secondGap _ => "multiple :: in address"
  | trailing _ => "trailing garbage after address"
  | fewGroups => "address string too short"
  | emptyGap => "the :: must expand to at least one field of zeros"

/-- The text from the fault on, where it is told. -/
def Fault.rest : Fault → Text
  | emptyNumber rest | strange rest | longGroup rest | emptyGroup rest | misplacedNumbers rest
  | noRoom rest | missingColon rest | openColon rest | secondGap rest | trailing rest => rest
  | _ => []

/-- The message about a text that is not an address. -/
def Fault.message (fault : Fault) (t : Text) : Text :=
  let place : Text := if fault.rest.isEmpty then [] else " (at " ++ fault.rest.quoted ++ ")"
  "ParseAddr(" ++ t.quoted ++ "): " ++ fault.reason ++ place

/-- Reads four numbers. `value` is the value of the current number, `digits` how many digits it has
and `points` how many points were read. -/
def numbers : Text → Nat → Nat → Nat → Except Fault Unit
  | [], _, _, points => if points < 3 then .error .fewNumbers else .ok ()
  | c :: t, value, digits, points =>
    if Text.isDigit c then
      let value' := value * 10 + (c.toNat - 48)
      if digits == 1 && value == 0 then .error .leadingZero
      else if 255 < value' then .error .largeNumber
      else numbers t value' (digits + 1) points
    else if c == '.' then
      if digits == 0 || t.isEmpty then .error (.emptyNumber (c :: t))
      else if points == 3 then .error .manyNumbers
      else numbers t 0 0 (points + 1)
    else .error (.strange (c :: t))

/-- Whether the groups fill an address when there is room for `room` more. -/
def filled (room : Nat) (gap : Bool) : Except Fault Unit :=
  if 0 < room then if gap then .ok () else .error .fewGroups
  else if gap then .error .emptyGap
  else .ok ()

/-- Reads groups while there is room for them; `gap` tells whether there was a gap. -/
def groups : Nat → Text → Bool → Except Fault Unit
  | 0, t, gap => if t.isEmpty then filled 0 gap else .error (.trailing t)
  | room + 1, t, gap =>
    let digits := (t.takeWhile fun c => (Text.hexValue? c).isSome).length
    if 4 < digits then .error (.longGroup t)
    else if digits == 0 then .error (.emptyGroup t)
    else
      match t.drop digits with
      | [] => filled room gap
      | c :: more =>
        if c == '.' then
          if !gap && room != 1 then .error (.misplacedNumbers t)
          else if room == 0 then .error (.noRoom t)
          else do
            numbers t 0 0 0
            filled (room - 1) gap
        else if c != ':' then .error (.missingColon (c :: more))
        else
          match more with
          | [] => .error (.openColon (c :: more))
          | d :: rest =>
            if d == ':' then
              if gap then .error (.secondGap (d :: rest))
              else if rest.isEmpty then filled room true
              else groups room rest true
            else groups room (d :: rest) gap

/-- Reads an address of eight groups. -/
def readSix (t : Text) : Except Fault Unit := do
  let body : Text := t.takeWhile (· != ('%' : UInt8))
  if body.length + 1 == t.length then throw .emptyZone
  if body == "::" then return ()
  if body.startsWith "::" then groups 8 (body.drop 2) true else groups 8 body false

/-- The form of the address that a text is. -/
def read (t : Text) : Except Fault Version :=
  match t.find? fun (c : UInt8) => c == '.' || c == ':' || c == '%' with
  | none => .error .unreadable
  | some c =>
    if c == '.' then do
      numbers t 0 0 0
      return .four
    else if c == ':' then do
      readSix t
      return .six
    else .error .onlyZone

end FlowTrace.IpAddress
