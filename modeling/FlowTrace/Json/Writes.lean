import FlowTrace.Json.Number
import FlowTrace.Power

/-! # Reading values into typed places

An object may name a member more than once, so a place of a typed value may be written several
times. The **writes** of a place are the values written to it, in order, and each reader below
turns the writes of a place into what the place finally holds:

* a scalar holds the last value written, where `null` writes nothing;
* an object holds the members of all objects written, one after the other;
* an optional place and a list are emptied by `null`;
* the items of a list written over another list are written over the items of that list.

A write of the wrong kind makes the whole reading fail. -/

namespace FlowTrace.Json

/-- The **writes** of a place: the values written to it, in order. -/
abbrev Writes := List Json

/-- A code point with upper and lower case taken together: the capital letters, and the two
code points outside ASCII that have an ASCII letter as their partner. -/
def foldRune (r : Rune) : Rune :=
  if 0x41 ≤ r && r ≤ 0x5A then r + 32
  else if r == 0x17F then 0x73
  else if r == 0x212A then 0x6B
  else r

/-- Whether a member is meant by a field name: upper and lower case are not distinguished. -/
def namesField (key field : Text) : Bool := key.runes.map foldRune == field.runes.map foldRune

/-- The writes to a field of an object. -/
def writesTo (members : List (Text × Json)) (field : Text) : Writes :=
  (members.filter fun member => namesField member.1 field).map (·.2)

namespace Writes

/-- What a text place holds. -/
def text? (writes : Writes) : Option Text :=
  writes.foldlM (fun held write =>
    match write with
    | .null => some held
    | .str t => some t
    | _ => none) []

/-- What a truth place holds. -/
def truth? (writes : Writes) : Option Bool :=
  writes.foldlM (fun held write =>
    match write with
    | .null => some held
    | .bool b => some b
    | _ => none) false

/-- Whether an integer fits into 64 bits. -/
def fitsWord (n : Int) : Bool := -(wordLimit : Int) ≤ n && n < wordLimit

/-- What an integer place holds. A fraction, an exponent or a number of more than 64 bits is of
the wrong kind. -/
def integer? (writes : Writes) : Option Int :=
  writes.foldlM (fun held write =>
    match write with
    | .null => some held
    | .num literal =>
      match literalToInt? literal with
      | some n => if fitsWord n then some n else none
      | none => none
    | _ => none) 0

/-- The members that an object place holds. -/
def members? (writes : Writes) : Option (List (Text × Json)) :=
  writes.foldlM (fun held write =>
    match write with
    | .null => some held
    | .obj members => some (held ++ members)
    | _ => none) []

/-- What a table of arbitrary values holds, in the order of the names. -/
def table? (writes : Writes) : Option (List (Text × Json)) :=
  writes.foldlM (fun held write =>
    match write with
    | .null => some []
    | .obj members =>
      members.foldlM (fun held member => do
        return setMember held member.1 (← member.2.canonical?)) held
    | _ => none) []

/-- The longest stretches without a write that empties the place. -/
def stretches (empties : Json → Bool) : Writes → List Writes
  | [] => [[]]
  | write :: writes =>
    if empties write then [] :: stretches empties writes
    else
      match stretches empties writes with
      | [] => [[write]]
      | stretch :: more => (write :: stretch) :: more

/-- What an optional place holds. -/
def optional? {α : Type} (read : Writes → Option α) (writes : Writes) : Option (Option α) := do
  let held ← (stretches Json.isNull writes).mapM fun stretch =>
    if stretch.isEmpty then some none else (read stretch).map some
  return held.getLast?.join

/-- The writes to the items of a list after one more list was written over it. -/
def overlay : List Writes → List Json → List Writes
  | places, [] => places
  | [], items => items.map ([·])
  | place :: places, item :: items => (place ++ [item]) :: overlay places items

/-- Whether a write empties a list. -/
def emptiesList : Json → Bool
  | .null => true
  | .arr [] => true
  | _ => false

/-- The items of a list that is written, `none` for a value of another kind. -/
def items? : Json → Option (List Json)
  | .arr items => some items
  | .null => some []
  | _ => none

/-- What a list place holds; it is absent when it was never written or emptied by `null`. -/
def list? {α : Type} (read : Writes → Option α) (writes : Writes) : Option (Option (List α)) := do
  let held ← (stretches emptiesList writes).mapM fun stretch => do
    let rows ← stretch.mapM items?
    let all ← (rows.foldl overlay []).mapM read
    return all.take ((rows.getLast?.map List.length).getD 0)
  match writes.getLast? with
  | none => return none
  | some .null => return none
  | some _ => return held.getLast?

end Writes

end FlowTrace.Json
