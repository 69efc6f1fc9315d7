import FlowTrace.Text.Rune

/-! # JSON values

JSON as a tree, and its two written forms: compact, and indented by two blanks. Numbers keep the
literal they were written with, and objects keep their members in order, repeated names
included. -/

namespace FlowTrace

/-- A **JSON value**. -/
inductive Json where
  /-- The value `null`. -/
  | null
  /-- A truth value. -/
  | bool (value : Bool)
  /-- A number, as the literal it is written with. -/
  | num (literal : Text)
  /-- A string. -/
  | str (text : Text)
  /-- A list of values. -/
  | arr (items : List Json)
  /-- A list of named values. -/
  | obj (members : List (Text × Json))
  deriving Repr

namespace Json

instance inhabited : Inhabited Json := ⟨.null⟩

instance stringToJson : Coe String Json := ⟨fun s => .str s⟩

/-- An integer. -/
def ofInt (n : Int) : Json := .num (Text.ofInt n)

/-- A natural number. -/
def ofNat (n : Nat) : Json := .num (Text.ofNat n)

/-- A list of strings. -/
def texts (ts : List Text) : Json := .arr (ts.map .str)

/-- A value that may be absent, written as `null` when it is. -/
def ofOption {α : Type} (f : α → Json) : Option α → Json
  | none => .null
  | some a => f a

/-! ## Writing -/

/-- The hexadecimal digit of a number below sixteen. -/
def hexDigit (n : Nat) : UInt8 := if n < 10 then (48 + n).toUInt8 else (87 + n).toUInt8

/-- The escape of a code point below U+10000 by four hexadecimal digits. -/
def hexEscape (r : Rune) : Text :=
  "\\u" ++ [hexDigit (r / 4096 % 16), hexDigit (r / 256 % 16), hexDigit (r / 16 % 16),
    hexDigit (r % 16)]

/-- How one glyph is written inside a string. Besides the characters that JSON requires, those
that are special in markup and the two Unicode line separators are escaped, and so is the
replacement of a byte outside well-formed UTF-8. -/
def escapeGlyph (g : Text.Glyph) : Text :=
  if g.rune == 0x22 then "\\\""
  else if g.rune == 0x5C then "\\\\"
  else if g.rune == 0x08 then "\\b"
  else if g.rune == 0x0C then "\\f"
  else if g.rune == 0x0A then "\\n"
  else if g.rune == 0x0D then "\\r"
  else if g.rune == 0x09 then "\\t"
  else if g.rune < 0x20 || g.rune == 0x3C || g.rune == 0x3E || g.rune == 0x26 ||
      g.rune == 0x2028 || g.rune == 0x2029 then hexEscape g.rune
  else if g.rune == Rune.replacement && g.bytes.length == 1 then hexEscape g.rune
  else g.bytes

/-- A string in its written form, with its quotation marks. -/
def quote (t : Text) : Text :=
  Text.doubleQuote :: (t.glyphs.flatMap escapeGlyph ++ [Text.doubleQuote])

mutual
/-- The compact written form. -/
def render : Json → Text
  | null => "null"
  | bool true => "true"
  | bool false => "false"
  | num literal => literal
  | str text => quote text
  | arr items => "[" ++ (renderItems items ++ "]")
  | obj members => "\x7b" ++ (renderMembers members ++ "\x7d")

/-- The items of a list with commas between them. -/
def renderItems : List Json → Text
  | [] => []
  | [item] => item.render
  | item :: items => item.render ++ ("," ++ renderItems items)

/-- The members of an object with commas between them. -/
def renderMembers : List (Text × Json) → Text
  | [] => []
  | [(name, value)] => quote name ++ (":" ++ value.render)
  | (name, value) :: members =>
    quote name ++ (":" ++ (value.render ++ ("," ++ renderMembers members)))
end

/-- A newline and the indentation of a nesting depth: two blanks for each level. -/
def lineBreak (depth : Nat) : Text := Text.newline :: List.replicate (2 * depth) 0x20

mutual
/-- The indented written form of a value that stands at a nesting depth. -/
def renderIndentedAt (depth : Nat) : Json → Text
  | arr (item :: items) =>
    "[" ++ (indentedItems (depth + 1) (item :: items) ++ (lineBreak depth ++ "]"))
  | obj (member :: members) =>
    "\x7b" ++ (indentedMembers (depth + 1) (member :: members) ++ (lineBreak depth ++ "\x7d"))
  | null => "null"
  | bool true => "true"
  | bool false => "false"
  | num literal => literal
  | str text => quote text
  | arr [] => "[]"
  | obj [] => "\x7b\x7d"

/-- The items of a list, each on lines of its own. -/
def indentedItems (depth : Nat) : List Json → Text
  | [] => []
  | [item] => lineBreak depth ++ item.renderIndentedAt depth
  | item :: items =>
    lineBreak depth ++ (item.renderIndentedAt depth ++ ("," ++ indentedItems depth items))

/-- The members of an object, each on lines of its own. -/
def indentedMembers (depth : Nat) : List (Text × Json) → Text
  | [] => []
  | [(name, value)] =>
    lineBreak depth ++ (quote name ++ (": " ++ value.renderIndentedAt depth))
  | (name, value) :: members =>
    lineBreak depth ++ (quote name ++ (": " ++ (value.renderIndentedAt depth ++
      ("," ++ indentedMembers depth members))))
end

/-- The indented written form. -/
def renderIndented (value : Json) : Text := value.renderIndentedAt 0

/-! ## Looking inside -/

/-- The members of an object, none for any other value. -/
def members : Json → List (Text × Json)
  | obj members => members
  | _ => []

/-- The items of a list, none for any other value. -/
def items : Json → List Json
  | arr items => items
  | _ => []

/-- The value of the last member with a name. -/
def get? (value : Json) (name : Text) : Option Json :=
  (value.members.reverse.find? (·.1 == name)).map (·.2)

/-- The value of the last member with a name, `null` if there is none. -/
def get (value : Json) (name : Text) : Json := (value.get? name).getD .null

/-- The text of a string, empty for any other value. -/
def toText : Json → Text
  | str text => text
  | _ => []

/-- Whether the value is `true`. -/
def isTrue : Json → Bool
  | bool b => b
  | _ => false

/-- Whether the value is `null`. -/
def isNull : Json → Bool
  | null => true
  | _ => false

/-- The integer that a literal without fraction and exponent denotes. -/
def literalToInt? (literal : Text) : Option Int :=
  match literal with
  | [] => none
  | c :: digits =>
    if c == '-' then (Text.toNat? digits).map fun n => -(n : Int)
    else (Text.toNat? literal).map Int.ofNat

/-- The integer of a number without fraction and exponent, zero for any other value. -/
def toInt : Json → Int
  | num literal => (literalToInt? literal).getD 0
  | _ => 0

end Json

end FlowTrace
