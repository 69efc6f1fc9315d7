import FlowTrace.Text.Blank
import FlowTrace.Text.Quoted

/-! # Narration

Steps can be read out. Operators are then spoken as words, and the text is drawn together onto one
line. Narration can also go to a log, where a text that could be misread is quoted. -/

namespace FlowTrace.Narration

/-- The spoken forms of operators. -/
def operatorWords : List (Text × Text) :=
  [("==", " equals "), ("!=", " is not equal to "), ("<=", " is at most "),
    (">=", " is at least "), ("+=", " increases by "), ("-=", " decreases by "),
    ("&&", " and "), ("||", " or ")]

/-- The text with each run of ASCII blanks drawn together into one space. -/
def drawTogether : Text → Bool → Text
  | [], _ => []
  | c :: t, afterBlank =>
    if Text.isPatternBlank c then
      if afterBlank then drawTogether t true else 0x20 :: drawTogether t true
    else c :: drawTogether t false

/-- The spoken form of a text. -/
def speak (t : Text) : Text :=
  Text.trim (drawTogether (Text.substitute operatorWords t) false)

/-- The line that is printed for a step, behind `lead`. -/
def line (lead t : Text) : Text := lead ++ speak t ++ "\n"

/-- Whether a text has to be quoted in a log. -/
def needsQuoting (t : Text) : Bool :=
  t.isEmpty || t.glyphs.any fun g =>
    if g.rune < 0x80 then
      g.rune != 0x5C && (g.rune == 0x20 || g.rune == 0x3D || g.rune < 0x20 || g.rune == 0x22)
    else g.rune == Rune.replacement || Rune.isBlank g.rune || !Rune.isPrintable g.rune

/-- A value as it stands in a log. -/
def logValue (t : Text) : Text := if needsQuoting t then t.quoted else t

/-- The line that is logged for a step. -/
def logLine (t : Text) : Text :=
  "level=INFO msg=step component=narrator text=" ++ logValue t ++ "\n"

end FlowTrace.Narration
