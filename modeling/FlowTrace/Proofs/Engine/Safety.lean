import FlowTrace.Java.Estimate
import FlowTrace.Proofs.Cpp.Extent
import FlowTrace.Proofs.Engine.Drawing
import FlowTrace.Proofs.Java.Placing
import FlowTrace.Proofs.Pattern.Reading
import FlowTrace.Proofs.Python.Names
import FlowTrace.Proofs.Python.Reading
import FlowTrace.Python.Estimate

/-! # Every source is answered

Whatever bytes a source holds, its analysis comes to a report with a flowchart and a step, with one
exception: a Java method with an array of numbers among its parameters whose name is not valid UTF-8
(`Engine.answer_cases`), which cannot be in a source that is valid UTF-8 itself
(`Engine.breakOff_of_isValid`). The calls of such a method are searched for with an expression that is
refused; all other expressions made of names are patterns (`Engine.analysis_safe`).

Whatever is cut out of a source lies inside it, and so does what is asked for by a number
(`Engine.InRange`). -/

/-! ## Searching for calls

Calls are searched for with an expression that is made of a name at run time. It is a pattern
exactly when the name is valid UTF-8, and then it is the pattern that the search runs
(`Python.read_callExpression`, `Java.read_callExpression`). The names of Python functions are
always valid, those of Java methods need not be. -/

namespace FlowTrace

open Pattern Pattern.Reader

/-- The expression for calls of a function. -/
def Python.callExpression (name : Text) : Text := "\\b" ++ (quoteMeta name ++ "\\s*\\(")

/-- The expression for calls of a method. -/
def Java.callExpression (name : Text) : Text :=
  "\\b" ++ (quoteMeta name ++ "\\s*\\(([^;\x7b\x7d]*)\\)")

/-- An expression is read as the given pattern when the name in it is valid, and refused when it is
not. -/
def ReadWhenValid (name expression : Text) (pattern : Pattern) : Prop :=
  if name.isValid then ∃ p, Pattern.read expression = .ok p ∧ Same p pattern
  else ∃ part, Pattern.read expression = .error ⟨.invalidUtf8, part⟩

variable {name tail : Text}

/-- Whether an expression is read is decided by the name in it, if what stands behind the name is
read in any case. -/
theorem readWhenValid {pattern : Pattern} (apart : tail.takeWhile Text.isContinuation = [])
    (room : name.runeCount + 1 ≤ sizeLimit)
    (rest : ∀ s : State, s.HasRead (edge :: namePatterns name) (1 + name.runeCount) →
      s.groups = 0 → ∃ s' ps n, s'.HasRead ps n ∧ 1 ≤ n ∧ n ≤ sizeLimit ∧
        Same (inOrder ps) pattern ∧
        Reader.run ("\\b" ++ (quoteMeta name ++ tail)) tail 0 s = .ok s') :
    ReadWhenValid name ("\\b" ++ (quoteMeta name ++ tail)) pattern := by
  have named := run_name ("\\b" ++ (quoteMeta name ++ tail)) name tail apart room
  unfold ReadWhenValid
  split at named
  · rename_i valid
    obtain ⟨s, read, ungrouped, ran⟩ := named
    obtain ⟨s', ps, n, read', some_read, small, means, ran'⟩ := rest s read ungrouped
    obtain ⟨p, is_read, same⟩ := exists_read (ran.trans ran') read' some_read small
    rw [if_pos valid]
    exact ⟨p, is_read, fun a captures accept => (same a captures accept).trans (means ..)⟩
  · rename_i invalid
    obtain ⟨part, ran⟩ := named
    rw [if_neg invalid]
    exact ⟨part, by simp [Pattern.read, ran, bind, Except.bind]⟩

/-- **The expression for calls of a function** is the pattern that the search for calls runs. -/
theorem Python.read_callExpression (room : name.runeCount + 5 ≤ sizeLimit) :
    ReadWhenValid name (callExpression name) (callPattern name) := by
  refine readWhenValid rfl (by omega) fun s read _ => ?_
  have blank := read.addMany ⟨false, blankRanges⟩ merged_blankRanges (by decide) (Text.of "\\(")
  refine ⟨_, _, _, blank.addRune 0x28, by omega, by omega, fun a captures accept => ?_, ?_⟩
  · simp only [run_inOrder_append, run_inOrder_cons, callPattern]
    rfl
  · exact (run_blanks _ read (by omega) (by decide)).trans
      (run_quoted _ [] rfl blank (by omega))

/-- **The expression for calls of a method** is the pattern that the search for calls runs. -/
theorem Java.read_callExpression (room : name.runeCount + 11 ≤ sizeLimit) :
    ReadWhenValid name (callExpression name) (callPattern name) := by
  refine readWhenValid rfl (by omega) fun s read ungrouped => ?_
  have blank := read.addMany ⟨false, blankRanges⟩ merged_blankRanges (by decide)
    (Text.of "\\(([^;\x7b\x7d]*)\\)")
  have opened := blank.addRune 0x28
  have closed := opened.addArguments
  refine ⟨_, _, _, closed.addRune 0x29, by omega, by omega, fun a captures accept => ?_, ?_⟩
  · have first : (State.addRune (s.addMany ⟨false, blankRanges⟩
        (Text.of "\\(([^;\x7b\x7d]*)\\)")) 0x28).groups = 0 := ungrouped
    rw [first]
    simp only [run_inOrder_append, run_inOrder_cons, callPattern]
    rfl
  · refine (run_blanks _ read (by omega) (by decide)).trans ?_
    refine (run_quoted _ _ rfl blank (by omega)).trans ?_
    refine (run_arguments _ _ opened (by omega)).trans ?_
    exact run_quoted _ [] rfl closed (by omega)

namespace Engine

variable {language : Language} {code : Text}

/-! ## Answers -/

/-- A report **answers** when its flowchart is not blank and it has a step. -/
structure Answers (report : Report) : Prop where
  /-- Something is drawn. -/
  drawn : report.flowchart.isBlank = false
  /-- There is a step. -/
  stepped : ∃ steps, report.steps = some steps ∧ steps ≠ []

/-- A text that begins with a visible byte is not blank. -/
theorem isBlank_cons {c : UInt8} {t : Text} (ascii : c.toNat < 0x80)
    (visible : Rune.isBlank c.toNat = false) : Text.isBlank (c :: t) = false := by
  rw [Text.isBlank, Text.glyphs, Text.glyphs_go_cons, Text.decodeHead_one ascii, List.all_cons,
    Text.Glyph.isBlank, visible, Bool.false_and]

/-- Drawings are not blank. -/
theorem isBlank_render (chart : Flowchart) : chart.render.isBlank = false := by
  obtain ⟨rest, opens⟩ : ∃ rest, chart.render = (0x3C : UInt8) :: rest := ⟨_, rfl⟩
  rw [opens]
  exact isBlank_cons (by decide) (by decide)

/-- The report on a problem answers. -/
theorem answers_problem (shown described : Text) : Answers (problem shown described) :=
  ⟨isBlank_render _, _, rfl, List.cons_ne_nil _ _⟩

/-- The findings for a source that was read answer: a flow without steps is given one. -/
theorem answers_findings {f : Findings} {p : Parsed} (shown : (f.chart, f.steps) = p.flow) :
    Answers f.report := by
  refine ⟨isBlank_render _, f.steps, rfl, ?_⟩
  obtain ⟨flow, last, -, -, is_flow⟩ := p.exists_flow
  have is_steps : f.steps = (flow.finish last).2 := by rw [← is_flow, ← shown]
  rw [is_steps, Flow.finish]
  simp only
  split
  · exact List.cons_ne_nil _ _
  · rename_i some_step
    exact fun none => some_step (List.isEmpty_iff.2 none)

/-- **A source is answered** unless its analysis breaks off. -/
theorem exists_answer (whole : code.isBlank = true ∨ breakOff? language code = none) :
    ∃ report, analyze .live language.name code = .ok report ∧ Answers report := by
  rw [analyze_live, report]
  split
  · exact ⟨_, rfl, answers_problem _ _⟩
  · rename_i filled
    have whole := whole.resolve_left filled
    cases read : read? language code with
    | none =>
      obtain ⟨e, found⟩ := findings_of_unread read
      rw [found]
      exact ⟨_, rfl, answers_problem _ _⟩
    | some p =>
      have found := findings_of_read read
      rw [whole] at found
      obtain ⟨f, found, shown⟩ := found
      rw [found]
      exact ⟨_, rfl, answers_findings shown⟩

/-! ## Searches -/

/-- The names in a program for which an expression is made. -/
def namesIn : Parsed → List Text
  | .python m => m.walk.filterMap fun entry =>
      match entry.1.form with
      | .func name _ => some name
      | _ => none
  | .java p => p.walk.filterMap Java.Statement.needsCalls
  | .cpp _ => []

/-- The names for which an expression is made when a source is analysed. -/
def searched (language : Language) (code : Text) : List Text :=
  match read? language code with
  | some p => namesIn p
  | none => []

/-- The expression that is made of a name. -/
def callExpression : Language → Text → Text
  | .python => Python.callExpression
  | _ => Java.callExpression

/-- The pattern that is searched for. -/
def callPattern : Language → Text → Pattern
  | .python => Python.callPattern
  | _ => Java.callPattern

/-- The names of Python functions are valid, and no expression is made of C++ names. -/
theorem valid_of_searched (other : language ≠ .java) {name : Text}
    (member : name ∈ searched language code) : name.isValid = true := by
  unfold searched at member
  cases read : read? language code with
  | none => simp [read] at member
  | some p =>
    simp only [read] at member
    cases language with
    | java => exact absurd rfl other
    | cpp =>
      obtain ⟨p, -, rfl⟩ := exists_of_toOption_map read
      cases member
    | python =>
      obtain ⟨m, parsed, rfl⟩ := exists_of_toOption_map read
      obtain ⟨entry, inside, is_name⟩ := List.mem_filterMap.1 member
      split at is_name
      · rename_i is_func
        cases is_name
        exact Text.isValid_of_ascii (Python.Module.name_ascii parsed inside is_func)
      · cases is_name

/-- A method whose calls are searched for is declared under its name. -/
theorem methodName_of_needsCalls {s : Java.Statement} {name : Text}
    (needed : s.needsCalls = some name) : s.methodName? = some name := by
  obtain ⟨line, form, body, orelse, handlers⟩ := s
  cases form with
  | method own params =>
    simp only [Java.Statement.needsCalls] at needed
    split at needed
    · exact needed
    · cases needed
  | _ => cases needed

/-- **The names in a valid source are valid**: those of methods are tokens of it. -/
theorem valid_of_isValid (valid : code.isValid = true) {name : Text}
    (member : name ∈ searched language code) : name.isValid = true := by
  cases language with
  | python | cpp => exact valid_of_searched Language.noConfusion member
  | java =>
    unfold searched at member
    cases read : read? .java code with
    | none => simp [read] at member
    | some p =>
      simp only [read] at member
      obtain ⟨p, parsed, rfl⟩ := exists_of_toOption_map read
      obtain ⟨s, walked, needed⟩ := List.mem_filterMap.1 member
      obtain ⟨tokens, blanked, tokenized, written⟩ := Java.writtenIn_of_parse parsed
      obtain ⟨t, is_token, rfl⟩ :=
        (written s walked).named name (methodName_of_needsCalls needed)
      exact Java.isValid_tokenize tokenized (Braced.isValid_blankComments blanked valid) t is_token

/-- **The analysis breaks off** at the first name that is not valid. -/
theorem breakOff_eq (language : Language) (code : Text) :
    breakOff? language code = (searched language code).find? fun name => !name.isValid := by
  cases read : read? language code with
  | none => rw [breakOff?, searched, read]; rfl
  | some p =>
    cases p with
    | java p => rw [breakOff?, searched, read]; rfl
    | python m | cpp p =>
      have other : language ≠ .java := by
        rintro rfl
        obtain ⟨p, -, same⟩ := exists_of_toOption_map read
        cases same
      rw [breakOff?, read]
      exact (List.find?_eq_none.2 fun name member => by simp [valid_of_searched other member]).symm

/-- **The analysis of a valid source does not break off.** -/
theorem breakOff_of_isValid (valid : code.isValid = true) : breakOff? language code = none := by
  rw [breakOff_eq, List.find?_eq_none]
  intro name member
  simp [valid_of_isValid valid member]

/-- A source **is answered**, or its analysis breaks off at a name that is not valid. -/
theorem answer_cases (language : Language) (code : Text) :
    ((code.isBlank = true ∨ ∀ name ∈ searched language code, name.isValid = true) ∧
      ∃ report, analyze .live language.name code = .ok report ∧ Answers report) ∨
    (code.isBlank = false ∧ ∃ name ∈ searched language code, name.isValid = false ∧
      analyze .live language.name code = .error (.brokenOff name)) := by
  cases blank : code.isBlank with
  | true => exact Or.inl ⟨Or.inl rfl, exists_answer (Or.inl blank)⟩
  | false =>
    cases broken : breakOff? language code with
    | none =>
      refine Or.inl ⟨Or.inr fun name member => ?_, exists_answer (Or.inr broken)⟩
      rw [breakOff_eq] at broken
      simpa using List.find?_eq_none.1 broken name member
    | some name =>
      obtain ⟨chart, steps, drawn⟩ : ∃ chart steps,
          drawing? language code = some (chart, steps) := by
        cases read : read? language code with
        | none => simp [breakOff?, read] at broken
        | some p => exact ⟨p.flow.1, p.flow.2, by simp [drawing?, blank, read]⟩
      have at_name := broken
      rw [breakOff_eq] at at_name
      exact Or.inr ⟨rfl, name, List.mem_of_find?_eq_some at_name,
        by simpa using List.find?_some at_name, analyze_of_breakOff drawn broken⟩

/-! ## Cutting

What is cut out of a source lies inside it, and the words of a header or a parameter that are asked
for by their numbers are there. -/

/-- **Whatever is taken out of a source is there.** -/
def InRange (language : Language) (code : Text) : Prop :=
  match language with
  | .python => ∀ line : Text, (∀ place ∈ Python.topLevel line, place.offset < line.length) ∧
      ∀ colon, Python.headerColon? line = some colon → colon < line.length ∧
        (Python.firstWord line = "async" →
          1 < (Text.words (Text.trim (line.take colon) ++ " x")).length)
  | .java => ∀ bare tokens, Braced.blankComments code = .ok bare →
      Java.tokenize bare = .ok tokens → ∀ part : List Java.Token, part.Sublist tokens →
        ∀ first last, part.head? = some first → part.getLast? = some last →
          first.offset < last.stop ∧ last.stop ≤ bare.length
  | .cpp => ∀ p, Cpp.Program.parse code = .ok p →
      (∀ entry ∈ Cpp.cutGroups, ∀ m ∈ entry.1.findAll p.code, Cpp.CutOut m entry.2 p.code) ∧
        (∀ opening stop, Braced.closing? p.code opening = some stop →
          opening < stop ∧ stop < p.code.length) ∧
        (∀ loop ∈ p.loops, ∀ start stop, loop.body = some (start, stop) →
          start < stop ∧ stop < p.code.length) ∧
        ∀ f ∈ p.functions, ∀ other ∈ f.paramList, other.startsWith "int " = true →
          1 < other.words.length

/-- **Nothing is taken out of a source that is not there.** -/
theorem inRange (language : Language) (code : Text) : InRange language code := by
  cases language with
  | python => exact fun line => ⟨fun place => Python.offset_lt_of_mem_topLevel,
      fun colon found => ⟨Python.headerColon_lt found, Python.one_lt_length_words_async found⟩⟩
  | java => exact fun bare tokens _ read part in_order first last =>
      Java.covered_between read in_order
  | cpp => exact fun p parsed => ⟨fun entry cut m => Cpp.cutOut_of_mem_findAll cut,
      fun opening stop => Braced.closing_between,
      fun loop member start stop => Cpp.Program.body_between parsed member,
      fun f _ other => Cpp.one_lt_length_words_size⟩

/-! ## Safety -/

/-- What is **safe** about the analysis of a source. -/
structure Safe (language : Language) (code : Text) : Prop where
  /-- It comes to a report that answers, unless a name that calls are searched for is not valid. -/
  answered : (∃ report, analyze .live language.name code = .ok report ∧ Answers report) ↔
    code.isBlank = true ∨ ∀ name ∈ searched language code, name.isValid = true
  /-- There is no failure but at such a name. -/
  failed : ∀ failure, analyze .live language.name code = .error failure →
    ∃ name ∈ searched language code, name.isValid = false ∧ failure = .brokenOff name
  /-- Only names of Java methods can be invalid, and only in a source that is not valid itself. -/
  valid : language ≠ .java ∨ code.isValid = true →
    ∀ name ∈ searched language code, name.isValid = true
  /-- The expression made of a valid name is the pattern searched for, and that of any other name is
  refused. Names of more than three million code points are left out: their expressions are beyond the
  size that the reader of expressions allows. -/
  compiled : ∀ name ∈ searched language code, name.runeCount + 11 ≤ Pattern.Reader.sizeLimit →
    ReadWhenValid name (callExpression language name) (callPattern language name)
  /-- Nothing is cut out beyond the ends of a text. -/
  inRange : InRange language code

/-- The expressions made of the names in a source are read as they are meant to be. -/
theorem read_callExpression (language : Language) {name : Text}
    (room : name.runeCount + 11 ≤ Pattern.Reader.sizeLimit) :
    ReadWhenValid name (callExpression language name) (callPattern language name) := by
  cases language with
  | python =>
    have shorter : name.runeCount + 5 ≤ name.runeCount + 11 := Nat.add_le_add_left (by decide) _
    exact Python.read_callExpression (Nat.le_trans shorter room)
  | java | cpp => exact Java.read_callExpression room

/-- **The analysis of every source is safe.** -/
theorem analysis_safe (language : Language) (code : Text) : Safe language code where
  answered := by
    rcases answer_cases language code with ⟨whole, answer⟩ | ⟨filled, name, member, invalid, broken⟩
    · exact iff_of_true answer whole
    · refine iff_of_false ?_ ?_
      · rintro ⟨report, is_report, -⟩
        rw [broken] at is_report
        cases is_report
      · rintro (blank | valid)
        · rw [filled] at blank
          cases blank
        · rw [valid name member] at invalid
          cases invalid
  failed failure failed := by
    rcases answer_cases language code with
      ⟨-, report, answer, -⟩ | ⟨-, name, member, invalid, broken⟩
    · rw [answer] at failed
      cases failed
    · rw [broken] at failed
      cases failed
      exact ⟨name, member, invalid, rfl⟩
  valid cause _ member := cause.elim (valid_of_searched · member) (valid_of_isValid · member)
  compiled _ _ := read_callExpression language
  inRange := inRange language code

set_option maxRecDepth 100000 in
/-- A source whose only method is **not answered**, since the expression made of its name is
refused. -/
theorem misnamed_unanswered : (∀ report, analyze .live "java" misnamedMethod ≠ .ok report) ∧
    searched .java misnamedMethod = [[0xFF]] ∧
    ∀ p, Pattern.read (callExpression .java [0xFF]) ≠ .ok p := by
  have names : searched .java misnamedMethod = [[0xFF]] := by decide +kernel
  refine ⟨fun report is_report => ?_, names, fun p is_read => ?_⟩
  · rcases answer_cases .java misnamedMethod with ⟨blank | valid, -⟩ | ⟨-, name, -, -, broken⟩
    · exact absurd blank (by decide +kernel)
    · rw [names] at valid
      exact absurd (valid [0xFF] (List.mem_singleton_self _)) (by decide)
    · exact nomatch is_report.symm.trans broken
  · have read := read_callExpression .java (show Text.runeCount [0xFF] + 11 ≤ _ by decide)
    rw [ReadWhenValid, if_neg (by decide)] at read
    obtain ⟨part, refused⟩ := read
    rw [refused] at is_read
    cases is_read

end Engine

end FlowTrace
