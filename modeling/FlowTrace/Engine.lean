import FlowTrace.Cpp.Estimate
import FlowTrace.Failure
import FlowTrace.Flowchart.Svg
import FlowTrace.Java.Estimate
import FlowTrace.Language
import FlowTrace.Python.Estimate

/-! # The analysis engine

From source code to a report. Code that is empty or not a program is not a failure: its report
has a flowchart that names the problem and a single step, and no estimates. -/

namespace FlowTrace.Engine

/-- What a language makes of a source: the flowchart with its steps, and the estimates. -/
structure Findings where
  /-- The flowchart. -/
  chart : Flowchart
  /-- The steps that walk it. -/
  steps : List Step
  /-- Running time and space. -/
  complexity : Complexity
  /-- Advice on speed. -/
  advice : Advice
  /-- Memory use. -/
  memory : MemoryUse
  deriving Repr

/-- Why a source has no findings. -/
inductive Obstacle where
  /-- The source is not a program. -/
  | syntaxError (error : SyntaxError)
  /-- The calls of a method cannot be searched for, because its name is not well-formed. -/
  | unsearchable (name : Text)
  deriving Repr

/-- The findings for a Python source. -/
def python (code : Text) : Except Obstacle Findings := do
  let m ← (Python.Module.parse code).mapError .syntaxError
  let (chart, steps) := m.flow
  return ⟨chart, steps, m.complexity, m.advice, m.memory⟩

/-- The findings for a C++ source. -/
def cpp (code : Text) : Except Obstacle Findings := do
  let p ← (Cpp.Program.parse code).mapError .syntaxError
  let (chart, steps) := p.flow
  return ⟨chart, steps, p.complexity, p.advice, p.memory⟩

/-- The findings for a Java source. -/
def java (code : Text) : Except Obstacle Findings := do
  let p ← (Java.Program.parse code).mapError .syntaxError
  match p.unsearchable? with
  | some name => throw (.unsearchable name)
  | none =>
    let (chart, steps) := p.flow
    return ⟨chart, steps, p.complexity, p.advice, p.memory⟩

/-- The findings for a source. -/
def findings : Language → Text → Except Obstacle Findings
  | .python, code => python code
  | .cpp, code => cpp code
  | .java, code => java code

/-- The report that only tells what is wrong: in the flowchart and in the step. -/
def problem (shown described : Text) : Report :=
  { flowchart := (Flowchart.ofMessage shown).render, steps := some [Flow.errorStep described] }

/-- The report of findings. -/
def Findings.report (f : Findings) : Report :=
  { flowchart := f.chart.render
    steps := some f.steps
    complexity := some f.complexity
    advice := some f.advice
    memory := some f.memory }

/-- The report on a source in a language. A name that cannot be searched for breaks the analysis
off. -/
def report (language : Language) (code : Text) : Except Failure Report :=
  if code.isBlank then
    .ok (problem ("Error: Empty " ++ language.title ++ " Code")
      ("Empty " ++ language.title ++ " Code"))
  else
    match findings language code with
    | .ok f => .ok f.report
    | .error (.syntaxError e) =>
      let message := language.title ++ " Flowchart Error: " ++ e.message
      .ok (problem message message)
    | .error (.unsearchable name) => .error (.brokenOff name)

/-- Analyses a source in the language with a name. -/
def analyze (context : Context) (language code : Text) : Except Failure Report :=
  match Language.ofName? language with
  | none => .error (.validation "language" "unsupported language" (some language))
  | some lang =>
    match context.failure? with
    | some failure => .error failure
    | none => report lang code

/-- The listing of a Python source. A syntax error is told in every part. -/
def listing (code : Text) : Listing :=
  match Python.Module.parse code with
  | .ok m => { steps := some m.listing, complexity := some m.complexity, advice := some m.advice }
  | .error e =>
    { steps := some [
        { nodeId := "error", description := "Error parsing Python code: " ++ e.message }]
      complexity := some {
        time := "N/A", space := "N/A"
        details := some ["Error analyzing complexity: " ++ e.message] }
      advice := some {
        suggestions := some ["Error suggesting optimizations: " ++ e.message]
        optimizedCode := code } }

/-- Lists the statements of a Python source. -/
def parsePython (context : Context) (code : Text) : Except Failure Listing :=
  match context.failure? with
  | some failure => .error failure
  | none => .ok (listing code)

end FlowTrace.Engine
