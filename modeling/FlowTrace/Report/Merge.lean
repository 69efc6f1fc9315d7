import FlowTrace.Report.Basic
import FlowTrace.Text.Blank

/-! # From reports to results

Each part that a report lacks is filled by its own placeholder, whatever the other parts are. A
report without a flowchart is not a result. -/

namespace FlowTrace

/-- The placeholder for a missing estimate of time and space. -/
def Complexity.placeholder : Complexity :=
  { time := "N/A", space := "N/A", details := some ["Complexity analysis unavailable."] }

/-- The placeholder for missing advice. -/
def Advice.placeholder : Advice :=
  { suggestions := some ["No optimization suggestions available."], optimizedCode := [] }

/-- The placeholder for a missing estimate of memory use. -/
def MemoryUse.placeholder : MemoryUse :=
  { total := "N/A", breakdown := [], bottlenecks := some [], remedies := some [] }

/-- The **result** of a report; `none` when its flowchart is blank. -/
def Report.merge? (report : Report) : Option Result :=
  if report.flowchart.isBlank then none
  else some {
    flowchart := report.flowchart
    steps := report.steps.getD []
    complexity := report.complexity.getD .placeholder
    advice := report.advice.getD .placeholder
    memory := report.memory.getD .placeholder }

/-- The step at an index, if there is one. -/
def Result.step? (result : Result) (index : Int) : Option Step :=
  if index < 0 then none else result.steps[index.toNat]?

/-- The number of steps of a result that may be absent. -/
def stepCount (result : Option Result) : Nat := (result.map (·.steps.length)).getD 0

@[simp] theorem stepCount_none : stepCount none = 0 := rfl

@[simp] theorem stepCount_some (result : Result) : stepCount (some result) = result.steps.length :=
  rfl

/-- A report has a result exactly when its flowchart is not blank. -/
theorem Report.isSome_merge? (report : Report) :
    report.merge?.isSome = !report.flowchart.isBlank := by
  unfold Report.merge?
  split <;> simp_all

end FlowTrace
