import FlowTrace.Json.Writes
import FlowTrace.Report.Basic

/-! # Reports on the wire

Reports and requests are written as JSON and read back from it. -/

/-! ## Reports on the wire

Reports as JSON. Empty variables, an empty breakdown and absent parts are left out; an absent list
that has to be there is written as `null`. -/

namespace FlowTrace

/-- The members of an object, without those that are absent. -/
def Json.present (members : List (Text × Option Json)) : Json :=
  .obj (members.filterMap fun (name, value?) => value?.map (name, ·))

/-- A list that may be absent. -/
def Json.listOf {α : Type} (f : α → Json) : Option (List α) → Json :=
  Json.ofOption fun items => .arr (items.map f)

namespace Step

/-- A step as JSON. -/
def toJson (step : Step) : Json :=
  .present [
    ("node_id", some (.str step.nodeId)),
    ("description", some (.str step.description)),
    ("variables", if step.bindings.isEmpty then none else some (.obj step.bindings)),
    ("output", step.output.map .str),
    ("line", step.line.map .ofInt)]

end Step

/-- An estimate of time and space as JSON. -/
def Complexity.toJson (c : Complexity) : Json :=
  .obj [("time_complexity", .str c.time), ("space_complexity", .str c.space),
    ("details", .listOf .str c.details)]

/-- Advice as JSON. -/
def Advice.toJson (a : Advice) : Json :=
  .obj [("suggestions", .listOf .str a.suggestions), ("optimized_code", .str a.optimizedCode)]

/-- An allocation as JSON. -/
def Allocation.toJson (a : Allocation) : Json :=
  .obj [("variable", .str a.holder), ("type", .str a.kind), ("size", .str a.size),
    ("line", .ofInt a.line)]

/-- A bottleneck as JSON. -/
def Bottleneck.toJson (b : Bottleneck) : Json :=
  .obj [("line", .ofInt b.line), ("description", .str b.description)]

/-- A remedy as JSON. -/
def Remedy.toJson (r : Remedy) : Json :=
  .obj [("line", .ofInt r.line), ("suggestion", .str r.suggestion)]

/-- An estimate of memory use as JSON. -/
def MemoryUse.toJson (m : MemoryUse) : Json :=
  .present [
    ("estimated_memory_usage", some (.str m.total)),
    ("memory_breakdown",
      if m.breakdown.isEmpty then none else some (.arr (m.breakdown.map Allocation.toJson))),
    ("bottlenecks", some (.listOf Bottleneck.toJson m.bottlenecks)),
    ("suggestions", some (.listOf Remedy.toJson m.remedies))]

/-- A report as JSON. -/
def Report.toJson (report : Report) : Json :=
  .present [
    ("flowchart", some (.str report.flowchart)),
    ("execution_steps", some (.listOf Step.toJson report.steps)),
    ("complexity_analysis", report.complexity.map Complexity.toJson),
    ("optimization_suggestions", report.advice.map Advice.toJson),
    ("memory_analysis", report.memory.map MemoryUse.toJson)]

/-- A listing as JSON. -/
def Listing.toJson (listing : Listing) : Json :=
  .present [
    ("execution_steps", some (.listOf Step.toJson listing.steps)),
    ("complexity_analysis", listing.complexity.map Complexity.toJson),
    ("optimization_suggestions", listing.advice.map Advice.toJson)]

/-- The report that a result amounts to. -/
def Result.toReport (result : Result) : Report :=
  { flowchart := result.flowchart
    steps := some result.steps
    complexity := some result.complexity
    advice := some result.advice
    memory := some result.memory }

/-- A result as JSON. -/
def Result.toJson (result : Result) : Json := result.toReport.toJson

/-- A request as JSON. -/
def Request.toJson (request : Request) : Json :=
  .obj [("code", .str request.code), ("language", .str request.language),
    ("advanced", .bool request.advanced)]

end FlowTrace

/-! ## Reports from the wire

Reading reports and requests from JSON. Every part may be missing; members with other names are
ignored, and a member of the wrong kind makes the whole unreadable. -/

namespace FlowTrace

open Json (Writes writesTo)

/-- A step, as it was written. -/
def Step.ofWrites? (writes : Writes) : Option Step := do
  let members ← writes.members?
  return {
    nodeId := ← (writesTo members "node_id").text?
    description := ← (writesTo members "description").text?
    bindings := ← (writesTo members "variables").table?
    output := ← (writesTo members "output").optional? Writes.text?
    line := ← (writesTo members "line").optional? Writes.integer? }

/-- An estimate of time and space, as it was written. -/
def Complexity.ofWrites? (writes : Writes) : Option Complexity := do
  let members ← writes.members?
  return {
    time := ← (writesTo members "time_complexity").text?
    space := ← (writesTo members "space_complexity").text?
    details := ← (writesTo members "details").list? Writes.text? }

/-- Advice, as it was written. -/
def Advice.ofWrites? (writes : Writes) : Option Advice := do
  let members ← writes.members?
  return {
    suggestions := ← (writesTo members "suggestions").list? Writes.text?
    optimizedCode := ← (writesTo members "optimized_code").text? }

/-- An allocation, as it was written. -/
def Allocation.ofWrites? (writes : Writes) : Option Allocation := do
  let members ← writes.members?
  return {
    holder := ← (writesTo members "variable").text?
    kind := ← (writesTo members "type").text?
    size := ← (writesTo members "size").text?
    line := ← (writesTo members "line").integer? }

/-- A bottleneck, as it was written. -/
def Bottleneck.ofWrites? (writes : Writes) : Option Bottleneck := do
  let members ← writes.members?
  return {
    line := ← (writesTo members "line").integer?
    description := ← (writesTo members "description").text? }

/-- A remedy, as it was written. -/
def Remedy.ofWrites? (writes : Writes) : Option Remedy := do
  let members ← writes.members?
  return {
    line := ← (writesTo members "line").integer?
    suggestion := ← (writesTo members "suggestion").text? }

/-- An estimate of memory use, as it was written. -/
def MemoryUse.ofWrites? (writes : Writes) : Option MemoryUse := do
  let members ← writes.members?
  return {
    total := ← (writesTo members "estimated_memory_usage").text?
    breakdown := (← (writesTo members "memory_breakdown").list? Allocation.ofWrites?).getD []
    bottlenecks := ← (writesTo members "bottlenecks").list? Bottleneck.ofWrites?
    remedies := ← (writesTo members "suggestions").list? Remedy.ofWrites? }

/-- A report, as it was written. -/
def Report.ofWrites? (writes : Writes) : Option Report := do
  let members ← writes.members?
  return {
    flowchart := ← (writesTo members "flowchart").text?
    steps := ← (writesTo members "execution_steps").list? Step.ofWrites?
    complexity := ← (writesTo members "complexity_analysis").optional? Complexity.ofWrites?
    advice := ← (writesTo members "optimization_suggestions").optional? Advice.ofWrites?
    memory := ← (writesTo members "memory_analysis").optional? MemoryUse.ofWrites? }

/-- The report that a JSON value describes. -/
def Report.ofJson? (value : Json) : Option Report := Report.ofWrites? [value]

/-- The listing that a JSON value describes. -/
def Listing.ofJson? (value : Json) : Option Listing := do
  let members ← Writes.members? [value]
  return {
    steps := ← (writesTo members "execution_steps").list? Step.ofWrites?
    complexity := ← (writesTo members "complexity_analysis").optional? Complexity.ofWrites?
    advice := ← (writesTo members "optimization_suggestions").optional? Advice.ofWrites? }

/-- The request that a JSON value describes. -/
def Request.ofJson? (value : Json) : Option Request := do
  let members ← Writes.members? [value]
  return {
    code := ← (writesTo members "code").text?
    language := ← (writesTo members "language").text?
    advanced := ← (writesTo members "advanced").truth? }

end FlowTrace
