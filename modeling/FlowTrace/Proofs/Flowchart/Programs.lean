import FlowTrace.Proofs.Cpp.Chain
import FlowTrace.Proofs.Java.Course
import FlowTrace.Proofs.Python.Course

/-! # The flowcharts of programs

What the walks over programs come to. Whatever language a program is written in, its flowchart is a
finished flow (`Parsed.exists_flow`), and so it is well-formed (`flowcharts_wellFormed`). That every
node leads to the end node is true of all C++ programs, which are chains, but of Python and Java
programs only as far as no statement leaves a dead end behind (`noDeadEnd_iff`). -/

namespace FlowTrace

open FlowTrace.Flow (Course)
open Flowchart (startId endId)

/-- A **parsed** program, in one of the languages. -/
inductive Parsed where
  /-- A Python module. -/
  | python (m : Python.Module)
  /-- A Java program. -/
  | java (p : Java.Program)
  /-- A C++ program. -/
  | cpp (p : Cpp.Program)

/-- The flowchart of a program, and the steps that walk it. -/
def Parsed.flow : Parsed → Flowchart × List Step
  | python m => m.flow
  | java p => p.flow
  | cpp p => p.flow

/-! ## Well-formed flowcharts -/

/-- The walk over a whole Python module. -/
theorem Python.Module.course (m : Python.Module) :
    Course Flow.start startId (visitAll Flow.start startId m.statements).1
      (visitAll Flow.start startId m.statements).2 (drawsAny m.statements)
      (strandsAny m.statements) :=
  course_visitAll m.statements Flow.ready_start

/-- The walk over a whole Java program. -/
theorem Java.Program.course (p : Java.Program) :
    Course Flow.start startId (visitAll Flow.start startId p.statements).1
      (visitAll Flow.start startId p.statements).2 (drawsAny p.statements)
      (strandsAny p.statements) :=
  course_visitAll p.statements Flow.ready_start

/-- The flowchart and the steps of a program are those of a **finished flow**. -/
theorem Parsed.exists_flow (p : Parsed) : ∃ (flow : Flow) (last : Text),
    flow.Sound ∧ last ∈ flow.chart.ids ∧ p.flow = flow.finish last := by
  cases p with
  | python m => exact ⟨_, _, m.course.walk.ready.sound, m.course.walk.ready.present, rfl⟩
  | java p => exact ⟨_, _, p.course.walk.ready.sound, p.course.walk.ready.present, rfl⟩
  | cpp p => exact ⟨_, _, p.chain_holds.sound, p.chain_holds.present, p.flow_eq⟩

/-- **The flowchart of every program is well-formed.** -/
theorem flowcharts_wellFormed (p : Parsed) : p.flow.1.WellFormed := by
  obtain ⟨flow, last, sound, present, is_flow⟩ := p.exists_flow
  rw [is_flow]
  exact sound.wellFormed present

/-! ## Dead ends -/

/-- Whether a statement of a program leaves a dead end behind. Those of C++ programs never do. -/
def Parsed.strands : Parsed → Bool
  | python m => Python.strandsAny m.statements
  | java p => Java.strandsAny p.statements
  | cpp _ => false

/-- **Every node of a program leads to the end node exactly when no statement leaves a dead end
behind.** -/
theorem noDeadEnd_iff (p : Parsed) : p.flow.1.AllLead endId ↔ p.strands = false := by
  cases p with
  | python m => exact m.course.allLead_iff
  | java p => exact p.course.allLead_iff
  | cpp p =>
    refine ⟨fun _ => rfl, fun _ => ?_⟩
    show p.flow.1.AllLead endId
    rw [p.flow_eq]
    exact p.chain_holds.sound.allLead_finish p.chain_holds.lead

/-- A conditional with an alternative, and a statement behind it. -/
def conditional : Text := "if x:\n    y = 1\nelse:\n    y = 2\nz = y\n"

set_option maxRecDepth 100000 in
/-- The suite of a conditional that has an alternative is a dead end. -/
theorem suite_is_dead_end : ∃ m, Python.Module.parse conditional = .ok m ∧
    Text.of "Assign_2" ∈ m.flow.1.ids ∧ ¬ m.flow.1.Leads "Assign_2" endId := by
  have evaluated : ((Python.Module.parse conditional).toOption.map fun m =>
      decide (Text.of "Assign_2" ∈ m.flow.1.ids ∧ ∀ edge ∈ m.flow.1.edges,
        edge.source = Text.of "Assign_2" → edge.target = Text.of "Assign_2")) = some true := by
    decide +kernel
  cases parsed : Python.Module.parse conditional with
  | error e =>
    rw [parsed] at evaluated
    cases evaluated
  | ok m =>
    rw [parsed] at evaluated
    have facts := of_decide_eq_true (Option.some.inj evaluated)
    refine ⟨m, rfl, facts.1, fun path => ?_⟩
    have stuck : endId = Text.of "Assign_2" :=
      path.stays (· = Text.of "Assign_2") facts.2 rfl
    exact absurd stuck (by decide)

end FlowTrace
