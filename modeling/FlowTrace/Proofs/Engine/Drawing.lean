import FlowTrace.Engine
import FlowTrace.Proofs.Attempt
import FlowTrace.Proofs.Flowchart.Markup
import FlowTrace.Proofs.Flowchart.Programs

/-! # Drawings

What a language makes of a source, as far as it can be seen: the **drawing**, which is a flowchart
together with the steps that walk it (`Engine.drawing?`). Every drawing is a finished flow
(`Engine.exists_flow`), and the report of the engine shows just the drawing, unless the analysis
breaks off (`Engine.analyze_of_drawing`). -/

namespace FlowTrace

open Flowchart (startId endId)

/-- The ids of the nodes between start and end, in creation order. -/
def Flowchart.innerIds (chart : Flowchart) : List Text :=
  chart.ids.filter fun id => id != startId && id != endId

namespace Engine

/-- The program that a language **reads** a source as. -/
def read? (language : Language) (code : Text) : Option Parsed :=
  match language with
  | .python => (Python.Module.parse code).toOption.map .python
  | .java => (Java.Program.parse code).toOption.map .java
  | .cpp => (Cpp.Program.parse code).toOption.map .cpp

/-- The **drawing** of a source: its flowchart and the steps that walk it. A blank source is not
given to a language. -/
def drawing? (language : Language) (code : Text) : Option (Flowchart × List Step) :=
  if code.isBlank then none else (read? language code).map Parsed.flow

/-- The name at which the analysis of a source **breaks off**, if it does. -/
def breakOff? (language : Language) (code : Text) : Option Text :=
  match read? language code with
  | some (.java p) => p.unsearchable?
  | _ => none

variable {language : Language} {code : Text} {chart : Flowchart} {steps : List Step}

/-! ## Readings -/

/-- A source with a drawing is not blank, and its language reads it. -/
theorem drawing_cases (drawn : drawing? language code = some (chart, steps)) :
    code.isBlank = false ∧ ∃ p, read? language code = some p ∧ p.flow = (chart, steps) := by
  unfold drawing? at drawn
  split at drawn
  · cases drawn
  · rename_i filled
    exact ⟨by simpa using filled, Option.map_eq_some_iff.1 drawn⟩

/-- A drawing is a **finished flow**. -/
theorem exists_flow (drawn : drawing? language code = some (chart, steps)) :
    ∃ (flow : Flow) (last : Text), flow.Sound ∧ last ∈ flow.chart.ids ∧
      chart = (flow.finish last).1 ∧ steps = (flow.finish last).2 := by
  obtain ⟨-, p, -, is_drawing⟩ := drawing_cases drawn
  obtain ⟨flow, last, sound, present, is_flow⟩ := p.exists_flow
  rw [is_flow] at is_drawing
  exact ⟨flow, last, sound, present, congrArg Prod.fst is_drawing.symm,
    congrArg Prod.snd is_drawing.symm⟩

/-- The findings for a source that its language reads show its flow, unless a name cannot be
searched for. -/
theorem findings_of_read {p : Parsed} (read : read? language code = some p) :
    match breakOff? language code with
    | some name => findings language code = .error (.unsearchable name)
    | none => ∃ f, findings language code = .ok f ∧ (f.chart, f.steps) = p.flow := by
  cases language with
  | python =>
    obtain ⟨m, parsed, rfl⟩ := exists_of_toOption_map read
    rw [breakOff?, read]
    refine ⟨⟨m.flow.1, m.flow.2, m.complexity, m.advice, m.memory⟩, ?_, rfl⟩
    rw [findings, python, parsed]
    rfl
  | cpp =>
    obtain ⟨p, parsed, rfl⟩ := exists_of_toOption_map read
    rw [breakOff?, read]
    refine ⟨⟨p.flow.1, p.flow.2, p.complexity, p.advice, p.memory⟩, ?_, rfl⟩
    rw [findings, cpp, parsed]
    rfl
  | java =>
    obtain ⟨p, parsed, rfl⟩ := exists_of_toOption_map read
    have opened : findings .java code = match p.unsearchable? with
        | some name => .error (.unsearchable name)
        | none => .ok ⟨p.flow.1, p.flow.2, p.complexity, p.advice, p.memory⟩ := by
      rw [findings, java, parsed]
      rfl
    rw [breakOff?, read, opened]
    show match p.unsearchable? with
      | some name => _
      | none => _
    cases p.unsearchable? with
    | some name => rfl
    | none => exact ⟨_, rfl, rfl⟩

/-- A source that its language does not read has a syntax error. -/
theorem findings_of_unread (unread : read? language code = none) :
    ∃ e, findings language code = .error (.syntaxError e) := by
  cases language with
  | python =>
    obtain ⟨e, parsed⟩ := exists_of_toOption_map_none unread
    exact ⟨e, by rw [findings, python, parsed]; rfl⟩
  | cpp =>
    obtain ⟨e, parsed⟩ := exists_of_toOption_map_none unread
    exact ⟨e, by rw [findings, cpp, parsed]; rfl⟩
  | java =>
    obtain ⟨e, parsed⟩ := exists_of_toOption_map_none unread
    exact ⟨e, by rw [findings, java, parsed]; rfl⟩

/-! ## Reports -/

/-- In a live context the analysis is the report of the engine. -/
theorem analyze_live (language : Language) (code : Text) :
    analyze .live language.name code = report language code := by
  rw [analyze, Language.ofName?_name]
  rfl

/-- **There is a report** unless the analysis breaks off. -/
theorem exists_report (whole : breakOff? language code = none) :
    ∃ report, analyze .live language.name code = .ok report := by
  rw [analyze_live, report]
  split
  · exact ⟨_, rfl⟩
  · cases read : read? language code with
    | none =>
      obtain ⟨e, found⟩ := findings_of_unread read
      rw [found]
      exact ⟨_, rfl⟩
    | some p =>
      have found := findings_of_read read
      rw [whole] at found
      obtain ⟨f, found, -⟩ := found
      rw [found]
      exact ⟨_, rfl⟩

/-- **The report shows the drawing** if the analysis does not break off. -/
theorem analyze_of_drawing (drawn : drawing? language code = some (chart, steps))
    (whole : breakOff? language code = none) :
    ∃ report, analyze .live language.name code = .ok report ∧
      report.flowchart = chart.render ∧ report.steps = some steps := by
  obtain ⟨filled, p, read, is_drawing⟩ := drawing_cases drawn
  have found := findings_of_read read
  rw [whole] at found
  obtain ⟨f, found, shown⟩ := found
  obtain ⟨rfl, rfl⟩ := Prod.mk.inj (shown.trans is_drawing)
  rw [analyze_live, report, if_neg (by simp [filled]), found]
  exact ⟨f.report, rfl, rfl, rfl⟩

/-- There is no report if the analysis breaks off. -/
theorem analyze_of_breakOff (drawn : drawing? language code = some (chart, steps)) {name : Text}
    (broken : breakOff? language code = some name) :
    analyze .live language.name code = .error (.brokenOff name) := by
  obtain ⟨filled, p, read, -⟩ := drawing_cases drawn
  have found := findings_of_read read
  rw [broken] at found
  rw [analyze_live, report, if_neg (by simp [filled]), found]

/-! ## Steps -/

/-- The steps of a drawing with a node between start and end **are these nodes**. -/
theorem ids_steps (drawn : drawing? language code = some (chart, steps))
    (some_node : chart.innerIds ≠ []) :
    chart.ids = startId :: steps.map (·.nodeId) ++ [endId] := by
  obtain ⟨flow, last, sound, -, rfl, rfl⟩ := exists_flow drawn
  refine sound.ids_steps ?_
  intro none
  refine some_node ?_
  rw [Flowchart.innerIds, Flow.ids_finish sound, sound.ids, none]
  rfl

/-- No id is there twice in a drawing. -/
theorem nodup_ids (drawn : drawing? language code = some (chart, steps)) : chart.ids.Nodup := by
  obtain ⟨flow, last, sound, present, rfl, -⟩ := exists_flow drawn
  exact (sound.wellFormed present).distinct

/-- The ids of a drawing are not empty. -/
theorem named_of_mem (drawn : drawing? language code = some (chart, steps)) {id : Text}
    (member : id ∈ chart.ids) : id ≠ [] := by
  obtain ⟨flow, last, sound, -, rfl, -⟩ := exists_flow drawn
  rw [Flow.ids_finish sound, List.mem_append, List.mem_singleton] at member
  rintro rfl
  rcases member with inside | last
  · exact sound.named inside
  · cases last

/-- In a list without repetitions, what is left of it without its ends is all that lies between
them. -/
theorem filter_between {first last : Text} {between : List Text}
    (distinct : (first :: between ++ [last]).Nodup) :
    (first :: between ++ [last]).filter (fun id => id != first && id != last) = between := by
  rw [List.cons_append, List.nodup_cons, List.mem_append, List.mem_singleton] at distinct
  obtain ⟨apart, rest⟩ := distinct
  rw [List.nodup_append] at rest
  have kept : between.filter (fun id => id != first && id != last) = between := by
    rw [List.filter_eq_self]
    intro id member
    have not_first : id ≠ first := fun same => apart (Or.inl (same ▸ member))
    have not_last : id ≠ last := rest.2.2 id member last (List.mem_singleton_self _)
    simp [not_first, not_last]
  rw [List.filter_append, List.filter_cons_of_neg (by simp), kept]
  simp

/-- **The steps of a source are the nodes of its flowchart.** If a source has a drawing with a node
between start and end, then no two nodes share an id, there is one step for each node but start
and end, in creation order, and the highlighter finds the node of each step. Such a report is
given exactly when the analysis does not break off. -/
theorem steps_are_nodes (drawn : drawing? language code = some (chart, steps))
    (some_node : chart.innerIds ≠ []) :
    chart.ids.Nodup ∧ steps.map (·.nodeId) = chart.innerIds ∧
      (∀ step ∈ steps, hasNode chart.render step.nodeId = true) ∧
      ((∃ report, analyze .live language.name code = .ok report ∧
        report.flowchart = chart.render ∧ report.steps = some steps) ↔
        breakOff? language code = none) := by
  have distinct := nodup_ids drawn
  have ids := ids_steps drawn some_node
  refine ⟨distinct, ?_, ?_, ?_⟩
  · rw [Flowchart.innerIds, ids]
    exact (filter_between (ids ▸ distinct)).symm
  · -- Each node is drawn under its id, which is not empty: that is what the highlighter looks for.
    intro step member
    have present : step.nodeId ∈ chart.ids := by
      rw [ids]
      exact List.mem_append_left _ (List.mem_cons_of_mem _ (List.mem_map_of_mem member))
    obtain ⟨node, is_node, same⟩ := List.mem_map.1 present
    have named := named_of_mem drawn present
    rw [← same] at named ⊢
    exact hasNode_render is_node named
  · cases verdict : breakOff? language code with
    | none => exact ⟨fun _ => rfl, fun _ => analyze_of_drawing drawn verdict⟩
    | some name =>
      refine ⟨?_, nofun⟩
      rintro ⟨report, is_report, -⟩
      rw [analyze_of_breakOff drawn verdict] at is_report
      cases is_report

set_option maxRecDepth 100000 in
/-- An assignment is one node and one step. -/
theorem assignment_is_a_node : ∃ report, analyze .live "python" "x = 1" = .ok report ∧
    (report.steps.map fun steps => steps.map (·.nodeId)) = some [Text.of "Assign_1"] := by
  have evaluated : (drawing? .python "x = 1").map
      (fun drawing => decide (drawing.1.innerIds = [Text.of "Assign_1"])) = some true := by
    decide +kernel
  obtain ⟨⟨chart, steps⟩, drawn, inner⟩ := Option.map_eq_some_iff.1 evaluated
  have inner : chart.innerIds = [Text.of "Assign_1"] := of_decide_eq_true inner
  obtain ⟨-, ids, -, reported⟩ := steps_are_nodes drawn (by rw [inner]; simp)
  obtain ⟨report, is_report, -, is_steps⟩ := reported.2 rfl
  refine ⟨report, is_report, ?_⟩
  rw [is_steps, Option.map_some, ids, inner]

/-- A method whose name is not valid UTF-8, with an array among its parameters. -/
def misnamedMethod : Text := Text.of "void " ++ [0xFF] ++ Text.of "(int[] a) \x7b \x7d"

set_option maxRecDepth 100000 in
/-- A method has a node, but the analysis breaks off at its name. -/
theorem analysis_breaks_off : ∃ chart steps, drawing? .java misnamedMethod = some (chart, steps) ∧
    chart.innerIds ≠ [] ∧ ∀ report, analyze .live "java" misnamedMethod ≠ .ok report := by
  have evaluated : (drawing? .java misnamedMethod).map
      (fun drawing => decide (drawing.1.innerIds ≠ [])) = some true := by
    decide +kernel
  have name : breakOff? .java misnamedMethod = some [0xFF] := by decide +kernel
  obtain ⟨⟨chart, steps⟩, drawn, inner⟩ := Option.map_eq_some_iff.1 evaluated
  refine ⟨chart, steps, drawn, of_decide_eq_true inner, ?_⟩
  have broken : analyze .live "java" misnamedMethod = .error (.brokenOff [0xFF]) :=
    analyze_of_breakOff drawn name
  intro report is_report
  rw [broken] at is_report
  cases is_report

end Engine

end FlowTrace
