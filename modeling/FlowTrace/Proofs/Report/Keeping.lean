import FlowTrace.Proofs.Report.RoundTrip

/-! # What is kept of a report

A lasting report that is kept in its written form comes back **repaired** and with its variables in
normal form (`Report.read_written`). It tells nothing else than the report: sent to somebody, the
two are read as values with the same normal form (`Report.normal_kept`). -/

namespace FlowTrace

open Json (Writes)

/-! ## Repaired parts -/

namespace Json

variable {α : Type} {write : α → Json} {members : List (Text × Option Json)}

/-- An object is repaired member by member; its names are valid. -/
theorem repaired_present (valid : (members.all fun member => member.1.isValid) = true) :
    (present members).repaired =
      present (members.map fun member => (member.1, member.2.map repaired)) := by
  refine congrArg obj ?_
  rw [repairedMembers_eq_map, List.map_filterMap, List.filterMap_map]
  refine List.filterMap_congr fun member inside => ?_
  have same := Text.repaired_of_isValid (List.all_eq_true.1 valid member inside)
  cases value : member.2 with
  | none => simp [value]
  | some value' => simp [value, same]

/-- A list is repaired item by item. -/
theorem repaired_listOf {repair : α → α} (each : ∀ a, (write a).repaired = write (repair a))
    (items? : Option (List α)) :
    (listOf write items?).repaired = listOf write (items?.map (List.map repair)) := by
  cases items? with
  | none => rfl
  | some items =>
    refine congrArg arr ?_
    rw [repairedItems_eq_map, List.map_map, List.map_map]
    exact List.map_congr_left fun a _ => each a

end Json

/-- The texts of a list, repaired. -/
def repairedTexts (texts? : Option (List Text)) : Option (List Text) :=
  texts?.map (List.map Text.repaired)

/-- A list of texts is repaired text by text. -/
theorem repaired_texts (texts? : Option (List Text)) :
    (Json.listOf .str texts?).repaired = Json.listOf .str (repairedTexts texts?) :=
  @Json.repaired_listOf _ Json.str Text.repaired (fun _ => rfl) texts?

/-- A step with its texts and its variables repaired. -/
def Step.repaired (step : Step) : Step :=
  { step with
    nodeId := step.nodeId.repaired
    description := step.description.repaired
    bindings := Json.repairedMembers step.bindings
    output := step.output.map Text.repaired }

/-- A step that is written and repaired is the repaired step, written. -/
theorem Step.repaired_toJson (step : Step) : step.toJson.repaired = step.repaired.toJson := by
  have output : (step.output.map Json.str).map Json.repaired =
      (step.output.map Text.repaired).map Json.str := by
    cases step.output <;> rfl
  have line : (step.line.map Json.ofInt).map Json.repaired = step.line.map Json.ofInt := by
    cases step.line <;> rfl
  have bindings : (if step.bindings.isEmpty then none else some (Json.obj step.bindings)).map
      Json.repaired = if (Json.repairedMembers step.bindings).isEmpty then none
        else some (Json.obj (Json.repairedMembers step.bindings)) := by
    cases step.bindings <;> rfl
  rw [toJson, Json.repaired_present rfl]
  simp only [List.map_cons, List.map_nil, output, line, bindings]
  rfl

/-- An estimate of time and space with its texts repaired. -/
def Complexity.repaired (c : Complexity) : Complexity :=
  { time := c.time.repaired, space := c.space.repaired, details := repairedTexts c.details }

/-- A measure of complexity that is written and repaired is the repaired one, written. -/
theorem Complexity.repaired_toJson (c : Complexity) : c.toJson.repaired = c.repaired.toJson := by
  have split : c.toJson = .present [("time_complexity", some (.str c.time)),
    ("space_complexity", some (.str c.space)), ("details", some (.listOf .str c.details))] := rfl
  rw [split, Json.repaired_present rfl]
  simp only [List.map_cons, List.map_nil, Option.map_some, repaired_texts]
  rfl

/-- Advice with its texts repaired. -/
def Advice.repaired (a : Advice) : Advice :=
  { suggestions := repairedTexts a.suggestions, optimizedCode := a.optimizedCode.repaired }

/-- Advice that is written and repaired is the repaired advice, written. -/
theorem Advice.repaired_toJson (a : Advice) : a.toJson.repaired = a.repaired.toJson := by
  have split : a.toJson = .present [("suggestions", some (.listOf .str a.suggestions)),
    ("optimized_code", some (.str a.optimizedCode))] := rfl
  rw [split, Json.repaired_present rfl]
  simp only [List.map_cons, List.map_nil, Option.map_some, repaired_texts]
  rfl

/-- An allocation with its texts repaired. -/
def Allocation.repaired (a : Allocation) : Allocation :=
  { a with holder := a.holder.repaired, kind := a.kind.repaired, size := a.size.repaired }

/-- An allocation that is written and repaired is the repaired one, written. -/
theorem Allocation.repaired_toJson (a : Allocation) : a.toJson.repaired = a.repaired.toJson := by
  have split : a.toJson = .present [("variable", some (.str a.holder)),
    ("type", some (.str a.kind)), ("size", some (.str a.size)),
    ("line", some (.ofInt a.line))] := rfl
  rw [split, Json.repaired_present rfl]
  rfl

/-- A bottleneck with its text repaired. -/
def Bottleneck.repaired (b : Bottleneck) : Bottleneck :=
  { b with description := b.description.repaired }

/-- A bottleneck that is written and repaired is the repaired one, written. -/
theorem Bottleneck.repaired_toJson (b : Bottleneck) : b.toJson.repaired = b.repaired.toJson := by
  have split : b.toJson = .present [("line", some (.ofInt b.line)),
    ("description", some (.str b.description))] := rfl
  rw [split, Json.repaired_present rfl]
  rfl

/-- A remedy with its text repaired. -/
def Remedy.repaired (r : Remedy) : Remedy :=
  { r with suggestion := r.suggestion.repaired }

/-- A remedy that is written and repaired is the repaired one, written. -/
theorem Remedy.repaired_toJson (r : Remedy) : r.toJson.repaired = r.repaired.toJson := by
  have split : r.toJson = .present [("line", some (.ofInt r.line)),
    ("suggestion", some (.str r.suggestion))] := rfl
  rw [split, Json.repaired_present rfl]
  rfl

/-- An estimate of memory use with its texts repaired. -/
def MemoryUse.repaired (m : MemoryUse) : MemoryUse :=
  { total := m.total.repaired
    breakdown := m.breakdown.map Allocation.repaired
    bottlenecks := m.bottlenecks.map (List.map Bottleneck.repaired)
    remedies := m.remedies.map (List.map Remedy.repaired) }

/-- A use of memory that is written and repaired is the repaired one, written. -/
theorem MemoryUse.repaired_toJson (m : MemoryUse) : m.toJson.repaired = m.repaired.toJson := by
  have breakdown : (if m.breakdown.isEmpty then none
      else some (Json.arr (m.breakdown.map Allocation.toJson))).map Json.repaired =
      if (m.breakdown.map Allocation.repaired).isEmpty then none
        else some (Json.arr ((m.breakdown.map Allocation.repaired).map Allocation.toJson)) := by
    cases m.breakdown with
    | nil => rfl
    | cons a others =>
      exact congrArg some (Json.repaired_listOf Allocation.repaired_toJson (some (a :: others)))
  rw [toJson, Json.repaired_present rfl]
  simp only [List.map_cons, List.map_nil, Option.map_some, breakdown,
    Json.repaired_listOf Bottleneck.repaired_toJson, Json.repaired_listOf Remedy.repaired_toJson]
  rfl

/-- A report with all its texts repaired. -/
def Report.repaired (report : Report) : Report :=
  { flowchart := report.flowchart.repaired
    steps := report.steps.map (List.map Step.repaired)
    complexity := report.complexity.map Complexity.repaired
    advice := report.advice.map Advice.repaired
    memory := report.memory.map MemoryUse.repaired }

/-- **Repairing what is written of a report** is repairing the report. -/
theorem Report.repaired_toJson (report : Report) :
    report.toJson.repaired = report.repaired.toJson := by
  rw [toJson, Json.repaired_present rfl]
  simp only [List.map_cons, List.map_nil, Option.map_some, Option.map_map,
    Json.repaired_listOf Step.repaired_toJson]
  have complexity : Json.repaired ∘ Complexity.toJson = Complexity.toJson ∘ Complexity.repaired :=
    funext Complexity.repaired_toJson
  have advice : Json.repaired ∘ Advice.toJson = Advice.toJson ∘ Advice.repaired :=
    funext Advice.repaired_toJson
  have memory : Json.repaired ∘ MemoryUse.toJson = MemoryUse.toJson ∘ MemoryUse.repaired :=
    funext MemoryUse.repaired_toJson
  rw [complexity, advice, memory, ← Option.map_map, ← Option.map_map, ← Option.map_map]
  rfl

/-! ## Legible parts -/

namespace Json

variable {α : Type} {write : α → Json} {members : List (Text × Option Json)} {depth : Nat}

/-- An object is legible when the members that are present are. -/
theorem legible_present
    (each : ∀ member ∈ members, ∀ value ∈ member.2, value.isLegible depth = true) :
    (present members).isLegible (depth + 1) = true := by
  refine legibleMembers_iff.2 fun entry inside => ?_
  obtain ⟨member, present, made⟩ := List.mem_filterMap.1 inside
  obtain ⟨value, is_some, rfl⟩ := Option.map_eq_some_iff.1 made
  exact each member present value is_some

/-- A list is legible when its items are. -/
theorem legible_listOf {items? : Option (List α)}
    (each : ∀ items ∈ items?, ∀ a ∈ items, (write a).isLegible depth = true) :
    (listOf write items?).isLegible (depth + 1) = true := by
  cases items? with
  | none => rfl
  | some items =>
    refine legibleItems_iff.2 fun item inside => ?_
    obtain ⟨a, member, rfl⟩ := List.mem_map.1 inside
    exact each items rfl a member

end Json

variable {depth : Nat}

/-- A list of texts is legible. -/
theorem legible_texts (texts? : Option (List Text)) :
    (Json.listOf .str texts?).isLegible (depth + 1) = true :=
  Json.legible_listOf fun _ _ _ _ => rfl

/-- A step whose bindings are lasting is legible. -/
theorem Step.legible_toJson {step : Step}
    (lasting : Json.lastingMembers depth step.bindings = true) :
    step.toJson.isLegible (depth + 2) = true := by
  refine Json.legible_present ?_
  simp only [List.forall_mem_cons, List.not_mem_nil, IsEmpty.forall_iff, implies_true, and_true,
    Option.mem_def, Option.some.injEq, forall_eq', Option.map_eq_some_iff]
  refine ⟨rfl, rfl, fun value is_some => ?_, ?_, ?_⟩
  · split at is_some
    · cases is_some
    · rw [← Option.some.inj is_some]
      exact Json.legibleMembers_of_lasting _ lasting
  · rintro _ ⟨text, -, rfl⟩
    rfl
  · rintro _ ⟨n, -, rfl⟩
    exact Json.isNumber_ofInt n

/-- A measure of complexity is legible. -/
theorem Complexity.legible_toJson (c : Complexity) : c.toJson.isLegible (depth + 2) = true := by
  simp [toJson, Json.isLegible, Json.legibleMembers, legible_texts]

/-- Advice is legible. -/
theorem Advice.legible_toJson (a : Advice) : a.toJson.isLegible (depth + 2) = true := by
  simp [toJson, Json.isLegible, Json.legibleMembers, legible_texts]

/-- An allocation is legible. -/
theorem Allocation.legible_toJson (a : Allocation) : a.toJson.isLegible (depth + 1) = true := by
  simp [toJson, Json.ofInt, Json.isLegible, Json.legibleMembers, Json.isNumber_ofInt]

/-- A bottleneck is legible. -/
theorem Bottleneck.legible_toJson (b : Bottleneck) : b.toJson.isLegible (depth + 1) = true := by
  simp [toJson, Json.ofInt, Json.isLegible, Json.legibleMembers, Json.isNumber_ofInt]

/-- A remedy is legible. -/
theorem Remedy.legible_toJson (r : Remedy) : r.toJson.isLegible (depth + 1) = true := by
  simp [toJson, Json.ofInt, Json.isLegible, Json.legibleMembers, Json.isNumber_ofInt]

/-- A use of memory is legible. -/
theorem MemoryUse.legible_toJson (m : MemoryUse) : m.toJson.isLegible (depth + 3) = true := by
  refine Json.legible_present ?_
  simp only [List.forall_mem_cons, List.not_mem_nil, IsEmpty.forall_iff, implies_true, and_true,
    Option.mem_def, Option.some.injEq, forall_eq']
  refine ⟨rfl, fun value is_some => ?_, ?_, ?_⟩
  · split at is_some
    · cases is_some
    · have listed : (Json.listOf Allocation.toJson (some m.breakdown)).isLegible (depth + 2) =
          true :=
        Json.legible_listOf fun _ _ a _ => a.legible_toJson
      rwa [← Option.some.inj is_some]
  · exact Json.legible_listOf fun _ _ b _ => b.legible_toJson
  · exact Json.legible_listOf fun _ _ r _ => r.legible_toJson

/-- **What is written of a lasting report can be read.** -/
theorem Report.legible_toJson {report : Report} (lasting : report.isLasting = true) :
    report.toJson.isLegible Json.maxDepth = true := by
  simp only [isLasting, Step.isLasting, Bool.and_eq_true, Option.all_eq_true,
    List.all_eq_true] at lasting
  -- The variables of a step may be nested as deep as what is left by the parts around them.
  show report.toJson.isLegible (Json.maxDepth - 4 + 4) = true
  refine Json.legible_present ?_
  simp only [List.forall_mem_cons, List.not_mem_nil, IsEmpty.forall_iff, implies_true, and_true,
    Option.mem_def, Option.some.injEq, forall_eq', Option.map_eq_some_iff]
  refine ⟨rfl, ?_, ?_, ?_, ?_⟩
  · exact Json.legible_listOf fun list is_some step member =>
      Step.legible_toJson (lasting.1 list is_some step member).1
  · rintro _ ⟨c, -, rfl⟩
    exact c.legible_toJson
  · rintro _ ⟨a, -, rfl⟩
    exact a.legible_toJson
  · rintro _ ⟨m, -, rfl⟩
    exact m.legible_toJson

/-! ## What is kept -/

/-- What is kept of a step: its texts are repaired, its variables in normal form. -/
def Step.kept (step : Step) : Step := step.repaired.tidied

/-- What is kept of a report. -/
def Report.kept (report : Report) : Report := report.repaired.tidied

/-- A lasting report is lasting after it was repaired. -/
theorem Report.isLasting_repaired {report : Report} (lasting : report.isLasting = true) :
    report.repaired.isLasting = true := by
  simp only [isLasting, Step.isLasting, MemoryUse.isReadable, Bool.and_eq_true, Option.all_eq_true,
    List.all_eq_true] at lasting ⊢
  obtain ⟨steps, memory⟩ := lasting
  constructor
  · rintro _ is_some step member
    obtain ⟨list, is_list, rfl⟩ := Option.map_eq_some_iff.1 is_some
    obtain ⟨before, inside, rfl⟩ := List.mem_map.1 member
    obtain ⟨bindings, word⟩ := steps list is_list before inside
    exact ⟨Json.lastingMembers_repairedMembers _ bindings, word⟩
  · rintro _ is_some
    obtain ⟨m, is_memory, rfl⟩ := Option.map_eq_some_iff.1 is_some
    obtain ⟨⟨allocations, bottlenecks⟩, remedies⟩ := memory m is_memory
    refine ⟨⟨?_, ?_⟩, ?_⟩
    · intro _ member
      obtain ⟨a, inside, rfl⟩ := List.mem_map.1 member
      exact allocations a inside
    · rintro _ is_some _ member
      obtain ⟨list, is_list, rfl⟩ := Option.map_eq_some_iff.1 is_some
      obtain ⟨b, inside, rfl⟩ := List.mem_map.1 member
      exact bottlenecks list is_list b inside
    · rintro _ is_some _ member
      obtain ⟨list, is_list, rfl⟩ := Option.map_eq_some_iff.1 is_some
      obtain ⟨r, inside, rfl⟩ := List.mem_map.1 member
      exact remedies list is_list r inside

/-- A lasting report is lasting after its variables were put in normal form. -/
theorem Report.isLasting_tidied {report : Report} (lasting : report.isLasting = true) :
    report.tidied.isLasting = true := by
  simp only [isLasting, Step.isLasting, Bool.and_eq_true, Option.all_eq_true,
    List.all_eq_true] at lasting ⊢
  refine ⟨?_, lasting.2⟩
  rintro _ is_some step member
  obtain ⟨list, is_list, rfl⟩ := Option.map_eq_some_iff.1 is_some
  obtain ⟨before, inside, rfl⟩ := List.mem_map.1 member
  obtain ⟨bindings, word⟩ := lasting.1 list is_list before inside
  exact ⟨Json.lastingMembers_normalMembers _ bindings rfl, word⟩

/-- **What a lasting report is read back as**, once it was written. -/
theorem Report.read_written {report : Report} (lasting : report.isLasting = true) :
    (Json.read? report.toJson.render).bind Report.ofJson? = some report.kept := by
  have read : Json.read? (report.toJson.render ++ []) = some report.toJson.repaired :=
    Json.read_render_repaired (Report.legible_toJson lasting) rfl
  rw [List.append_nil] at read
  rw [read, Report.repaired_toJson]
  exact Report.ofJson_toJson_tidied (Report.isLasting_repaired lasting)

/-! ### The same normal form -/

namespace Json

variable {members others : List (Text × Option Json)}

/-- Objects whose members have the same normal forms have the same normal form. -/
theorem normal_present
    (same : members.map (fun member => (member.1, member.2.map normal)) =
      others.map fun member => (member.1, member.2.map normal)) :
    (present members).normal = (present others).normal := by
  have pairs : ∀ members : List (Text × Option Json),
      (presentMembers members).map (fun member => (member.1, member.2.normal)) =
        presentMembers (members.map fun member => (member.1, member.2.map normal)) := by
    intro members
    rw [presentMembers, presentMembers, List.map_filterMap, List.filterMap_map]
    refine List.filterMap_congr fun member _ => ?_
    simp only [Function.comp_apply, Option.map_map]
    rfl
  refine congrArg obj (normalMembers_congr ?_)
  exact (pairs members).trans (Eq.trans (congrArg presentMembers same) (pairs others).symm)

end Json

/-- Putting the variables in normal form does not change the normal form of a step. -/
theorem Step.normal_tidied (step : Step) : step.tidied.toJson.normal = step.toJson.normal := by
  -- The member for the variables is left out when there are none, which is so on both sides.
  have bindings : (if (Json.normalMembers step.bindings []).isEmpty then none
      else some (Json.obj (Json.normalMembers step.bindings []))).map Json.normal =
      (if step.bindings.isEmpty then none else some (Json.obj step.bindings)).map Json.normal := by
    cases is_bindings : step.bindings with
    | nil => rfl
    | cons entry entries =>
      have present : Json.normalMembers (entry :: entries) [] ≠ [] :=
        Json.normalMembers_ne_nil (List.cons_ne_nil _ _)
      rw [if_neg (by simpa using present)]
      exact congrArg some (Json.normal_normal (.obj (entry :: entries)))
  refine Json.normal_present ?_
  simp only [List.map_cons, List.map_nil, List.cons.injEq, Prod.mk.injEq, true_and, and_true]
  exact ⟨rfl, rfl, bindings, rfl, rfl⟩

/-- A tidied report is written as a value with the same normal form. -/
theorem Report.normal_tidied (report : Report) :
    report.tidied.toJson.normal = report.toJson.normal := by
  have steps : (Json.listOf Step.toJson (report.steps.map (List.map Step.tidied))).normal =
      (Json.listOf Step.toJson report.steps).normal := by
    cases report.steps with
    | none => rfl
    | some list =>
      refine congrArg Json.arr ?_
      rw [Json.normalItems_eq_map, Json.normalItems_eq_map, List.map_map, List.map_map,
        List.map_map]
      exact List.map_congr_left fun step _ => step.normal_tidied
  refine Json.normal_present ?_
  simp only [List.map_cons, List.map_nil, Option.map_some, tidied, steps]

/-- There is nothing to repair in a step that was kept. -/
theorem Step.repaired_kept (step : Step) : step.kept.repaired = step.kept := by
  have bindings :
      Json.repairedMembers (Json.normalMembers (Json.repairedMembers step.bindings) []) =
        Json.normalMembers (Json.repairedMembers step.bindings) [] :=
    Json.obj.inj (Json.repaired_normal (Json.obj step.bindings).repaired
      (Json.repaired_repaired (.obj step.bindings)))
  have output : (step.output.map Text.repaired).map Text.repaired =
      step.output.map Text.repaired := by
    cases step.output with
    | none => rfl
    | some text => exact congrArg some (Text.repaired_repaired text)
  simp only [kept, tidied, repaired, Text.repaired_repaired, bindings, output]

/-- There is nothing to repair in what is written of a part that was repaired. -/
theorem Json.repaired_map_repair {α : Type} {write : α → Json} {repair : α → α}
    (each : ∀ a, (write a).repaired = write (repair a)) (value? : Option α) :
    ((value?.map repair).map write).map Json.repaired = (value?.map repair).map write := by
  cases value? with
  | none => rfl
  | some a =>
    refine congrArg some ?_
    rw [← each, Json.repaired_repaired]

/-- There is nothing to repair in what is written of a report that was kept. -/
theorem Report.repaired_kept_toJson (report : Report) :
    report.kept.toJson.repaired = report.kept.toJson := by
  have steps : (Json.listOf Step.toJson report.kept.steps).repaired =
      Json.listOf Step.toJson report.kept.steps := by
    rw [Json.repaired_listOf Step.repaired_toJson]
    cases list? : report.steps with
    | none => simp [kept, tidied, repaired, list?]
    | some list =>
      simp only [kept, tidied, repaired, list?, Option.map_some, List.map_map]
      refine congrArg (fun steps => Json.listOf Step.toJson (some steps)) ?_
      exact List.map_congr_left fun step _ => step.repaired_kept
  rw [toJson, Json.repaired_present rfl]
  simp only [List.map_cons, List.map_nil, Option.map_some, steps]
  -- The other parts are those of the repaired report.
  rw [show report.kept.flowchart = report.flowchart.repaired from rfl,
    show report.kept.complexity = report.complexity.map Complexity.repaired from rfl,
    show report.kept.advice = report.advice.map Advice.repaired from rfl,
    show report.kept.memory = report.memory.map MemoryUse.repaired from rfl,
    Json.repaired_map_repair Complexity.repaired_toJson,
    Json.repaired_map_repair Advice.repaired_toJson,
    Json.repaired_map_repair MemoryUse.repaired_toJson, Json.repaired, Text.repaired_repaired]

/-- **A report tells the same after it was kept**: sent as a response, it is read as a value with
the same normal form. -/
theorem Report.normal_kept {report : Report} (lasting : report.isLasting = true) :
    ∃ value, (Json.read? (report.toJson.render ++ "\n")).map Json.normal = some value ∧
      (Json.read? (report.kept.toJson.render ++ "\n")).map Json.normal = some value := by
  have kept_lasting : report.kept.isLasting = true :=
    Report.isLasting_tidied (Report.isLasting_repaired lasting)
  refine ⟨report.toJson.repaired.normal, ?_, ?_⟩
  · rw [Json.read_render_repaired (Report.legible_toJson lasting) (by decide)]
    rfl
  · rw [Json.read_render_repaired (Report.legible_toJson kept_lasting) (by decide),
      Report.repaired_kept_toJson, Option.map_some, Report.repaired_toJson]
    exact congrArg some (Report.normal_tidied report.repaired)

end FlowTrace
