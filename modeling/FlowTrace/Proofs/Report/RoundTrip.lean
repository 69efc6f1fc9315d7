import FlowTrace.Proofs.Json.Normal
import FlowTrace.Report.Wire

/-! # Reports on the wire and back

A report is written member by member, and each part is read back from the member that holds it
(`writesTo_present`). Of a report that is **lasting**, all that changes is the order of the
variables (`Report.ofJson_toJson_tidied`). So a report that is **sendable** arrives as it was sent
(`Report.carried_of_isSendable`). -/

namespace FlowTrace

open Json (Writes writesTo foldRune namesField)

/-! ## Members -/

/-- A name with upper and lower case taken together. -/
def foldName (name : Text) : List Rune := name.runes.map foldRune

/-- The members of an object with members that may be absent. -/
def presentMembers (members : List (Text × Option Json)) : List (Text × Json) :=
  members.filterMap fun (name, value?) => value?.map (name, ·)

/-- The members that are present begin with the first one, if it is. -/
theorem presentMembers_cons (name : Text) (value? : Option Json)
    (members : List (Text × Option Json)) :
    presentMembers ((name, value?) :: members) =
      (value?.map (name, ·)).toList ++ presentMembers members := by
  cases value? <;> rfl

/-- The writes to a field go over the members in their order. -/
theorem writesTo_append (members more : List (Text × Json)) (field : Text) :
    writesTo (members ++ more) field = writesTo members field ++ writesTo more field := by
  simp [writesTo]

/-- Nothing is written to a field that no member names. -/
theorem writesTo_absent {members : List (Text × Option Json)} {field : Text}
    (absent : foldName field ∉ members.map fun member => foldName member.1) :
    writesTo (presentMembers members) field = [] := by
  rw [writesTo, List.map_eq_nil_iff, List.filter_eq_nil_iff]
  rintro ⟨name, value⟩ member named
  obtain ⟨⟨other, value?⟩, present, same⟩ := List.mem_filterMap.1 member
  obtain ⟨_, _, made⟩ := Option.map_eq_some_iff.1 same
  have is_name : other = name := congrArg Prod.fst made
  refine absent (List.mem_map.2 ⟨(other, value?), present, ?_⟩)
  rw [is_name]
  exact eq_of_beq named

/-- **A member is written to the field that it names**, if no two members name the same field. -/
theorem writesTo_present {members : List (Text × Option Json)}
    (distinct : (members.map fun member => foldName member.1).Nodup) {name : Text}
    {value? : Option Json} (member : (name, value?) ∈ members) :
    writesTo (presentMembers members) name = value?.toList := by
  induction members with
  | nil => cases member
  | cons first members ih =>
    obtain ⟨other, other?⟩ := first
    rw [List.map_cons, List.nodup_cons] at distinct
    rw [presentMembers_cons, writesTo_append]
    rcases List.mem_cons.1 member with same | later
    · obtain ⟨rfl, rfl⟩ := Prod.mk.inj same
      rw [writesTo_absent distinct.1, List.append_nil]
      cases value? with
      | none => rfl
      | some value => simp [writesTo, namesField]
    · rw [ih distinct.2 later]
      have apart : namesField other name = false := by
        rw [Bool.eq_false_iff]
        intro named
        have same : foldName other = foldName name := eq_of_beq named
        exact distinct.1 (List.mem_map.2 ⟨(name, value?), later, same.symm⟩)
      cases other? with
      | none => rfl
      | some value => simp [writesTo, apart]

/-! ## Places -/

/-- An integer is read back from its literal. -/
theorem literalToInt_ofInt (n : Int) : Json.literalToInt? (Text.ofInt n) = some n := by
  cases n with
  | ofNat n =>
    have read := Text.toNat?_ofNat n
    cases shape : Text.ofNat n with
    | nil => exact absurd shape (Text.ofNat_ne_nil n)
    | cons c t =>
      have digit : Text.isDigit c = true := Text.isDigit_of_mem_ofNat (n := n) (by simp [shape])
      have no_sign : ¬ (c == ('-' : UInt8)) = true := by
        intro same
        rw [eq_of_beq same] at digit
        cases digit
      rw [Text.ofInt, shape, Json.literalToInt?, if_neg no_sign, ← shape, read]
      rfl
  | negSucc n =>
    rw [Text.ofInt, Json.literalToInt?, if_pos (by decide), Text.toNat?_ofNat]
    rfl

namespace Json.Writes

/-- A text place holds the text that is written. -/
theorem text_str (t : Text) : text? [.str t] = some t := rfl

/-- An integer place holds the integer that is written, if it fits into a word. -/
theorem integer_ofInt {n : Int} (fits : fitsWord n = true) : integer? [.ofInt n] = some n := by
  simp [integer?, ofInt, literalToInt_ofInt, fits]

variable {α : Type} {write : α → Json} {read : Writes → Option α}

/-- The items of a list are read back one by one. -/
theorem mapM_written {f : α → α} (items : List α)
    (each : ∀ a ∈ items, read [write a] = some (f a)) :
    items.mapM (read ∘ (fun value => [value]) ∘ write) = some (items.map f) := by
  induction items with
  | nil => rfl
  | cons a items ih =>
    have first : (read ∘ (fun value => [value]) ∘ write) a = some (f a) :=
      each a List.mem_cons_self
    rw [List.mapM_cons, first, ih fun b member => each b (List.mem_cons_of_mem _ member)]
    rfl

/-- What a list is read back as, if it is known of its items. -/
theorem list_listOf_map {f : α → α} (items? : Option (List α))
    (each : ∀ items ∈ items?, ∀ a ∈ items, read [write a] = some (f a)) :
    list? read [Json.listOf write items?] = some (items?.map (List.map f)) := by
  match items? with
  | none => rfl
  | some [] => rfl
  | some (a :: items) =>
    have first := each _ rfl a List.mem_cons_self
    have others := mapM_written items fun b member => each _ rfl b (List.mem_cons_of_mem _ member)
    simp [list?, Json.listOf, ofOption, stretches, emptiesList, Writes.items?, overlay, first,
      others, List.take_of_length_le]

/-- A list is read back if its items are. -/
theorem list_listOf (items? : Option (List α))
    (each : ∀ items ∈ items?, ∀ a ∈ items, read [write a] = some a) :
    list? read [Json.listOf write items?] = some items? := by
  rw [@list_listOf_map _ write read id items? each, List.map_id_fun, Option.map_id]
  rfl

/-- A list that is left out when it is empty is read back if its items are. -/
theorem list_unlessEmpty (items : List α) (each : ∀ a ∈ items, read [write a] = some a) :
    list? read (if items.isEmpty then none else some (Json.arr (items.map write))).toList =
      some (if items.isEmpty then none else some items) := by
  cases items with
  | nil => rfl
  | cons a items =>
    exact list_listOf (some (a :: items)) fun _ is_some b member =>
      each b (Option.some.inj is_some ▸ member)

/-- An optional place is read back if what it holds is. -/
theorem optional_map (value? : Option α) (each : ∀ a ∈ value?, read [write a] = some a)
    (some_value : ∀ a ∈ value?, (write a).isNull = false) :
    optional? read (value?.map write).toList = some value? := by
  cases value? with
  | none => rfl
  | some a => simp [optional?, stretches, some_value a rfl, each a rfl]

/-- A table of entries is held in canonical form. -/
theorem foldlM_setMember (entries held : List (Text × Json)) :
    entries.foldlM (fun held entry => do
      return setMember held entry.1 (← entry.2.canonical?)) held =
      canonicalMembers? entries held := by
  induction entries generalizing held with
  | nil => rfl
  | cons entry entries ih =>
    rw [List.foldlM_cons, canonicalMembers?]
    cases entry.2.canonical? with
    | none => rfl
    | some value => exact ih (setMember held entry.1 value)

/-- A table of lasting values is read back in normal form. -/
theorem table_obj {entries : List (Text × Json)} {depth : Nat}
    (lasting : lastingMembers depth entries = true) :
    table? (if entries.isEmpty then none else some (.obj entries)).toList =
      some (normalMembers entries []) := by
  cases entries with
  | nil => rfl
  | cons entry entries =>
    show (entry :: entries).foldlM _ [] >>= pure = _
    rw [foldlM_setMember, canonicalMembers_of_lasting _ lasting]
    rfl

end Json.Writes

/-! ## Lasting parts -/

/-- Whether a step is **lasting**: its variables are, and its line is a word. -/
def Step.isLasting (step : Step) : Bool :=
  Json.lastingMembers (Json.maxDepth - 4) step.bindings && step.line.all Writes.fitsWord

/-- A step with its variables in normal form. -/
def Step.tidied (step : Step) : Step :=
  { step with bindings := Json.normalMembers step.bindings [] }

/-- Whether an estimate of memory use is readable: its lines are words. -/
def MemoryUse.isReadable (m : MemoryUse) : Bool :=
  m.breakdown.all (fun a => Writes.fitsWord a.line) &&
    m.bottlenecks.all (fun bottlenecks => bottlenecks.all fun b => Writes.fitsWord b.line) &&
    m.remedies.all fun remedies => remedies.all fun r => Writes.fitsWord r.line

/-- Whether a report is lasting: its steps are, and its estimate of memory use is readable. -/
def Report.isLasting (report : Report) : Bool :=
  report.steps.all (fun steps => steps.all Step.isLasting) &&
    report.memory.all MemoryUse.isReadable

/-- A report with the variables of its steps in normal form. -/
def Report.tidied (report : Report) : Report :=
  { report with steps := report.steps.map (List.map Step.tidied) }

/-! ## Reading parts back -/

/-- A list of texts is read back. -/
theorem read_texts {texts? : Option (List Text)} :
    Writes.list? Writes.text? [Json.listOf .str texts?] = some texts? :=
  Writes.list_listOf texts? fun _ _ text _ => Writes.text_str text

/-- **A lasting step is read back** with its variables in normal form. -/
theorem Step.ofWrites_toJson {step : Step} (lasting : step.isLasting = true) :
    Step.ofWrites? [step.toJson] = some step.tidied := by
  simp only [isLasting, Bool.and_eq_true, Option.all_eq_true] at lasting
  obtain ⟨bindings, word⟩ := lasting
  -- The members as they are written; each part is then looked up under its name.
  let fields : List (Text × Option Json) := [("node_id", some (.str step.nodeId)),
    ("description", some (.str step.description)),
    ("variables", if step.bindings.isEmpty then none else some (.obj step.bindings)),
    ("output", step.output.map .str), ("line", step.line.map .ofInt)]
  have distinct : (fields.map fun member => foldName member.1).Nodup := by
    show (["node_id", "description", "variables", "output", "line"].map
      fun name => foldName (Text.of name)).Nodup
    decide
  have members : Writes.members? [step.toJson] = some (presentMembers fields) := rfl
  have output : Writes.optional? Writes.text? (step.output.map .str).toList = some step.output :=
    Writes.optional_map step.output (fun text _ => Writes.text_str text) fun _ _ => rfl
  have line : Writes.optional? Writes.integer? (step.line.map .ofInt).toList = some step.line :=
    Writes.optional_map step.line (fun n member => Writes.integer_ofInt (word n member))
      fun _ _ => rfl
  rw [Step.ofWrites?, members]
  simp only [Option.bind_eq_bind, Option.bind_some, writesTo_present distinct (.head _),
    writesTo_present distinct (.tail _ (.head _)),
    writesTo_present distinct (.tail _ (.tail _ (.head _))),
    writesTo_present distinct (.tail _ (.tail _ (.tail _ (.head _)))),
    writesTo_present distinct (.tail _ (.tail _ (.tail _ (.tail _ (.head _))))),
    Option.toList_some, Writes.text_str, Writes.table_obj bindings, output, line]
  rfl

/-- A measure of complexity is read back. -/
theorem Complexity.ofWrites_toJson (c : Complexity) :
    Complexity.ofWrites? [c.toJson] = some c := by
  let fields : List (Text × Option Json) := [("time_complexity", some (.str c.time)),
    ("space_complexity", some (.str c.space)), ("details", some (.listOf .str c.details))]
  have distinct : (fields.map fun member => foldName member.1).Nodup := by
    show (["time_complexity", "space_complexity", "details"].map
      fun name => foldName (Text.of name)).Nodup
    decide
  have members : Writes.members? [c.toJson] = some (presentMembers fields) := rfl
  rw [Complexity.ofWrites?, members]
  simp only [Option.bind_eq_bind, Option.bind_some, writesTo_present distinct (.head _),
    writesTo_present distinct (.tail _ (.head _)),
    writesTo_present distinct (.tail _ (.tail _ (.head _))), Option.toList_some, Writes.text_str,
    read_texts]
  rfl

/-- Advice is read back. -/
theorem Advice.ofWrites_toJson (a : Advice) : Advice.ofWrites? [a.toJson] = some a := by
  let fields : List (Text × Option Json) := [("suggestions", some (.listOf .str a.suggestions)),
    ("optimized_code", some (.str a.optimizedCode))]
  have distinct : (fields.map fun member => foldName member.1).Nodup := by
    show (["suggestions", "optimized_code"].map fun name => foldName (Text.of name)).Nodup
    decide
  have members : Writes.members? [a.toJson] = some (presentMembers fields) := rfl
  rw [Advice.ofWrites?, members]
  simp only [Option.bind_eq_bind, Option.bind_some, writesTo_present distinct (.head _),
    writesTo_present distinct (.tail _ (.head _)), Option.toList_some, Writes.text_str,
    read_texts]
  rfl

/-- An allocation is read back. -/
theorem Allocation.ofWrites_toJson {a : Allocation} (word : Writes.fitsWord a.line = true) :
    Allocation.ofWrites? [a.toJson] = some a := by
  let fields : List (Text × Option Json) := [("variable", some (.str a.holder)),
    ("type", some (.str a.kind)), ("size", some (.str a.size)), ("line", some (.ofInt a.line))]
  have distinct : (fields.map fun member => foldName member.1).Nodup := by
    show (["variable", "type", "size", "line"].map fun name => foldName (Text.of name)).Nodup
    decide
  have members : Writes.members? [a.toJson] = some (presentMembers fields) := rfl
  rw [Allocation.ofWrites?, members]
  simp only [Option.bind_eq_bind, Option.bind_some, writesTo_present distinct (.head _),
    writesTo_present distinct (.tail _ (.head _)),
    writesTo_present distinct (.tail _ (.tail _ (.head _))),
    writesTo_present distinct (.tail _ (.tail _ (.tail _ (.head _)))), Option.toList_some,
    Writes.text_str, Writes.integer_ofInt word]
  rfl

/-- A bottleneck is read back. -/
theorem Bottleneck.ofWrites_toJson {b : Bottleneck} (word : Writes.fitsWord b.line = true) :
    Bottleneck.ofWrites? [b.toJson] = some b := by
  let fields : List (Text × Option Json) := [("line", some (.ofInt b.line)),
    ("description", some (.str b.description))]
  have distinct : (fields.map fun member => foldName member.1).Nodup := by
    show (["line", "description"].map fun name => foldName (Text.of name)).Nodup
    decide
  have members : Writes.members? [b.toJson] = some (presentMembers fields) := rfl
  rw [Bottleneck.ofWrites?, members]
  simp only [Option.bind_eq_bind, Option.bind_some, writesTo_present distinct (.head _),
    writesTo_present distinct (.tail _ (.head _)), Option.toList_some, Writes.text_str,
    Writes.integer_ofInt word]
  rfl

/-- A remedy is read back. -/
theorem Remedy.ofWrites_toJson {r : Remedy} (word : Writes.fitsWord r.line = true) :
    Remedy.ofWrites? [r.toJson] = some r := by
  let fields : List (Text × Option Json) := [("line", some (.ofInt r.line)),
    ("suggestion", some (.str r.suggestion))]
  have distinct : (fields.map fun member => foldName member.1).Nodup := by
    show (["line", "suggestion"].map fun name => foldName (Text.of name)).Nodup
    decide
  have members : Writes.members? [r.toJson] = some (presentMembers fields) := rfl
  rw [Remedy.ofWrites?, members]
  simp only [Option.bind_eq_bind, Option.bind_some, writesTo_present distinct (.head _),
    writesTo_present distinct (.tail _ (.head _)), Option.toList_some, Writes.text_str,
    Writes.integer_ofInt word]
  rfl

/-- A use of memory is read back. -/
theorem MemoryUse.ofWrites_toJson {m : MemoryUse} (readable : m.isReadable = true) :
    MemoryUse.ofWrites? [m.toJson] = some m := by
  simp only [isReadable, Bool.and_eq_true, Option.all_eq_true, List.all_eq_true] at readable
  obtain ⟨⟨allocations, bottlenecks⟩, remedies⟩ := readable
  let fields : List (Text × Option Json) := [("estimated_memory_usage", some (.str m.total)),
    ("memory_breakdown",
      if m.breakdown.isEmpty then none else some (.arr (m.breakdown.map Allocation.toJson))),
    ("bottlenecks", some (.listOf Bottleneck.toJson m.bottlenecks)),
    ("suggestions", some (.listOf Remedy.toJson m.remedies))]
  have distinct : (fields.map fun member => foldName member.1).Nodup := by
    show (["estimated_memory_usage", "memory_breakdown", "bottlenecks", "suggestions"].map
      fun name => foldName (Text.of name)).Nodup
    decide
  have members : Writes.members? [m.toJson] = some (presentMembers fields) := rfl
  have breakdown := Writes.list_unlessEmpty m.breakdown fun a member =>
    Allocation.ofWrites_toJson (allocations a member)
  rw [MemoryUse.ofWrites?, members]
  simp only [Option.bind_eq_bind, Option.bind_some, writesTo_present distinct (.head _),
    writesTo_present distinct (.tail _ (.head _)),
    writesTo_present distinct (.tail _ (.tail _ (.head _))),
    writesTo_present distinct (.tail _ (.tail _ (.tail _ (.head _)))), Option.toList_some,
    Writes.text_str, breakdown,
    Writes.list_listOf m.bottlenecks fun bs is_some b member =>
      Bottleneck.ofWrites_toJson (bottlenecks bs is_some b member),
    Writes.list_listOf m.remedies fun rs is_some r member =>
      Remedy.ofWrites_toJson (remedies rs is_some r member)]
  have whole : (if m.breakdown.isEmpty then none else some m.breakdown).getD [] = m.breakdown := by
    cases m.breakdown <;> rfl
  rw [whole]
  rfl

/-- **A lasting report is read back** from its JSON form, with its variables in normal form. -/
theorem Report.ofJson_toJson_tidied {report : Report} (lasting : report.isLasting = true) :
    Report.ofJson? report.toJson = some report.tidied := by
  simp only [isLasting, Bool.and_eq_true, Option.all_eq_true, List.all_eq_true] at lasting
  obtain ⟨steps, memory⟩ := lasting
  let fields : List (Text × Option Json) := [("flowchart", some (.str report.flowchart)),
    ("execution_steps", some (.listOf Step.toJson report.steps)),
    ("complexity_analysis", report.complexity.map Complexity.toJson),
    ("optimization_suggestions", report.advice.map Advice.toJson),
    ("memory_analysis", report.memory.map MemoryUse.toJson)]
  have distinct : (fields.map fun member => foldName member.1).Nodup := by
    show (["flowchart", "execution_steps", "complexity_analysis", "optimization_suggestions",
      "memory_analysis"].map fun name => foldName (Text.of name)).Nodup
    decide
  have members : Writes.members? [report.toJson] = some (presentMembers fields) := rfl
  rw [Report.ofJson?, Report.ofWrites?, members]
  simp only [Option.bind_eq_bind, Option.bind_some, writesTo_present distinct (.head _),
    writesTo_present distinct (.tail _ (.head _)),
    writesTo_present distinct (.tail _ (.tail _ (.head _))),
    writesTo_present distinct (.tail _ (.tail _ (.tail _ (.head _)))),
    writesTo_present distinct (.tail _ (.tail _ (.tail _ (.tail _ (.head _))))),
    Option.toList_some, Writes.text_str,
    Writes.list_listOf_map report.steps fun list is_some step member =>
      Step.ofWrites_toJson (steps list is_some step member),
    Writes.optional_map report.complexity (fun c _ => Complexity.ofWrites_toJson c) fun _ _ => rfl,
    Writes.optional_map report.advice (fun a _ => Advice.ofWrites_toJson a) fun _ _ => rfl,
    Writes.optional_map report.memory
      (fun m is_some => MemoryUse.ofWrites_toJson (memory m is_some)) fun _ _ => rfl]
  rfl

/-! ## Readable reports -/

/-- Whether variables are **readable**: their names are in order, and their values are strings. -/
def Bindings.isReadable (bindings : Bindings) : Bool :=
  decide (bindings.Pairwise fun a b => a.1 < b.1) &&
    bindings.all fun entry => entry.2 matches .str _

/-- Whether a step is readable: its variables are, and its line is a word. -/
def Step.isReadable (step : Step) : Bool :=
  Bindings.isReadable step.bindings && step.line.all Writes.fitsWord

/-- Whether a report is readable. -/
def Report.isReadable (report : Report) : Bool :=
  report.steps.all (fun steps => steps.all Step.isReadable) &&
    report.memory.all MemoryUse.isReadable

/-- A readable step is lasting, and its variables are in normal form. -/
theorem Step.lasting_of_isReadable {step : Step} (readable : step.isReadable = true) :
    step.isLasting = true ∧ step.tidied = step := by
  simp only [isReadable, Bindings.isReadable, Bool.and_eq_true, decide_eq_true_eq,
    List.all_eq_true] at readable
  obtain ⟨⟨sorted, texts⟩, word⟩ := readable
  have text : ∀ entry ∈ step.bindings, ∃ t, entry.2 = .str t := by
    rintro ⟨name, value⟩ member
    have text := texts _ member
    cases value with
    | str t => exact ⟨t, rfl⟩
    | _ => cases text
  constructor
  · refine Bool.and_eq_true_iff.2 ⟨Json.lastingMembers_iff.2 fun entry member => ?_, word⟩
    obtain ⟨t, same⟩ := text entry member
    rw [same]
    rfl
  · have same : Json.normalMembers step.bindings [] = step.bindings := by
      refine Json.normalMembers_of_sorted (by simpa using sorted) fun entry member => ?_
      obtain ⟨t, same⟩ := text entry member
      rw [same]
      rfl
    rw [tidied, same]

/-- A readable report is lasting, and its variables are in normal form. -/
theorem Report.lasting_of_isReadable {report : Report} (readable : report.isReadable = true) :
    report.isLasting = true ∧ report.tidied = report := by
  simp only [isReadable, Bool.and_eq_true, Option.all_eq_true, List.all_eq_true] at readable
  obtain ⟨steps, memory⟩ := readable
  constructor
  · simp only [isLasting, Bool.and_eq_true, Option.all_eq_true, List.all_eq_true]
    exact ⟨fun list is_some step member =>
      (Step.lasting_of_isReadable (steps list is_some step member)).1, memory⟩
  · have same : report.steps.map (List.map Step.tidied) = report.steps := by
      cases is_some : report.steps with
      | none => rfl
      | some list =>
        refine congrArg some ((List.map_congr_left fun step member => ?_).trans (List.map_id list))
        exact (Step.lasting_of_isReadable (steps list is_some step member)).2
    rw [tidied, same]

/-- **A readable report is read back** from its JSON form. -/
theorem Report.ofJson_toJson {report : Report} (readable : report.isReadable = true) :
    Report.ofJson? report.toJson = some report := by
  obtain ⟨lasting, same⟩ := Report.lasting_of_isReadable readable
  rw [Report.ofJson_toJson_tidied lasting, same]

/-! ## Carrying reports -/

/-- What arrives of a report that is sent as JSON, with a newline behind it. -/
def Report.carried? (report : Report) : Option Report :=
  (Json.read? (report.toJson.render ++ "\n")).bind Report.ofJson?

/-- Whether a report can be **sent** without loss. -/
def Report.isSendable (report : Report) : Bool :=
  report.isReadable && report.toJson.isSendable Json.maxDepth

/-- A sendable report is read back from its written form. -/
theorem Report.kept_of_isSendable {report : Report} (sendable : report.isSendable = true) :
    (Json.read? report.toJson.render).bind Report.ofJson? = some report := by
  obtain ⟨readable, sendable⟩ := Bool.and_eq_true_iff.1 sendable
  have read : Json.read? (report.toJson.render ++ []) = some report.toJson :=
    Json.read_render sendable rfl
  rw [List.append_nil] at read
  rw [read]
  exact Report.ofJson_toJson readable

/-- **A sendable report arrives as it was sent.** -/
theorem Report.carried_of_isSendable {report : Report} (sendable : report.isSendable = true) :
    report.carried? = some report := by
  obtain ⟨readable, sendable⟩ := Bool.and_eq_true_iff.1 sendable
  rw [Report.carried?, Json.read_render sendable (by decide)]
  exact Report.ofJson_toJson readable

/-- **A request is read back** from its JSON form. -/
theorem Request.ofJson_toJson (request : Request) :
    Request.ofJson? request.toJson = some request := by
  let fields : List (Text × Option Json) := [("code", some (.str request.code)),
    ("language", some (.str request.language)), ("advanced", some (.bool request.advanced))]
  have distinct : (fields.map fun member => foldName member.1).Nodup := by
    show (["code", "language", "advanced"].map fun name => foldName (Text.of name)).Nodup
    decide
  have members : Writes.members? [request.toJson] = some (presentMembers fields) := rfl
  rw [Request.ofJson?, members]
  simp only [Option.bind_eq_bind, Option.bind_some, writesTo_present distinct (.head _),
    writesTo_present distinct (.tail _ (.head _)),
    writesTo_present distinct (.tail _ (.tail _ (.head _))), Option.toList_some, Writes.text_str]
  rfl

end FlowTrace
