import FlowTrace.Proofs.Engine.Drawing
import FlowTrace.Proofs.Report.Keeping

/-! # The variables of the engine's steps

Whatever a program assigns, the steps of its report show it as text: the value is the source text of
an expression, never a number or a list (`Parsed.showsTexts_flow`). So the only thing that could
keep a report of the engine from lasting is a line number that does not fit into a word
(`Engine.isLasting_of_wordLines`). -/

namespace FlowTrace

/-- Whether the values of all variables are texts. -/
def Bindings.AreTexts (bindings : Bindings) : Prop :=
  ∀ entry ∈ bindings, ∃ text, entry.2 = .str text

namespace Bindings

variable {bindings : Bindings}

/-- One binding to a text is of texts. -/
theorem areTexts_singleton (name text : Text) : AreTexts [(name, .str text)] :=
  List.forall_mem_singleton.2 ⟨text, rfl⟩

/-- Bindings stay of texts when one more text is bound. -/
theorem AreTexts.set (h : bindings.AreTexts) (name text : Text) :
    (bindings.set name (.str text)).AreTexts := by
  induction bindings with
  | nil => exact areTexts_singleton name text
  | cons first rest ih =>
    obtain ⟨head, tail⟩ := List.forall_mem_cons.1 h
    unfold Bindings.set
    split
    · exact List.forall_mem_cons.2 ⟨⟨text, rfl⟩, tail⟩
    · split
      · exact List.forall_mem_cons.2 ⟨⟨text, rfl⟩, h⟩
      · exact List.forall_mem_cons.2 ⟨head, ih tail⟩

/-- Texts that are assigned one after the other are texts. -/
theorem areTexts_ofList {assignments : List (Text × Json)} (h : AreTexts assignments) :
    (ofList assignments).AreTexts := by
  have kept : ∀ {done : Bindings}, done.AreTexts → AreTexts
      (assignments.foldl (fun bindings entry => Bindings.set bindings entry.1 entry.2) done) := by
    induction assignments with
    | nil => exact id
    | cons entry rest ih =>
      intro done texts
      obtain ⟨⟨text, same⟩, others⟩ := List.forall_mem_cons.1 h
      have next : (done.set entry.1 entry.2).AreTexts := by
        rw [same]
        exact texts.set entry.1 text
      exact ih others next
  exact kept (List.forall_mem_nil _)

end Bindings

/-! ## Flows -/

namespace Flow

variable {flow : Flow} {parent id stem last : Text} {face : Face} {note : Note}

/-- Whether the steps of a flow **show texts** only: no other value is assigned. -/
def ShowsTexts (flow : Flow) : Prop := ∀ step ∈ flow.steps, step.bindings.AreTexts

/-- A flow that begins shows texts. -/
theorem showsTexts_start : start.ShowsTexts := List.forall_mem_nil _

/-- A node whose note assigns nothing but texts may be added. -/
theorem ShowsTexts.add (h : flow.ShowsTexts) (texts : note.bindings.AreTexts) :
    (flow.add parent id face note).ShowsTexts := by
  intro step member
  rcases List.mem_append.1 member with old | new
  · exact h step old
  · rw [List.mem_singleton.1 new]
    exact texts

/-- A node whose note binds texts keeps a flow showing texts. -/
theorem ShowsTexts.addNumbered (h : flow.ShowsTexts) (texts : note.bindings.AreTexts) :
    (flow.addNumbered parent stem face note).1.ShowsTexts := by
  show (flow.add parent (flow.nextId stem) face note).ShowsTexts
  exact h.add texts

/-- A node that assigns nothing may be added. -/
theorem ShowsTexts.addSilent (h : flow.ShowsTexts) :
    (flow.addNumbered parent stem face {}).1.ShowsTexts :=
  h.addNumbered (List.forall_mem_nil _)

/-- The end of a loop keeps a flow showing texts. -/
theorem ShowsTexts.closeLoop (h : flow.ShowsTexts) : (flow.closeLoop last id).ShowsTexts := by
  unfold Flow.closeLoop
  split
  · exact h
  · exact h

/-- The steps of a finished flow show texts. -/
theorem ShowsTexts.finish (h : flow.ShowsTexts) (last : Text) :
    ∀ step ∈ (flow.finish last).2, step.bindings.AreTexts := by
  unfold Flow.finish
  split
  · exact List.forall_mem_singleton.2 (List.forall_mem_nil _)
  · exact h

end Flow

/-! ## Python -/

namespace Python

open FlowTrace.Flow (ShowsTexts)

/-- The note of a statement without a suite assigns nothing but texts. -/
theorem areTexts_leafNode {s : Statement} {stem : Text} {face : Face} {note : Note}
    (node : leafNode? s = some (stem, face, note)) : note.bindings.AreTexts := by
  unfold leafNode? at node
  split at node
  · dsimp only at node
    split at node
    · cases node
    · cases node
      refine Bindings.areTexts_ofList fun entry member => ?_
      obtain ⟨name, -, rfl⟩ := List.mem_map.1 member
      exact ⟨_, rfl⟩
  · cases node
    show Bindings.AreTexts (if _ then _ else _)
    split
    · exact Bindings.areTexts_singleton _ _
    · exact List.forall_mem_nil _
  · cases node
    exact List.forall_mem_nil _
  · cases node
    exact List.forall_mem_nil _
  · cases node

/-- A leaf keeps a flow showing texts. -/
theorem showsTexts_leaf {flow : Flow} {parent : Text} (h : flow.ShowsTexts) (s : Statement) :
    (match leafNode? s with
      | some (stem, face, note) => flow.addNumbered parent stem face note
      | none => (flow, parent)).1.ShowsTexts := by
  cases node : leafNode? s with
  | none => exact h
  | some node' => exact h.addNumbered (areTexts_leafNode node)

mutual
/-- **The walk over a statement shows texts.** -/
theorem showsTexts_visit : ∀ (s : Statement) {flow : Flow} {parent : Text}, flow.ShowsTexts →
    (visit flow parent s).1.ShowsTexts
  | ⟨line, head, form, body, orelse, handlers⟩, flow, parent, h => by
    match form with
    | .func name params => exact showsTexts_visitAll body h.addSilent
    | .classDef name => exact showsTexts_visitAll body h
    | .block => exact showsTexts_visitAll body h
    | .attempt =>
      exact showsTexts_visitAll orelse
        (showsTexts_visitHandlers handlers (showsTexts_visitAll body h))
    | .forLoop target iterable =>
      exact showsTexts_visitAll orelse (showsTexts_visitAll body h.addSilent).closeLoop
    | .whileLoop condition =>
      exact showsTexts_visitAll orelse (showsTexts_visitAll body h.addSilent).closeLoop
    | .branch condition isElif hasElse =>
      match orelse with
      | [] => exact showsTexts_visitAll body h.addSilent
      | first :: rest =>
        exact showsTexts_visitAll (first :: rest) (showsTexts_visitAll body h.addSilent).addSilent
    | .ret value => exact showsTexts_leaf h (.leaf line head (.ret value))
    | .assign targets value => exact showsTexts_leaf h (.leaf line head (.assign targets value))
    | .update target operator value =>
      exact showsTexts_leaf h (.leaf line head (.update target operator value))
    | .expr => exact showsTexts_leaf h (.leaf line head .expr)
    | .other => exact showsTexts_leaf h (.leaf line head .other)

/-- A visit to statements keeps a flow showing texts. -/
theorem showsTexts_visitAll : ∀ (statements : List Statement) {flow : Flow} {parent : Text},
    flow.ShowsTexts → (visitAll flow parent statements).1.ShowsTexts
  | [], _, _, h => h
  | s :: rest, _, _, h => showsTexts_visitAll rest (showsTexts_visit s h)

/-- A visit to handlers keeps a flow showing texts. -/
theorem showsTexts_visitHandlers : ∀ (handlers : List Statement) {flow : Flow} {parent : Text},
    flow.ShowsTexts → (visitHandlers flow parent handlers).1.ShowsTexts
  | [], _, _, h => h
  | ⟨_, _, _, body, _, _⟩ :: rest, _, _, h =>
    showsTexts_visitHandlers rest (showsTexts_visitAll body h)
end

end Python

/-! ## Java -/

namespace Java

open FlowTrace.Flow (ShowsTexts)

/-- The declaration of local variables keeps a flow showing texts. -/
theorem showsTexts_addLocals (line : Nat) : ∀ (declared : List Variable) {flow : Flow}
    {parent : Text}, flow.ShowsTexts → (addLocals flow parent line declared).1.ShowsTexts
  | [], _, _, h => h
  | v :: rest, flow, parent, h => by
    unfold addLocals
    exact showsTexts_addLocals line rest (h.addNumbered (Bindings.areTexts_singleton _ _))

/-- The note of a statement with nothing inside it assigns nothing but texts. -/
theorem areTexts_leafNode {line : Nat} {form : Form} {stem : Text} {face : Face} {note : Note}
    (node : leafNode? line form = some (stem, face, note)) : note.bindings.AreTexts := by
  unfold leafNode? at node
  split at node
  · cases node
    exact List.forall_mem_nil _
  · cases node
    show Bindings.AreTexts (if _ then _ else _)
    split
    · exact Bindings.areTexts_singleton _ _
    · exact List.forall_mem_nil _
  · cases node
    exact List.forall_mem_nil _
  · cases node
    exact List.forall_mem_nil _
  · cases node

/-- A leaf keeps a flow showing texts. -/
theorem showsTexts_leaf {flow : Flow} {parent : Text} (h : flow.ShowsTexts) (line : Nat)
    (form : Form) :
    (match leafNode? line form with
      | some (stem, face, note) => flow.addNumbered parent stem face note
      | none => (flow, parent)).1.ShowsTexts := by
  cases node : leafNode? line form with
  | none => exact h
  | some node' => exact h.addNumbered (areTexts_leafNode node)

mutual
/-- **The walk over a statement shows texts.** -/
theorem showsTexts_visit : ∀ (s : Statement) {flow : Flow} {parent : Text}, flow.ShowsTexts →
    (visit flow parent s).1.ShowsTexts
  | ⟨line, form, body, orelse, handlers⟩, flow, parent, h => by
    match form with
    | .classDecl name => exact showsTexts_visitAll body h
    | .block => exact showsTexts_visitAll body h
    | .method name params => exact showsTexts_visitAll body h.addSilent
    | .locals declared => exact showsTexts_addLocals line declared h
    | .branch condition =>
      match orelse with
      | [] => exact showsTexts_visitAll body h.addSilent
      | first :: rest =>
        exact showsTexts_visitAll (first :: rest) (showsTexts_visitAll body h.addSilent).addSilent
    | .attempt =>
      exact showsTexts_visitAll orelse
        (showsTexts_visitHandlers handlers (showsTexts_visitAll body h.addSilent))
    | .choice subject => exact showsTexts_visitAll body h.addSilent
    | .forLoop header declared => exact (showsTexts_visitAll body h.addSilent).closeLoop
    | .forEach header => exact (showsTexts_visitAll body h.addSilent).closeLoop
    | .whileLoop condition => exact (showsTexts_visitAll body h.addSilent).closeLoop
    | .doLoop condition => exact (showsTexts_visitAll body h.addSilent).closeLoop
    | .print text => exact showsTexts_leaf h line (.print text)
    | .assign target operator value => exact showsTexts_leaf h line (.assign target operator value)
    | .expr text => exact showsTexts_leaf h line (.expr text)
    | .ret value => exact showsTexts_leaf h line (.ret value)
    | .handler caught => exact showsTexts_leaf h line (.handler caught)
    | .other => exact showsTexts_leaf h line .other

/-- A visit to statements keeps a flow showing texts. -/
theorem showsTexts_visitAll : ∀ (statements : List Statement) {flow : Flow} {parent : Text},
    flow.ShowsTexts → (visitAll flow parent statements).1.ShowsTexts
  | [], _, _, h => h
  | s :: rest, _, _, h => showsTexts_visitAll rest (showsTexts_visit s h)

/-- A visit to handlers keeps a flow showing texts. -/
theorem showsTexts_visitHandlers : ∀ (handlers : List Statement) {flow : Flow}
    {attempt last : Text}, flow.ShowsTexts → (visitHandlers flow attempt last handlers).1.ShowsTexts
  | [], _, _, _, h => h
  | ⟨_, _, [], _, _⟩ :: rest, _, _, _, h => showsTexts_visitHandlers rest h.addSilent
  | ⟨_, _, s :: body, _, _⟩ :: rest, _, _, _, h =>
    showsTexts_visitHandlers rest (showsTexts_visitAll (s :: body) h.addSilent)
end

end Java

/-! ## C++ -/

namespace Cpp

open FlowTrace.Flow (ShowsTexts)

/-- The note of every item assigns nothing but texts. -/
theorem Program.areTexts_items (p : Program) : ∀ item ∈ p.items, item.note.bindings.AreTexts := by
  -- Each kind of items is made of its own list; only declarations, of arrays too, assign anything.
  have each {α : Type} {item : Nat → α → Item} (texts : ∀ i a, (item i a).note.bindings.AreTexts)
      (all : List α) : ∀ made ∈ all.mapIdx item, made.note.bindings.AreTexts := by
    intro made member
    obtain ⟨i, inside, rfl⟩ := List.mem_mapIdx.1 member
    exact texts i _
  have none : Bindings.AreTexts [] := List.forall_mem_nil _
  intro item member
  rw [Program.items, List.mem_mergeSort] at member
  simp only [List.mem_append] at member
  rcases member with
    ((((((member | member) | member) | member) | member) | member) | member) | member
  · exact each (fun _ _ => none) _ item member
  · exact each (fun i d => Bindings.areTexts_singleton _ _) _ item member
  · exact each (fun _ _ => Bindings.areTexts_singleton _ _) _ item member
  · exact each (fun _ _ => none) _ item member
  · exact each (fun _ _ => none) _ item member
  · exact each (fun _ _ => none) _ item member
  · exact each (fun _ _ => none) _ item member
  · exact each (fun _ _ => none) _ item member

/-- Closing loops keeps a flow showing texts. -/
theorem showsTexts_closeLoops (offset : Nat) : ∀ (open_ : List (Text × Nat)) {flow : Flow}
    {last : Text}, flow.ShowsTexts → (closeLoops flow last offset open_).flow.ShowsTexts
  | [], _, _, h => h
  | (id, stop) :: outer, flow, last, h => by
    unfold closeLoops
    split
    · exact showsTexts_closeLoops offset outer h.closeLoop
    · exact h

/-- Items whose notes bind texts keep a chain showing texts. -/
theorem showsTexts_addAll (items : List Item) {chain : Chain} (h : chain.flow.ShowsTexts)
    (texts : ∀ item ∈ items, item.note.bindings.AreTexts) :
    (items.foldl Chain.add chain).flow.ShowsTexts := by
  induction items generalizing chain with
  | nil => exact h
  | cons item rest ih =>
    obtain ⟨first, others⟩ := List.forall_mem_cons.1 texts
    exact ih ((showsTexts_closeLoops item.offset chain.open_ h).add first) others

end Cpp

/-! ## Reports -/

/-- **The steps of every program show texts.** -/
theorem Parsed.showsTexts_flow (p : Parsed) : ∀ step ∈ p.flow.2, step.bindings.AreTexts := by
  cases p with
  | python m => exact (Python.showsTexts_visitAll m.statements Flow.showsTexts_start).finish _
  | java p => exact (Java.showsTexts_visitAll p.statements Flow.showsTexts_start).finish _
  | cpp p =>
    have all := @Cpp.showsTexts_addAll p.items ⟨Flow.start, Flowchart.startId, []⟩
      Flow.showsTexts_start p.areTexts_items
    exact (Cpp.showsTexts_closeLoops _ _ all).finish _

/-- Whether all line numbers of a report are words. -/
def Report.wordLines (report : Report) : Bool :=
  report.steps.all (fun steps => steps.all fun step => step.line.all Json.Writes.fitsWord) &&
    report.memory.all MemoryUse.isReadable

namespace Engine

variable {language : Language} {code : Text} {report : Report}

/-- The steps of a report of the engine show texts. -/
theorem showsTexts_report (given : Engine.report language code = .ok report) :
    ∀ steps ∈ report.steps, ∀ step ∈ steps, step.bindings.AreTexts := by
  -- A problem has one step, which assigns nothing.
  have problem_shows (shown described : Text) :
      ∀ steps ∈ (problem shown described).steps, ∀ step ∈ steps, step.bindings.AreTexts := by
    intro steps same
    cases same
    exact List.forall_mem_singleton.2 (List.forall_mem_nil _)
  unfold Engine.report at given
  split at given
  · cases given
    exact problem_shows _ _
  · split at given
    · rename_i f found
      cases given
      cases read : read? language code with
      | none =>
        obtain ⟨e, none⟩ := findings_of_unread read
        cases none.symm.trans found
      | some p =>
        have shown := findings_of_read read
        split at shown
        · cases shown.symm.trans found
        · obtain ⟨f', found', same⟩ := shown
          cases found'.symm.trans found
          intro steps is_steps
          cases is_steps
          have shows := p.showsTexts_flow
          rwa [← same] at shows
    · cases given
      exact problem_shows _ _
    · cases given

/-- **A report of the engine is lasting** if its line numbers are words. -/
theorem isLasting_of_wordLines {context : Context} {name : Text}
    (given : analyze context name code = .ok report) (words : report.wordLines = true) :
    report.isLasting = true := by
  have shows : ∀ steps ∈ report.steps, ∀ step ∈ steps, step.bindings.AreTexts := by
    unfold analyze at given
    split at given
    · cases given
    · split at given
      · cases given
      · exact showsTexts_report given
  simp only [Report.wordLines, Report.isLasting, Step.isLasting, Bool.and_eq_true,
    Option.all_eq_true, List.all_eq_true] at words ⊢
  refine ⟨fun steps is_steps step member => ⟨?_, words.1 steps is_steps step member⟩, words.2⟩
  refine Json.lastingMembers_iff.2 fun entry inside => ?_
  obtain ⟨text, same⟩ := shows steps is_steps step member entry inside
  rw [same]
  rfl

end Engine

end FlowTrace
