import FlowTrace.Proofs.Attempt
import FlowTrace.Proofs.Pattern.Extent
import FlowTrace.Python.Module

/-! # Names of Python functions

What holds of the form of every statement that is read from a line holds of every form in the tree
of a module, if it survives the mark of an alternative: building the tree only moves statements
around (`Module.forms`). So the names of functions, which stand in a group that takes in nothing
but ASCII, are ASCII throughout the module (`Module.name_ascii`). -/

namespace FlowTrace.Python

/-! ## Trees of statements -/

/-- All forms in the tree of a statement **satisfy** `P`. -/
inductive Statement.Forms (P : Form → Prop) : Statement → Prop where
  | mk {line : Nat} {head : Text} {form : Form} {body orelse handlers : List Statement}
      (here : P form) (inBody : ∀ s ∈ body, Forms P s) (inOrelse : ∀ s ∈ orelse, Forms P s)
      (inHandlers : ∀ s ∈ handlers, Forms P s) :
      Forms P ⟨line, head, form, body, orelse, handlers⟩

namespace Statement

variable {P : Form → Prop} {s : Statement} {suite : List Statement}

/-- The form of a leaf is its only one. -/
theorem forms_leaf {form : Form} (here : P form) (line : Nat) (head : Text) :
    (leaf line head form).Forms P :=
  .mk here (fun _ => nofun) (fun _ => nofun) (fun _ => nofun)

mutual
/-- A walk over a tree meets only forms of the tree. -/
theorem form_of_mem_walk : ∀ {s : Statement} {depth : Nat} {entry : Statement × Nat},
    s.Forms P → entry ∈ s.walk depth → P entry.1.form
  | ⟨line, head, form, body, orelse, handlers⟩, depth, entry, .mk here all all' all'', member => by
    rw [walk, List.mem_cons, List.mem_append, List.mem_append] at member
    rcases member with rfl | inside | inside | inside
    · exact here
    · exact form_of_mem_walkAll all inside
    · exact form_of_mem_walkAll all' inside
    · exact form_of_mem_walkAll all'' inside

/-- A walk over trees meets only forms of the trees. -/
theorem form_of_mem_walkAll : ∀ {suite : List Statement} {depth : Nat} {entry : Statement × Nat},
    (∀ s ∈ suite, s.Forms P) → entry ∈ walkAll depth suite → P entry.1.form
  | [], _, _, _, member => nomatch member
  | s :: rest, depth, entry, all, member => by
    rw [List.forall_mem_cons] at all
    rw [walkAll, List.mem_append] at member
    rcases member with first | later
    · exact form_of_mem_walk all.1 first
    · exact form_of_mem_walkAll all.2 later
end

/-- A longer suite keeps the forms. -/
theorem Forms.addBody (forms : s.Forms P) (all : ∀ x ∈ suite, x.Forms P) :
    (s.addBody suite).Forms P := by
  obtain ⟨here, body, orelse, handlers⟩ := forms
  exact .mk here (List.forall_mem_append.2 ⟨body, all⟩) orelse handlers

/-- A longer alternative keeps the forms. -/
theorem Forms.addOrelse (forms : s.Forms P) (all : ∀ x ∈ suite, x.Forms P) :
    (s.addOrelse suite).Forms P := by
  obtain ⟨here, body, orelse, handlers⟩ := forms
  exact .mk here body (List.forall_mem_append.2 ⟨orelse, all⟩) handlers

/-- More handlers keep the forms. -/
theorem Forms.addHandlers (forms : s.Forms P) (all : ∀ x ∈ suite, x.Forms P) :
    Forms P { s with handlers := s.handlers ++ suite } := by
  obtain ⟨here, body, orelse, handlers⟩ := forms
  exact .mk here body orelse (List.forall_mem_append.2 ⟨handlers, all⟩)

/-- The last link of a chain of conditionals may be changed. -/
theorem Forms.mapTail {f : Statement → Statement}
    (keeps : ∀ {s : Statement}, s.Forms P → (f s).Forms P) (forms : s.Forms P) :
    (s.mapTail f).Forms P := by
  induction s using Statement.mapTail.induct with
  | case1 line head condition isElif body next handlers continues ih =>
    obtain ⟨here, body, orelse, handlers⟩ := forms
    rw [Statement.mapTail, if_pos continues]
    exact .mk here body (List.forall_mem_singleton.2 (ih (orelse next (List.mem_singleton_self _))))
      handlers
  | case2 line head condition isElif body next handlers ends =>
    rw [Statement.mapTail, if_neg ends]
    exact keeps forms
  | case3 s other =>
    rw [Statement.mapTail]
    · exact keeps forms
    · exact other

/-- A suite that is put into a slot keeps the forms. -/
theorem Forms.fill (forms : s.Forms P) (slot : Slot) (all : ∀ x ∈ suite, x.Forms P) :
    (s.fill slot suite).Forms P := by
  cases slot with
  | body => exact forms.addBody all
  | orelse => exact forms.addOrelse all
  | handler =>
    obtain ⟨here, body, orelse, handlers⟩ := forms
    refine .mk here body orelse (List.forall_mem_append.2 ⟨fun x member => ?_, fun x member => ?_⟩)
    · exact handlers x (List.dropLast_subset _ member)
    · obtain ⟨last, is_last, rfl⟩ := List.mem_map.1 member
      exact (handlers last (List.mem_of_getLast? (Option.mem_toList.1 is_last))).addBody all
  | tailBody => exact forms.mapTail fun forms => forms.addBody all
  | tailOrelse => exact forms.mapTail fun forms => forms.addOrelse all

end Statement

/-! ## Building the tree -/

variable {P : Form → Prop}

/-- All forms of an open suite satisfy `P`. -/
def Frame.Forms (P : Form → Prop) (frame : Frame) : Prop := ∀ s ∈ frame.done, s.Forms P

/-- A suite that is put into a slot of the last statement keeps the forms of a frame. -/
theorem Frame.Forms.fill {frame : Frame} (forms : frame.Forms P) (slot : Slot)
    {suite : List Statement} (all : ∀ s ∈ suite, s.Forms P) : (frame.fill slot suite).Forms P := by
  rw [Frame.fill]
  split
  · rename_i last earlier is_done
    rw [Frame.Forms, is_done, List.forall_mem_cons] at forms
    exact List.forall_mem_cons.2 ⟨forms.1.fill slot all, forms.2⟩
  · exact forms

/-- More statements keep the forms of a frame. -/
theorem Frame.Forms.append {frame : Frame} (forms : frame.Forms P) {suite : List Statement}
    (all : ∀ s ∈ suite, s.Forms P) : (frame.append suite).Forms P :=
  List.forall_mem_append.2 ⟨fun s member => all s (List.mem_reverse.1 member), forms⟩

/-- The statements of a frame have its forms. -/
theorem Frame.Forms.reverse {frame : Frame} (forms : frame.Forms P) :
    ∀ s ∈ frame.done.reverse, s.Forms P := fun s member => forms s (List.mem_reverse.1 member)

/-- All forms of a draft satisfy `P`. -/
structure Draft.Forms (P : Form → Prop) (draft : Draft) : Prop where
  /-- Those of the innermost suite. -/
  inner : draft.inner.Forms P
  /-- Those of the suites around it. -/
  outer : ∀ entry ∈ draft.outer, entry.1.Forms P

/-- What is asked of `P`: it holds of every statement read from a line, and does not depend on the
mark of an alternative. -/
structure Kept (P : Form → Prop) : Prop where
  /-- The statements of lines. -/
  read : ∀ {line : Nat} {t : Text} {reading : Reading}, readStatement line t = .ok reading →
    reading.statement.Forms P
  /-- The mark of an alternative. -/
  marked : ∀ {condition : Text} {isElif hasElse : Bool}, P (.branch condition isElif hasElse) →
    P (.branch condition isElif true)

/-- The mark of an alternative keeps the forms. -/
theorem Kept.markElse (kept : Kept P) {s : Statement} (forms : s.Forms P) :
    s.markElse.Forms P := by
  obtain ⟨here, body, orelse, handlers⟩ := forms
  rw [Statement.markElse]
  split
  · rename_i is_branch
    exact .mk (kept.marked (by rw [← is_branch]; exact here)) body orelse handlers
  · exact .mk here body orelse handlers

namespace Draft

variable {draft draft' : Draft}

/-- Closing suites down to a column keeps the forms. -/
theorem forms_closeTo (column : Nat) {inner : Frame} {outer : List (Frame × Slot)}
    (forms : inner.Forms P) (all : ∀ entry ∈ outer, entry.1.Forms P) :
    (closeTo column inner outer).1.Forms P ∧
      ∀ entry ∈ (closeTo column inner outer).2, entry.1.Forms P := by
  induction outer generalizing inner with
  | nil => exact ⟨forms, all⟩
  | cons entry outer ih =>
    obtain ⟨around, rest⟩ := List.forall_mem_cons.1 all
    rw [closeTo]
    split
    · exact ih (around.fill _ forms.reverse) rest
    · exact ⟨forms, all⟩

/-- Closing all suites keeps the forms. -/
theorem forms_close {inner : Frame} {outer : List (Frame × Slot)} (forms : inner.Forms P)
    (all : ∀ entry ∈ outer, entry.1.Forms P) : ∀ s ∈ close inner outer, s.Forms P := by
  induction outer generalizing inner with
  | nil => exact forms.reverse
  | cons entry outer ih =>
    obtain ⟨around, rest⟩ := List.forall_mem_cons.1 all
    exact ih (around.fill _ forms.reverse) rest

/-- Finding the suite of a line keeps the forms. -/
theorem Forms.indentTo (forms : draft.Forms P) {ln : LogicalLine}
    (indented : draft.indentTo ln = .ok draft') : draft'.Forms P := by
  rw [Draft.indentTo] at indented
  split at indented
  · split at indented
    · cases indented
    · cases indented
      exact ⟨fun _ => nofun, List.forall_mem_cons.2 ⟨forms.inner, forms.outer⟩⟩
  · split at indented
    · cases indented
    · have closed := forms_closeTo ln.indent forms.inner forms.outer
      simp only at indented
      split at indented
      · cases indented
        exact ⟨closed.1, closed.2⟩
      · cases indented

/-- Attaching a statement keeps the forms. -/
theorem forms_attach (kept : Kept P) {frame frame' : Frame} {s : Statement} {slot : Slot}
    (forms : frame.Forms P) (new : s.Forms P) (attached : attach frame s = .ok (frame', slot)) :
    frame'.Forms P := by
  have single : ∀ x ∈ [s], x.Forms P := List.forall_mem_singleton.2 new
  cases is_done : frame.done with
  | nil =>
    simp only [attach, is_done] at attached
    split_ifs at attached
    cases attached
    exact forms.append single
  | cons last earlier =>
    have both := forms
    rw [Frame.Forms, is_done, List.forall_mem_cons] at both
    obtain ⟨of_last, of_earlier⟩ := both
    simp only [attach, is_done] at attached
    split_ifs at attached <;> cases attached
    · exact List.forall_mem_cons.2 ⟨of_last.mapTail fun forms => forms.addOrelse single, of_earlier⟩
    · exact List.forall_mem_cons.2 ⟨of_last.mapTail kept.markElse, of_earlier⟩
    · exact forms
    · exact List.forall_mem_cons.2 ⟨of_last.addHandlers single, of_earlier⟩
    · exact forms.append single

/-- The statements behind a colon have forms that are kept. -/
theorem forms_inlineSuite (kept : Kept P) {line : Nat} {t : Text} {suite : List Statement}
    (read : inlineSuite line t = .ok suite) : ∀ s ∈ suite, s.Forms P := by
  refine forall_mem_of_mapM (fun {part s} read => ?_) read
  obtain ⟨reading, is_reading, read⟩ := bind_eq_ok.1 read
  cases reading with
  | simple statement =>
    cases read
    exact kept.read is_reading
  | header statement inline_ => cases read

/-- **A line keeps the forms** of a draft. -/
theorem Forms.addLine (kept : Kept P) (forms : draft.Forms P) {ln : LogicalLine}
    (added : draft.addLine ln = .ok draft') : draft'.Forms P := by
  rw [Draft.addLine] at added
  obtain ⟨inside, indented, added⟩ := bind_eq_ok.1 added
  have forms := forms.indentTo indented
  split at added
  · obtain ⟨reading, is_reading, added⟩ := bind_eq_ok.1 added
    have new := kept.read is_reading
    cases reading with
    | simple statement =>
      cases added
      exact ⟨forms.inner.append (List.forall_mem_singleton.2 new), forms.outer⟩
    | header statement inline_ =>
      obtain ⟨⟨frame, slot⟩, attached, added⟩ := bind_eq_ok.1 added
      have placed := forms_attach kept forms.inner new attached
      simp only at added
      split at added
      · cases added
        exact ⟨placed, forms.outer⟩
      · obtain ⟨suite, is_suite, added⟩ := bind_eq_ok.1 added
        cases added
        exact ⟨placed.fill slot (forms_inlineSuite kept is_suite), forms.outer⟩
  · obtain ⟨readings, all_read, added⟩ := bind_eq_ok.1 added
    cases added
    refine ⟨forms.inner.append (List.forall_mem_map.2 ?_), forms.outer⟩
    exact forall_mem_of_mapM kept.read all_read

/-- The statements of a finished draft have its forms. -/
theorem Forms.finish (forms : draft.Forms P) {statements : List Statement}
    (finished : draft.finish = .ok statements) : ∀ s ∈ statements, s.Forms P := by
  rw [Draft.finish] at finished
  split at finished
  · cases finished
  · cases finished
    exact forms_close forms.inner forms.outer

end Draft

/-- **Every form in the tree of a module** satisfies what holds of the forms of all lines. -/
theorem Module.forms (kept : Kept P) {code : Text} {m : Module}
    (parsed : Module.parse code = .ok m) : ∀ entry ∈ m.walk, P entry.1.form := by
  rw [Module.parse] at parsed
  obtain ⟨lines, -, parsed⟩ := bind_eq_ok.1 parsed
  obtain ⟨draft, drafted, parsed⟩ := bind_eq_ok.1 parsed
  obtain ⟨statements, finished, parsed⟩ := bind_eq_ok.1 parsed
  cases parsed
  have empty : Draft.start.Forms P := ⟨List.forall_mem_nil _, List.forall_mem_nil _⟩
  have forms := foldlM_keeps (fun forms added => Draft.Forms.addLine kept forms added) empty drafted
  exact fun entry member => Statement.form_of_mem_walkAll (forms.finish finished) member

/-! ## Names -/

/-- The name of a function, if it is the form of one, is ASCII. -/
def Form.AsciiName : Form → Prop
  | .func name _ => ∀ c ∈ name, c < 0x80
  | _ => True

/-- The name of a function in a header is ASCII. -/
theorem asciiName_of_headerForm {head word : Text} {form : Form}
    (is_form : headerForm? head word = some form) : form.AsciiName := by
  simp only [headerForm?] at is_form
  split at is_form
  · obtain ⟨m, found, rfl⟩ := Option.map_eq_some_iff.1 is_form
    exact (Pattern.isMatch_of_find? found).group_ascii (by decide)
  · -- No other header is that of a function.
    split_ifs at is_form <;>
      first
        | (cases is_form; trivial)
        | (obtain ⟨m, -, rfl⟩ := Option.map_eq_some_iff.1 is_form; trivial)

/-- Simple statements name no functions. -/
theorem asciiName_simpleForm (t : Text) : (simpleForm t).AsciiName := by
  simp only [simpleForm]
  split_ifs with is_return is_plain is_assign
  · trivial
  · trivial
  · cases updatePattern.find? t <;> trivial
  · cases updatePattern.find? t with
    | some m => trivial
    | none =>
      simp only
      split
      · split_ifs <;> trivial
      · trivial

/-- Names are ASCII in all that is read from a line. -/
theorem kept_asciiName : Kept Form.AsciiName where
  read {line t reading} read := by
    rw [readStatement] at read
    split at read
    · split at read
      · cases read
      · simp only at read
        split at read
        · cases read
        · rename_i is_form
          cases read
          exact Statement.forms_leaf (asciiName_of_headerForm is_form) _ _
    · cases read
      exact Statement.forms_leaf (asciiName_simpleForm t) _ _
  marked _ := trivial

/-- **The names of functions are ASCII.** -/
theorem Module.name_ascii {code : Text} {m : Module} (parsed : Module.parse code = .ok m)
    {entry : Statement × Nat} (member : entry ∈ m.walk) {name : Text} {params : List Text}
    (is_func : entry.1.form = .func name params) : ∀ c ∈ name, c < 0x80 := by
  have ascii := Module.forms kept_asciiName parsed entry member
  rwa [is_func] at ascii

end FlowTrace.Python
