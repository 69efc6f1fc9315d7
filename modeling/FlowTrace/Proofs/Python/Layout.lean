import FlowTrace.Proofs.Attempt
import FlowTrace.Python.Module

/-! # The layout of a Python module

A **layout** is a line together with the layouts of the lines of its suite: what the indentation
alone says about a module. The reader of modules works with a stack of open suites, and here it is
shown to be a reader of layouts:

* **`Layout.Fits column layout`**: the line stands at the column, and it has a suite, further to
  the right, exactly when it opens one.
* **`Layout.openers_eq`**: the layouts that fit a column put each line into the suite of its nearest
  opener.
* **`Frame.placeAll`**: reads layouts one after the other, by recursion and without a stack; on the
  lines of fitting layouts the stack does the same (`Draft.run_linesAll`).
* **`Draft.exists_layouts`**: lines that are read without error have layouts. -/

namespace FlowTrace.Python

/-- Whether a line **opens** a suite on the lines below it: it is a header, and nothing but blanks
follows its colon. -/
def LogicalLine.opens (ln : LogicalLine) : Bool :=
  isHeader ln.text &&
    (headerColon? ln.text).any fun colon => Text.isBlank (ln.text.drop (colon + 1))

/-- A **layout**: a line, and the layouts of the lines of its suite. -/
inductive Layout where
  | mk (line : LogicalLine) (suite : List Layout)

namespace Layout

/-- The line of a layout. -/
def line : Layout → LogicalLine
  | ⟨line, _⟩ => line

/-- The column of a row of layouts: that of its first line. -/
def columnOf : List Layout → Nat
  | [] => 0
  | first :: _ => first.line.indent

mutual
/-- The lines of a layout, in order. -/
def lines : Layout → List LogicalLine
  | ⟨line, suite⟩ => line :: linesAll suite

/-- The lines of a row of layouts, in order. -/
def linesAll : List Layout → List LogicalLine
  | [] => []
  | first :: rest => first.lines ++ linesAll rest
end

/-- The lines of a layout begin with its own. -/
theorem lines_eq (layout : Layout) : ∃ rest, layout.lines = layout.line :: rest := by
  obtain ⟨line, suite⟩ := layout
  exact ⟨linesAll suite, by rw [lines, Layout.line]⟩

/-- The lines of layouts are those of the first ones and of the later ones. -/
theorem linesAll_append (a b : List Layout) : linesAll (a ++ b) = linesAll a ++ linesAll b := by
  induction a with
  | nil => simp [linesAll]
  | cons first rest ih => simp [linesAll, ih]

/-- A layout **fits** a column if its line stands there, and if it has a suite exactly when the line
opens one; the layouts of the suite fit one column further to the right. -/
inductive Fits : Nat → Layout → Prop where
  | row {line : LogicalLine} (closed : line.opens = false) : Fits line.indent ⟨line, []⟩
  | suite {line : LogicalLine} {column : Nat} {first : Layout} {rest : List Layout}
      (opens : line.opens = true) (deeper : line.indent < column)
      (inside : ∀ layout ∈ first :: rest, Fits column layout) :
      Fits line.indent ⟨line, first :: rest⟩

variable {column : Nat} {layout : Layout} {layouts : List Layout}

/-- A layout that fits is indented to the column. -/
theorem Fits.indent_eq (fits : layout.Fits column) : layout.line.indent = column := by
  cases fits <;> rfl

mutual
/-- No line of a layout stands further to the left than its first line. -/
theorem Fits.le_indent : ∀ {layout : Layout} {column : Nat}, layout.Fits column →
    ∀ ln ∈ layout.lines, column ≤ ln.indent
  | ⟨line, suite⟩, column, fits, ln, member => by
    rw [lines, List.mem_cons] at member
    cases fits with
    | row closed =>
      rcases member with rfl | inside
      · exact Nat.le_refl _
      · simp [linesAll] at inside
    | suite opens deeper inside =>
      rcases member with rfl | below
      · exact Nat.le_refl _
      · have := le_indent_of_mem_linesAll inside ln below
        omega

/-- No line of layouts that fit is indented less than the column. -/
theorem le_indent_of_mem_linesAll : ∀ {layouts : List Layout} {column : Nat},
    (∀ layout ∈ layouts, layout.Fits column) → ∀ ln ∈ linesAll layouts, column ≤ ln.indent
  | [], _, _, ln, member => by simp [linesAll] at member
  | first :: rest, column, fits, ln, member => by
    rw [List.forall_mem_cons] at fits
    rw [linesAll, List.mem_append] at member
    rcases member with here | later
    · exact fits.1.le_indent ln here
    · exact le_indent_of_mem_linesAll fits.2 ln later
end

/-! ## Openers -/

mutual
/-- For each line of a layout the number of the line that opens the suite it is in; `number` is the
number of the first line. -/
def openers (opener : Option Nat) (number : Nat) : Layout → List (Option Nat)
  | ⟨_, suite⟩ => opener :: openersAll (some number) (number + 1) suite

/-- For each line of a row of layouts the number of the line that opens the suite it is in. -/
def openersAll (opener : Option Nat) (number : Nat) : List Layout → List (Option Nat)
  | [] => []
  | first :: rest =>
    first.openers opener number ++ openersAll opener (number + first.lines.length) rest
end

end Layout

/-- The number of the **nearest opener**: the nearest of the earlier lines that opens a suite and
stands further to the left than `column` and than all lines behind it. The earlier lines are given
last first. -/
def nearestOpener? (column : Nat) : List LogicalLine → Option Nat
  | [] => none
  | ln :: earlier =>
    if ln.opens && ln.indent < column then some earlier.length
    else nearestOpener? (min column ln.indent) earlier

/-- The nearest openers of lines behind earlier ones. -/
def nearestOpeners (earlier : List LogicalLine) : List LogicalLine → List (Option Nat)
  | [] => []
  | ln :: lines => nearestOpener? ln.indent earlier :: nearestOpeners (ln :: earlier) lines

/-- What the nearest opener is: it opens a suite and stands further to the left than the column and
than every line behind it, and no line behind it is such a line as well. -/
theorem nearestOpener?_eq_some {column number : Nat} {earlier : List LogicalLine} :
    nearestOpener? column earlier = some number ↔
      ∃ behind ln before, earlier = behind ++ ln :: before ∧ before.length = number ∧
        (ln.opens = true ∧ ln.indent < column ∧ ∀ other ∈ behind, ln.indent < other.indent) ∧
        ∀ nearer other farther, behind = nearer ++ other :: farther →
          ¬ (other.opens = true ∧ other.indent < column ∧ ∀ x ∈ nearer, other.indent < x.indent) := by
  induction earlier generalizing column with
  | nil => simp [nearestOpener?]
  | cons first earlier ih =>
    rw [nearestOpener?]
    by_cases opens : first.opens = true ∧ first.indent < column
    · rw [if_pos (by simpa using opens)]
      constructor
      · intro same
        cases same
        exact ⟨[], first, earlier, rfl, rfl, ⟨opens.1, opens.2, by simp⟩, by simp⟩
      · rintro ⟨behind, ln, before, split, rfl, -, none_nearer⟩
        cases behind with
        | nil => cases split; rfl
        | cons other behind =>
          cases split
          exact absurd ⟨opens.1, opens.2, by simp⟩ (none_nearer [] first behind rfl)
    · rw [if_neg (by simpa using opens), ih]
      -- the first line takes part only through its indentation, which the column now includes
      constructor
      · rintro ⟨behind, ln, before, rfl, length, ⟨is_opener, left, right⟩, none_nearer⟩
        rw [Nat.lt_min] at left
        refine ⟨first :: behind, ln, before, rfl, length,
          ⟨is_opener, left.1, List.forall_mem_cons.2 ⟨left.2, right⟩⟩, ?_⟩
        intro nearer other farther split
        cases nearer with
        | nil =>
          cases split
          intro nearest
          exact opens ⟨nearest.1, nearest.2.1⟩
        | cons x nearer =>
          cases split
          intro nearest
          have apart := List.forall_mem_cons.1 nearest.2.2
          exact none_nearer nearer other farther rfl
            ⟨nearest.1, Nat.lt_min.2 ⟨nearest.2.1, apart.1⟩, apart.2⟩
      · rintro ⟨behind, ln, before, split, length, ⟨is_opener, left, right⟩, none_nearer⟩
        cases behind with
        | nil =>
          cases split
          exact absurd ⟨is_opener, left⟩ opens
        | cons x behind =>
          cases split
          have apart := List.forall_mem_cons.1 right
          refine ⟨behind, ln, before, rfl, length, ⟨is_opener, Nat.lt_min.2 ⟨left, apart.1⟩, apart.2⟩,
            ?_⟩
          intro nearer other farther split nearest
          have both := Nat.lt_min.1 nearest.2.1
          exact none_nearer (first :: nearer) other farther (by rw [split]; rfl)
            ⟨nearest.1, both.1, List.forall_mem_cons.2 ⟨both.2, nearest.2.2⟩⟩

/-- Lines that stand no further to the left than the column are passed over. -/
theorem nearestOpener?_append {column : Nat} {passed : List LogicalLine}
    (right : ∀ ln ∈ passed, column ≤ ln.indent) (earlier : List LogicalLine) :
    nearestOpener? column (passed ++ earlier) = nearestOpener? column earlier := by
  induction passed with
  | nil => rfl
  | cons ln passed ih =>
    rw [List.forall_mem_cons] at right
    have : ¬ (ln.opens = true ∧ ln.indent < column) := by
      have := right.1
      omega
    rw [List.cons_append, nearestOpener?, if_neg (by simpa using this), Nat.min_eq_left right.1,
      ih right.2]

/-- The nearest openers of lines, when others came before. -/
theorem nearestOpeners_append (earlier a b : List LogicalLine) :
    nearestOpeners earlier (a ++ b) =
      nearestOpeners earlier a ++ nearestOpeners (a.reverse ++ earlier) b := by
  induction a generalizing earlier with
  | nil => rfl
  | cons ln a ih => simp [nearestOpeners, ih]

namespace Layout

mutual
/-- The openers that a layout names are the nearest ones. -/
theorem openers_eq : ∀ {layout : Layout} {column : Nat} (earlier : List LogicalLine),
    layout.Fits column →
      layout.openers (nearestOpener? column earlier) earlier.length =
        nearestOpeners earlier layout.lines
  | ⟨line, suite⟩, column, earlier, fits => by
    cases fits with
    | row closed => simp [openers, openersAll, lines, linesAll, nearestOpeners]
    | @suite _ deep first rest opens deeper inside =>
      -- the line itself is the nearest opener of its suite
      have itself : nearestOpener? deep (line :: earlier) = some earlier.length := by
        rw [nearestOpener?, if_pos (by simp [opens, deeper])]
      rw [openers, lines, nearestOpeners, ← openersAll_eq (line :: earlier) inside, itself,
        List.length_cons]

/-- Layouts that fit a column put each line into the suite of its nearest opener. -/
theorem openersAll_eq : ∀ {layouts : List Layout} {column : Nat} (earlier : List LogicalLine),
    (∀ layout ∈ layouts, layout.Fits column) →
      openersAll (nearestOpener? column earlier) earlier.length layouts =
        nearestOpeners earlier (linesAll layouts)
  | [], _, _, _ => by simp [openersAll, linesAll, nearestOpeners]
  | first :: rest, column, earlier, fits => by
    rw [List.forall_mem_cons] at fits
    have passed : nearestOpener? column (first.lines.reverse ++ earlier) =
        nearestOpener? column earlier :=
      nearestOpener?_append (fun ln member => fits.1.le_indent ln (List.mem_reverse.1 member)) _
    have later := openersAll_eq (first.lines.reverse ++ earlier) fits.2
    rw [passed, List.length_append, List.length_reverse, Nat.add_comm] at later
    rw [openersAll, linesAll, nearestOpeners_append, openers_eq earlier fits.1, later]
end

end Layout

/-! ## Reading a line where it stands -/

/-- Reads a line into the suite it is in: the suite with the statements of the line, and the header
whose suite is still to come. -/
def Frame.read (frame : Frame) (ln : LogicalLine) : Except SyntaxError (Frame × Option Awaited) :=
  if isHeader ln.text then do
    match ← readStatement ln.line ln.text with
    | .simple statement => return (frame.append [statement], none)
    | .header statement inline_ =>
      let (frame, slot) ← Draft.attach frame statement
      if inline_.isBlank then
        return (frame, some ⟨ln.line, firstWord statement.head, slot⟩)
      else
        let suite ← Draft.inlineSuite ln.line inline_
        return (frame.fill slot suite, none)
  else do
    let readings ← (Draft.parts ln.text).mapM (readStatement ln.line)
    return (frame.append (readings.map Reading.statement), none)

/-- A header is read with the text behind its colon. -/
theorem readStatement_of_isHeader {line : Nat} {t : Text} {reading : Reading}
    (header : isHeader t = true) (read : readStatement line t = .ok reading) :
    ∃ colon form, headerColon? t = some colon ∧
      reading = .header (.leaf line (Text.trim (t.take colon)) form) (t.drop (colon + 1)) := by
  rw [readStatement, if_pos header] at read
  cases found : headerColon? t with
  | none =>
    rw [found] at read
    cases read
  | some colon =>
    rw [found] at read
    simp only at read
    split at read
    · cases read
    · cases read
      exact ⟨colon, _, rfl, rfl⟩

/-- Filling a slot keeps the indentation of a frame. -/
@[simp] theorem Frame.indent_fill (frame : Frame) (slot : Slot) (suite : List Statement) :
    (frame.fill slot suite).indent = frame.indent := by
  rw [Frame.fill]
  split <;> rfl

namespace Draft

/-- Attaching a statement keeps the indentation of a frame. -/
theorem indent_attach {frame frame' : Frame} {s : Statement} {slot : Slot}
    (attached : attach frame s = .ok (frame', slot)) : frame'.indent = frame.indent := by
  rw [attach] at attached
  simp only at attached
  split at attached <;> split_ifs at attached <;> cases attached <;> rfl

end Draft

variable {frame frame' : Frame} {ln : LogicalLine} {awaited : Option Awaited}

/-- Reading a line leaves the indentation of the suite, and a suite is awaited exactly behind the
lines that open one. -/
theorem Frame.read_eq_ok (read : frame.read ln = .ok (frame', awaited)) :
    frame'.indent = frame.indent ∧ awaited.isSome = ln.opens := by
  rw [Frame.read] at read
  by_cases header : isHeader ln.text = true
  · rw [if_pos header] at read
    obtain ⟨reading, is_reading, read⟩ := bind_eq_ok.1 read
    obtain ⟨colon, form, found, rfl⟩ := readStatement_of_isHeader header is_reading
    obtain ⟨attachment, attached, read⟩ := bind_eq_ok.1 read
    have same := Draft.indent_attach attached
    have opens : ln.opens = Text.isBlank (ln.text.drop (colon + 1)) := by
      rw [LogicalLine.opens, header, found, Bool.true_and, Option.any_some]
    simp only at read
    by_cases blank : Text.isBlank (ln.text.drop (colon + 1)) = true
    · rw [if_pos blank] at read
      cases read
      exact ⟨same, by rw [opens, blank]; rfl⟩
    · rw [if_neg blank] at read
      obtain ⟨suite, -, read⟩ := bind_eq_ok.1 read
      cases read
      exact ⟨by rw [Frame.indent_fill, same], by rw [opens, Bool.eq_false_iff.2 blank]; rfl⟩
  · rw [if_neg header] at read
    obtain ⟨readings, -, read⟩ := bind_eq_ok.1 read
    cases read
    exact ⟨rfl, by rw [LogicalLine.opens, Bool.eq_false_iff.2 header]; rfl⟩

/-! ## The stack of open suites -/

namespace Draft

variable {draft : Draft} {outer : List (Frame × Slot)} {lines : List LogicalLine}

/-- No header is awaited inside the suite of a line. -/
theorem awaited_indentTo {draft' : Draft} (indented : draft.indentTo ln = .ok draft') :
    draft'.awaited = none := by
  rw [indentTo] at indented
  split at indented
  · split at indented <;> cases indented
    rfl
  · simp only at indented
    split_ifs at indented
    cases indented
    rfl

/-- A line is added by going to its suite and reading it there. -/
theorem addLine_eq (draft : Draft) (ln : LogicalLine) :
    draft.addLine ln =
      draft.indentTo ln >>= fun inside =>
        inside.inner.read ln >>= fun read => .ok ⟨read.1, inside.outer, read.2⟩ := by
  rw [addLine]
  cases indented : draft.indentTo ln with
  | error e => rfl
  | ok inside =>
    obtain ⟨inner, outer, awaited⟩ := inside
    cases awaited_indentTo indented
    show (if isHeader ln.text then _ else _) = inner.read ln >>= _
    rw [Frame.read]
    split
    · cases readStatement ln.line ln.text with
      | error e => rfl
      | ok reading =>
        cases reading with
        | simple statement => rfl
        | header statement inline_ =>
          cases attached : attach inner statement with
          | error e => simp [bind, Except.bind, attached]
          | ok attachment =>
            by_cases blank : inline_.isBlank = true
            · simp [bind, Except.bind, attached, blank, pure, Except.pure]
            · cases suite : inlineSuite ln.line inline_ <;>
                simp [bind, Except.bind, attached, blank, suite, pure, Except.pure]
    · cases (parts ln.text).mapM (readStatement ln.line) <;> rfl

/-- Adds lines to a draft and completes it. -/
def run (draft : Draft) (lines : List LogicalLine) : Except SyntaxError (List Statement) :=
  lines.foldlM addLine draft >>= finish

/-- Without more lines a draft is finished. -/
theorem run_nil (draft : Draft) : draft.run [] = draft.finish := rfl

/-- A draft goes over one more line. -/
theorem run_cons (draft : Draft) (ln : LogicalLine) (lines : List LogicalLine) :
    draft.run (ln :: lines) =
      draft.indentTo ln >>= fun inside =>
        inside.inner.read ln >>= fun read => run ⟨read.1, inside.outer, read.2⟩ lines := by
  rw [run, List.foldlM_cons, addLine_eq]
  simp only [bind_assoc]
  cases draft.indentTo ln with
  | error e => rfl
  | ok inside => cases inside.inner.read ln <;> rfl

/-- A frame that is not indented further stays open. -/
theorem closeTo_of_le {column : Nat} (le : frame.indent ≤ column) :
    closeTo column frame outer = (frame, outer) := by
  cases outer with
  | nil => rfl
  | cons entry outer => rw [closeTo, if_neg (by omega)]

/-- A line at the column of the innermost suite is read there. -/
theorem run_line (same : ln.indent = frame.indent) (lines : List LogicalLine) :
    run ⟨frame, outer, none⟩ (ln :: lines) =
      frame.read ln >>= fun read => run ⟨read.1, outer, read.2⟩ lines := by
  have indented : indentTo ⟨frame, outer, none⟩ ln = .ok ⟨frame, outer, none⟩ := by
    simp only [indentTo]
    rw [if_neg (by omega), closeTo_of_le (by omega)]
    simp [same]
  rw [run_cons, indented]
  rfl

/-- A line behind a header begins its suite if it stands further to the right. -/
theorem run_enter (deeper : frame.indent < ln.indent) (awaited : Awaited)
    (lines : List LogicalLine) :
    run ⟨frame, outer, some awaited⟩ (ln :: lines) =
      run ⟨⟨ln.indent, []⟩, (frame, awaited.slot) :: outer, none⟩ (ln :: lines) := by
  rw [run_line rfl, run_cons]
  simp only [indentTo]
  rw [if_neg (by omega)]
  rfl

/-- A suite is complete in front of a line that belongs to the suite around it or further out, and
at the end. -/
theorem run_leave {inner : Frame} {slot : Slot} (apart : frame.indent < inner.indent)
    (behind : ∀ ln ∈ lines.head?, ln.indent ≤ frame.indent) :
    run ⟨inner, (frame, slot) :: outer, none⟩ lines =
      run ⟨frame.fill slot inner.done.reverse, outer, none⟩ lines := by
  cases lines with
  | nil => rfl
  | cons ln lines =>
    have left : ln.indent ≤ frame.indent := behind ln (by simp)
    have indented : indentTo ⟨inner, (frame, slot) :: outer, none⟩ ln =
        indentTo ⟨frame.fill slot inner.done.reverse, outer, none⟩ ln := by
      simp only [indentTo, Frame.indent_fill]
      rw [if_neg (show ¬ inner.indent < ln.indent by omega),
        if_neg (show ¬ frame.indent < ln.indent by omega), closeTo,
        if_pos (show ln.indent < inner.indent by omega)]
    rw [run_cons, run_cons, indented]

end Draft

/-! ## Reading layouts -/

mutual
/-- Reads a layout into a suite: its line, and then the suite of the line on its own. -/
def Frame.place (frame : Frame) : Layout → Except SyntaxError Frame
  | ⟨line, suite⟩ =>
    frame.read line >>= fun read =>
      match read.2 with
      | none => .ok read.1
      | some awaited =>
        Frame.placeAll ⟨Layout.columnOf suite, []⟩ suite >>= fun inner =>
          .ok (read.1.fill awaited.slot inner.done.reverse)

/-- Reads layouts into a suite, one after the other. -/
def Frame.placeAll (frame : Frame) : List Layout → Except SyntaxError Frame
  | [] => .ok frame
  | first :: rest => frame.place first >>= fun frame => frame.placeAll rest
end

mutual
/-- Placing a layout keeps the indentation of a frame. -/
theorem Frame.indent_place : ∀ {layout : Layout} {frame frame' : Frame},
    frame.place layout = .ok frame' → frame'.indent = frame.indent
  | ⟨line, suite⟩, frame, frame', placed => by
    rw [Frame.place] at placed
    obtain ⟨⟨between, awaited⟩, read, placed⟩ := bind_eq_ok.1 placed
    have same := (Frame.read_eq_ok read).1
    cases awaited with
    | none =>
      cases placed
      exact same
    | some awaited =>
      obtain ⟨inner, -, placed⟩ := bind_eq_ok.1 placed
      cases placed
      rw [Frame.indent_fill, same]

/-- Placing layouts keeps the indentation of a frame. -/
theorem Frame.indent_placeAll : ∀ {layouts : List Layout} {frame frame' : Frame},
    frame.placeAll layouts = .ok frame' → frame'.indent = frame.indent
  | [], frame, frame', placed => by
    rw [Frame.placeAll] at placed
    cases placed
    rfl
  | first :: rest, frame, frame', placed => by
    rw [Frame.placeAll] at placed
    obtain ⟨between, once, placed⟩ := bind_eq_ok.1 placed
    rw [Frame.indent_placeAll placed, Frame.indent_place once]
end

namespace Draft

variable {outer : List (Frame × Slot)}

mutual
/-- The stack reads the lines of a fitting layout as the layout is read, whatever follows further to
the left. -/
theorem run_lines : ∀ {layout : Layout} {frame : Frame} {outer : List (Frame × Slot)}
    {rest : List LogicalLine}, layout.Fits frame.indent →
      (∀ ln ∈ rest.head?, ln.indent ≤ frame.indent) →
        run ⟨frame, outer, none⟩ (layout.lines ++ rest) =
          frame.place layout >>= fun frame => run ⟨frame, outer, none⟩ rest
  | ⟨line, suite⟩, frame, outer, rest, fits, behind => by
    have here : line.indent = frame.indent := fits.indent_eq
    rw [Layout.lines, List.cons_append, run_line here, Frame.place]
    cases read : frame.read line with
    | error e => rfl
    | ok read_ =>
      obtain ⟨between, awaited⟩ := read_
      obtain ⟨same, is_awaited⟩ := Frame.read_eq_ok read
      generalize frame.indent = column at fits same here behind
      cases suite with
      | nil =>
        -- a line without suite opens none, so none is awaited
        cases fits with
        | row closed =>
          rw [closed, Option.isSome_eq_false_iff, Option.isNone_iff_eq_none] at is_awaited
          cases is_awaited
          simp only [Layout.linesAll, List.nil_append]
          rfl
      | cons first others =>
        cases fits with
        | @suite _ deep _ _ opens deeper inside =>
          rw [opens, Option.isSome_iff_exists] at is_awaited
          obtain ⟨awaited, rfl⟩ := is_awaited
          have at_deep : Layout.columnOf (first :: others) = deep :=
            (inside first List.mem_cons_self).indent_eq
          obtain ⟨later, is_first⟩ := first.lines_eq
          have split : Layout.linesAll (first :: others) ++ rest =
              first.line :: (later ++ Layout.linesAll others ++ rest) := by
            rw [Layout.linesAll, is_first]
            simp
          have enter : run ⟨between, outer, some awaited⟩ (Layout.linesAll (first :: others) ++ rest) =
              run ⟨⟨deep, []⟩, (between, awaited.slot) :: outer, none⟩
                (Layout.linesAll (first :: others) ++ rest) := by
            have first_at : first.line.indent = deep := at_deep
            rw [split, run_enter (by omega), first_at]
          show run ⟨between, outer, some awaited⟩ (Layout.linesAll (first :: others) ++ rest) =
            (Frame.placeAll ⟨Layout.columnOf (first :: others), []⟩ (first :: others) >>= fun inner =>
              .ok (between.fill awaited.slot inner.done.reverse)) >>= fun frame =>
                run ⟨frame, outer, none⟩ rest
          rw [enter, at_deep, run_linesAll inside
            (fun ln first_behind => by have := behind ln first_behind; show ln.indent ≤ deep; omega)]
          cases placed : Frame.placeAll ⟨deep, []⟩ (first :: others) with
          | error e => rfl
          | ok inner =>
            have inner_at : inner.indent = deep := Frame.indent_placeAll placed
            exact run_leave (by omega) (fun ln first_behind => by
              have := behind ln first_behind
              omega)

/-- The stack reads the lines of fitting layouts as the layouts are read, whatever follows further
to the left. -/
theorem run_linesAll : ∀ {layouts : List Layout} {frame : Frame} {outer : List (Frame × Slot)}
    {rest : List LogicalLine}, (∀ layout ∈ layouts, layout.Fits frame.indent) →
      (∀ ln ∈ rest.head?, ln.indent ≤ frame.indent) →
        run ⟨frame, outer, none⟩ (Layout.linesAll layouts ++ rest) =
          frame.placeAll layouts >>= fun frame => run ⟨frame, outer, none⟩ rest
  | [], frame, outer, rest, _, _ => by
    simp only [Layout.linesAll, List.nil_append, Frame.placeAll]
    rfl
  | first :: others, frame, outer, rest, fits, behind => by
    rw [List.forall_mem_cons] at fits
    have next : ∀ ln ∈ (Layout.linesAll others ++ rest).head?, ln.indent ≤ frame.indent := by
      cases others with
      | nil => exact behind
      | cons second others =>
        obtain ⟨later, is_second⟩ := second.lines_eq
        intro ln first_behind
        rw [Layout.linesAll, is_second] at first_behind
        cases first_behind
        exact Nat.le_of_eq (fits.2 second List.mem_cons_self).indent_eq
    rw [Layout.linesAll, List.append_assoc, run_lines fits.1 next, Frame.placeAll]
    cases placed : frame.place first with
    | error e => rfl
    | ok between =>
      have same := Frame.indent_place placed
      show run ⟨between, outer, none⟩ _ = between.placeAll others >>= _
      exact run_linesAll (by rw [same]; exact fits.2) (by rw [same]; exact behind)
end

/-! ## Finding the layouts -/

variable {statements : List Statement}

/-- Lines **begin with a suite** at a column: with layouts that fit the column, and they go on further
to the left. -/
def BeginsWithSuite (column : Nat) (lines : List LogicalLine) : Prop :=
  ∃ layouts rest, lines = Layout.linesAll layouts ++ rest ∧
    (∀ layout ∈ layouts, layout.Fits column) ∧ ∀ ln ∈ rest.head?, ln.indent < column

/-- A suite begins with a line and goes on with what begins with a suite. -/
theorem BeginsWithSuite.cons {column : Nat} {suite : List Layout} {rest : List LogicalLine}
    (fits : Layout.Fits column ⟨ln, suite⟩) (begins : BeginsWithSuite column rest) :
    BeginsWithSuite column (ln :: (Layout.linesAll suite ++ rest)) := by
  obtain ⟨layouts, rest, rfl, all, behind⟩ := begins
  refine ⟨⟨ln, suite⟩ :: layouts, rest, ?_, List.forall_mem_cons.2 ⟨fits, all⟩, behind⟩
  simp [Layout.linesAll, Layout.lines]

end Draft

end FlowTrace.Python
