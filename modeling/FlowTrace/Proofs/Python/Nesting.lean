import FlowTrace.Proofs.Python.Layout

/-! # The nesting of Python statements

How the statements of a module are nested follows from its layout. `Adopts` says how the statement
of a header takes its place behind the statements before it, or continues the last of them, and
`Builds` says which statements a row of layouts has, suite by suite. The main result,
`nesting_follows_indentation`: every module that is read has the statements that its layout builds,
and an indentation is found fault with only when the lines have no layout. -/

namespace FlowTrace.Python

namespace Statement

/-- Whether the statement is the header of an alternative, which has no place in the tree. -/
def isElse (s : Statement) : Bool := !s.isElif && firstWord s.head == "else"

/-- Whether the statement is a handler of an attempt. -/
def isHandler (s : Statement) : Bool :=
  !s.isElif && (firstWord s.head == "except" || firstWord s.head == "finally")

/-- Whether the statement continues the one before it. -/
def isClause (s : Statement) : Bool := s.isElif || s.isElse || s.isHandler

/-- How the statement of a header with its suite joins the statements before it: it **adopts** the
suite at its own place behind them, or it continues the last of them. -/
inductive Adopts (s : Statement) (suite : List Statement) :
    List Statement → List Statement → Prop where
  /-- A statement of its own. -/
  | own {done : List Statement} (own : s.isClause = false) :
      Adopts s suite done (done ++ [s.addBody suite])
  /-- The next link of a chain of conditionals. -/
  | link {earlier : List Statement} {last : Statement} (elif : s.isElif = true)
      (branch : last.isBranch = true) (open_ : last.tailHasElse = false) :
      Adopts s suite (earlier ++ [last])
        (earlier ++ [last.mapTail (addOrelse [s.addBody suite])])
  /-- The alternative of a chain of conditionals. -/
  | choice {earlier : List Statement} {last : Statement} (is_else : s.isElse = true)
      (branch : last.isBranch = true) (open_ : last.tailHasElse = false) :
      Adopts s suite (earlier ++ [last])
        (earlier ++ [last.mapTail fun tail => tail.markElse.addOrelse suite])
  /-- The alternative of a loop or an attempt. -/
  | alternative {earlier : List Statement} {last : Statement} (is_else : s.isElse = true)
      (takes : (last.isLoop || last.form == .attempt) = true) :
      Adopts s suite (earlier ++ [last]) (earlier ++ [last.addOrelse suite])
  /-- A handler of an attempt. -/
  | handler {earlier : List Statement} {last : Statement} (handler : s.isHandler = true)
      (attempt : last.form = .attempt) :
      Adopts s suite (earlier ++ [last])
        (earlier ++ [{ last with handlers := last.handlers ++ [s.addBody suite] }])

end Statement

/-- The statements that a row of layouts **builds**. -/
inductive Builds : List Layout → List Statement → Prop where
  | nil : Builds [] []
  /-- A row of simple statements. -/
  | row {earlier : List Layout} {done : List Statement} {ln : LogicalLine}
      {readings : List Reading} (before : Builds earlier done) (simple : isHeader ln.text = false)
      (read : (Draft.parts ln.text).mapM (readStatement ln.line) = .ok readings) :
      Builds (earlier ++ [⟨ln, []⟩]) (done ++ readings.map Reading.statement)
  /-- A header with its suite on the same line. -/
  | inline {earlier : List Layout} {done done' suite : List Statement} {ln : LogicalLine}
      {s : Statement} {rest : Text} (before : Builds earlier done)
      (header : isHeader ln.text = true)
      (read : readStatement ln.line ln.text = .ok (.header s rest))
      (behind : rest.isBlank = false) (inside : Draft.inlineSuite ln.line rest = .ok suite)
      (adopts : s.Adopts suite done done') : Builds (earlier ++ [⟨ln, []⟩]) done'
  /-- A header with its suite on the lines below. -/
  | suite {earlier layouts : List Layout} {done done' suite : List Statement} {ln : LogicalLine}
      {s : Statement} {rest : Text} (before : Builds earlier done)
      (header : isHeader ln.text = true)
      (read : readStatement ln.line ln.text = .ok (.header s rest))
      (behind : rest.isBlank = true) (inside : Builds layouts suite)
      (adopts : s.Adopts suite done done') : Builds (earlier ++ [⟨ln, layouts⟩]) done'

/-! ## Chains of conditionals -/

namespace Statement

/-- A statement is a **chain** if every conditional without alternative on the way to its last link
has nothing but its continuation. -/
inductive Chain : Statement → Prop where
  | last {s : Statement}
      (alone : ∀ condition isElif, s.form = .branch condition isElif false → s.orelse = []) :
      Chain s
  | link {line : Nat} {head condition : Text} {isElif : Bool} {body handlers : List Statement}
      {next : Statement} (continues : next.isElif = true) (chain : Chain next) :
      Chain ⟨line, head, .branch condition isElif false, body, [next], handlers⟩

variable {s new : Statement} {suite : List Statement}

/-- A statement without an alternative is a chain. -/
theorem chain_of_orelse (none : s.orelse = []) : s.Chain := .last fun _ _ _ => none

/-- Where there is no single continuation, the statement itself is the last link. -/
theorem mapTail_of_orelse {f : Statement → Statement} (none : s.orelse = []) :
    s.mapTail f = f s := by
  rw [mapTail]
  intro line head condition isElif body next handlers same
  rw [same] at none
  cases none

/-- A conditional with an alternative is the last link, whatever the alternative is. -/
theorem mapTail_of_hasElse {f : Statement → Statement} {condition : Text} {isElif : Bool}
    (is_branch : s.form = .branch condition isElif true) : s.mapTail f = f s := by
  rw [mapTail]
  intro line head condition isElif body next handlers same
  rw [same] at is_branch
  cases is_branch

/-- A change that keeps what a link is does so at the end of a chain. -/
theorem isElif_mapTail {f : Statement → Statement} (keeps : ∀ t, (f t).isElif = t.isElif) :
    (s.mapTail f).isElif = s.isElif := by
  induction s using mapTail.induct with
  | case1 line head condition isElif body next handlers continues ih =>
    rw [mapTail, if_pos continues]
    rfl
  | case2 line head condition isElif body next handlers ends =>
    rw [mapTail, if_neg ends, keeps]
  | case3 s other => rw [mapTail, keeps]; exact other

/-- A chain has an alternative when its next link has one. -/
theorem tailHasElse_link {line : Nat} {head condition : Text} {isElif : Bool}
    {body handlers : List Statement} {next : Statement} :
    tailHasElse ⟨line, head, .branch condition isElif false, body, [next], handlers⟩ =
      (next.isElif && next.tailHasElse) := by
  rw [tailHasElse]

/-- A branch with an alternative is the last link of its chain. -/
theorem tailHasElse_of_hasElse {condition : Text} {isElif : Bool}
    (is_branch : s.form = .branch condition isElif true) : s.tailHasElse = true := by
  obtain ⟨line, head, form, body, orelse, handlers⟩ := s
  cases is_branch
  rw [tailHasElse]
  intro _ _ same
  cases same

/-- The mark of an alternative does not make a statement a link. -/
theorem isElif_markElse (s : Statement) : s.markElse.isElif = s.isElif := by
  rw [markElse]
  split
  · rename_i is_branch
    rw [isElif, isElif, is_branch]
  · rfl

/-- A link of a chain is a conditional. -/
theorem isBranch_of_isElif (elif : s.isElif = true) : s.isBranch = true := by
  rw [isElif] at elif
  rw [isBranch]
  split at elif <;> simp_all

/-- A conditional has the form of one. -/
theorem exists_form_of_isBranch (branch : s.isBranch = true) :
    ∃ condition isElif hasElse, s.form = .branch condition isElif hasElse := by
  rw [isBranch] at branch
  split at branch
  · exact ⟨_, _, _, by assumption⟩
  · cases branch

/-- Once marked, a conditional has an alternative. -/
theorem exists_form_markElse (branch : s.isBranch = true) :
    ∃ condition isElif, s.markElse.form = .branch condition isElif true := by
  obtain ⟨condition, isElif, hasElse, is_branch⟩ := exists_form_of_isBranch branch
  exact ⟨condition, isElif, by rw [markElse, is_branch]⟩

/-- A last link without an alternative has nothing behind it. -/
theorem exists_eq_of_open
    (alone : ∀ condition isElif, s.form = .branch condition isElif false → s.orelse = [])
    (branch : s.isBranch = true) (open_ : s.tailHasElse = false) :
    ∃ line head condition isElif body handlers,
      s = ⟨line, head, .branch condition isElif false, body, [], handlers⟩ := by
  obtain ⟨condition, isElif, hasElse, is_branch⟩ := exists_form_of_isBranch branch
  cases hasElse with
  | true => rw [tailHasElse_of_hasElse is_branch] at open_; cases open_
  | false =>
    have none : s.orelse = [] := alone condition isElif is_branch
    obtain ⟨line, head, form, body, orelse, handlers⟩ := s
    cases is_branch
    cases none
    exact ⟨line, head, condition, isElif, body, handlers, rfl⟩

/-- A last link is not passed over, with an alternative or without. -/
theorem mapTail_of_alone {f : Statement → Statement}
    (alone : ∀ condition isElif, s.form = .branch condition isElif false → s.orelse = [])
    (branch : s.isBranch = true) : s.mapTail f = f s := by
  obtain ⟨condition, isElif, hasElse, is_branch⟩ := exists_form_of_isBranch branch
  cases hasElse with
  | true => exact mapTail_of_hasElse is_branch
  | false => exact mapTail_of_orelse (alone condition isElif is_branch)

/-- A continuation that is put behind the last link is the last link from then on. -/
theorem mapTail_link (chain : s.Chain) (branch : s.isBranch = true)
    (open_ : s.tailHasElse = false) (elif : new.isElif = true) (fresh : new.orelse = []) :
    (s.mapTail (addOrelse [new])).mapTail (addBody suite) =
      s.mapTail (addOrelse [new.addBody suite]) := by
  induction chain with
  | last alone =>
    rw [mapTail_of_alone alone branch, mapTail_of_alone alone branch]
    obtain ⟨line, head, condition, isElif, body, handlers, rfl⟩ :=
      exists_eq_of_open alone branch open_
    show mapTail _ ⟨line, head, .branch condition isElif false, body, [new], handlers⟩ =
      ⟨line, head, .branch condition isElif false, body, [new.addBody suite], handlers⟩
    rw [mapTail, if_pos elif, mapTail_of_orelse fresh]
  | link continues chain ih =>
    rw [tailHasElse_link, continues, Bool.true_and] at open_
    have same := ih (isBranch_of_isElif continues) open_
    have keeps (t : Statement) : (addOrelse [new] t).isElif = t.isElif := rfl
    rw [mapTail, if_pos continues, mapTail, if_pos (by rw [isElif_mapTail keeps, continues]), same,
      mapTail, if_pos continues]

/-- A chain that is marked at its last link is given its alternative there. -/
theorem mapTail_choice (branch : s.isBranch = true) (open_ : s.tailHasElse = false) :
    (s.mapTail markElse).mapTail (addOrelse suite) =
      s.mapTail fun tail => tail.markElse.addOrelse suite := by
  -- once marked, a conditional is not passed over
  have marked {t : Statement} (branch : t.isBranch = true) :
      t.markElse.mapTail (addOrelse suite) = t.markElse.addOrelse suite := by
    obtain ⟨condition, isElif, is_marked⟩ := exists_form_markElse branch
    exact mapTail_of_hasElse is_marked
  induction s using mapTail.induct with
  | case1 line head condition isElif body next handlers continues ih =>
    rw [tailHasElse_link, continues, Bool.true_and] at open_
    have same := ih (isBranch_of_isElif continues) open_
    rw [mapTail, if_pos continues, mapTail,
      if_pos (by rw [isElif_mapTail isElif_markElse, continues]), same, mapTail, if_pos continues]
  | case2 line head condition isElif body next handlers ends =>
    rw [mapTail, if_neg ends, marked branch, mapTail, if_neg ends]
  | case3 s other =>
    have once (f : Statement → Statement) : s.mapTail f = f s := by
      rw [mapTail]
      exact other
    rw [once, once, marked branch]

/-- A chain stays one when a link is put at its open end. -/
theorem Chain.mapTail_addOrelse (chain : s.Chain) (branch : s.isBranch = true)
    (open_ : s.tailHasElse = false) (elif : new.isElif = true) (fresh : new.Chain) :
    (s.mapTail (addOrelse [new])).Chain := by
  induction chain with
  | last alone =>
    rw [mapTail_of_alone alone branch]
    obtain ⟨line, head, condition, isElif, body, handlers, rfl⟩ :=
      exists_eq_of_open alone branch open_
    exact .link elif fresh
  | link continues chain ih =>
    rw [tailHasElse_link, continues, Bool.true_and] at open_
    rw [mapTail, if_pos continues]
    have keeps (t : Statement) : (addOrelse [new] t).isElif = t.isElif := rfl
    exact .link (by rw [isElif_mapTail keeps, continues])
      (ih (isBranch_of_isElif continues) open_)

/-- A chain stays one when an alternative is put at its end. -/
theorem Chain.mapTail_choice (chain : s.Chain) (branch : s.isBranch = true) :
    (s.mapTail fun tail => tail.markElse.addOrelse suite).Chain := by
  have marked {t : Statement} (branch : t.isBranch = true) :
      (t.markElse.addOrelse suite).Chain := by
    obtain ⟨condition, isElif, is_marked⟩ := exists_form_markElse branch
    refine .last fun _ _ same => ?_
    cases is_marked.symm.trans same
  induction chain with
  | last alone =>
    rw [mapTail_of_alone alone branch]
    exact marked branch
  | link continues chain ih =>
    rw [mapTail, if_pos continues]
    have keeps (t : Statement) : (t.markElse.addOrelse suite).isElif = t.isElif :=
      isElif_markElse t
    exact .link (by rw [isElif_mapTail keeps, continues]) (ih (isBranch_of_isElif continues))

end Statement

/-! ## What is read from a line -/

/-- What is read from a line is a statement without suites. -/
theorem readStatement_leaf {line : Nat} {t : Text} {reading : Reading}
    (read : readStatement line t = .ok reading) :
    ∃ head form, reading.statement = .leaf line head form := by
  by_cases header : isHeader t = true
  · obtain ⟨colon, form, -, rfl⟩ := readStatement_of_isHeader header read
    exact ⟨_, form, rfl⟩
  · rw [readStatement, if_neg header] at read
    cases read
    exact ⟨t, simpleForm t, rfl⟩

open Statement

variable {s : Statement} {suite done done' : List Statement}

/-- Adopting a suite keeps chains. -/
theorem Statement.Adopts.chain (adopts : s.Adopts suite done done') (fresh : s.orelse = [])
    (all : ∀ x ∈ done, x.Chain) : ∀ x ∈ done', x.Chain := by
  have new : (s.addBody suite).Chain := chain_of_orelse fresh
  cases adopts with
  | own own => exact List.forall_mem_append.2 ⟨all, List.forall_mem_singleton.2 new⟩
  | @link earlier last elif branch open_ =>
    obtain ⟨before, of_last⟩ := List.forall_mem_append.1 all
    refine List.forall_mem_append.2 ⟨before, List.forall_mem_singleton.2 ?_⟩
    exact (List.forall_mem_singleton.1 of_last).mapTail_addOrelse branch open_ elif new
  | @choice earlier last is_else branch open_ =>
    obtain ⟨before, of_last⟩ := List.forall_mem_append.1 all
    refine List.forall_mem_append.2 ⟨before, List.forall_mem_singleton.2 ?_⟩
    exact (List.forall_mem_singleton.1 of_last).mapTail_choice branch
  | @alternative earlier last is_else takes =>
    obtain ⟨before, of_last⟩ := List.forall_mem_append.1 all
    refine List.forall_mem_append.2 ⟨before, List.forall_mem_singleton.2 (.last ?_)⟩
    intro condition isElif is_branch
    simp [addOrelse] at is_branch
    simp [isLoop, is_branch] at takes
  | @handler earlier last handler attempt =>
    obtain ⟨before, of_last⟩ := List.forall_mem_append.1 all
    refine List.forall_mem_append.2 ⟨before, List.forall_mem_singleton.2 (.last ?_)⟩
    intro condition isElif is_branch
    rw [attempt] at is_branch
    cases is_branch

/-- Statements that layouts build are chains. -/
theorem Builds.chain {layouts : List Layout} {statements : List Statement}
    (builds : Builds layouts statements) : ∀ s ∈ statements, s.Chain := by
  induction builds with
  | nil => simp
  | @row earlier done ln readings before simple read ih =>
    refine List.forall_mem_append.2 ⟨ih, List.forall_mem_map.2 ?_⟩
    refine forall_mem_of_mapM (fun {part reading} read => ?_) read
    obtain ⟨head, form, same⟩ := readStatement_leaf read
    rw [same]
    exact chain_of_orelse rfl
  | @inline earlier done done' suite ln s rest before header read behind inside adopts ih =>
    obtain ⟨head, form, rfl⟩ := readStatement_leaf read
    exact adopts.chain rfl ih
  | @suite earlier layouts done done' suite ln s rest before header read behind inside adopts ih
      ih_inside =>
    obtain ⟨head, form, rfl⟩ := readStatement_leaf read
    exact adopts.chain rfl ih

/-- Attaching a header and filling the slot it leaves is adopting the suite. -/
theorem Statement.adopts_of_attach {frame frame' : Frame} {slot : Slot}
    (attached : Draft.attach frame s = .ok (frame', slot)) (fresh : s.orelse = [])
    (all : ∀ x ∈ frame.done, x.Chain) (suite : List Statement) :
    s.Adopts suite frame.done.reverse (frame'.fill slot suite).done.reverse := by
  -- a statement of its own is put behind the others, whatever they are
  have own (not_elif : ¬ s.isElif = true) (not_else : ¬ (firstWord s.head == "else") = true)
      (not_handler : ¬ (firstWord s.head == "except" || firstWord s.head == "finally") = true) :
      s.Adopts suite frame.done.reverse
        ((frame.append [s]).fill .body suite).done.reverse := by
    have plain : s.isClause = false := by
      simp_all [Statement.isClause, isElse, isHandler]
    have same : ((frame.append [s]).fill .body suite).done.reverse =
        frame.done.reverse ++ [s.addBody suite] := by
      simp [Frame.append, Frame.fill, Statement.fill]
    rw [same]
    exact .own plain
  cases is_done : frame.done with
  | nil =>
    simp only [Draft.attach, is_done] at attached
    split_ifs at attached with not_elif not_else not_handler
    cases attached
    rw [is_done] at own
    exact own not_elif not_else not_handler
  | cons last earlier =>
    have of_last : last.Chain := all last (by simp [is_done])
    simp only [Draft.attach, is_done] at attached
    split_ifs at attached with elif open_ word branch open_ takes handler attempt <;> cases attached
    · rw [Bool.and_eq_true, Bool.not_eq_true'] at open_
      simp only [Frame.fill, Statement.fill, List.reverse_cons]
      rw [mapTail_link of_last open_.1 open_.2 elif fresh]
      exact .link elif open_.1 open_.2
    · simp only [Frame.fill, Statement.fill, List.reverse_cons]
      rw [mapTail_choice branch (Bool.eq_false_iff.2 open_)]
      exact .choice (by simp_all [isElse]) branch (Bool.eq_false_iff.2 open_)
    · simp only [Frame.fill, is_done, Statement.fill, List.reverse_cons]
      exact .alternative (by simp_all [isElse]) takes
    · simp only [Frame.fill, Statement.fill, List.reverse_cons]
      rw [List.dropLast_concat, List.getLast?_concat]
      exact .handler (by simp_all [isHandler]) (by simpa using attempt)
    · rw [is_done] at own
      exact own elif word handler

/-! ## From layouts to statements -/

variable {frame frame' : Frame} {earlier : List Layout}

/-- A line is read into the statements that its layout builds, once its suite is built. -/
theorem builds_of_read {ln : LogicalLine} {awaited : Option Awaited}
    (before : Builds earlier frame.done.reverse) (read : frame.read ln = .ok (frame', awaited)) :
    (awaited = none → Builds (earlier ++ [⟨ln, []⟩]) frame'.done.reverse) ∧
      ∀ header layouts suite, awaited = some header → Builds layouts suite →
        Builds (earlier ++ [⟨ln, layouts⟩]) (frame'.fill header.slot suite).done.reverse := by
  have chain : ∀ x ∈ frame.done, x.Chain := fun x member =>
    before.chain x (List.mem_reverse.2 member)
  rw [Frame.read] at read
  by_cases header : isHeader ln.text = true
  · rw [if_pos header] at read
    obtain ⟨reading, is_reading, read⟩ := bind_eq_ok.1 read
    obtain ⟨colon, form, -, rfl⟩ := readStatement_of_isHeader header is_reading
    obtain ⟨⟨between, slot⟩, attached, read⟩ := bind_eq_ok.1 read
    have adopts := adopts_of_attach attached rfl chain
    simp only at read
    split at read
    · rename_i blank
      cases read
      refine ⟨fun same => ?_, fun awaited layouts suite same inside => ?_⟩
      · cases same
      cases same
      exact .suite before header is_reading blank inside (adopts suite)
    · rename_i full
      obtain ⟨suite, inside, read⟩ := bind_eq_ok.1 read
      cases read
      refine ⟨fun _ => ?_, fun _ _ _ same => by cases same⟩
      exact .inline before header is_reading (Bool.eq_false_iff.2 full) inside (adopts suite)
  · rw [if_neg header] at read
    obtain ⟨readings, all_read, read⟩ := bind_eq_ok.1 read
    cases read
    refine ⟨fun _ => ?_, fun _ _ _ same => by cases same⟩
    rw [Frame.append, List.reverse_append, List.reverse_reverse]
    exact .row before (Bool.eq_false_iff.2 header) all_read

mutual
/-- What is built by a layout that is placed behind others is built by all of them. -/
theorem builds_of_place : ∀ {layout : Layout} {column : Nat} {earlier : List Layout}
    {frame frame' : Frame}, layout.Fits column → Builds earlier frame.done.reverse →
      frame.place layout = .ok frame' → Builds (earlier ++ [layout]) frame'.done.reverse
  | ⟨line, suite⟩, column, earlier, frame, frame', fits, before, placed => by
    rw [Frame.place] at placed
    obtain ⟨⟨between, awaited⟩, read, placed⟩ := bind_eq_ok.1 placed
    obtain ⟨alone, with_suite⟩ := builds_of_read before read
    have is_awaited := (Frame.read_eq_ok read).2
    cases fits with
    | row closed =>
      cases awaited with
      | none =>
        cases placed
        exact alone rfl
      | some awaited =>
        rw [closed] at is_awaited
        cases is_awaited
    | suite opens deeper inside =>
      cases awaited with
      | none =>
        rw [opens] at is_awaited
        cases is_awaited
      | some awaited =>
        obtain ⟨inner, placed_inside, placed⟩ := bind_eq_ok.1 placed
        cases placed
        refine with_suite awaited _ _ rfl ?_
        exact builds_of_placeAll inside .nil placed_inside

/-- Layouts that are read have the statements that they build. -/
theorem builds_of_placeAll : ∀ {layouts : List Layout} {column : Nat} {earlier : List Layout}
    {frame frame' : Frame}, (∀ layout ∈ layouts, layout.Fits column) →
      Builds earlier frame.done.reverse → frame.placeAll layouts = .ok frame' →
        Builds (earlier ++ layouts) frame'.done.reverse
  | [], _, earlier, frame, frame', _, before, placed => by
    rw [Frame.placeAll] at placed
    cases placed
    rwa [List.append_nil]
  | first :: rest, column, earlier, frame, frame', fits, before, placed => by
    rw [List.forall_mem_cons] at fits
    rw [Frame.placeAll] at placed
    obtain ⟨between, once, placed⟩ := bind_eq_ok.1 placed
    have next := builds_of_place fits.1 before once
    have all := builds_of_placeAll fits.2 next placed
    rwa [List.append_assoc] at all
end

/-! ## Faults of the indentation -/

end FlowTrace.Python

namespace FlowTrace

/-- Whether a fault is one of the indentation of a line. -/
def Fault.isIndentation : Fault → Bool
  | .missingSuite _ _ | .unexpectedIndent | .mismatchedUnindent => true
  | _ => false

end FlowTrace

namespace FlowTrace.Python

/-- An error that does not find fault with the indentation. -/
def SoundlyIndented (e : SyntaxError) : Prop := e.fault.isIndentation = false

/-- The errors of a statement are not about indentation. -/
theorem errsBy_readStatement (line : Nat) (t : Text) :
    ErrsBy SoundlyIndented (readStatement line t) := by
  rw [readStatement]
  split
  · split
    · exact .error rfl
    · simp only
      split
      · exact .error rfl
      · exact .ok _
  · exact .ok _

/-- The errors of a row behind a colon are not about indentation. -/
theorem errsBy_inlineSuite (line : Nat) (t : Text) :
    ErrsBy SoundlyIndented (Draft.inlineSuite line t) := by
  refine .mapM (fun part => ?_) _
  refine (errsBy_readStatement line part).bind fun reading _ => ?_
  cases reading with
  | simple statement => exact .ok _
  | header statement inline_ => exact .error rfl

/-- The errors of a statement that cannot be attached are not about indentation. -/
theorem errsBy_attach (frame : Frame) (s : Statement) :
    ErrsBy SoundlyIndented (Draft.attach frame s) := by
  rw [Draft.attach]
  simp only
  split <;> split_ifs <;> first | exact .error rfl | exact .ok _

/-- Reading a line where it stands finds no fault with its indentation. -/
theorem errsBy_read (frame : Frame) (ln : LogicalLine) :
    ErrsBy SoundlyIndented (frame.read ln) := by
  rw [Frame.read]
  split
  · refine (errsBy_readStatement _ _).bind fun reading _ => ?_
    cases reading with
    | simple statement => exact .ok _
    | header statement inline_ =>
      refine (errsBy_attach frame statement).bind fun attachment _ => ?_
      simp only
      split
      · exact .ok _
      · exact (errsBy_inlineSuite _ _).bind fun _ _ => .ok _
  · exact (ErrsBy.mapM (errsBy_readStatement _) _).bind fun _ _ => .ok _

mutual
/-- The errors of a layout are not about indentation. -/
theorem errsBy_place : ∀ (layout : Layout) (frame : Frame),
    ErrsBy SoundlyIndented (frame.place layout)
  | ⟨line, suite⟩, frame => by
    rw [Frame.place]
    refine (errsBy_read frame line).bind fun read _ => ?_
    split
    · exact .ok _
    · exact (errsBy_placeAll suite _).bind fun _ _ => .ok _

/-- The errors of layouts are not about indentation. -/
theorem errsBy_placeAll : ∀ (layouts : List Layout) (frame : Frame),
    ErrsBy SoundlyIndented (frame.placeAll layouts)
  | [], frame => by
    rw [Frame.placeAll]
    exact .ok _
  | first :: rest, frame => by
    rw [Frame.placeAll]
    exact (errsBy_place first frame).bind fun frame _ => errsBy_placeAll rest frame
end

/-! ## Modules -/

/-- A module is parsed from the logical lines of its source. -/
theorem parse_eq {code : Text} {lines : List LogicalLine} (split : logicalLines code = .ok lines) :
    Module.parse code =
      Draft.start.run lines >>= fun statements => .ok ⟨code, statements⟩ := by
  rw [Module.parse, split, Draft.run]
  rw [bind_assoc]
  rfl

/-- A module whose lines have a layout is read as the layout is. -/
theorem run_layouts {layouts : List Layout} (fits : ∀ layout ∈ layouts, layout.Fits 0) :
    Draft.start.run (Layout.linesAll layouts) =
      Frame.placeAll ⟨0, []⟩ layouts >>= fun frame => .ok frame.done.reverse := by
  have all := @Draft.run_linesAll layouts ⟨0, []⟩ [] [] fits (by simp)
  rw [List.append_nil] at all
  exact all

end FlowTrace.Python
