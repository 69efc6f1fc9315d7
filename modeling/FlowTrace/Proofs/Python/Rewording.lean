import FlowTrace.Proofs.Flowchart.Outline
import FlowTrace.Proofs.Python.Reading
import FlowTrace.Proofs.Python.Scan
import FlowTrace.Python.Estimate

/-! # Reworded modules

A module with a literal in it, and the module that it becomes when the literal is reworded, consist
of akin statements (`Module.parse_akin`). All that counts for the outline of the flowchart and for
the running time is the same in both (`Module.flow_outline`, `Module.time_eq`). -/

namespace FlowTrace.Python

open Pattern

variable {w : Rewording loud}

/-! ## Reading -/

namespace Draft

variable {draft draft' : Draft} {ln ln' : LogicalLine} {t t' : Text}

/-- Rows of statements are divided alike. -/
theorem parts_peers (peers : Peers w t t') : List.Forall₂ (Peers w) (parts t) (parts t') := by
  have trimmed : List.Forall₂ (Peers w) ((splitTopLevel t ';').map Text.trim)
      ((splitTopLevel t' ';').map Text.trim) :=
    List.rel_map (fun _ _ peers => peers.trim) (peers.splitTopLevel ';')
  refine List.rel_filter (fun part part' peers => ?_) trimmed
  show (!part.isEmpty) = true ↔ (!part'.isEmpty) = true
  rw [peers.isEmpty_eq]

/-- Rows of statements behind a header are akin. -/
theorem inlineSuite_peers (peers : Peers w t t') (line : Nat) :
    Follows (AllAkin w) (inlineSuite line t) (inlineSuite line t') := by
  refine .mapM (parts_peers peers) fun part => (readStatement_peers part line).bind fun readings => ?_
  cases readings with
  | header => exact .error _ _
  | simple akin => exact .ok akin

/-- **A line adds akin statements.** -/
theorem Akin.addLine (akin : draft.Akin w draft') (lines : ln.Peers w ln') :
    Follows (Draft.Akin w) (draft.addLine ln) (draft'.addLine ln') := by
  refine (akin.indentTo lines.indent).bind fun {inside inside'} akin => ?_
  rw [isHeader_peers lines.text, lines.line]
  split
  · refine (readStatement_peers lines.text ln.line).bind fun readings => ?_
    cases readings with
    | simple new => exact .ok { akin with inner := akin.inner.append (.cons new .nil) }
    | header new words rests =>
      refine (akin_attach words akin.inner new).bind fun {entry entry'} attached => ?_
      obtain ⟨frame, slot⟩ := entry
      obtain ⟨frame', slot'⟩ := entry'
      obtain ⟨frames, rfl⟩ := attached
      simp only [rests.isBlank_eq, words]
      split
      · exact .ok ⟨frames, akin.outer, rfl⟩
      · exact (inlineSuite_peers rests ln.line).bind fun suite =>
          .ok { akin with inner := frames.fill _ suite }
  · refine (Follows.mapM (parts_peers lines.text) fun part =>
      readStatement_peers part ln.line).bind fun readings => ?_
    exact .ok { akin with
      inner := akin.inner.append (List.rel_map (fun _ _ readings => readings.statement) readings) }

/-- Drafts that are akin finish with statements that are akin. -/
theorem Akin.finish (akin : draft.Akin w draft') :
    Follows (AllAkin w) draft.finish draft'.finish := by
  rw [Draft.finish, Draft.finish, akin.awaited]
  cases draft.awaited with
  | some awaited => exact .error _ _
  | none => exact .ok (akin_close akin.inner akin.outer)

/-- A draft that begins is akin to itself. -/
theorem akin_start : Draft.start.Akin w Draft.start := ⟨⟨rfl, .nil⟩, .nil, rfl⟩

end Draft

/-- A literal stands **in code** when it begins behind some text of a logical line and is clear to the
readers of that line. -/
def InCode (w : Rewording loud) (front back : Text) : Prop :=
  ∃ text, Clear w text ∧
    Scanner.Begins w.mark (unixLines front) (w.old ++ w.mark :: unixLines back) text

/-- **A reworded module consists of akin statements.** -/
theorem Module.parse_akin {front back : Text} (filled : w.old ≠ []) (in_code : InCode w front back) :
    Follows (fun m m' => AllAkin w m.statements m'.statements)
      (Module.parse (w.original front back)) (Module.parse (w.reworded front back)) := by
  obtain ⟨text, clear, begins⟩ := in_code
  refine (logicalLines_reworded filled clear begins).bind fun lines => ?_
  refine (Follows.foldlM lines Draft.akin_start fun akin => akin.addLine).bind fun akin => ?_
  exact akin.finish.bind fun statements => .ok statements

/-! ## Flowcharts -/

/-- Walks are **alike** when they have made the same outline and come to the same node. -/
abbrev Alike (x x' : Flow × Text) : Prop := x.1.outline = x'.1.outline ∧ x.2 = x'.2

namespace Alike

variable {x x' y y' : Flow × Text}

/-- Nodes that differ in their texts are added below. -/
theorem add (alike : Alike x x') (stem label label' : Text) (shape : Shape) (fill : Text)
    (line : Nat) (note note' : Note) :
    Alike (x.1.addNumbered x.2 stem ⟨label, shape, fill, line⟩ note)
      (x'.1.addNumbered x'.2 stem ⟨label', shape, fill, line⟩ note') := by
  have looks : Face.unlabelled ⟨label, shape, fill, line⟩ =
      Face.unlabelled ⟨label', shape, fill, line⟩ := rfl
  rw [← alike.2]
  exact Flow.outline_addNumbered alike.1 x.2 stem looks note note'

/-- A loop leads back to its node. -/
theorem turn (alike : Alike x x') (suite : Alike y y') :
    Alike (if y.2 = x.2 then y.1 else y.1.link y.2 x.2, x.2)
      (if y'.2 = x'.2 then y'.1 else y'.1.link y'.2 x'.2, x'.2) := by
  rw [← alike.2, ← suite.2]
  refine ⟨?_, rfl⟩
  split
  · exact suite.1
  · exact Flow.outline_link suite.1 _ _

/-- The flow goes on from the node in front of a suite. -/
theorem back (alike : Alike x x') (suite : Alike y y') : Alike (y.1, x.2) (y'.1, x'.2) :=
  ⟨suite.1, alike.2⟩

end Alike

mutual
/-- **Akin statements are led on alike.** -/
theorem visit_akin : ∀ (s s' : Statement), s.Akin w s' → ∀ {x x' : Flow × Text}, Alike x x' →
    Alike (visit x.1 x.2 s) (visit x'.1 x'.2 s')
  | ⟨line, head, form, body, orelse, handlers⟩, _, .mk _ forms inBody inOrelse inHandlers,
      x, x', alike => by
    have suite {y y' : Flow × Text} (alike : Alike y y') := visitAll_akin body _ inBody alike
    have other {y y' : Flow × Text} (alike : Alike y y') := visitAll_akin orelse _ inOrelse alike
    have handled {y y' : Flow × Text} (alike : Alike y y') :=
      visitHandlers_akin handlers _ inHandlers alike
    cases forms with
    | func => exact suite (alike.add _ _ _ _ _ line {} {})
    | classDef => exact suite alike
    | block => exact suite alike
    | attempt => exact other (handled (suite alike))
    | forLoop target target' iterable iterable' =>
      have node := alike.add "For" ("For: " ++ target ++ " in " ++ iterable)
        ("For: " ++ target' ++ " in " ++ iterable') .diamond "pink" line {} {}
      exact other (node.turn (suite node))
    | whileLoop condition condition' =>
      have node := alike.add "While" ("While: " ++ condition) ("While: " ++ condition') .diamond
        "pink" line {} {}
      exact other (node.turn (suite node))
    | branch condition condition' =>
      have node := alike.add "If" ("If: " ++ condition) ("If: " ++ condition') .diamond "orange"
        line {} {}
      have done := suite node
      cases inOrelse with
      | nil => exact done
      | @cons first first' rest rest' akin _ =>
        -- The flow turns back to the conditional and goes on from there.
        have lines : first'.line = first.line := akin.line_eq
        have next := (node.back done).add "Else" "Else" "Else" .diamond "orange" first.line {} {}
        simp only [visit, lines]
        exact other next
    | ret => exact alike.add "Return" _ _ .parallelogram "yellow" line {} {}
    | update => exact alike.add "Assign" _ _ .rectangle "lightblue" line _ _
    | expr => exact alike.add "Expr" _ _ .rectangle "lightgray" line _ _
    | other => exact alike
    | @assign targets targets' value value' names =>
      cases some_name : (targetNames targets).isEmpty with
      | true =>
        simp only [visit, leafNode?, Statement.leaf, names, some_name, if_true]
        exact alike
      | false =>
        simp only [visit, leafNode?, Statement.leaf, names, some_name, Bool.false_eq_true, if_false]
        exact alike.add "Assign" _ _ .rectangle "lightblue" line _ _

/-- Rows of akin statements are led on alike. -/
theorem visitAll_akin : ∀ ss ss' : List Statement, AllAkin w ss ss' →
    ∀ {x x' : Flow × Text}, Alike x x' → Alike (visitAll x.1 x.2 ss) (visitAll x'.1 x'.2 ss')
  | [], _, .nil, _, _, alike => alike
  | s :: rest, _, .cons first others, _, _, alike =>
    visitAll_akin rest _ others (visit_akin s _ first alike)

/-- The suites of akin handlers are led on alike. -/
theorem visitHandlers_akin : ∀ ss ss' : List Statement, AllAkin w ss ss' →
    ∀ {x x' : Flow × Text}, Alike x x' →
      Alike (visitHandlers x.1 x.2 ss) (visitHandlers x'.1 x'.2 ss')
  | [], _, .nil, _, _, alike => alike
  | ⟨_, _, _, body, _, _⟩ :: rest, _, .cons (.mk _ _ inBody _ _) others, _, _, alike =>
    visitHandlers_akin rest _ others (visitAll_akin body _ inBody alike)
end

/-- **Flowcharts of akin statements** have the same outline. -/
theorem Module.flow_outline {m m' : Module} (akin : AllAkin w m.statements m'.statements) :
    m'.flow.1.outline = m.flow.1.outline := by
  have walked := visitAll_akin m.statements m'.statements akin
    (show Alike (Flow.start, Flowchart.startId) (Flow.start, Flowchart.startId) from ⟨rfl, rfl⟩)
  have led (m : Module) : m.flow = (visitAll Flow.start Flowchart.startId m.statements).1.finish
      (visitAll Flow.start Flowchart.startId m.statements).2 := rfl
  rw [led, led, ← walked.2]
  exact (Flow.outline_finish walked.1 _).symm

/-! ## Running time -/

/-- A row of code points without the mark fails between the marks when what follows does. -/
theorem level_runes {mark : UInt8} {runes : List Rune} (markless : mark.toNat ∉ runes) :
    (inOrder (runes.map fun r => one ⟨false, [(r, r)]⟩)).level loud mark stopNowhere .dead =
      some .dead := by
  induction runes with
  | nil => rfl
  | cons r runes ih =>
    rw [List.mem_cons, not_or] at markless
    obtain ⟨other, later⟩ := markless
    have passed : (RuneSet.mk false [(r, r)]).holds mark.toNat = false := by
      simp only [RuneSet.holds, Intervals.holds, List.any_cons, List.any_nil, Bool.or_false,
        Bool.false_bne, Bool.and_eq_false_imp, decide_eq_true_eq, decide_eq_false_iff_not]
      exact fun low high => other (Nat.le_antisymm high low)
    have first : (one ⟨false, [(r, r)]⟩).level loud mark stopNowhere .dead = some .dead := by
      simp [level, passed, Level.weakened]
    cases runes with
    | nil => exact first
    | cons r' runes =>
      show (seq _ (inOrder _)).level loud mark stopNowhere .dead = some .dead
      rw [level, ih later]
      simp only [Option.bind_some, first]
      rfl

/-- Behind the name of a call the pattern is dead inside of a literal. -/
theorem level_behind_name : ∀ mark ∈ Text.marks, mark < 0x80 ∧
    (seq blanks (literal "(")).level loud mark stopNowhere .any = some .dead := by
  decide +kernel

/-- **The pattern for the calls of a function is inert**: no quiet contents have the parenthesis that
it ends with. -/
theorem inert_call (front back : Text) {name : Text} (markless : w.mark ∉ name) :
    Inert w front back (callPattern name) := by
  obtain ⟨ascii, behind⟩ := level_behind_name _ w.is_mark
  have named := level_runes fun member => markless (mem_of_mem_runes ascii member)
  refine ⟨stopNowhere, stopped_nowhere _ _ _ _, stopped_nowhere _ _ _ _, ?_⟩
  show (seq edge (seq (literal name) (seq blanks (literal "(")))).level loud w.mark stopNowhere .any =
    some .dead
  have from_name : (seq (literal name) (seq blanks (literal "("))).level loud w.mark stopNowhere
      .any = some .dead := by
    rw [level, behind]
    simp only [Option.bind_some]
    rw [literal, named]
    rfl
  rw [level, from_name]
  rfl

/-- Calls of a function are found in both of two twins, or in none. -/
theorem matchesIn_twin {name head head' : Text} (markless : w.mark ∉ name)
    (heads : w.Twin head head') :
    (callPattern name).matchesIn head' = (callPattern name).matchesIn head := by
  rcases heads with rfl | ⟨front, back, rfl, rfl⟩
  · rfl
  · exact (inert_call front back markless).matchesIn_eq

mutual
/-- **Akin statements call the same functions.** -/
theorem calls_akin {name : Text} (markless : w.mark ∉ name) : ∀ s s' : Statement, s.Akin w s' →
    calls (callPattern name) name s' = calls (callPattern name) name s
  | ⟨line, head, form, body, orelse, handlers⟩, _, .mk heads forms inBody inOrelse inHandlers => by
    have below := callsAny_akin markless body _ inBody
    have other := callsAny_akin markless orelse _ inOrelse
    have handled := callsAny_akin markless handlers _ inHandlers
    cases forms <;> simp only [calls, matchesIn_twin markless heads, below, other, handled]

/-- Rows of akin statements call the same functions. -/
theorem callsAny_akin {name : Text} (markless : w.mark ∉ name) : ∀ ss ss' : List Statement,
    AllAkin w ss ss' → callsAny (callPattern name) name ss' = callsAny (callPattern name) name ss
  | [], _, .nil => rfl
  | s :: rest, _, .cons first others => by
    rw [callsAny, callsAny, calls_akin markless s _ first, callsAny_akin markless rest _ others]
end

mutual
/-- **Akin statements are walked alike**, with as many loops around each of them. -/
theorem walk_akin : ∀ s s' : Statement, s.Akin w s' → ∀ depth, List.Forall₂
    (fun entry entry' => entry.1.Akin w entry'.1 ∧ entry'.2 = entry.2)
    (s.walk depth) (s'.walk depth)
  | ⟨line, head, form, body, orelse, handlers⟩, _, .mk heads forms inBody inOrelse inHandlers,
      depth => by
    have akin : Statement.Akin w ⟨line, head, form, body, orelse, handlers⟩ _ :=
      .mk heads forms inBody inOrelse inHandlers
    rw [Statement.walk, Statement.walk]
    simp only [akin.isLoop_eq]
    exact .cons ⟨akin, rfl⟩ (List.rel_append (walkAll_akin body _ inBody _)
      (List.rel_append (walkAll_akin orelse _ inOrelse _) (walkAll_akin handlers _ inHandlers _)))

/-- Rows of akin statements are walked alike. -/
theorem walkAll_akin : ∀ ss ss' : List Statement, AllAkin w ss ss' → ∀ depth, List.Forall₂
    (fun entry entry' => entry.1.Akin w entry'.1 ∧ entry'.2 = entry.2)
    (Statement.walkAll depth ss) (Statement.walkAll depth ss')
  | [], _, .nil, _ => .nil
  | s :: rest, _, .cons first others, depth =>
    List.rel_append (walk_akin s _ first depth) (walkAll_akin rest _ others depth)
end

variable {m m' : Module}

/-- What is counted of akin statements by their kinds is the same. -/
theorem loops_akin (akin : AllAkin w m.statements m'.statements) :
    m'.loops = m.loops ∧ m'.loopDepth = m.loopDepth := by
  have walked := walkAll_akin m.statements m'.statements akin 0
  unfold Module.loops Module.loopDepth Module.walk
  generalize Statement.walkAll 0 m.statements = entries at walked ⊢
  generalize Statement.walkAll 0 m'.statements = entries' at walked ⊢
  constructor
  · induction walked with
    | nil => rfl
    | @cons entry entry' _ _ first rest ih =>
      obtain ⟨s, depth⟩ := entry
      obtain ⟨s', depth'⟩ := entry'
      obtain ⟨akin, rfl⟩ := first
      rw [List.countP_cons, List.countP_cons, ih]
      simp only [akin.isLoop_eq]
  · generalize 0 = deepest
    induction walked generalizing deepest with
    | nil => rfl
    | @cons entry entry' _ _ first rest ih =>
      obtain ⟨s, depth⟩ := entry
      obtain ⟨s', depth'⟩ := entry'
      obtain ⟨akin, rfl⟩ := first
      rw [List.foldl_cons, List.foldl_cons, ih]
      simp only [akin.isLoop_eq]

/-- Modules that are akin are recursive together. -/
theorem isRecursive_akin (akin : AllAkin w m.statements m'.statements) :
    m'.isRecursive = m.isRecursive := by
  have walked := walkAll_akin m.statements m'.statements akin 0
  unfold Module.isRecursive Module.walk
  generalize Statement.walkAll 0 m.statements = entries at walked ⊢
  generalize Statement.walkAll 0 m'.statements = entries' at walked ⊢
  induction walked with
  | nil => rfl
  | @cons entry entry' _ _ first rest ih =>
    obtain ⟨⟨line, head, form, body, orelse, handlers⟩, depth⟩ := entry
    obtain ⟨s', depth'⟩ := entry'
    obtain ⟨⟨heads, forms, inBody, -, -⟩, -⟩ := first
    rw [List.any_cons, List.any_cons, ih]
    cases forms with
    | func params params' markless => simp only [callsAny_akin markless body _ inBody]
    | _ => rfl

/-- **The running time** of akin statements is the same. -/
theorem Module.time_eq (akin : AllAkin w m.statements m'.statements) :
    m'.complexity.time = m.complexity.time := by
  obtain ⟨loops, depth⟩ := loops_akin akin
  simp only [Module.complexity, Module.time, isRecursive_akin akin, loops, depth]

end FlowTrace.Python
