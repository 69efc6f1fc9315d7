import FlowTrace.Proofs.Python.Placing

/-! # The scanner as a loop

The scanner of logical lines goes through a source byte by byte, and so it ends with it. It can also be
written as a loop over an index, which takes literals in three marks, margins and comments in one step
(`Cursor.step`) and might then go back or stay where it is. It does not: each step goes forward or leaves
the margin (`Cursor.forward_step`), so the loop ends after a number of steps that depends on the length of the
source only, with the logical lines of the source (`logicalLines_sound`). -/

namespace FlowTrace.Python

variable {t code : Text} {c : UInt8} {lines : List LogicalLine}

/-- The state of the loop between two steps. -/
structure Cursor where
  /-- The offset of the next byte. -/
  index : Nat
  /-- Whether a row begins. -/
  atStart : Bool
  /-- The literal that is open, if there is one: its mark, whether it is in three marks, and the line where
  it begins. -/
  quote : Option (UInt8 × Bool × Nat)
  /-- What has been read. -/
  scan : Scan

namespace Cursor

/-- The loop begins. -/
def start : Cursor := ⟨0, true, none, {}⟩

/-- A step inside of a literal. -/
def stepQuote (code : Text) (r : Cursor) (mark : UInt8) (triple : Bool) (line : Nat) (c : UInt8) :
    Except SyntaxError Cursor :=
  let s := r.scan.put c
  let rest := code.drop (r.index + 1)
  if c == Text.backslash && rest.head?.isSome then
    let d := rest.headD 0
    .ok { r with
      index := r.index + 2, scan := if d == Text.newline then (s.put d).nextLine else s.put d }
  else if c == Text.newline then
    if triple then .ok { r with index := r.index + 1, scan := s.nextLine }
    else .error ⟨line, .unterminatedString⟩
  else if triple && c == mark && [mark, mark].isPrefixOf rest then
    .ok { r with index := r.index + 3, quote := none, scan := (s.put mark).put mark }
  else if !triple && c == mark then .ok { r with index := r.index + 1, quote := none, scan := s }
  else .ok { r with index := r.index + 1, scan := s }

/-- A step at the beginning of a row: over its margin, and over the rest of the row if it has no text. -/
def stepStart (code : Text) (r : Cursor) : Cursor :=
  let margin := (code.drop r.index).takeWhile isMarginBlank
  let stop := r.index + margin.length
  match code.drop stop with
  | [] => { r with index := code.length }
  | c :: t =>
    if c == Text.newline then { r with index := stop + 1, scan := r.scan.nextLine }
    else if c == hash then
      { r with index := stop + 1 + (t.takeWhile (· != Text.newline)).length }
    else
      { r with index := stop, atStart := false, scan := r.scan.beginAt (margin.foldl advance 0) }

/-- A step in the text of a line. -/
def stepCode (code : Text) (r : Cursor) (c : UInt8) : Except SyntaxError Cursor :=
  let s := r.scan
  let rest := code.drop (r.index + 1)
  if c == hash then
    .ok { r with index := r.index + 1 + (rest.takeWhile (· != Text.newline)).length }
  else if isQuote c then
    if [c, c].isPrefixOf rest then
      .ok { r with
        index := r.index + 3, quote := some (c, true, s.line), scan := ((s.put c).put c).put c }
    else .ok { r with index := r.index + 1, quote := some (c, false, s.line), scan := s.put c }
  else if isOpening c then
    .ok { r with index := r.index + 1, scan := (s.put c).withOpen ((c, s.line) :: s.open_) }
  else if isClosing c then
    if s.open_.isEmpty then .error ⟨s.line, .unmatched c⟩
    else .ok { r with index := r.index + 1, scan := (s.put c).withOpen s.open_.tail }
  else if c == Text.backslash && rest.head? == some Text.newline then
    .ok { r with index := r.index + 2, scan := (s.put 0x20).nextLine }
  else if c == Text.newline then
    if s.open_.isEmpty then
      .ok { r with index := r.index + 1, atStart := true, scan := s.emit.nextLine }
    else .ok { r with index := r.index + 1, scan := (s.put 0x20).nextLine }
  else .ok { r with index := r.index + 1, scan := s.put c }

/-- **One step** of the loop, with the byte at its index. -/
def step (code : Text) (r : Cursor) (c : UInt8) : Except SyntaxError Cursor :=
  match r.quote with
  | some (mark, triple, line) => r.stepQuote code mark triple line c
  | none => if r.atStart then .ok (r.stepStart code) else r.stepCode code c

/-- What comes of the loop when it has ended. -/
def finish (r : Cursor) : Except SyntaxError (List LogicalLine) :=
  match r.quote with
  | some (_, triple, line) =>
    .error ⟨line, if triple then .unterminatedTripleString else .unterminatedString⟩
  | none =>
    match r.scan.open_ with
    | (bracket, line) :: _ => .error ⟨line, .neverClosed bracket⟩
    | [] => .ok r.scan.emit.done.reverse

/-- The **loop**, with a bound on its steps; `none` if it takes more. -/
def loop? (code : Text) : Nat → Cursor → Option (Except SyntaxError (List LogicalLine))
  | 0, _ => none
  | bound + 1, r =>
    match code[r.index]? with
    | none => some r.finish
    | some c =>
      match r.step code c with
      | .error e => some (.error e)
      | .ok r => loop? code bound r

/-- What the loop is reading. -/
def mode (r : Cursor) : ScanMode :=
  match r.quote with
  | some (mark, triple, line) => .string mark triple line
  | none => if r.atStart then .margin 0 else .code

/-- The scanner in the place of the loop. -/
def scanner (r : Cursor) : Scanner := ⟨r.mode, r.scan, 0⟩

/-- How much is left to do for the loop: bytes count twice, so that leaving the margin counts too. -/
def left (code : Text) (r : Cursor) : Nat := 2 * (code.length - r.index) + if r.atStart then 1 else 0

variable {r r' : Cursor}

/-- At the end of the source a scanner finishes. -/
theorem run_finish (r : Cursor) : r.scanner.run [] = r.finish := by
  obtain ⟨index, atStart, quote, s⟩ := r
  cases quote with
  | some quote => rfl
  | none => cases atStart <;> rfl

/-- What the loop does with an outcome of a step: it ends with a fault, or goes on at the new index. -/
def goOn (code : Text) (stepped : Except SyntaxError Cursor) : Except SyntaxError (List LogicalLine) :=
  stepped.bind fun r => r.scanner.run (code.drop r.index)

/-- Behind a byte the rest is counted from the next one. -/
theorem drop_succ {i : Nat} (here : code.drop i = c :: t) (n : Nat) :
    code.drop (i + (n + 1)) = t.drop n := by
  rw [← List.drop_drop, here, List.drop_succ_cons]

/-- The scanner goes on with what is in front of the loop. -/
theorem run_eq_goOn {mode : ScanMode} {s : Scan} (same : r.scanner = ⟨mode, s, 0⟩)
    (there : code.drop r.index = t) : Scanner.run ⟨mode, s, 0⟩ t = goOn code (.ok r) := by
  rw [← there, ← same]
  rfl

/-- A step inside a literal does what the scanner does byte by byte. -/
theorem run_stepQuote {mark : UInt8} {triple : Bool} {line : Nat}
    (open_ : r.quote = some (mark, triple, line)) (quote : isQuote mark = true)
    (inside : r.atStart = false) (here : code.drop r.index = c :: t) :
    r.scanner.run (c :: t) = goOn code (r.stepQuote code mark triple line c) := by
  obtain ⟨index, _, _, s⟩ := r
  subst open_ inside
  have rest (n : Nat) : code.drop (index + (n + 1)) = t.drop n := drop_succ here n
  have next : code.drop (index + 1) = t := rest 0
  show Scanner.run ⟨.string mark triple line, s, 0⟩ (c :: t) = _
  rw [Scanner.run_cons, Scanner.next, if_pos rfl, stepQuote]
  simp only [enter, Scanner.nextIn, next]
  -- A backslash takes the next byte along, which then cannot close the literal.
  by_cases escape : c = Text.backslash
  · have no_mark : (c == mark) = false :=
      beq_eq_false_iff_ne.2 fun same => (plain_of_isQuote quote).1 (same.symm.trans escape)
    have no_newline : (c == Text.newline) = false := by rw [escape]; rfl
    have is_escape : (c == Text.backslash) = true := beq_iff_eq.2 escape
    cases t with
    | nil =>
      simp only [is_escape, no_mark, no_newline, List.head?_nil, Option.isSome_none, Bool.and_false,
        Bool.false_and, Bool.false_eq_true, if_false, if_true, Option.elim_none]
      exact run_eq_goOn rfl next
    | cons d t =>
      simp only [is_escape, List.head?_cons, Option.isSome_some, Bool.and_true, if_true,
        Option.elim_some, List.headD_cons]
      exact run_eq_goOn rfl (rest 1)
  · have no_escape : (c == Text.backslash) = false := beq_eq_false_iff_ne.2 escape
    simp only [no_escape, Bool.false_and, Bool.false_eq_true, if_false]
    split
    · split
      · exact run_eq_goOn rfl next
      · rfl
    · split
      · rename_i closes
        simp only [Bool.and_eq_true, beq_iff_eq] at closes
        obtain ⟨⟨-, rfl⟩, begins⟩ := closes
        obtain ⟨tail, rfl⟩ := List.isPrefixOf_iff_prefix.1 begins
        exact run_eq_goOn rfl (rest 2)
      · split
        · exact run_eq_goOn rfl next
        · exact run_eq_goOn rfl next

/-- What is behind the longest row of bytes is left. -/
theorem drop_takeWhile (p : UInt8 → Bool) (t : Text) :
    t.drop (t.takeWhile p).length = t.dropWhile p := by
  have left : (t.takeWhile p ++ t.dropWhile p).drop (t.takeWhile p).length = t.dropWhile p :=
    List.drop_left
  rwa [List.takeWhile_append_dropWhile] at left

/-- A step at the beginning of a line does what the scanner does byte by byte. -/
theorem run_stepStart (none_open : r.quote = none) (start : r.atStart = true)
    (here : code.drop r.index = t) :
    r.scanner.run t = (r.stepStart code).scanner.run (code.drop (r.stepStart code).index) := by
  obtain ⟨index, _, _, s⟩ := r
  subst none_open start
  have here : code.drop index = t := here
  show Scanner.run ⟨.margin 0, s, 0⟩ t = _
  have whole : t.takeWhile isMarginBlank ++ t.dropWhile isMarginBlank = t :=
    List.takeWhile_append_dropWhile
  have blank : ∀ c ∈ t.takeWhile isMarginBlank, isMarginBlank c = true :=
    fun c member => List.mem_takeWhile_imp member
  have stop (n : Nat) : code.drop (index + (t.takeWhile isMarginBlank).length + n) =
      (t.dropWhile isMarginBlank).drop n := by
    rw [← List.drop_drop, ← List.drop_drop, here, drop_takeWhile]
  -- The blanks of a margin only move the column, so the scanner passes them in one go.
  have passed : Scanner.run ⟨.margin 0, s, 0⟩ t =
      Scanner.run ⟨.margin ((t.takeWhile isMarginBlank).foldl advance 0), s, 0⟩
        (t.dropWhile isMarginBlank) := by
    nth_rewrite 1 [← whole]
    exact Scanner.run_margin blank _
  have stops : ∀ c ∈ (t.dropWhile isMarginBlank).head?, isMarginBlank c = false :=
    fun _ first => Text.head_dropWhile first
  have at_stop := stop 0
  rw [Nat.add_zero, List.drop_zero] at at_stop
  rw [passed, stepStart]
  simp only [here, at_stop]
  generalize t.takeWhile isMarginBlank = margin at *
  generalize t.dropWhile isMarginBlank = u at *
  -- What stands behind the margin decides: nothing, an empty line, a comment, or a logical line.
  cases u with
  | nil =>
    show _ = Scanner.run ⟨.margin 0, s, 0⟩ (code.drop code.length)
    rw [List.drop_length]
    rfl
  | cons c u =>
    simp only
    split
    · rename_i newline
      obtain rfl := beq_iff_eq.1 newline
      show _ = Scanner.run ⟨.margin 0, s.nextLine, 0⟩ (code.drop (index + margin.length + 1))
      rw [stop 1]
      exact Scanner.run_newline ..
    · rename_i newline
      split
      · rename_i comment
        obtain rfl := beq_iff_eq.1 comment
        show _ = Scanner.run ⟨.margin 0, s, 0⟩
          (code.drop (index + margin.length + 1 + (u.takeWhile (· != Text.newline)).length))
        rw [← List.drop_drop, stop 1, List.drop_succ_cons, List.drop_zero, drop_takeWhile]
        exact Scanner.run_hash ..
      · rename_i comment
        have solid : isSolid c = true := by
          have := stops c rfl
          simp only [isSolid, this, bne, Bool.not_false, Bool.true_and, Bool.and_eq_true,
            Bool.not_eq_true']
          exact ⟨Bool.eq_false_iff.2 newline, Bool.eq_false_iff.2 comment⟩
        show _ = Scanner.run ⟨.code, s.beginAt _, 0⟩ (code.drop (index + margin.length))
        rw [at_stop]
        exact Scanner.run_solid solid ..

/-- A step in program text does what the scanner does byte by byte. -/
theorem run_stepCode (none_open : r.quote = none) (inside : r.atStart = false)
    (here : code.drop r.index = c :: t) :
    r.scanner.run (c :: t) = goOn code (r.stepCode code c) := by
  obtain ⟨index, _, _, s⟩ := r
  subst none_open inside
  have rest (n : Nat) : code.drop (index + (n + 1)) = t.drop n := drop_succ here n
  have next : code.drop (index + 1) = t := rest 0
  show Scanner.run ⟨.code, s, 0⟩ (c :: t) = _
  rw [Scanner.run_cons, Scanner.next, if_pos rfl, stepCode]
  simp only [enter, Scanner.nextIn, next]
  -- The cases are those of the step: a comment, a quotation mark, brackets, the end of a line.
  split
  · show Scanner.run ⟨.comment, s, 0⟩ t = Scanner.run ⟨.code, s, 0⟩
      (code.drop (index + 1 + (t.takeWhile (· != Text.newline)).length))
    rw [← List.drop_drop, next, drop_takeWhile]
    exact Scanner.run_comment s t
  · split
    · split
      · rename_i begins
        obtain ⟨tail, rfl⟩ := List.isPrefixOf_iff_prefix.1 begins
        exact run_eq_goOn rfl (rest 2)
      · exact run_eq_goOn rfl next
    · split
      · exact run_eq_goOn rfl next
      · split
        · split
          · rfl
          · exact run_eq_goOn rfl next
        · split
          · rename_i joint
            rw [Bool.and_eq_true, beq_iff_eq, beq_iff_eq] at joint
            obtain ⟨tail, rfl⟩ := List.head?_eq_some_iff.1 joint.2
            exact run_eq_goOn rfl (rest 1)
          · split
            · split
              · exact run_eq_goOn rfl next
              · exact run_eq_goOn rfl next
            · exact run_eq_goOn rfl next

/-! ## Going forward -/

/-- A literal is open only behind a margin, and its mark is one. -/
def Sound (r : Cursor) : Prop :=
  ∀ mark triple line, r.quote = some (mark, triple, line) → isQuote mark = true ∧ r.atStart = false

/-- **A step** of the loop goes on like the scanner, from where its index is then. -/
theorem run_step (sound : r.Sound) (here : code.drop r.index = c :: t) :
    r.scanner.run (c :: t) = goOn code (r.step code c) := by
  rw [step]
  cases open_ : r.quote with
  | some quote =>
    obtain ⟨mark, triple, line⟩ := quote
    obtain ⟨quote, inside⟩ := sound mark triple line open_
    exact run_stepQuote open_ quote inside here
  | none =>
    simp only
    split
    · rename_i start
      exact run_stepStart open_ start here
    · rename_i inside
      exact run_stepCode open_ (Bool.eq_false_iff.2 inside) here

/-- A step inside a literal goes forward. -/
theorem stepQuote_forward {mark : UInt8} {triple : Bool} {line : Nat}
    (stepped : r.stepQuote code mark triple line c = .ok r') :
    r.index < r'.index ∧ r'.atStart = r.atStart ∧ (r'.quote = r.quote ∨ r'.quote = none) := by
  have forward (n : Nat) : r.index < r.index + (n + 1) := Nat.lt_add_of_pos_right (Nat.succ_pos n)
  simp only [stepQuote] at stepped
  split_ifs at stepped <;> cases stepped
  · exact ⟨forward 1, rfl, .inl rfl⟩
  · exact ⟨forward 1, rfl, .inl rfl⟩
  · exact ⟨forward 0, rfl, .inl rfl⟩
  · exact ⟨forward 2, rfl, .inr rfl⟩
  · exact ⟨forward 0, rfl, .inr rfl⟩
  · exact ⟨forward 0, rfl, .inl rfl⟩

/-- A step in program text goes forward, and stays sound. -/
theorem stepCode_forward (none_open : r.quote = none) (inside : r.atStart = false)
    (stepped : r.stepCode code c = .ok r') : r.index < r'.index ∧ r'.Sound := by
  have forward (n : Nat) : r.index < r.index + (n + 1) := Nat.lt_add_of_pos_right (Nat.succ_pos n)
  have closed {r' : Cursor} (same : r'.quote = r.quote) : r'.Sound := fun mark triple line open_ => by
    rw [same, none_open] at open_
    cases open_
  have opened {r' : Cursor} {triple : Bool} (quote : isQuote c = true) (same : r'.atStart = r.atStart)
      (is_open : r'.quote = some (c, triple, r.scan.line)) : r'.Sound := fun _ _ _ open_ => by
    obtain ⟨rfl, -⟩ := Prod.mk.inj (Option.some.inj (is_open.symm.trans open_))
    exact ⟨quote, same.trans inside⟩
  simp only [stepCode] at stepped
  split_ifs at stepped with comment quote <;> cases stepped
  · exact ⟨Nat.lt_of_lt_of_le (forward 0) (Nat.le_add_right ..), closed rfl⟩
  · exact ⟨forward 2, opened quote rfl rfl⟩
  · exact ⟨forward 0, opened quote rfl rfl⟩
  · exact ⟨forward 0, closed rfl⟩
  · exact ⟨forward 0, closed rfl⟩
  · exact ⟨forward 1, closed rfl⟩
  · exact ⟨forward 0, closed rfl⟩
  · exact ⟨forward 0, closed rfl⟩
  · exact ⟨forward 0, closed rfl⟩

/-- A step at the beginning of a line goes forward, or to program text. -/
theorem stepStart_forward (bound : r.index < code.length) : (r.stepStart code).quote = r.quote ∧
    (r.index < (r.stepStart code).index ∨
      r.index ≤ (r.stepStart code).index ∧ (r.stepStart code).atStart = false) := by
  simp only [stepStart]
  generalize ((code.drop r.index).takeWhile isMarginBlank).length = n
  split
  · exact ⟨rfl, .inl bound⟩
  · split_ifs
    · exact ⟨rfl, .inl (by simp only; omega)⟩
    · exact ⟨rfl, .inl (by simp only; omega)⟩
    · exact ⟨rfl, .inr ⟨Nat.le_add_right .., rfl⟩⟩

/-- **A step goes forward**, or leaves the margin. -/
theorem forward_step (sound : r.Sound) (here : code.drop r.index = c :: t)
    (stepped : r.step code c = .ok r') : r'.Sound ∧ r'.left code < r.left code := by
  have bound : r.index < code.length := by
    have := congrArg List.length here
    rw [List.length_drop, List.length_cons] at this
    omega
  -- It is enough that the index goes forward, since bytes count twice.
  have forward (further : r.index < r'.index) : r'.left code < r.left code := by
    rw [left, left]
    split <;> split <;> omega
  rw [step] at stepped
  cases open_ : r.quote with
  | some quote =>
    obtain ⟨mark, triple, line⟩ := quote
    rw [open_] at stepped
    obtain ⟨further, same, kept⟩ := stepQuote_forward stepped
    refine ⟨fun mark' triple' line' open' => ?_, forward further⟩
    rcases kept with kept | closed
    · rw [same]
      exact sound _ _ _ (kept.symm.trans open')
    · cases closed.symm.trans open'
  | none =>
    rw [open_] at stepped
    simp only at stepped
    split at stepped
    · rename_i start
      cases stepped
      obtain ⟨same, further⟩ := stepStart_forward bound
      refine ⟨fun mark triple line open' => ?_, ?_⟩
      · rw [same, open_] at open'
        cases open'
      · rcases further with further | ⟨stays, leaves⟩
        · exact forward further
        · rw [left, left, leaves, if_pos start, if_neg Bool.false_ne_true]
          omega
    · rename_i inside
      obtain ⟨further, sound'⟩ := stepCode_forward open_ (Bool.eq_false_iff.2 inside) stepped
      exact ⟨sound', forward further⟩

/-- **The loop ends** within its bound, and with what the scanner ends with. -/
theorem loop?_eq {bound : Nat} (sound : r.Sound) (enough : r.left code < bound) :
    loop? code bound r = some (r.scanner.run (code.drop r.index)) := by
  induction bound generalizing r with
  | zero => exact absurd enough (Nat.not_lt_zero _)
  | succ bound ih =>
    rw [loop?]
    cases byte : code[r.index]? with
    | none =>
      rw [List.drop_eq_nil_of_le (List.getElem?_eq_none_iff.1 byte), run_finish]
    | some c =>
      obtain ⟨inside, rfl⟩ := List.getElem?_eq_some_iff.1 byte
      have here : code.drop r.index = code[r.index] :: code.drop (r.index + 1) :=
        List.drop_eq_getElem_cons inside
      rw [here, run_step sound here]
      simp only
      cases stepped : r.step code code[r.index] with
      | error e => rfl
      | ok r' =>
        obtain ⟨sound', less⟩ := forward_step sound here stepped
        exact ih sound' (by omega)

end Cursor

/-- **Logical lines** are found by a loop that ends, after at most two steps for each byte and two more.
Those of a source that can be read stand in it, each with the number of the physical line where its first
byte stands that is no blank, and these numbers increase. Their texts are not empty and have no blanks
around them, and each of them is closed: there is one way to read it, and outside of its literals as many
brackets are closed as are opened, and none before it is opened. -/
theorem logicalLines_sound (source : Text) :
    Cursor.loop? (unixLines source) (2 * (unixLines source).length + 2) .start =
      some (logicalLines source) ∧
    ∀ lines, logicalLines source = .ok lines →
      (∀ ln ∈ lines, ln.StandsIn (unixLines source)) ∧
      (lines.Pairwise fun ln ln' => ln.line < ln'.line) ∧
      ∀ ln ∈ lines, ln.text ≠ [] ∧ Text.trim ln.text = ln.text ∧
        ∃ pieces, Closed pieces ln.text ∧ (∀ other, Closed other ln.text → other = pieces) ∧
          (outside pieces).countP isClosing = (outside pieces).countP isOpening ∧
          ∀ front, front <+: outside pieces → front.countP isClosing ≤ front.countP isOpening := by
  refine ⟨?_, fun lines read => ?_⟩
  · have sound : Cursor.start.Sound := fun _ _ _ => nofun
    refine Cursor.loop?_eq sound ?_
    show 2 * ((unixLines source).length - 0) + 1 < _
    omega
  · have stands := (logicalLines_eq_ok.1 read).standsIn (.inl rfl)
    rw [List.nil_append] at stands
    refine ⟨stands, logicalLines_increasing read, fun ln member => ?_⟩
    obtain ⟨front, margin, pieces, back, -, -, -, -, reads, -, -, text, filled⟩ := stands ln member
    have closed : Closed (pieces.flatMap Piece.settled) (shown pieces) :=
      ⟨reads.read_shown, isPlain_settled pieces⟩
    obtain ⟨trimmed, closed⟩ := exists_closed_trim closed
    rw [← text] at closed
    refine ⟨filled, by rw [text, Text.trim_trim], trimmed, closed, fun other closed' => ?_,
      closed.1.countP_outside, fun front leads => closed.1.countP_front leads⟩
    exact (closed'.1.unique closed.1).1

/-- The source of a line that goes on inside of brackets, behind a comment and through a literal in three
marks, and of an indented line with an escaped mark. -/
def joinedSource : Text := "x = [1, # (\r\n \"\"\"a\n]\"\"\"]\n\n\ty = \"#\\\"\"\n"

/-- Its lines begin on the first and on the fifth physical line, and are closed. -/
theorem joined_lines_sound : ∃ lines, logicalLines joinedSource = .ok lines ∧
    lines = [⟨0, 1, "x = [1,   \"\"\"a\n]\"\"\"]"⟩, ⟨8, 5, "y = \"#\\\"\""⟩] ∧
    ∀ ln ∈ lines, ln.StandsIn (unixLines joinedSource) ∧ ∃ pieces, Closed pieces ln.text := by
  have read : logicalLines joinedSource =
      .ok [⟨0, 1, "x = [1,   \"\"\"a\n]\"\"\"]"⟩, ⟨8, 5, "y = \"#\\\"\""⟩] := by
    decide +kernel
  obtain ⟨stands, -, sound⟩ := (logicalLines_sound joinedSource).2 _ read
  refine ⟨_, read, rfl, fun ln member => ⟨stands ln member, ?_⟩⟩
  obtain ⟨-, -, pieces, closed, -⟩ := sound ln member
  exact ⟨pieces, closed⟩

end FlowTrace.Python
