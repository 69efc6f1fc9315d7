import FlowTrace.Proofs.Python.Rows
import FlowTrace.Proofs.Python.Scan

/-! # Literals in logical lines

The scanner of logical lines and the guard of the top level each know which bytes of a line are
inside a string literal. The scanner reads literals in three quotation marks as one, the guard reads
them as literals in single marks, one behind the other. A **marked line** is a logical line with what
the scanner read each byte as; the main result, `scanners_agree_iff`, says on which lines the two
agree. -/

namespace FlowTrace.Python

open Guard

/-! ## The scanner with marks -/

/-- What a byte is read as in a mode; `t` is what follows the byte. -/
def ScanMode.part (mode : ScanMode) (c : UInt8) (t : Text) : Part :=
  match mode with
  | .code => if isQuote c then .literal else .code
  | .string mark triple _ =>
    if triple && c == mark && !([mark, mark].isPrefixOf t) then .loose else .literal
  | _ => .code

/-- What the scanner reads a byte as. -/
def Scanner.part (r : Scanner) (c : UInt8) (t : Text) : Part := (enter r.mode r.scan c).1.part c t

/-- A scanner that keeps what it read the bytes of the current line as. -/
structure Reader where
  /-- The scanner. -/
  scanner : Scanner
  /-- The bytes of the current line, last first. -/
  bytes : List (UInt8 × Part)
  /-- The finished lines, last first. -/
  done : List MarkedLine

namespace Reader

/-- The reader at the beginning of a source. -/
def start : Reader := ⟨.start, [], []⟩

/-- The finished lines when the current one ends. -/
def emit (r : Reader) : List MarkedLine :=
  let text := Text.trim r.scanner.scan.text.reverse
  if text.isEmpty then r.done
  else ⟨⟨r.scanner.scan.indent, r.scanner.scan.first, text⟩, trimBytes r.bytes.reverse⟩ :: r.done

/-- The bytes of the current line when the scanner has put some to the text. -/
def grow (r : Reader) (text : Text) (part : Part) : List (UInt8 × Part) :=
  (text.take (text.length - r.scanner.scan.text.length)).map (fun c => (c, part)) ++ r.bytes

/-- The reader behind a byte. When the scanner goes back to the margin a line has ended. -/
def next (r : Reader) (c : UInt8) (t : Text) : Except SyntaxError Reader :=
  (r.scanner.next c t).map fun s =>
    if s.mode.isMargin && !r.scanner.mode.isMargin then ⟨s, [], r.emit⟩
    else ⟨s, r.grow s.scan.text (r.scanner.part c t), r.done⟩

/-- Reads the rest of a source. -/
def run : Reader → Text → Except SyntaxError (List MarkedLine)
  | r, [] => (r.scanner.run []).map fun _ => r.emit.reverse
  | r, c :: t => (r.next c t).bind fun r => r.run t

end Reader

/-- The logical lines of a source with what their bytes are read as. -/
def markedLines (code : Text) : Except SyntaxError (List MarkedLine) :=
  Reader.start.run (code.replace "\r\n" "\n")

/-! ## What a byte leads the guard to -/

/-- The mark of the literal that is being read. -/
def ScanMode.mark? : ScanMode → Option UInt8
  | .string mark _ _ => some mark
  | _ => none

/-- Bytes **steer** the guard from one literal to another, or out of literals, and agree with it. -/
def Steers (mark mark' : Option UInt8) (new : List (UInt8 × Part)) : Prop :=
  ∀ g : Guard, SameQuote g ⟨0, mark, false⟩ →
    g.marks (new.map Prod.fst) = new.map (fun b => b.2.inside) ∧
      SameQuote (g.behind (new.map Prod.fst)) ⟨0, mark', false⟩

namespace Steers

variable {mark mark' mark'' : Option UInt8} {new new' : List (UInt8 × Part)} {m c : UInt8}

/-- Nothing steers from a mark to itself. -/
theorem nil (mark : Option UInt8) : Steers mark mark [] := fun _ same => ⟨rfl, same⟩

/-- Parts steer one after the other. -/
theorem append (first : Steers mark mark' new) (second : Steers mark' mark'' new') :
    Steers mark mark'' (new ++ new') := by
  intro g same
  obtain ⟨marks, behind⟩ := first g same
  obtain ⟨marks', behind'⟩ := second _ behind
  rw [List.map_append, List.map_append, marks_append, marks, marks', behind_append]
  exact ⟨rfl, behind'⟩

/-- A byte of program text that is no quotation mark opens nothing. -/
theorem code (plain : isQuote c = false) : Steers none none [(c, .code)] := by
  intro g same
  refine ⟨?_, Guard.next_none plain same⟩
  show [g.mark.isSome || isQuote c] = [false]
  rw [same.1, plain]
  rfl

/-- A quotation mark opens a literal. -/
theorem opens (quote : isQuote c = true) : Steers none (some c) [(c, .literal)] := by
  intro g same
  refine ⟨?_, Guard.next_quote quote same⟩
  show [g.mark.isSome || isQuote c] = [true]
  rw [quote, Bool.or_true]

/-- Inside of a literal every byte is a part of it; the rest is the state of the guard behind it. -/
theorem of_next (next : ∀ depth, SameQuote (Guard.next ⟨depth, some m, false⟩ c) ⟨0, mark', false⟩) :
    Steers (some m) mark' [(c, .literal)] := by
  intro g same
  obtain ⟨depth, mark, escaped⟩ := g
  obtain ⟨rfl, rfl⟩ : mark = some m ∧ escaped = false := same
  exact ⟨rfl, next depth⟩

/-- A byte of a literal stays in it. -/
theorem inside (other : c ≠ m) (unescaped : c ≠ Text.backslash) :
    Steers (some m) (some m) [(c, .literal)] := by
  refine of_next fun depth => ?_
  rw [Guard.next_inside other unescaped]
  exact ⟨rfl, rfl⟩

/-- The mark closes its literal. -/
theorem closes (unescaped : m ≠ Text.backslash) : Steers (some m) none [(m, .literal)] := by
  refine of_next fun depth => ?_
  rw [Guard.next_mark unescaped]
  exact ⟨rfl, rfl⟩

/-- A backslash takes the next byte along. -/
theorem escape : Steers (some m) (some m) [(Text.backslash, .literal), (c, .literal)] := by
  intro g same
  obtain ⟨depth, mark, escaped⟩ := g
  obtain ⟨rfl, rfl⟩ : mark = some m ∧ escaped = false := same
  exact ⟨rfl, rfl, rfl⟩

end Steers

/-- A quotation mark is no backslash. -/
theorem ne_backslash_of_isQuote {c : UInt8} (quote : isQuote c = true) : c ≠ Text.backslash := by
  rintro rfl
  revert quote
  decide

/-- The literal that is being read has a mark. -/
def ScanMode.Quoted (mode : ScanMode) : Prop := ∀ mark ∈ mode.mark?, isQuote mark = true

/-- What the scanner does at a byte inside of a line or in the margin: it **puts** bytes to the
text. -/
structure Puts (mode : ScanMode) (scan : Scan) (s : Scanner) (part : Part) (put : Text) : Prop where
  /-- They are put behind the text. -/
  text : s.scan.text = put.reverse ++ scan.text
  /-- No line is finished. -/
  done : s.scan.done = scan.done
  /-- Literals are opened by marks. -/
  quoted : s.mode.Quoted
  /-- The guard follows the scanner, except at a loose mark. -/
  steers : (part = .loose → put = []) → Steers mode.mark? s.mode.mark? (put.map fun c => (c, part))
  /-- Bytes of code are no marks. -/
  code : part = .code → ∀ c ∈ put, isQuote c = false
  /-- Loose marks are marks. -/
  loose : part = .loose → ∀ c ∈ put, isQuote c = true
  /-- Nothing is put in the margin. -/
  margin : s.mode.isMargin = true → put = []

/-- The scanner finishes a line. -/
structure Ends (scan : Scan) (s : Scanner) : Prop where
  mode : s.mode = .margin 0
  scan : s.scan = scan.emit.nextLine

variable {mode : ScanMode} {scan : Scan} {s : Scanner} {c : UInt8} {t : Text}

/-- A step that adds no text puts nothing. -/
theorem puts_nothing (part : Part) (text : s.scan.text = scan.text) (done : s.scan.done = scan.done)
    (same : s.mode.mark? = mode.mark?) (quoted : mode.Quoted) : Puts mode scan s part [] where
  text := text
  done := done
  quoted := by rw [ScanMode.Quoted, same]; exact quoted
  steers := fun _ => by rw [same]; exact .nil _
  code := by simp
  loose := by simp
  margin := fun _ => rfl

/-- A byte of code that is no mark. -/
theorem puts_code (plain : isQuote c = false) {d : UInt8} (text : s.scan.text = d :: scan.text)
    (other : isQuote d = false) (done : s.scan.done = scan.done) (same : s.mode = .code) :
    Puts .code scan s (ScanMode.code.part c t) [d] where
  text := text
  done := done
  quoted := by rw [same]; intro mark member; cases member
  steers := fun _ => by
    rw [same, ScanMode.part, plain]
    exact .code other
  code := fun _ => List.forall_mem_singleton.2 other
  loose := fun loose => by rw [ScanMode.part, plain] at loose; cases loose
  margin := fun margin => by rw [same] at margin; cases margin

/-- Program text is outside of quotations. -/
theorem quoted_code : ScanMode.code.Quoted := by
  intro mark member
  cases member

/-- A literal is in its quotation mark. -/
theorem quoted_string {mark : UInt8} (quote : isQuote mark = true) (triple : Bool) (line : Nat) :
    (ScanMode.string mark triple line).Quoted := by
  intro mark member
  cases member
  exact quote

/-- Bytes of a literal. -/
theorem puts_literal {put : Text} (text : s.scan.text = put.reverse ++ scan.text)
    (done : s.scan.done = scan.done) (quoted : s.mode.Quoted) (inside : s.mode.isMargin = false)
    (steers : Steers mode.mark? s.mode.mark? (put.map fun c => (c, .literal))) :
    Puts mode scan s .literal put where
  text := text
  done := done
  quoted := quoted
  steers := fun _ => steers
  code := by simp
  loose := by simp
  margin := fun margin => by rw [inside] at margin; cases margin

/-- A quotation mark begins no comment. -/
theorem not_hash_of_isQuote (quote : isQuote c = true) : (c == '#') = false := by
  by_contra hash
  rw [Bool.not_eq_false, beq_iff_eq] at hash
  subst hash
  revert quote
  decide

/-- In the text of a line either the line ends or bytes are put. -/
theorem code_cases (read : Scanner.nextIn .code scan c t = .ok s) :
    (c = Text.newline ∧ Ends scan s) ∨
      s.mode.isMargin = false ∧ ∃ put, Puts .code scan s (ScanMode.code.part c t) put := by
  simp only [Scanner.nextIn] at read
  by_cases quote : isQuote c = true
  · -- a literal begins, with one mark or three
    rw [not_hash_of_isQuote quote, if_neg Bool.false_ne_true, if_pos quote] at read
    rw [show ScanMode.code.part c t = .literal by rw [ScanMode.part, if_pos quote]]
    split at read <;> cases read
    · -- the guard reads three marks as an empty literal and the mark of another one
      have steers : Steers none (some c) [(c, .literal), (c, .literal), (c, .literal)] :=
        ((Steers.opens quote).append (.closes (ne_backslash_of_isQuote quote))).append (.opens quote)
      exact .inr ⟨rfl, [c, c, c], puts_literal rfl rfl (quoted_string quote _ _) rfl steers⟩
    · exact .inr ⟨rfl, [c], puts_literal rfl rfl (quoted_string quote _ _) rfl (.opens quote)⟩
  · rw [Bool.not_eq_true] at quote
    have space : isQuote 0x20 = false := by decide
    rw [quote, if_neg Bool.false_ne_true] at read
    split_ifs at read <;> cases read
    · exact .inr ⟨rfl, [], puts_nothing _ rfl rfl rfl quoted_code⟩
    · exact .inr ⟨rfl, [c], puts_code quote rfl quote rfl rfl⟩
    · exact .inr ⟨rfl, [c], puts_code quote rfl quote rfl rfl⟩
    · exact .inr ⟨rfl, [0x20], puts_code quote rfl space rfl rfl⟩
    · rename_i newline _
      exact .inl ⟨by simpa using newline, rfl, rfl⟩
    · exact .inr ⟨rfl, [0x20], puts_code quote rfl space rfl rfl⟩
    · exact .inr ⟨rfl, [c], puts_code quote rfl quote rfl rfl⟩

/-- A byte inside of a literal, which goes on. -/
theorem puts_inside {mark : UInt8} {triple : Bool} {line : Nat} (quoted : isQuote mark = true)
    (other : c ≠ mark) (unescaped : c ≠ Text.backslash) (text : s.scan.text = c :: scan.text)
    (done : s.scan.done = scan.done) (same : s.mode = .string mark triple line) :
    Puts (.string mark triple line) scan s (ScanMode.part (.string mark triple line) c t) [c] := by
  have part : ScanMode.part (.string mark triple line) c t = .literal := by
    rw [ScanMode.part, beq_eq_false_iff_ne.2 other, Bool.and_false, Bool.false_and]
    rfl
  rw [part]
  refine puts_literal text done ?_ ?_ ?_ <;> rw [same]
  · exact quoted_string quoted _ _
  · rfl
  · exact .inside other unescaped

section

variable {mark : UInt8} {triple : Bool} {line : Nat}

/-- A backslash is put with the byte behind it. The source does not end there. -/
theorem string_backslash (quoted : isQuote mark = true)
    (read : Scanner.nextIn (.string mark triple line) scan Text.backslash t = .ok s)
    {lines : List LogicalLine} (later : s.run t = .ok lines) :
    s.mode.isMargin = false ∧ ∃ put, Puts (.string mark triple line) scan s
      (ScanMode.part (.string mark triple line) Text.backslash t) put := by
  have other : (Text.backslash == mark) = false :=
    beq_eq_false_iff_ne.2 (ne_backslash_of_isQuote quoted).symm
  have part : ScanMode.part (.string mark triple line) Text.backslash t = .literal := by
    rw [ScanMode.part, other, Bool.and_false, Bool.false_and]
    rfl
  rw [part]
  rw [Scanner.nextIn, if_pos (by simp)] at read
  cases t with
  | nil =>
    cases read
    cases later
  | cons d t =>
    cases read
    simp only [List.head?_cons, Option.elim_some]
    refine ⟨rfl, [Text.backslash, d], ?_⟩
    -- a newline counts as a line, but its byte is put like any other
    split
    · exact puts_literal rfl rfl (quoted_string quoted _ _) rfl .escape
    · exact puts_literal rfl rfl (quoted_string quoted _ _) rfl .escape

/-- The mark of a literal ends it, or it is one of three: then it is loose if the other two do not
follow. -/
theorem string_mark (quoted : isQuote mark = true) (no_newline : mark ≠ Text.newline)
    (read : Scanner.nextIn (.string mark triple line) scan mark t = .ok s) :
    s.mode.isMargin = false ∧ ∃ put, Puts (.string mark triple line) scan s
      (ScanMode.part (.string mark triple line) mark t) put := by
  have solid := ne_backslash_of_isQuote quoted
  rw [Scanner.nextIn, if_neg (by simpa using solid), if_neg (by simpa using no_newline)] at read
  cases triple with
  | false =>
    simp only [Bool.false_and, Bool.false_eq_true, if_false, Bool.not_false,
      beq_self_eq_true, Bool.and_self, if_true] at read
    cases read
    exact ⟨rfl, [mark], puts_literal rfl rfl quoted_code rfl (.closes solid)⟩
  | true =>
    simp only [beq_self_eq_true, Bool.and_true, Bool.true_and] at read
    -- In a literal with three marks, one mark alone is a byte of it: a loose one.
    by_cases ends : [mark, mark].isPrefixOf t = true
    · rw [if_pos ends] at read
      cases read
      have part : ScanMode.part (.string mark true line) mark t = .literal := by
        rw [ScanMode.part, ends]
        simp
      have steers : Steers (some mark) none
          [(mark, .literal), (mark, .literal), (mark, .literal)] :=
        ((Steers.closes solid).append (.opens quoted)).append (.closes solid)
      rw [part]
      exact ⟨rfl, [mark, mark, mark], puts_literal rfl rfl quoted_code rfl steers⟩
    · rw [if_neg ends] at read
      cases read
      have part : ScanMode.part (.string mark true line) mark t = .loose := by
        rw [ScanMode.part, Bool.eq_false_iff.2 ends]
        simp
      rw [part]
      exact ⟨rfl, [mark], rfl, rfl, quoted_string quoted _ _,
        fun strict => absurd (strict rfl) (by simp), by simp,
        fun _ => List.forall_mem_singleton.2 quoted, by simp [ScanMode.isMargin]⟩

/-- **Inside of a literal** bytes are put. -/
theorem string_cases (quoted : isQuote mark = true)
    (read : Scanner.nextIn (.string mark triple line) scan c t = .ok s) {lines : List LogicalLine}
    (later : s.run t = .ok lines) :
    s.mode.isMargin = false ∧
      ∃ put, Puts (.string mark triple line) scan s
        (ScanMode.part (.string mark triple line) c t) put := by
  have no_newline : mark ≠ Text.newline := by
    rintro rfl
    revert quoted
    decide
  by_cases escape : c = Text.backslash
  · subst escape
    exact string_backslash quoted read later
  by_cases same : c = mark
  · subst same
    exact string_mark quoted no_newline read
  rw [Scanner.nextIn, if_neg (by simpa using escape)] at read
  by_cases newline : c = Text.newline
  · rw [if_pos (by simpa using newline)] at read
    split at read <;> cases read
    exact ⟨rfl, [c], puts_inside quoted same escape rfl rfl rfl⟩
  · have other : (c == mark) = false := beq_eq_false_iff_ne.2 same
    rw [if_neg (by simpa using newline)] at read
    simp only [other, Bool.and_false, Bool.false_and, Bool.false_eq_true, if_false] at read
    cases read
    exact ⟨rfl, [c], puts_inside quoted same escape rfl rfl rfl⟩

end

/-- Only the text and the finished lines count. -/
theorem Puts.of_same {mode' : ScanMode} {scan' : Scan} {part : Part} {put : Text}
    (puts : Puts mode' scan' s part put) (text : scan'.text = scan.text)
    (done : scan'.done = scan.done) (same : mode'.mark? = mode.mark?) :
    Puts mode scan s part put :=
  { puts with
    text := by rw [puts.text, text]
    done := by rw [puts.done, done]
    steers := by rw [← same]; exact puts.steers }

/-- What the scanner does at a byte: it finishes a line, or it puts bytes to the text. -/
theorem Scanner.next_cases {r : Scanner} (quoted : r.mode.Quoted) (read : r.next c t = .ok s)
    {lines : List LogicalLine} (later : s.run t = .ok lines) :
    (r.mode.isMargin = false ∧ Ends r.scan s) ∨
      (s.mode.isMargin = true → r.mode.isMargin = true) ∧
        ∃ put, Puts r.mode r.scan s (r.part c t) put := by
  obtain ⟨mode, scan, skip⟩ := r
  rw [next] at read
  cases skip with
  | succ skip =>
    -- A byte of a longer rune that was put to the text before.
    cases read
    exact .inr ⟨id, [], puts_nothing _ rfl rfl rfl quoted⟩
  | zero =>
    simp only [if_true] at read
    rw [part]
    cases mode with
    -- In the margin the first byte that is no blank begins the code.
    | margin column =>
      rw [enter] at read ⊢
      split at read
      · rename_i blank
        refine .inr ⟨fun _ => rfl, [], ?_⟩
        simp only [nextIn] at read
        split_ifs at read <;> cases read <;> exact puts_nothing _ rfl rfl rfl quoted
      · rename_i begins
        rw [if_neg begins]
        rcases code_cases read with ends | inside
        · simp [ends.1] at begins
        · obtain ⟨put, puts⟩ := inside.2
          exact .inr ⟨fun _ => rfl, put, puts.of_same rfl rfl rfl⟩
    | marginComment =>
      refine .inr ⟨fun _ => rfl, [], ?_⟩
      rw [enter] at read
      simp only at read
      split at read <;> cases read
      · refine puts_nothing _ ?_ ?_ ?_ quoted <;> split_ifs <;> rfl
      · exact puts_nothing _ rfl rfl rfl quoted
    -- A comment ends with its line, in code.
    | comment =>
      rw [enter] at read ⊢
      simp only at read
      split at read
      · rename_i newline
        rw [if_pos newline]
        refine (code_cases read).imp (fun ends => ⟨rfl, ends.2⟩) fun inside => ⟨?_, ?_⟩
        · rw [inside.1]
          intro margin
          cases margin
        · obtain ⟨put, puts⟩ := inside.2
          exact ⟨put, puts.of_same rfl rfl rfl⟩
      · cases read
        exact .inr ⟨id, [], puts_nothing _ rfl rfl rfl quoted⟩
    | code =>
      refine (code_cases read).imp (fun ends => ⟨rfl, ends.2⟩) fun inside => ⟨?_, inside.2⟩
      rw [inside.1]
      intro margin
      cases margin
    | string mark triple line =>
      have inside := string_cases (quoted mark rfl) read later
      refine .inr ⟨?_, inside.2⟩
      rw [inside.1]
      intro margin
      cases margin

/-! ## What is known of marked lines -/

/-- A marked line is **sound**: its bytes are those of the line, no mark is read as code, and where
there is no loose mark the scanner and the guard agree. -/
structure MarkedLine.Sound (ln : MarkedLine) : Prop where
  text : ln.bytes.map Prod.fst = ln.line.text
  plain : ∀ b ∈ ln.bytes, b.2 = .code → isQuote b.1 = false
  agree : (∀ b ∈ ln.bytes, b.2 ≠ .loose) → Agree ln.bytes

/-- What holds of the reader between two bytes. -/
structure Reader.Sound (r : Reader) : Prop where
  text : r.bytes.map Prod.fst = r.scanner.scan.text
  lines : r.done.map MarkedLine.line = r.scanner.scan.done
  quoted : r.scanner.mode.Quoted
  plain : ∀ b ∈ r.bytes, b.2 = .code → isQuote b.1 = false
  loose : ∀ b ∈ r.bytes, b.2 = .loose → isQuote b.1 = true
  margin : r.scanner.mode.isMargin = true → r.bytes = []
  steers : (∀ b ∈ r.bytes, b.2 ≠ .loose) → Steers none r.scanner.mode.mark? r.bytes.reverse
  done : ∀ ln ∈ r.done, ln.Sound

namespace Reader

variable {r : Reader}

/-- The lines of the reader are those of the scanner. -/
theorem map_emit (sound : r.Sound) : r.emit.map MarkedLine.line = r.scanner.scan.emit.done := by
  rw [emit, Scan.emit]
  split
  · exact sound.lines
  · rw [List.map_cons, sound.lines]

/-- A finished line is sound. -/
theorem sound_emit (sound : r.Sound) : ∀ ln ∈ r.emit, ln.Sound := by
  rw [emit]
  split
  · exact sound.done
  · refine List.forall_mem_cons.2 ⟨?_, sound.done⟩
    have text : (r.bytes.reverse.map Prod.fst) = r.scanner.scan.text.reverse := by
      rw [List.map_reverse, sound.text]
    obtain ⟨front, back, divided, blank, blank', trimmed⟩ := exists_trimBytes r.bytes.reverse
    rw [text] at trimmed
    have inside : ∀ b ∈ trimBytes r.bytes.reverse, b ∈ r.bytes := by
      intro b member
      rw [← List.mem_reverse, divided]
      exact List.mem_append_right _ (List.mem_append_left _ member)
    refine ⟨trimmed, fun b member => sound.plain b (inside b member), fun strict => ?_⟩
    -- no mark is taken away
    have kept : ∀ b ∈ r.bytes, isQuote b.1 = true → b ∈ trimBytes r.bytes.reverse := by
      intro b member quote
      rw [← List.mem_reverse, divided, List.mem_append, List.mem_append] at member
      rcases member with early | here | late
      · rw [not_isQuote_of_gap blank b.1 (List.mem_map_of_mem (f := Prod.fst) early)] at quote
        cases quote
      · exact here
      · rw [not_isQuote_of_gap blank' b.1 (List.mem_map_of_mem (f := Prod.fst) late)] at quote
        cases quote
    have all : ∀ b ∈ r.bytes, b.2 ≠ .loose := fun b member is_loose =>
      strict b (kept b member (sound.loose b member is_loose)) is_loose
    obtain ⟨marks, -⟩ := sound.steers all Guard.start ⟨rfl, rfl⟩
    rw [divided] at marks
    simp only [List.map_append, marks_append] at marks
    have marks := (List.append_inj (List.append_inj marks (by simp)).2 (by simp)).1
    have same := (Guard.marks_gap blank ⟨rfl, rfl⟩).2.marks ((trimBytes r.bytes.reverse).map Prod.fst)
    rw [Agree, ← same]
    exact marks

/-- A scan that begins is sound. -/
theorem sound_start : start.Sound where
  text := rfl
  lines := rfl
  quoted := by intro mark member; cases member
  plain := by simp [start]
  loose := by simp [start]
  margin := fun _ => rfl
  steers := fun _ => .nil _
  done := by simp [start]

/-- The line is finished: the reader is in front of the next one. -/
theorem Sound.ends (sound : r.Sound) {s : Scanner} (ends : Ends r.scanner.scan s) :
    Sound ⟨s, [], r.emit⟩ where
  text := by rw [ends.scan]; rfl
  lines := by rw [ends.scan]; exact map_emit sound
  quoted := by
    rw [ends.mode]
    intro mark member
    cases member
  plain := by simp
  loose := by simp
  margin := fun _ => rfl
  steers := fun _ => by
    rw [ends.mode]
    exact .nil _
  done := sound_emit sound

/-- Bytes that are put to the text become the last ones of the line. -/
theorem grow_of_puts {s : Scanner} {part : Part} {put : Text}
    (puts : Puts r.scanner.mode r.scanner.scan s part put) :
    r.grow s.scan.text part = (put.map fun c => (c, part)).reverse ++ r.bytes := by
  rw [grow, puts.text, List.length_append, Nat.add_sub_cancel, List.take_left, List.map_reverse]

/-- Bytes are put to the text of the line. -/
theorem Sound.puts (sound : r.Sound) {s : Scanner} {part : Part} {put : Text}
    (stays : s.mode.isMargin = true → r.scanner.mode.isMargin = true)
    (puts : Puts r.scanner.mode r.scanner.scan s part put) :
    Sound ⟨s, r.grow s.scan.text part, r.done⟩ := by
  rw [grow_of_puts puts]
  -- A byte of the line was put there now or before.
  have member {b : UInt8 × Part} (inside : b ∈ (put.map fun c => (c, part)).reverse ++ r.bytes) :
      (b.1 ∈ put ∧ b.2 = part) ∨ b ∈ r.bytes := by
    rcases List.mem_append.1 inside with new | old
    · obtain ⟨c, is_put, rfl⟩ := List.mem_map.1 (List.mem_reverse.1 new)
      exact .inl ⟨is_put, rfl⟩
    · exact .inr old
  exact
    { text := by
        rw [List.map_append, List.map_reverse, List.map_map, sound.text, puts.text]
        congr 2
        exact List.map_id _
      lines := by rw [puts.done]; exact sound.lines
      quoted := puts.quoted
      plain := by
        intro b inside code
        rcases member inside with ⟨is_put, same⟩ | old
        · exact puts.code (same.symm.trans code) b.1 is_put
        · exact sound.plain b old code
      loose := by
        intro b inside is_loose
        rcases member inside with ⟨is_put, same⟩ | old
        · exact puts.loose (same.symm.trans is_loose) b.1 is_put
        · exact sound.loose b old is_loose
      margin := by
        intro margin
        rw [puts.margin margin, sound.margin (stays margin)]
        rfl
      steers := by
        intro strict
        rw [List.forall_mem_append] at strict
        have put_nothing : part = .loose → put = [] := by
          intro is_loose
          cases put with
          | nil => rfl
          | cons c put => exact absurd is_loose (strict.1 (c, part) (by simp))
        rw [List.reverse_append, List.reverse_reverse]
        exact (sound.steers strict.2).append (puts.steers put_nothing)
      done := sound.done }

/-- Reading a byte keeps what holds of the reader. -/
theorem Sound.next (sound : r.Sound) {c : UInt8} {t : Text} {s : Scanner}
    (read : r.scanner.next c t = .ok s) {lines : List LogicalLine} (later : s.run t = .ok lines) :
    ∃ r' : Reader, r.next c t = .ok r' ∧ r'.scanner = s ∧ r'.Sound := by
  rw [Reader.next, read]
  refine ⟨_, rfl, ?_⟩
  simp only
  rcases Scanner.next_cases sound.quoted read later with ⟨inside, ends⟩ | ⟨stays, put, puts⟩
  · -- the line is finished
    have left : (s.mode.isMargin && !r.scanner.mode.isMargin) = true := by
      rw [ends.mode, inside]
      rfl
    rw [if_pos left]
    exact ⟨rfl, sound.ends ends⟩
  · -- bytes are put to the text
    have no_end : ¬ (s.mode.isMargin && !r.scanner.mode.isMargin) = true := by
      intro left
      rw [Bool.and_eq_true, Bool.not_eq_true'] at left
      rw [stays left.1] at left
      cases left.2
    rw [if_neg no_end]
    exact ⟨rfl, sound.puts stays puts⟩

/-- **The reader reads what the scanner reads**, and its lines are sound. -/
theorem Sound.run (sound : r.Sound) {t : Text} {lines : List LogicalLine}
    (read : r.scanner.run t = .ok lines) : ∃ marked, r.run t = .ok marked ∧
      marked.map MarkedLine.line = lines ∧ ∀ ln ∈ marked, ln.Sound := by
  induction t generalizing r with
  | nil =>
    obtain ⟨-, rfl, -⟩ := Scanner.run_nil read
    refine ⟨r.emit.reverse, ?_, ?_, ?_⟩
    · rw [Reader.run, read]
      rfl
    · rw [List.map_reverse, map_emit sound]
    · exact fun ln member => sound_emit sound ln (List.mem_reverse.1 member)
  | cons c t ih =>
    rw [Scanner.run_cons] at read
    obtain ⟨s, once, later⟩ := bind_eq_ok.1 (show r.scanner.next c t >>= _ = _ from read)
    obtain ⟨r', next, rfl, sound'⟩ := sound.next once later
    rw [Reader.run, next]
    exact ih sound' later

end Reader

/-- **Scanner and guard agree** on a logical line exactly when each stretch of literals in it is a
row of literals in single marks, as it is if literals in three marks hold no loose mark; and where
they agree no way to divide the line divides a literal. -/
theorem scanners_agree_iff {code : Text} {lines : List LogicalLine}
    (split : logicalLines code = .ok lines) : ∃ marked, markedLines code = .ok marked ∧
      marked.map MarkedLine.line = lines ∧ ∀ ln ∈ marked,
        ln.bytes.map Prod.fst = ln.line.text ∧
        (Agree ln.bytes ↔ ∀ front run back, ln.bytes = front ++ (run ++ back) →
          (∀ b ∈ run, b.2 ≠ .code) → Around front back →
            LiteralRow back.isEmpty none (run.map Prod.fst)) ∧
        ((∀ b ∈ ln.bytes, b.2 ≠ .loose) → Agree ln.bytes) ∧ (Agree ln.bytes → Spared ln.bytes) := by
  obtain ⟨marked, read, same, sound⟩ := Reader.sound_start.run
    (show Scanner.start.run (code.replace "\r\n" "\n") = .ok lines from split)
  refine ⟨marked, read, same, fun ln member => ?_⟩
  have known := sound ln member
  exact ⟨known.text, agree_iff_rows known.plain, known.agree, Agree.spared⟩

/-- Literals in three marks and in one, with separators inside. -/
theorem quiet_literals_agree : ∃ ln,
    markedLines "x = \"\"\"a; b\"\"\"; y = 'c = d'" = .ok [ln] ∧
      ln.line = ⟨0, 1, "x = \"\"\"a; b\"\"\"; y = 'c = d'"⟩ ∧ Agree ln.bytes ∧ Spared ln.bytes := by
  have split : logicalLines "x = \"\"\"a; b\"\"\"; y = 'c = d'" =
      .ok [⟨0, 1, "x = \"\"\"a; b\"\"\"; y = 'c = d'"⟩] := by
    decide +kernel
  have strict : ((markedLines "x = \"\"\"a; b\"\"\"; y = 'c = d'").toOption.map fun marked =>
      marked.all fun ln => ln.bytes.all fun b => b.2 != .loose) = some true := by
    decide +kernel
  obtain ⟨marked, read, same, known⟩ := scanners_agree_iff split
  obtain ⟨ln, rfl, is_line⟩ := List.map_eq_singleton_iff.1 same
  obtain ⟨-, -, agree, spared⟩ := known ln (List.mem_singleton_self _)
  have all : ∀ b ∈ ln.bytes, b.2 ≠ .loose := by
    rw [read] at strict
    simpa using Option.some.inj strict
  exact ⟨ln, read, is_line, agree all, spared (agree all)⟩

/-- A loose mark in a literal in three marks: the line is cut at a semicolon inside of the
literal. -/
theorem literal_cut_at_semicolon : ∃ ln,
    markedLines "x = \"\"\"a \"b; c\"\"\"" = .ok [ln] ∧
      ln.line = ⟨0, 1, "x = \"\"\"a \"b; c\"\"\""⟩ ∧ ¬ Agree ln.bytes ∧
        ln.bytes[11]? = some ((';' : UInt8), .literal) ∧
          splitTopLevel ln.line.text ';' = (["x = \"\"\"a \"b", " c\"\"\""] : List Text) := by
  have shown : ((markedLines "x = \"\"\"a \"b; c\"\"\"").toOption.map fun marked =>
      marked.map fun ln => decide (ln.line = ⟨0, 1, "x = \"\"\"a \"b; c\"\"\""⟩ ∧ ¬ Agree ln.bytes ∧
        ln.bytes[11]? = some ((';' : UInt8), .literal) ∧
          splitTopLevel ln.line.text ';' = (["x = \"\"\"a \"b", " c\"\"\""] : List Text))) =
            some [true] := by
    decide +kernel
  obtain ⟨marked, read, told⟩ := exists_of_toOption_map shown
  obtain ⟨ln, rfl, holds⟩ := List.map_eq_singleton_iff.1 told
  exact ⟨ln, read, of_decide_eq_true holds⟩

end FlowTrace.Python
