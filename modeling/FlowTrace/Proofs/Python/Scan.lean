import FlowTrace.Proofs.Attempt
import FlowTrace.Proofs.Python.Peers

/-! # The scanner of logical lines

The scanner goes through a source byte by byte (`Scanner.next`). When a literal is reworded it goes
the same way in front of the literal, through it, and behind it: the logical lines of the source are
the same, up to the line with the literal, which becomes a peer of what it was
(`logicalLines_reworded`). -/

namespace FlowTrace.Python

/-- The **scanner** between two bytes. -/
structure Scanner where
  /-- What it is reading. -/
  mode : ScanMode
  /-- What it has read. -/
  scan : Scan
  /-- The number of bytes that were already dealt with. -/
  skip : Nat

namespace Scanner

/-- The scanner at the beginning of a source. -/
def start : Scanner := ⟨.margin 0, {}, 0⟩

/-- Reads the rest of a source. -/
def run (r : Scanner) (t : Text) : Except SyntaxError (List LogicalLine) :=
  FlowTrace.Python.scan r.mode r.scan r.skip t

/-- The scanner behind a byte that it reads in a mode; `t` is what follows the byte. -/
def nextIn : ScanMode → Scan → UInt8 → Text → Except SyntaxError Scanner
  | .margin column, s, c, _ =>
    .ok (if c == Text.newline then ⟨.margin 0, s.nextLine, 0⟩
      else if c == '#' then ⟨.marginComment, s, 0⟩
      else ⟨.margin (advance column c), s, 0⟩)
  | .marginComment, s, _, _ => .ok ⟨.marginComment, s, 0⟩
  | .comment, s, _, _ => .ok ⟨.comment, s, 0⟩
  | .code, s, c, t =>
    if c == '#' then .ok ⟨.comment, s, 0⟩
    else if isQuote c then
      .ok (if [c, c].isPrefixOf t then ⟨.string c true s.line, ((s.put c).put c).put c, 2⟩
        else ⟨.string c false s.line, s.put c, 0⟩)
    else if isOpening c then .ok ⟨.code, { s.put c with open_ := (c, s.line) :: s.open_ }, 0⟩
    else if isClosing c then
      if s.open_.isEmpty then .error ⟨s.line, .unmatched c⟩
      else .ok ⟨.code, { s.put c with open_ := s.open_.tail }, 0⟩
    else
      .ok (if c == Text.backslash && t.head? == some Text.newline then
          ⟨.code, (s.put 0x20).nextLine, 1⟩
        else if c == Text.newline then
          if s.open_.isEmpty then ⟨.margin 0, s.emit.nextLine, 0⟩
          else ⟨.code, (s.put 0x20).nextLine, 0⟩
        else ⟨.code, s.put c, 0⟩)
  | .string mark triple line, s, c, t =>
    if c == Text.backslash then
      .ok (t.head?.elim ⟨.string mark triple line, s.put c, 0⟩ fun d =>
        ⟨.string mark triple line,
          if d == Text.newline then ((s.put c).put d).nextLine else (s.put c).put d, 1⟩)
    else if c == Text.newline then
      if triple then .ok ⟨.string mark triple line, (s.put c).nextLine, 0⟩
      else .error ⟨line, .unterminatedString⟩
    else
      .ok (if triple && c == mark && [mark, mark].isPrefixOf t then
          ⟨.code, ((s.put c).put c).put c, 2⟩
        else if !triple && c == mark then ⟨.code, s.put c, 0⟩
        else ⟨.string mark triple line, s.put c, 0⟩)

/-- The scanner behind a byte. -/
def next (r : Scanner) (c : UInt8) (t : Text) : Except SyntaxError Scanner :=
  if r.skip = 0 then nextIn (enter r.mode r.scan c).1 (enter r.mode r.scan c).2 c t
  else .ok { r with skip := r.skip - 1 }

/-- **The scanner goes byte by byte.** -/
theorem run_cons (r : Scanner) (c : UInt8) (t : Text) :
    r.run (c :: t) = (r.next c t).bind fun r => r.run t := by
  obtain ⟨mode, s, skip⟩ := r
  cases skip with
  | succ skip => rfl
  | zero =>
    rw [run, FlowTrace.Python.scan, next, if_pos rfl]
    obtain ⟨mode, s⟩ := enter mode s c
    cases mode with
    | margin column =>
      simp only [nextIn]
      split_ifs <;> rfl
    | marginComment => rfl
    | comment => rfl
    | code =>
      cases is_open : s.open_ with
      | nil =>
        simp only [nextIn, is_open, List.isEmpty_nil, if_true]
        split_ifs <;> rfl
      | cons bracket outer =>
        simp only [nextIn, is_open, List.isEmpty_cons, Bool.false_eq_true, if_false]
        split_ifs <;> rfl
    | string mark triple line =>
      cases t with
      | nil =>
        simp only [nextIn]
        split_ifs <;> rfl
      | cons d t =>
        simp only [nextIn]
        split_ifs <;> rfl

/-- The scanner behind some bytes, when `rest` follows. -/
def behind (rest : Text) : Scanner → Text → Except SyntaxError Scanner
  | r, [] => .ok r
  | r, c :: front => (r.next c (front ++ rest)).bind fun r => r.behind rest front

/-- A scanner runs over texts one after the other. -/
theorem run_append (r : Scanner) (front rest : Text) :
    r.run (front ++ rest) = (r.behind rest front).bind fun r => r.run rest := by
  induction front generalizing r with
  | nil => rfl
  | cons c front ih =>
    rw [List.cons_append, run_cons, behind]
    cases r.next c (front ++ rest) with
    | error e => rfl
    | ok r => exact ih r

/-! ## In front of the literal -/

/-- How far the scanner looks ahead. -/
theorem next_eq {c : UInt8} {t t' : Text} (escape : c = Text.backslash → t'.head? = t.head?)
    (triple : [c, c].isPrefixOf t' = [c, c].isPrefixOf t) (r : Scanner) :
    r.next c t' = r.next c t := by
  have looked (mode : ScanMode) (s : Scan) : nextIn mode s c t' = nextIn mode s c t := by
    cases mode with
    | margin column => rfl
    | marginComment => rfl
    | comment => rfl
    | code =>
      by_cases is_escape : c = Text.backslash
      · simp only [nextIn, triple, escape is_escape]
      · have no_escape : (c == Text.backslash) = false := beq_eq_false_iff_ne.2 is_escape
        simp only [nextIn, triple, no_escape, Bool.false_and]
    | string mark triple_ line =>
      by_cases is_escape : c = Text.backslash
      · simp only [nextIn, is_escape, beq_self_eq_true, if_true, escape is_escape]
      · have no_escape : (c == Text.backslash) = false := beq_eq_false_iff_ne.2 is_escape
        by_cases closes : c = mark
        · subst closes
          simp only [nextIn, no_escape, triple, Bool.false_eq_true, if_false]
        · have stays : (c == mark) = false := beq_eq_false_iff_ne.2 closes
          simp only [nextIn, no_escape, stays, Bool.and_false, Bool.false_and, Bool.false_eq_true,
            if_false]
  rw [next, next, looked]

end Scanner

variable {w : Rewording loud} {mark : UInt8} {front back contents : Text}

/-- A mark is not in quiet contents. -/
theorem mark_not_mem (is_mark : mark ∈ Text.marks) (quiet : loud.Quiet contents) :
    mark ∉ contents := fun member => quiet mark member (loud.marks mark is_mark)

/-- A mark does not begin the contents of a literal. -/
theorem looksTriple_contents (absent : mark ∉ contents) (filled : contents ≠ []) (rest : Text) :
    [mark, mark].isPrefixOf (contents ++ rest) = false := by
  obtain ⟨d, contents, rfl⟩ := List.exists_cons_of_ne_nil filled
  have other : (mark == d) = false :=
    beq_eq_false_iff_ne.2 fun same => absent (same ▸ List.mem_cons_self)
  rw [List.cons_append, List.isPrefixOf_cons_cons, other]
  rfl

/-- The marks of a literal that is not empty do not look like those around a longer one. -/
theorem looksTriple_eq (is_mark : mark ∈ Text.marks) {contents contents' : Text}
    (filled : contents ≠ []) (filled' : contents' ≠ []) (quiet : loud.Quiet contents)
    (quiet' : loud.Quiet contents') (c : UInt8) (front rest rest' : Text) :
    [c, c].isPrefixOf (front ++ mark :: (contents ++ rest)) =
      [c, c].isPrefixOf (front ++ mark :: (contents' ++ rest')) := by
  have single {contents : Text} (filled : contents ≠ []) (quiet : loud.Quiet contents)
      (rest : Text) : [c, c].isPrefixOf (mark :: (contents ++ rest)) = false := by
    obtain ⟨d, contents, rfl⟩ := List.exists_cons_of_ne_nil filled
    have absent := mark_not_mem is_mark quiet
    rw [List.cons_append, List.isPrefixOf_cons_cons, List.isPrefixOf_cons_cons]
    by_cases same : c = mark
    · have other : (c == d) = false :=
        beq_eq_false_iff_ne.2 fun same' => absent (same ▸ same' ▸ List.mem_cons_self)
      rw [other, Bool.false_and, Bool.and_false]
    · have other : (c == mark) = false := beq_eq_false_iff_ne.2 same
      rw [other, Bool.false_and]
  match front with
  | [] => rw [List.nil_append, List.nil_append, single filled quiet, single filled' quiet']
  | [d] => simp [List.isPrefixOf]
  | d :: e :: front => rfl

/-- **In front of the literal** the scanner goes the same way. -/
theorem behind_reworded (filled : w.old ≠ []) (rest rest' front : Text) (r : Scanner) :
    r.behind (w.new ++ rest') (front ++ [w.mark]) = r.behind (w.old ++ rest) (front ++ [w.mark]) := by
  have filled' : w.new ≠ [] := fun empty => filled
    (List.length_eq_zero_iff.1 (w.length_new.symm.trans (List.length_eq_zero_iff.2 empty)))
  have unescaped : ∀ mark ∈ Text.marks, mark ≠ Text.backslash :=
    Text.forall_mark (by decide) (by decide)
  have no_escape := unescaped _ w.is_mark
  induction front generalizing r with
  | nil =>
    have same : r.next w.mark (w.new ++ rest') = r.next w.mark (w.old ++ rest) := by
      refine Scanner.next_eq (fun escape => absurd escape no_escape) ?_ r
      rw [looksTriple_contents (mark_not_mem w.is_mark w.quiet_new) filled',
        looksTriple_contents (mark_not_mem w.is_mark w.quiet_old) filled]
    rw [List.nil_append, Scanner.behind, Scanner.behind, List.nil_append, List.nil_append, same]
    rfl
  | cons c front ih =>
    have same : r.next c (front ++ [w.mark] ++ (w.new ++ rest')) =
        r.next c (front ++ [w.mark] ++ (w.old ++ rest)) := by
      refine Scanner.next_eq (fun _ => by cases front <;> rfl) ?_ r
      rw [List.append_assoc, List.append_assoc]
      exact looksTriple_eq w.is_mark filled' filled w.quiet_new w.quiet_old c front rest' rest
    rw [List.cons_append, Scanner.behind, Scanner.behind, same]
    exact congrArg _ (funext ih)

/-! ## Behind the literal -/

/-- Logical lines are peers when their texts are. -/
structure LogicalLine.Peers (w : Rewording loud) (ln ln' : LogicalLine) : Prop where
  /-- They are indented alike. -/
  indent : ln'.indent = ln.indent
  /-- They begin on the same line. -/
  line : ln'.line = ln.line
  /-- Their texts are peers. -/
  text : Python.Peers w ln.text ln'.text

/-- What was read of two sources is the same, up to peers. -/
structure Scan.Peers (w : Rewording loud) (s s' : Scan) : Prop where
  /-- The finished lines are peers. -/
  done : List.Forall₂ (LogicalLine.Peers w) s.done s'.done
  /-- The current lines are peers. -/
  text : Python.Peers w s.text.reverse s'.text.reverse
  /-- The number of the line is the same. -/
  line : s'.line = s.line
  /-- The logical line began on the same line. -/
  first : s'.first = s.first
  /-- It is indented alike. -/
  indent : s'.indent = s.indent
  /-- The same brackets are open. -/
  open_ : s'.open_ = s.open_

namespace Scan.Peers

variable {s s' : Scan}

/-- A byte that is put keeps scans peers. -/
theorem put (peers : Scan.Peers w s s') (c : UInt8) : Scan.Peers w (s.put c) (s'.put c) :=
  { peers with
    text := by
      have longer (s : Scan) : (s.put c).text.reverse = s.text.reverse ++ [c] :=
        List.reverse_cons
      rw [longer, longer]
      exact peers.text.append [c] }

/-- The next line keeps scans peers. -/
theorem nextLine (peers : Scan.Peers w s s') : Scan.Peers w s.nextLine s'.nextLine :=
  { peers with line := congrArg (· + 1) peers.line }

/-- The beginning of a line keeps scans peers. -/
theorem beginAt (peers : Scan.Peers w s s') (column : Nat) :
    Scan.Peers w (s.beginAt column) (s'.beginAt column) :=
  { peers with indent := rfl, first := peers.line }

/-- The same open brackets keep scans peers. -/
theorem withOpen (peers : Scan.Peers w s s') (open_ : List (UInt8 × Nat)) :
    Scan.Peers w { s with open_ := open_ } { s' with open_ := open_ } :=
  { peers with open_ := rfl }

/-- A line that is complete keeps scans peers. -/
theorem emit (peers : Scan.Peers w s s') : Scan.Peers w s.emit s'.emit := by
  have trimmed := peers.text.trim
  refine { peers with done := ?_, text := .refl w _ }
  simp only [Scan.emit, trimmed.isEmpty_eq]
  split
  · exact peers.done
  · exact .cons ⟨peers.indent, peers.first, trimmed⟩ peers.done

end Scan.Peers

/-- Scanners are peers when they read the same thing and what they have read is the same, up to
peers. -/
structure Scanner.Peers (w : Rewording loud) (r r' : Scanner) : Prop where
  /-- They read the same thing. -/
  mode : r'.mode = r.mode
  /-- They have read peers. -/
  scan : Scan.Peers w r.scan r'.scan
  /-- The same bytes were already dealt with. -/
  skip : r'.skip = r.skip

namespace Scanner

variable {r r' : Scanner}

/-- Scanners in the same mode with scans that are peers follow each other. -/
theorem follows_ok {mode : ScanMode} {s s' : Scan} (peers : s.Peers w s') (skip : Nat) :
    Follows (Scanner.Peers w) (.ok ⟨mode, s, skip⟩ : Except SyntaxError Scanner)
      (.ok ⟨mode, s', skip⟩) := .ok ⟨rfl, peers, rfl⟩

/-- Entering a mode with the same byte keeps scans peers. -/
theorem enter_peers {s s' : Scan} (peers : s.Peers w s') (mode : ScanMode) (c : UInt8) :
    (enter mode s' c).1 = (enter mode s c).1 ∧
      (enter mode s c).2.Peers w (enter mode s' c).2 := by
  cases mode with
  | margin column =>
    simp only [enter]
    split
    · exact ⟨rfl, peers⟩
    · exact ⟨rfl, peers.beginAt column⟩
  | marginComment => exact ⟨rfl, peers⟩
  | code => exact ⟨rfl, peers⟩
  | comment => exact ⟨rfl, peers⟩
  | string mark triple line => exact ⟨rfl, peers⟩

/-- What a byte leads to. -/
theorem nextIn_peers {s s' : Scan} (peers : s.Peers w s') (mode : ScanMode) (c : UInt8) (t : Text) :
    Follows (Scanner.Peers w) (nextIn mode s c t) (nextIn mode s' c t) := by
  cases mode with
  | margin column =>
    simp only [nextIn]
    split_ifs
    · exact follows_ok peers.nextLine 0
    · exact follows_ok peers 0
    · exact follows_ok peers 0
  | marginComment => exact follows_ok peers 0
  | comment => exact follows_ok peers 0
  | code =>
    simp only [nextIn, peers.line, peers.open_]
    split_ifs
    · exact follows_ok peers 0
    · exact follows_ok (((peers.put c).put c).put c) 2
    · exact follows_ok (peers.put c) 0
    · exact follows_ok ((peers.put c).withOpen _) 0
    · exact .error _ _
    · exact follows_ok ((peers.put c).withOpen _) 0
    · exact follows_ok (peers.put 0x20).nextLine 1
    · exact follows_ok peers.emit.nextLine 0
    · exact follows_ok (peers.put 0x20).nextLine 0
    · exact follows_ok (peers.put c) 0
  | string mark triple line =>
    -- A backslash takes the next byte with it, so the cases differ at the end of the text.
    cases t with
    | nil =>
      simp only [nextIn, List.head?_nil, Option.elim_none]
      split_ifs
      · exact follows_ok (peers.put c) 0
      · exact follows_ok (peers.put c).nextLine 0
      · exact .error _ _
      · exact follows_ok (((peers.put c).put c).put c) 2
      · exact follows_ok (peers.put c) 0
      · exact follows_ok (peers.put c) 0
    | cons d t =>
      simp only [nextIn, List.head?_cons, Option.elim_some]
      split_ifs
      · exact follows_ok ((peers.put c).put d).nextLine 1
      · exact follows_ok ((peers.put c).put d) 1
      · exact follows_ok (peers.put c).nextLine 0
      · exact .error _ _
      · exact follows_ok (((peers.put c).put c).put c) 2
      · exact follows_ok (peers.put c) 0
      · exact follows_ok (peers.put c) 0

/-- One more byte keeps scanners peers. -/
theorem Peers.next (peers : r.Peers w r') (c : UInt8) (t : Text) :
    Follows (Scanner.Peers w) (r.next c t) (r'.next c t) := by
  rw [Scanner.next, Scanner.next, peers.skip, peers.mode]
  split
  · obtain ⟨same, peers⟩ := enter_peers peers.scan r.mode c
    rw [same]
    exact nextIn_peers peers _ c t
  · exact follows_ok peers.scan _

/-- At its end a source is read when no literal and no bracket is open. -/
theorem run_nil {lines : List LogicalLine} (read : r.run [] = .ok lines) :
    r.scan.open_ = [] ∧ lines = r.scan.emit.done.reverse ∧
      ∀ s : Scan, s.open_ = [] → ∀ skip, run ⟨r.mode, s, skip⟩ [] = .ok s.emit.done.reverse := by
  obtain ⟨mode, s, skip⟩ := r
  rw [run, FlowTrace.Python.scan.eq_def] at read
  simp only at read
  cases mode with
  | string mark triple line => cases read
  | _ =>
    cases is_open : s.open_ with
    | cons bracket outer =>
      rw [is_open] at read
      cases read
    | nil =>
      rw [is_open] at read
      cases read
      refine ⟨rfl, rfl, fun s closed skip => ?_⟩
      rw [run, FlowTrace.Python.scan.eq_def]
      simp only [closed]

/-- **Peers read the same text alike.** -/
theorem Peers.run (peers : r.Peers w r') (t : Text) :
    Follows (List.Forall₂ (LogicalLine.Peers w)) (r.run t) (r'.run t) := by
  induction t generalizing r r' with
  | nil =>
    intro lines read
    obtain ⟨complete, rfl, ends⟩ := run_nil read
    have same : r'.run [] = .ok r'.scan.emit.done.reverse := by
      have ends := ends r'.scan (peers.scan.open_.trans complete) r'.skip
      rwa [← peers.mode] at ends
    exact ⟨_, same, List.rel_reverse peers.scan.emit.done⟩
  | cons c t ih =>
    rw [run_cons, run_cons]
    exact (peers.next c t).bind ih

/-! ## Through the literal -/

variable {s : Scan} {triple : Bool} {line : Nat}

/-- The contents of a literal are read byte by byte. -/
theorem run_contents (is_mark : mark ∈ Text.marks) (quiet : loud.Quiet contents) (rest : Text) :
    run ⟨.string mark triple line, s, 0⟩ (contents ++ rest) =
      run ⟨.string mark triple line, { s with text := contents.reverse ++ s.text }, 0⟩ rest := by
  induction contents generalizing s with
  | nil => rfl
  | cons c contents ih =>
    obtain ⟨dull, quiet⟩ := List.forall_mem_cons.1 quiet
    have plain {d : UInt8} (known : d ∈ loud.bytes) : (c == d) = false :=
      beq_eq_false_iff_ne.2 fun same => dull (same ▸ known)
    have known : mark ∈ loud.bytes := loud.marks mark is_mark
    have stays : next ⟨.string mark triple line, s, 0⟩ c (contents ++ rest) =
        .ok ⟨.string mark triple line, s.put c, 0⟩ := by
      rw [next, if_pos rfl]
      simp only [enter, nextIn, plain (d := Text.backslash) (by decide),
        plain (d := Text.newline) (by decide), plain known, Bool.and_false, Bool.false_and,
        Bool.false_eq_true, if_false]
    rw [List.cons_append, run_cons, stays]
    refine (ih quiet).trans ?_
    rw [List.reverse_cons, List.append_assoc]
    rfl

/-- What has been read of a source up to the second mark of a literal, behind the text `text` of
its line. -/
def upTo (s : Scan) (mark : UInt8) (text contents : Text) : Scan :=
  { s with text := contents.reverse ++ mark :: text.reverse }

/-- **Behind the second mark** of a literal the scanners are peers. -/
theorem next_close {text : Text} (clear : Clear w text) (s : Scan) (back : Text) :
    Follows (Scanner.Peers w) (next ⟨.string w.mark triple line, upTo s w.mark text w.old, 0⟩ w.mark back)
      (next ⟨.string w.mark triple line, upTo s w.mark text w.new, 0⟩ w.mark back) := by
  have plain : ∀ mark ∈ Text.marks, (mark == Text.backslash) = false ∧
      (mark == Text.newline) = false := Text.forall_mark (by decide) (by decide)
  obtain ⟨no_escape, no_newline⟩ := plain _ w.is_mark
  have quoted (contents : Text) : ((upTo s w.mark text contents).put w.mark).text.reverse =
      Text.enquote w.mark text contents [] := by
    simp [upTo, Scan.put, Text.enquote]
  have peers : Scan.Peers w ((upTo s w.mark text w.old).put w.mark)
      ((upTo s w.mark text w.new).put w.mark) :=
    { done := List.forall₂_same.2 fun _ _ => ⟨rfl, rfl, .refl w _⟩
      text := by
        rw [quoted, quoted]
        exact .of_clear clear []
      line := rfl
      first := rfl
      indent := rfl
      open_ := rfl }
  rw [next, next, if_pos rfl, if_pos rfl]
  simp only [enter, nextIn, no_escape, no_newline, Bool.false_eq_true, if_false]
  split_ifs
  · exact follows_ok ((peers.put w.mark).put w.mark) 2
  · exact follows_ok peers 0
  · exact follows_ok peers 0

/-- A literal **begins** behind the text `front` of a source in which `rest` follows the mark:
`text` stands in front of it on its logical line. -/
def Begins (mark : UInt8) (front rest text : Text) : Prop :=
  ∃ (triple : Bool) (line : Nat) (s : Scan), start.behind rest (front ++ [mark]) =
    .ok ⟨.string mark triple line, { s with text := mark :: text.reverse }, 0⟩

/-- **A reworded literal** does not change how the rest of the source is read. -/
theorem run_reworded (filled : w.old ≠ []) {text : Text} (clear : Clear w text)
    (begins : Begins w.mark front (w.old ++ w.mark :: back) text) :
    Follows (List.Forall₂ (LogicalLine.Peers w)) (start.run (w.original front back))
      (start.run (w.reworded front back)) := by
  obtain ⟨triple, line, s, begins⟩ := begins
  have begins' := begins
  rw [← behind_reworded filled (w.mark :: back) (w.mark :: back) front start] at begins'
  rw [Rewording.original, Rewording.reworded, Text.enquote_eq, Text.enquote_eq, run_append, begins,
    run_append, begins']
  have through {contents : Text} (quiet : loud.Quiet contents) :
      run ⟨.string w.mark triple line, { s with text := w.mark :: text.reverse }, 0⟩
          (contents ++ w.mark :: back) =
        (next ⟨.string w.mark triple line, upTo s w.mark text contents, 0⟩ w.mark back).bind
          fun r => r.run back := by
    rw [run_contents w.is_mark quiet, run_cons]
    rfl
  show Follows _ (run _ (w.old ++ w.mark :: back)) (run _ (w.new ++ w.mark :: back))
  rw [through w.quiet_old, through w.quiet_new]
  exact (next_close clear s back).bind fun peers => peers.run back

end Scanner

/-- The source without carriage returns in front of newlines. -/
def unixLines (source : Text) : Text := source.replace "\r\n" "\n"

/-- Quiet contents of a literal stay as they are when line ends are made uniform. -/
theorem unixLines_enquote (is_mark : mark ∈ Text.marks) (quiet : loud.Quiet contents) :
    unixLines (Text.enquote mark front contents back) =
      Text.enquote mark (unixLines front) contents (unixLines back) := by
  have unmarked : ∀ mark ∈ Text.marks, mark ∉ ("\r\n" : Text) :=
    Text.forall_mark (by decide) (by decide)
  have absent := unmarked mark is_mark
  have known : ∀ c ∈ ("\r\n" : Text), c ∈ loud.bytes := Text.forall_mem_of_all (by decide)
  have stays : contents.replace "\r\n" "\n" = contents :=
    Text.replace_eq_self fun c member among => quiet c member (known c among)
  rw [unixLines, Text.enquote, Text.replace_mark absent, Text.replace_mark absent, stays]
  rfl

/-- **The logical lines of a reworded source** are peers of what they were. -/
theorem logicalLines_reworded (filled : w.old ≠ []) {text : Text} (clear : Clear w text)
    (begins : Scanner.Begins w.mark (unixLines front) (w.old ++ w.mark :: unixLines back) text) :
    Follows (List.Forall₂ (LogicalLine.Peers w)) (logicalLines (w.original front back))
      (logicalLines (w.reworded front back)) := by
  have scanned (source : Text) : logicalLines source = Scanner.start.run (unixLines source) := rfl
  rw [scanned, scanned, unixLines_enquote w.is_mark w.quiet_old,
    unixLines_enquote w.is_mark w.quiet_new]
  exact Scanner.run_reworded filled clear begins

/-! ## The numbers of logical lines

The scanner never goes back: each logical line begins on a physical line behind the one where the
line before it began (`logicalLines_increasing`). What holds between any two bytes is kept by one
step of the scanner and so by a whole run (`Scanner.exists_end`). -/

namespace Scanner

/-- What is kept by every step holds at the end of the source. -/
theorem exists_end {P : Scanner → Prop}
    (step : ∀ {r r' : Scanner} {c : UInt8} {t : Text}, P r → r.next c t = .ok r' → P r')
    {r : Scanner} {t : Text} {lines : List LogicalLine} (holds : P r) (read : r.run t = .ok lines) :
    ∃ last, P last ∧ last.run [] = .ok lines := by
  induction t generalizing r with
  | nil => exact ⟨r, holds, read⟩
  | cons c t ih =>
    rw [run_cons] at read
    obtain ⟨next, once, read⟩ := bind_eq_ok.1 (show r.next c t >>= _ = _ from read)
    exact ih (step holds once) read

end Scanner

/-- Whether the scanner is in front of a logical line. -/
def ScanMode.isMargin : ScanMode → Bool
  | .margin _ | .marginComment => true
  | _ => false

/-- The finished lines are **numbered** in increasing order, up to where the current line begins: in
the margin that is the current physical line. -/
structure Scan.Numbered (margin : Bool) (s : Scan) : Prop where
  /-- The finished lines, last first. -/
  decreasing : s.done.Pairwise fun later earlier => earlier.line < later.line
  /-- They begin in front of the current line. -/
  before : ∀ ln ∈ s.done, ln.line < if margin then s.line else s.first
  /-- The current line does not begin behind the current physical line. -/
  begun : (if margin then s.line else s.first) ≤ s.line
  /-- In the margin the current line is empty. -/
  empty : margin = true → s.text = []

namespace Scan.Numbered

variable {s s' : Scan} {margin : Bool}

/-- A line begins. -/
theorem beginAt (numbered : s.Numbered true) (column : Nat) : (s.beginAt column).Numbered false :=
  ⟨numbered.decreasing, numbered.before, Nat.le_refl _, by simp⟩

/-- Inside of a line only its text and the physical line change. -/
theorem within (numbered : s.Numbered false) (done : s'.done = s.done) (first : s'.first = s.first)
    (line : s.line ≤ s'.line) : s'.Numbered false := by
  refine ⟨by rw [done]; exact numbered.decreasing, ?_, ?_, by simp⟩
  · rw [done, first]
    exact numbered.before
  · rw [first]
    exact Nat.le_trans numbered.begun line

/-- The next line keeps a scan numbered. -/
theorem nextLine (numbered : s.Numbered true) : s.nextLine.Numbered true := by
  refine ⟨numbered.decreasing, ?_, Nat.le_refl _, numbered.empty⟩
  intro ln member
  exact Nat.lt_succ_of_lt (numbered.before ln member)

/-- The current line is finished. -/
theorem decreasing_emit (numbered : s.Numbered margin) :
    s.emit.done.Pairwise fun later earlier => earlier.line < later.line := by
  rw [Scan.emit]
  simp only
  cases margin with
  | true =>
    -- there is no current line in the margin
    rw [numbered.empty rfl, if_pos (by decide)]
    exact numbered.decreasing
  | false =>
    split
    · exact numbered.decreasing
    · exact List.pairwise_cons.2 ⟨numbered.before, numbered.decreasing⟩

/-- A line that is complete keeps a scan numbered. -/
theorem emit (numbered : s.Numbered false) : s.emit.nextLine.Numbered true := by
  have begun : s.first ≤ s.line := numbered.begun
  have before (ln : LogicalLine) (member : ln ∈ s.done) : ln.line < s.first :=
    numbered.before ln member
  refine ⟨numbered.decreasing_emit, ?_, Nat.le_refl _, fun _ => rfl⟩
  intro ln member
  show ln.line < s.line + 1
  have inside : ln ∈ (⟨s.indent, s.first, Text.trim s.text.reverse⟩ : LogicalLine) :: s.done := by
    simp only [Scan.nextLine, Scan.emit] at member
    split at member
    · exact List.mem_cons_of_mem _ member
    · exact member
  rcases List.mem_cons.1 inside with rfl | earlier
  · exact Nat.lt_succ_of_le begun
  · have := before ln earlier
    omega

end Scan.Numbered

namespace Scanner

/-- The lines of a scanner are numbered. -/
def Numbered (r : Scanner) : Prop := r.scan.Numbered r.mode.isMargin

/-- Entering a mode keeps a scan numbered. -/
theorem numbered_enter {mode : ScanMode} {s : Scan} (numbered : s.Numbered mode.isMargin)
    (c : UInt8) : (enter mode s c).2.Numbered (enter mode s c).1.isMargin := by
  cases mode with
  | margin column =>
    rw [enter]
    split
    · exact numbered
    · exact numbered.beginAt column
  | marginComment =>
    rw [enter]
    split <;> exact numbered
  | comment =>
    rw [enter]
    split <;> exact numbered
  | _ => exact numbered

/-- A byte that is read in a mode keeps a scan numbered. -/
theorem numbered_nextIn {mode : ScanMode} {s : Scan} (numbered : s.Numbered mode.isMargin)
    {c : UInt8} {t : Text} {r : Scanner} (read : nextIn mode s c t = .ok r) : r.Numbered := by
  cases mode with
  | margin column =>
    simp only [nextIn] at read
    split_ifs at read <;> cases read
    · exact numbered.nextLine
    · exact numbered
    · exact numbered
  | marginComment =>
    cases read
    exact numbered
  | comment =>
    cases read
    exact numbered
  | code =>
    simp only [nextIn] at read
    split_ifs at read <;> cases read
    · exact numbered
    · exact numbered.within rfl rfl (Nat.le_refl _)
    · exact numbered.within rfl rfl (Nat.le_refl _)
    · exact numbered.within rfl rfl (Nat.le_refl _)
    · exact numbered.within rfl rfl (Nat.le_refl _)
    · exact numbered.within rfl rfl (Nat.le_succ _)
    · exact numbered.emit
    · exact numbered.within rfl rfl (Nat.le_succ _)
    · exact numbered.within rfl rfl (Nat.le_refl _)
  -- A newline in a literal raises the number of the line, and nothing else in it does.
  | string mark triple line =>
    simp only [nextIn] at read
    cases is_next : t.head? with
    | none =>
      rw [is_next] at read
      simp only [Option.elim_none] at read
      split_ifs at read <;> cases read <;>
        first
        | exact numbered.within rfl rfl (Nat.le_refl _)
        | exact numbered.within rfl rfl (Nat.le_succ _)
    | some d =>
      rw [is_next] at read
      simp only [Option.elim_some] at read
      split_ifs at read <;> cases read <;>
        first
        | exact numbered.within rfl rfl (Nat.le_refl _)
        | exact numbered.within rfl rfl (Nat.le_succ _)

/-- One more byte keeps a scanner numbered. -/
theorem numbered_next {r r' : Scanner} {c : UInt8} {t : Text} (numbered : r.Numbered)
    (read : r.next c t = .ok r') : r'.Numbered := by
  rw [next] at read
  split at read
  · exact numbered_nextIn (numbered_enter numbered c) read
  · cases read
    exact numbered

end Scanner

/-- **The numbers of logical lines increase.** -/
theorem logicalLines_increasing {code : Text} {lines : List LogicalLine}
    (split : logicalLines code = .ok lines) : lines.Pairwise fun ln ln' => ln.line < ln'.line := by
  have start : Scanner.start.Numbered := ⟨.nil, by simp [Scanner.start], Nat.le_refl _, fun _ => rfl⟩
  obtain ⟨last, numbered, ends⟩ := Scanner.exists_end Scanner.numbered_next start
    (show Scanner.start.run (code.replace "\r\n" "\n") = .ok lines from split)
  obtain ⟨-, rfl, -⟩ := Scanner.run_nil ends
  exact List.pairwise_reverse.2 numbered.decreasing_emit

end FlowTrace.Python
