import FlowTrace.Proofs.Python.Pieces
import FlowTrace.Proofs.Python.Scan

/-! # Where logical lines are placed

A source is laid out in rows: blank rows, which may have a comment, and logical lines, which go on over
physical lines as long as a bracket or a literal is open or a backslash joins them. The scanner reads the
pieces of a line one by one, and counts the newlines that it passes over. So the logical lines of a source
are those of its layout (`logicalLines_eq_ok`), each with the number of the physical line where its first
byte stands that is no blank. -/

namespace FlowTrace.Python

variable {t rest back lit margin : Text} {c mark : UInt8} {s : Scan} {line column : Nat}
  {lines : List LogicalLine}

/-- What the scanner has read behind some more bytes of a line, of which it shows some. -/
def Scan.append (s : Scan) (shown : Text) (newlines : Nat) : Scan :=
  { s with text := shown.reverse ++ s.text, line := s.line + newlines }

namespace Scan

/-- Texts that are appended one after the other are appended together. -/
theorem append_append (s : Scan) (a b : Text) (m n : Nat) :
    (s.append a m).append b n = s.append (a ++ b) (m + n) := by
  simp only [append, List.reverse_append, List.append_assoc, Nat.add_assoc]

/-- A byte that is put is appended. -/
theorem put_eq (s : Scan) (c : UInt8) : s.put c = s.append [c] 0 := rfl

end Scan

namespace Scanner

/-! ## Comments and margins -/

/-- A mode that passes over bytes up to the end of a physical line. -/
theorem run_line {mode mode' : ScanMode} (s : Scan)
    (same : run ⟨mode, s, 0⟩ [] = run ⟨mode', s, 0⟩ [])
    (stays : ∀ c t, c ≠ Text.newline → next ⟨mode, s, 0⟩ c t = .ok ⟨mode, s, 0⟩)
    (ends : ∀ t, next ⟨mode, s, 0⟩ Text.newline t = next ⟨mode', s, 0⟩ Text.newline t) (t : Text) :
    run ⟨mode, s, 0⟩ t = run ⟨mode', s, 0⟩ (t.dropWhile (· != Text.newline)) := by
  induction t with
  | nil => exact same
  | cons c t ih =>
    by_cases newline : c = Text.newline
    · have stops : (c :: t).dropWhile (· != Text.newline) = c :: t :=
        List.dropWhile_cons_of_neg (by simpa using newline)
      rw [stops, run_cons, run_cons, newline, ends]
    · have passes : (c :: t).dropWhile (· != Text.newline) = t.dropWhile (· != Text.newline) :=
        List.dropWhile_cons_of_pos (by simpa using newline)
      rw [passes, run_cons, stays c t newline]
      exact ih

/-- A comment goes on to the end of its physical line. -/
theorem run_comment (s : Scan) (t : Text) :
    run ⟨.comment, s, 0⟩ t = run ⟨.code, s, 0⟩ (t.dropWhile (· != Text.newline)) := by
  refine @run_line .comment .code s rfl (fun c t other => ?_) (fun _ => rfl) t
  rw [next, if_pos rfl, enter, if_neg (by simpa using other)]
  rfl

/-- So does a comment on a line of its own. -/
theorem run_marginComment (s : Scan) (t : Text) :
    run ⟨.marginComment, s, 0⟩ t = run ⟨.margin 0, s, 0⟩ (t.dropWhile (· != Text.newline)) := by
  refine @run_line .marginComment (.margin 0) s rfl (fun c t other => ?_) (fun _ => rfl) t
  rw [next, if_pos rfl, enter, if_neg (by simpa using other)]
  rfl

end Scanner

/-- Whether a byte is a blank in the margin: a space, a tab or a form feed. -/
def isMarginBlank (c : UInt8) : Bool := c == 0x20 || c == 0x09 || c == 0x0C

namespace Scanner

/-- Blanks in the margin are measured. -/
theorem run_margin (blank : ∀ c ∈ margin, isMarginBlank c = true) (t : Text) :
    run ⟨.margin column, s, 0⟩ (margin ++ t) =
      run ⟨.margin (margin.foldl advance column), s, 0⟩ t := by
  induction margin generalizing column with
  | nil => rfl
  | cons c margin ih =>
    obtain ⟨here, blank⟩ := List.forall_mem_cons.1 blank
    have step : next ⟨.margin column, s, 0⟩ c (margin ++ t) =
        .ok ⟨.margin (advance column c), s, 0⟩ := by
      rw [isMarginBlank, Bool.or_eq_true, Bool.or_eq_true, beq_iff_eq, beq_iff_eq, beq_iff_eq] at here
      rcases here with (rfl | rfl) | rfl <;> rfl
    rw [List.cons_append, run_cons, step]
    exact ih blank

/-- A comment in the margin is passed over. -/
theorem run_hash (s : Scan) (column : Nat) (t : Text) :
    run ⟨.margin column, s, 0⟩ (hash :: t) =
      run ⟨.margin 0, s, 0⟩ (t.dropWhile (· != Text.newline)) :=
  (run_cons ..).trans (run_marginComment s t)

/-- A newline in the margin begins the next line. -/
theorem run_newline (s : Scan) (column : Nat) (t : Text) :
    run ⟨.margin column, s, 0⟩ (Text.newline :: t) = run ⟨.margin 0, s.nextLine, 0⟩ t :=
  run_cons ..

end Scanner

/-- Whether a logical line begins with a byte behind the margin. -/
def isSolid (c : UInt8) : Bool := !isMarginBlank c && c != Text.newline && c != hash

namespace Scanner

/-- A logical line begins. -/
theorem run_solid (solid : isSolid c = true) (s : Scan) (column : Nat) (t : Text) :
    run ⟨.margin column, s, 0⟩ (c :: t) = run ⟨.code, s.beginAt column, 0⟩ (c :: t) := by
  have begins : enter (.margin column) s c = (.code, s.beginAt column) := by
    simp only [isSolid, isMarginBlank, Bool.and_eq_true, Bool.not_eq_true', Bool.or_eq_false_iff,
      bne_iff_ne, ne_eq, beq_eq_false_iff_ne] at solid
    simp [enter, solid]
  rw [run_cons, run_cons, next, next, if_pos rfl, if_pos rfl, begins]
  rfl

/-! ## Literals -/

/-- A backslash takes the next byte with it. -/
theorem run_escape (mark : UInt8) (triple : Bool) (line : Nat) (s : Scan) (c : UInt8) (t : Text) :
    run ⟨.string mark triple line, s, 0⟩ (Text.backslash :: c :: t) =
      run ⟨.string mark triple line, s.append [Text.backslash, c]
        (Text.newlines [Text.backslash, c]), 0⟩ t := by
  by_cases newline : c = Text.newline
  · subst newline
    rfl
  · have none : Text.newlines [Text.backslash, c] = 0 := List.count_eq_zero.2 (by
      rw [List.mem_cons, List.mem_singleton]
      exact not_or.2 ⟨by decide, Ne.symm newline⟩)
    have escapes : next ⟨.string mark triple line, s, 0⟩ Text.backslash (c :: t) =
        .ok ⟨.string mark triple line, s.append [Text.backslash, c] 0, 1⟩ := by
      simp [next, enter, nextIn, newline]
      rfl
    rw [none, run_cons, escapes]
    rfl

/-- A byte that does not end a literal is read. -/
theorem run_within {triple : Bool} (escape : c ≠ Text.backslash)
    (newline : c = Text.newline → triple = true)
    (stays : c = mark → triple = true ∧ ¬ [mark, mark] <+: t) :
    run ⟨.string mark triple line, s, 0⟩ (c :: t) =
      run ⟨.string mark triple line, s.append [c] (Text.newlines [c]), 0⟩ t := by
  have reads : next ⟨.string mark triple line, s, 0⟩ c t =
      .ok ⟨.string mark triple line, s.append [c] (Text.newlines [c]), 0⟩ := by
    by_cases is_newline : c = Text.newline
    · subst is_newline
      rw [newline rfl]
      rfl
    · have none : Text.newlines [c] = 0 := List.count_eq_zero.2 (by simpa using Ne.symm is_newline)
      rw [none]
      by_cases is_mark : c = mark
      · obtain ⟨is_triple, other⟩ := stays is_mark
        have open_ : [mark, mark].isPrefixOf t = false :=
          Bool.eq_false_iff.2 (mt List.isPrefixOf_iff_prefix.1 other)
        simp [next, enter, nextIn, escape, is_newline, is_triple, open_]
        rfl
      · simp [next, enter, nextIn, escape, is_newline, is_mark]
        rfl
  rw [run_cons, reads]
  rfl

/-- The contents of a literal in single marks are read up to its mark. -/
theorem run_contents_plain {body : Text} (quote : isQuote mark = true)
    (contents : Text.Contents mark body) (rest : Text) :
    run ⟨.string mark false line, s, 0⟩ (body ++ mark :: rest) =
      run ⟨.code, s.append (body ++ [mark]) body.newlines, 0⟩ rest := by
  obtain ⟨unescaped, no_newline, -⟩ := plain_of_isQuote quote
  induction contents generalizing s with
  | nil =>
    have closes : next ⟨.string mark false line, s, 0⟩ mark rest = .ok ⟨.code, s.put mark, 0⟩ := by
      simp [next, enter, nextIn, unescaped, no_newline]
    rw [List.nil_append, run_cons, closes]
    rfl
  | @escape c body _ ih =>
    rw [List.cons_append, List.cons_append, run_escape, ih, Scan.append_append,
      ← Text.newlines_append]
    rfl
  | @byte c body escape newline ends _ ih =>
    rw [List.cons_append, run_within escape (fun same => absurd same newline)
      (fun same => absurd same ends), ih, Scan.append_append, ← Text.newlines_append]
    rfl

/-- The contents of a literal in three marks are read up to the next three marks. -/
theorem run_contents_triple {body : Text} (quote : isQuote mark = true)
    (contents : TripleContents mark body) (rest : Text) :
    run ⟨.string mark true line, s, 0⟩ (body ++ ([mark, mark, mark] ++ rest)) =
      run ⟨.code, s.append (body ++ [mark, mark, mark]) body.newlines, 0⟩ rest := by
  obtain ⟨unescaped, no_newline, -⟩ := plain_of_isQuote quote
  induction contents generalizing s with
  | nil =>
    have closes : next ⟨.string mark true line, s, 0⟩ mark (mark :: mark :: rest) =
        .ok ⟨.code, s.append [mark, mark, mark] 0, 2⟩ := by
      simp [next, enter, nextIn, unescaped, no_newline]
      rfl
    show run _ (mark :: mark :: mark :: rest) = _
    rw [run_cons, closes]
    rfl
  | @escape c body _ ih =>
    rw [List.cons_append, List.cons_append, run_escape, ih, Scan.append_append,
      ← Text.newlines_append]
    rfl
  | @byte c body escape other _ ih =>
    have stays : c = mark → true = true ∧ ¬ [mark, mark] <+: body ++ ([mark, mark, mark] ++ rest) := by
      rintro rfl
      refine ⟨rfl, fun begins => other ?_⟩
      have begins : [c, c, c] <+: (c :: body) ++ ([c, c, c] ++ rest) :=
        List.cons_prefix_cons.2 ⟨rfl, begins⟩
      exact Text.prefix_append_iff.1 begins
    rw [List.cons_append, run_within escape (fun _ => rfl) stays, ih, Scan.append_append,
      ← Text.newlines_append]
    rfl

/-- Up to the mark that ends a literal there are contents. -/
theorem exists_contents_plain
    (read : run ⟨.string mark false line, s, 0⟩ t = .ok lines) :
    ∃ body rest, t = body ++ mark :: rest ∧ Text.Contents mark body := by
  induction length : t.length using Nat.strongRecOn generalizing t s with
  | _ n ih =>
    match t with
    | [] => cases read
    | c :: t =>
      by_cases escape : c = Text.backslash
      · subst escape
        cases t with
        | nil => cases read
        | cons d t =>
          rw [run_escape] at read
          have shorter : t.length < n := by
            simp only [List.length_cons] at length
            omega
          obtain ⟨body, rest, rfl, contents⟩ := ih _ shorter read rfl
          exact ⟨_, rest, rfl, .escape contents⟩
      · by_cases newline : c = Text.newline
        · subst newline
          cases read
        · by_cases ends : c = mark
          · exact ⟨[], t, by rw [ends]; rfl, .nil⟩
          · rw [run_within escape (fun same => absurd same newline) fun same => absurd same ends]
              at read
            obtain ⟨body, rest, rfl, contents⟩ := ih _ (by rw [← length]; simp) read rfl
            exact ⟨_, rest, rfl, .byte escape newline ends contents⟩

/-- Up to the three marks that end a literal there are contents. -/
theorem exists_contents_triple (read : run ⟨.string mark true line, s, 0⟩ t = .ok lines) :
    ∃ body rest, t = body ++ ([mark, mark, mark] ++ rest) ∧ TripleContents mark body := by
  induction length : t.length using Nat.strongRecOn generalizing t s with
  | _ n ih =>
    match t with
    | [] => cases read
    | c :: t =>
      by_cases escape : c = Text.backslash
      · subst escape
        cases t with
        | nil => cases read
        | cons d t =>
          rw [run_escape] at read
          have shorter : t.length < n := by
            simp only [List.length_cons] at length
            omega
          obtain ⟨body, rest, rfl, contents⟩ := ih _ shorter read rfl
          exact ⟨_, rest, rfl, .escape contents⟩
      · by_cases ends : [mark, mark, mark] <+: c :: t
        · obtain ⟨rest, same⟩ := ends
          exact ⟨[], rest, same.symm, .nil⟩
        · have stays : c = mark → true = true ∧ ¬ [mark, mark] <+: t := by
            rintro rfl
            exact ⟨rfl, fun begins => ends (List.cons_prefix_cons.2 ⟨rfl, begins⟩)⟩
          rw [run_within escape (fun _ => rfl) stays] at read
          obtain ⟨body, rest, rfl, contents⟩ := ih _ (by rw [← length]; simp) read rfl
          refine ⟨c :: body, rest, rfl, .byte escape (fun begins => ends ?_) contents⟩
          exact Text.prefix_append_iff.2 (show [mark, mark, mark] <+: (c :: body) ++ _ from begins)

/-- What a mark leads to. -/
theorem run_mark (quote : isQuote mark = true) (s : Scan) (t : Text) :
    run ⟨.code, s, 0⟩ (mark :: t) =
      if [mark, mark].isPrefixOf t then
        run ⟨.string mark true s.line, s.append [mark, mark, mark] 0, 0⟩ (t.drop 2)
      else run ⟨.string mark false s.line, s.put mark, 0⟩ t := by
  have other : (mark == ('#' : UInt8)) = false :=
    beq_eq_false_iff_ne.2 (plain_of_isQuote quote).2.2.1
  rw [run_cons, next, if_pos rfl]
  simp only [enter, nextIn, other, quote, Bool.false_eq_true, if_false, if_true]
  split
  · rename_i begins
    obtain ⟨rest, rfl⟩ := List.isPrefixOf_iff_prefix.1 begins
    rfl
  · rfl

/-- **A literal** is read up to its end. -/
theorem run_literal (literal : Literal lit rest) (s : Scan) :
    run ⟨.code, s, 0⟩ (lit ++ rest) = run ⟨.code, s.append lit lit.newlines, 0⟩ rest := by
  cases literal with
  | @triple mark body _ quote contents =>
    have no_newlines : Text.newlines [mark, mark, mark] = 0 := List.count_eq_zero.2 (by
      simpa using (plain_of_isQuote quote).2.1.symm)
    have whole : [mark, mark, mark] ++ (body ++ [mark, mark, mark]) ++ rest =
        mark :: ([mark, mark] ++ (body ++ ([mark, mark, mark] ++ rest))) := by simp
    rw [whole, run_mark quote, if_pos (List.isPrefixOf_iff_prefix.2 (List.prefix_append _ _))]
    show run _ (body ++ _) = _
    rw [run_contents_triple quote contents, Scan.append_append, Text.newlines_append,
      Text.newlines_append, no_newlines, Nat.add_zero]
  | @plain mark body _ quote contents apart =>
    have no_newlines : Text.newlines [mark] = 0 := List.count_eq_zero.2 (by
      simpa using (plain_of_isQuote quote).2.1.symm)
    have whole : mark :: (body ++ [mark]) ++ rest = mark :: (body ++ mark :: rest) := by simp
    have single : ¬ [mark, mark].isPrefixOf (body ++ mark :: rest) = true :=
      mt List.isPrefixOf_iff_prefix.1 (not_triple contents quote apart)
    have counted : Text.newlines (mark :: (body ++ [mark])) = body.newlines := by
      show Text.newlines ([mark] ++ (body ++ [mark])) = _
      rw [Text.newlines_append, Text.newlines_append, no_newlines, Nat.zero_add, Nat.add_zero]
    rw [whole, run_mark quote, if_neg single, run_contents_plain quote contents, Scan.put_eq,
      Scan.append_append, counted, Nat.zero_add]
    rfl

/-- A mark begins a literal, if the source can be read. -/
theorem exists_literal (quote : isQuote mark = true)
    (read : run ⟨.code, s, 0⟩ (mark :: t) = .ok lines) :
    ∃ lit rest, mark :: t = lit ++ rest ∧ Literal lit rest := by
  rw [run_mark quote] at read
  split at read
  · rename_i begins
    obtain ⟨behind, rfl⟩ := List.isPrefixOf_iff_prefix.1 begins
    obtain ⟨body, rest, same, contents⟩ := exists_contents_triple read
    obtain rfl : behind = _ := same
    exact ⟨[mark, mark, mark] ++ (body ++ [mark, mark, mark]), rest, by simp,
      .triple rest quote contents⟩
  · rename_i single
    obtain ⟨body, rest, rfl, contents⟩ := exists_contents_plain read
    refine ⟨mark :: (body ++ [mark]), rest, by simp, .plain quote contents ?_⟩
    rintro rfl ends
    obtain ⟨tail, rfl⟩ := List.head?_eq_some_iff.1 ends
    exact single (List.isPrefixOf_iff_prefix.2 ⟨tail, rfl⟩)

end Scanner

/-- What the scanner has read, with other brackets open. -/
def Scan.withOpen (s : Scan) (open_ : List (UInt8 × Nat)) : Scan := { s with open_ := open_ }

/-- Texts are appended with the brackets that are open at the end. -/
theorem Scan.withOpen_append (s : Scan) (open_ open' : List (UInt8 × Nat)) (a b : Text) (m n : Nat) :
    (((s.append a m).withOpen open_).append b n).withOpen open' =
      (s.append (a ++ b) (m + n)).withOpen open' := by
  rw [← append_append]
  rfl

namespace Scanner

variable {depth depth' : Nat} {p : Piece} {pieces : List Piece}

/-! ## Pieces -/

/-- A byte that begins neither a literal nor a comment, and ends no physical line. -/
theorem next_byte (plain : isQuote c = false) (no_comment : c ≠ hash) (no_newline : c ≠ Text.newline)
    (no_joint : ¬ (c = Text.backslash ∧ rest.head? = some Text.newline)) (s : Scan) :
    next ⟨.code, s, 0⟩ c rest =
      if isOpening c then .ok ⟨.code, (s.put c).withOpen ((c, s.line) :: s.open_), 0⟩
      else if isClosing c then
        if s.open_.isEmpty then .error ⟨s.line, .unmatched c⟩
        else .ok ⟨.code, (s.put c).withOpen s.open_.tail, 0⟩
      else .ok ⟨.code, s.put c, 0⟩ := by
  have other : (c == ('#' : UInt8)) = false := beq_eq_false_iff_ne.2 no_comment
  have no_end : (c == Text.newline) = false := beq_eq_false_iff_ne.2 no_newline
  have no_join : (c == Text.backslash && rest.head? == some Text.newline) = false := by
    rw [Bool.eq_false_iff, Ne, Bool.and_eq_true, beq_iff_eq, beq_iff_eq]
    exact no_joint
  rw [next, if_pos rfl]
  simp only [enter, nextIn, other, plain, no_end, no_join, Bool.false_eq_true, if_false]
  rfl

/-- A byte that is a piece of its own is read, and the bracket that it may be is counted. -/
theorem run_byte (plain : isQuote c = false) (no_comment : c ≠ hash) (no_newline : c ≠ Text.newline)
    (no_joint : ¬ (c = Text.backslash ∧ rest.head? = some Text.newline))
    (counted : (Piece.byte c).depthBehind? s.open_.length = some depth') :
    ∃ open_ : List (UInt8 × Nat), open_.length = depth' ∧ run ⟨.code, s, 0⟩ (c :: rest) =
      run ⟨.code, (s.append [c] (Text.newlines [c])).withOpen open_, 0⟩ rest := by
  have none : Text.newlines [c] = 0 := List.count_eq_zero.2 (by simpa using no_newline.symm)
  simp only [Piece.depthBehind?] at counted
  rw [run_cons, next_byte plain no_comment no_newline no_joint s, none]
  by_cases opens : isOpening c = true
  · rw [if_pos opens] at counted ⊢
    cases counted
    exact ⟨(c, s.line) :: s.open_, rfl, rfl⟩
  rw [if_neg opens] at counted ⊢
  by_cases closes : isClosing c = true
  · rw [if_pos closes] at counted ⊢
    split at counted
    · cases counted
    · rename_i deep
      cases counted
      have filled : ¬ s.open_.isEmpty = true := fun empty => deep (by
        rw [List.isEmpty_iff.1 empty, List.length_nil])
      rw [if_neg filled]
      exact ⟨s.open_.tail, List.length_tail, rfl⟩
  · rw [if_neg closes] at counted ⊢
    cases counted
    exact ⟨s.open_, rfl, rfl⟩

/-- A newline inside of brackets is read as a blank. -/
theorem run_inside (filled : s.open_ ≠ []) (rest : Text) : run ⟨.code, s, 0⟩ (Text.newline :: rest) =
    run ⟨.code, (s.put 0x20).nextLine, 0⟩ rest := by
  have step : next ⟨.code, s, 0⟩ Text.newline rest = .ok ⟨.code, (s.put 0x20).nextLine, 0⟩ := by
    show (Except.ok (if s.open_.isEmpty then _ else _) : Except SyntaxError Scanner) = _
    rw [if_neg (mt List.isEmpty_iff.1 filled)]
    rfl
  rw [run_cons, step]
  rfl

/-- **A piece** of a line is read. -/
theorem run_piece (begins : p.Begins s.open_.length rest)
    (counted : p.depthBehind? s.open_.length = some depth') :
    ∃ open_ : List (UInt8 × Nat), open_.length = depth' ∧ run ⟨.code, s, 0⟩ (p.text ++ rest) =
      run ⟨.code, (s.append p.shown p.text.newlines).withOpen open_, 0⟩ rest := by
  generalize is_open : s.open_.length = depth at begins counted
  cases begins with
  | byte plain no_comment no_newline no_joint =>
    exact run_byte plain no_comment no_newline no_joint (is_open ▸ counted)
  | literal literal =>
    cases counted
    exact ⟨s.open_, is_open, run_literal literal s⟩
  | @comment _ body _ single ends =>
    cases counted
    have none : Text.newlines (hash :: body) = 0 := List.count_eq_zero.2 (by
      rw [List.mem_cons, not_or]
      exact ⟨by decide, single⟩)
    refine ⟨s.open_, is_open, ?_⟩
    show run ⟨.code, s, 0⟩ (hash :: (body ++ rest)) =
      run ⟨.code, (s.append [] (Text.newlines (hash :: body))).withOpen s.open_, 0⟩ rest
    rw [none]
    exact (run_cons ..).trans ((run_comment s _).trans (by rw [(Text.span_line single ends).2]; rfl))
  | continued =>
    cases counted
    exact ⟨s.open_, is_open, rfl⟩
  | inside =>
    cases counted
    have filled : s.open_ ≠ [] := by
      rintro empty
      rw [empty] at is_open
      cases is_open
    exact ⟨s.open_, is_open, run_inside filled rest⟩

/-- **A piece begins** wherever a line does not end, if the source can be read. -/
theorem exists_piece (read : run ⟨.code, s, 0⟩ (c :: t) = .ok lines)
    (goes_on : ¬ (c = Text.newline ∧ s.open_.length = 0)) :
    ∃ p rest depth', c :: t = Piece.text p ++ rest ∧ p.Begins s.open_.length rest ∧
      p.depthBehind? s.open_.length = some depth' := by
  by_cases quote : isQuote c = true
  · obtain ⟨lit, rest, same, literal⟩ := exists_literal quote read
    exact ⟨.literal lit, rest, _, same, .literal literal, rfl⟩
  have plain := Bool.eq_false_iff.2 quote
  by_cases comment : c = hash
  · obtain ⟨line, rest, rfl, single, ends, -⟩ := Text.exists_line t
    exact ⟨.comment (c :: line), rest, _, rfl, comment ▸ .comment single ends, rfl⟩
  by_cases newline : c = Text.newline
  · obtain ⟨depth, deep⟩ := Nat.exists_eq_succ_of_ne_zero fun none => goes_on ⟨newline, none⟩
    rw [deep, newline]
    exact ⟨.joint [Text.newline], t, _, rfl, .inside, rfl⟩
  by_cases joint : c = Text.backslash ∧ t.head? = some Text.newline
  · obtain ⟨tail, rfl⟩ := List.head?_eq_some_iff.1 joint.2
    rw [joint.1]
    exact ⟨.joint [Text.backslash, Text.newline], tail, _, rfl, .continued, rfl⟩
  have begins : (Piece.byte c).Begins s.open_.length t := .byte plain comment newline joint
  suffices counted : ∃ depth', (Piece.byte c).depthBehind? s.open_.length = some depth' from
    ⟨.byte c, t, counted.choose, rfl, begins, counted.choose_spec⟩
  simp only [Piece.depthBehind?]
  split_ifs with opens closes none_open
  · exact ⟨_, rfl⟩
  · -- a bracket that was not opened is a fault
    rw [run_cons, next_byte plain comment newline joint, if_neg opens, if_pos closes,
      if_pos (List.isEmpty_iff.2 (List.length_eq_zero_iff.1 none_open))] at read
    cases read
  · exact ⟨_, rfl⟩
  · exact ⟨_, rfl⟩

/-! ## Lines -/

/-- **A line** is read up to its end. -/
theorem run_reads (reads : Reads depth pieces t back) (same : s.open_.length = depth) :
    run ⟨.code, s, 0⟩ t =
      run ⟨.code, (s.append (shown pieces) (written pieces).newlines).withOpen [], 0⟩ back := by
  induction reads generalizing s with
  | nil _ =>
    have none_open : s.open_ = [] := List.length_eq_zero_iff.1 same
    obtain ⟨done, text, line, first, indent, _⟩ := s
    cases none_open
    rfl
  | cons begins counted _ ih =>
    subst same
    obtain ⟨open_, length, step⟩ := run_piece begins counted
    rw [step, ih (show ((s.append _ _).withOpen open_).open_.length = _ from length),
      shown_cons, written_cons, Text.newlines_append, Scan.withOpen_append]

/-- **A line begins** wherever the source can be read. -/
theorem exists_reads (read : run ⟨.code, s, 0⟩ t = .ok lines) :
    ∃ pieces back, Reads s.open_.length pieces t back := by
  induction length : t.length using Nat.strongRecOn generalizing t s with
  | _ n ih =>
    match t with
    | [] =>
      obtain ⟨none_open, -⟩ := run_nil read
      rw [show s.open_ = [] from none_open]
      exact ⟨[], [], .nil nofun⟩
    | c :: t =>
      by_cases ends : c = Text.newline ∧ s.open_.length = 0
      · rw [ends.2]
        exact ⟨[], c :: t, .nil fun d first => (Option.some.inj first).symm.trans ends.1⟩
      · obtain ⟨p, rest, depth', same, begins, counted⟩ := exists_piece read ends
        obtain ⟨open_, is_open, step⟩ := run_piece begins counted
        rw [same, step] at read
        have shorter : rest.length < n := by
          obtain ⟨d, u, text, -⟩ := begins.exists_cons
          rw [← length, same, text, List.cons_append, List.length_cons, List.length_append]
          omega
        obtain ⟨pieces, back, reads⟩ := ih _ shorter read rfl
        have reads : Reads open_.length pieces rest back := reads
        rw [is_open] at reads
        exact ⟨p :: pieces, back, same ▸ .cons begins counted reads⟩

end Scanner

/-! ## Layout -/

/-- The logical line that is read of some pieces, if it has text. -/
def lineOf (column number : Nat) (pieces : List Piece) : List LogicalLine :=
  if (Text.trim (shown pieces)).isEmpty then [] else [⟨column, number, Text.trim (shown pieces)⟩]

/-- The logical lines of a source are **laid out** in what is left of it behind `front`: rows follow
each other, and each of them ends with a newline or with the source. -/
inductive Laid : Text → Text → List LogicalLine → Prop
  /-- Nothing is left. -/
  | nil {front : Text} : Laid front [] []
  /-- A row that is blank but for a comment. -/
  | blank {front margin comment back : Text} {lines : List LogicalLine} :
    (∀ c ∈ margin, isMarginBlank c = true) →
    (comment = [] ∨ ∃ t, comment = hash :: t ∧ Text.newline ∉ t) →
    (∀ c ∈ back.head?, c = Text.newline) →
    Laid (front ++ (margin ++ (comment ++ back.take 1))) (back.drop 1) lines →
    Laid front (margin ++ (comment ++ back)) lines
  /-- A logical line. Its number is one more than there are newlines in front of its first byte. -/
  | line {front margin t back : Text} {pieces : List Piece} {lines : List LogicalLine} :
    (∀ c ∈ margin, isMarginBlank c = true) → (∃ c ∈ t.head?, isSolid c = true) →
    Reads 0 pieces t back →
    Laid (front ++ (margin ++ (written pieces ++ back.take 1))) (back.drop 1) lines →
    Laid front (margin ++ t)
      (lineOf (margin.foldl advance 0) ((front ++ margin).newlines + 1) pieces ++ lines)

/-- The scanner is **between rows**: it has no text, no brackets are open, and the newlines in front have
been counted. -/
structure Scan.Between (s : Scan) (front : Text) : Prop where
  /-- No line is begun. -/
  text : s.text = []
  /-- No bracket is open. -/
  open_ : s.open_ = []
  /-- The number of the physical line. -/
  line : s.line = front.newlines + 1

/-- There is no newline in a margin. -/
theorem newlines_margin (blank : ∀ c ∈ margin, isMarginBlank c = true) : margin.newlines = 0 := by
  refine List.count_eq_zero.2 fun member => ?_
  have := blank _ member
  revert this
  decide

namespace Scan

variable {front more : Text}

/-- The next row begins. -/
theorem Between.append (between : s.Between front) (more : Text) :
    (s.append [] more.newlines).Between (front ++ more) where
  text := between.text
  open_ := between.open_
  line := by
    show s.line + more.newlines = _
    rw [between.line, Text.newlines_append]
    omega

/-- A line without text is not emitted. -/
theorem emit_of_text (empty : s.text = []) : s.emit = s := by
  obtain ⟨done, text, line, first, indent, open_⟩ := s
  cases empty
  rfl

end Scan

namespace Scanner

variable {front : Text} {depth : Nat} {pieces : List Piece}

/-- A row ends. -/
theorem run_ends (ends : ∀ c ∈ back.head?, c = Text.newline) (s : Scan) (column : Nat) :
    run ⟨.margin column, s, 0⟩ back =
      run ⟨.margin 0, s.append [] (Text.newlines (back.take 1)), 0⟩ (back.drop 1) := by
  cases back with
  | nil => rfl
  | cons c back =>
    obtain rfl := ends c rfl
    exact run_newline s column back

/-- **A row that is blank** but for a comment is passed over. -/
theorem run_blank {comment : Text} (blank : ∀ c ∈ margin, isMarginBlank c = true)
    (is_comment : comment = [] ∨ ∃ t, comment = hash :: t ∧ Text.newline ∉ t)
    (ends : ∀ c ∈ back.head?, c = Text.newline) (between : s.Between front) : ∃ s' : Scan,
      s'.Between (front ++ (margin ++ (comment ++ back.take 1))) ∧ s'.done = s.done ∧
      run ⟨.margin 0, s, 0⟩ (margin ++ (comment ++ back)) = run ⟨.margin 0, s', 0⟩ (back.drop 1) := by
  have none : comment.newlines = 0 := by
    rcases is_comment with rfl | ⟨t, rfl, single⟩
    · rfl
    · exact List.count_eq_zero.2 (by rw [List.mem_cons, not_or]; exact ⟨by decide, single⟩)
  have between' := between.append (margin ++ (comment ++ back.take 1))
  rw [Text.newlines_append, Text.newlines_append, newlines_margin blank, none, Nat.zero_add,
    Nat.zero_add] at between'
  refine ⟨_, between', rfl, ?_⟩
  rw [run_margin blank]
  rcases is_comment with rfl | ⟨t, rfl, single⟩
  · exact run_ends ends s _
  · rw [List.cons_append, run_hash, (Text.span_line single ends).2]
    exact run_ends ends s 0

/-- **A logical line** is read and finished. -/
theorem run_logical (blank : ∀ c ∈ margin, isMarginBlank c = true)
    (solid : ∃ c ∈ t.head?, isSolid c = true) (reads : Reads 0 pieces t back)
    (between : s.Between front) : ∃ s' : Scan,
      s'.Between (front ++ (margin ++ (written pieces ++ back.take 1))) ∧
      s'.done = (lineOf (margin.foldl advance 0) ((front ++ margin).newlines + 1) pieces) ++ s.done ∧
      run ⟨.margin 0, s, 0⟩ (margin ++ t) = run ⟨.margin 0, s', 0⟩ (back.drop 1) := by
  obtain ⟨c, first, solid⟩ := solid
  obtain ⟨u, rfl⟩ := List.head?_eq_some_iff.1 first
  let begun := s.beginAt (margin.foldl advance 0)
  let read := (begun.append (shown pieces) (written pieces).newlines).withOpen []
  have none : margin.newlines = 0 := newlines_margin blank
  have step : run ⟨.margin 0, s, 0⟩ (margin ++ c :: u) = run ⟨.code, read, 0⟩ back := by
    rw [run_margin blank, run_solid solid]
    exact run_reads reads (List.length_eq_zero_iff.2 between.open_)
  have line : s.line = (front ++ margin).newlines + 1 := by
    rw [between.line, Text.newlines_append, none, Nat.add_zero]
  have text : read.text.reverse = shown pieces := by
    show ((shown pieces).reverse ++ s.text).reverse = _
    rw [between.text, List.append_nil, List.reverse_reverse]
  have finished : read.emit.done =
      lineOf (margin.foldl advance 0) ((front ++ margin).newlines + 1) pieces ++ s.done := by
    rw [Scan.emit, text, lineOf, ← line]
    simp only
    split <;> rfl
  have between' : read.emit.Between (front ++ (margin ++ written pieces)) := by
    refine ⟨rfl, rfl, ?_⟩
    show s.line + (written pieces).newlines = _
    rw [between.line, Text.newlines_append, Text.newlines_append, none]
    omega
  refine ⟨read.emit.append [] (Text.newlines (back.take 1)), ?_, finished, step.trans ?_⟩
  · have longer := between'.append (back.take 1)
    rwa [List.append_assoc, List.append_assoc] at longer
  · cases ends : back with
    -- At the end of the source the line is emitted once more, but nothing is left of it.
    | nil =>
      show Except.ok read.emit.done.reverse = Except.ok (read.emit.emit).done.reverse
      rw [Scan.emit_of_text between'.text]
    | cons d rest =>
      obtain rfl := reads.ends d (by rw [ends]; rfl)
      rfl

/-- A text begins with a margin. -/
theorem exists_margin (t : Text) : ∃ margin u, t = margin ++ u ∧
    (∀ c ∈ margin, isMarginBlank c = true) ∧ ∀ c ∈ u.head?, isMarginBlank c = false :=
  ⟨t.takeWhile isMarginBlank, t.dropWhile isMarginBlank, List.takeWhile_append_dropWhile.symm,
    fun _ member => List.mem_takeWhile_imp member, fun _ first => Text.head_dropWhile first⟩

/-- A line begins behind a margin, if the source can be read. -/
theorem exists_reads_behind (blank : ∀ c ∈ margin, isMarginBlank c = true)
    (solid : isSolid c = true) (between : s.Between front)
    (read : run ⟨.margin 0, s, 0⟩ (margin ++ c :: t) = .ok lines) :
    ∃ pieces back, Reads 0 pieces (c :: t) back := by
  rw [run_margin blank, run_solid solid] at read
  obtain ⟨pieces, back, reads⟩ := exists_reads read
  rw [show (s.beginAt _).open_ = [] from between.open_] at reads
  exact ⟨pieces, back, reads⟩

/-- A line of its own is the same in reverse. -/
theorem reverse_lineOf (column number : Nat) (pieces : List Piece) :
    (lineOf column number pieces).reverse = lineOf column number pieces := by
  rw [lineOf]
  split <;> rfl

/-- **A source that can be read** is laid out. -/
theorem exists_laid (between : s.Between front) (read : run ⟨.margin 0, s, 0⟩ t = .ok lines) :
    ∃ more, Laid front t more ∧ lines = s.done.reverse ++ more := by
  -- Each row leaves a shorter text.
  induction length : t.length using Nat.strongRecOn generalizing t s front with
  | _ n ih =>
    obtain ⟨margin, u, rfl, margin_blank, stops⟩ := exists_margin t
    -- A row without text.
    have blank {comment back : Text} (same : u = comment ++ back) (filled : margin ++ u ≠ [])
        (is_comment : comment = [] ∨ ∃ t, comment = hash :: t ∧ Text.newline ∉ t)
        (ends : ∀ c ∈ back.head?, c = Text.newline) :
        ∃ more, Laid front (margin ++ u) more ∧ lines = s.done.reverse ++ more := by
      subst same
      obtain ⟨s', between', done, step⟩ := run_blank margin_blank is_comment ends between
      rw [step] at read
      have shorter : (back.drop 1).length < n := by
        have := List.length_pos_iff.2 filled
        simp only [List.length_append, List.length_drop] at length this ⊢
        omega
      obtain ⟨more, laid, rfl⟩ := ih _ shorter between' read rfl
      exact ⟨more, .blank margin_blank is_comment ends laid, by rw [done]⟩
    match u with
    | [] =>
      cases margin with
      | nil =>
        obtain ⟨-, rfl, -⟩ := run_nil read
        exact ⟨[], .nil, by rw [Scan.emit_of_text between.text, List.append_nil]⟩
      | cons c margin => exact @blank [] [] rfl (List.cons_ne_nil _ _) (.inl rfl) nofun
    | c :: u =>
      have filled : margin ++ c :: u ≠ [] := by simp
      by_cases newline : c = Text.newline
      · exact @blank [] (c :: u) rfl filled (.inl rfl) fun d first =>
          (Option.some.inj first).symm.trans newline
      by_cases comment : c = hash
      · obtain ⟨line, rest, rfl, single, ends, -⟩ := Text.exists_line u
        exact @blank (c :: line) rest rfl filled (.inr ⟨line, by rw [comment], single⟩) ends
      have solid : isSolid c = true := by
        have := stops c rfl
        simp [isSolid, this, newline, comment]
      obtain ⟨pieces, back, reads⟩ := exists_reads_behind margin_blank solid between read
      obtain ⟨s', between', done, step⟩ := run_logical margin_blank ⟨c, rfl, solid⟩ reads between
      rw [step] at read
      have shorter : (back.drop 1).length < n := by
        have same := congrArg List.length reads.eq_written
        simp only [List.length_append, List.length_cons, List.length_drop] at same length ⊢
        omega
      obtain ⟨more, laid, rfl⟩ := ih _ shorter between' read rfl
      refine ⟨_, .line margin_blank ⟨c, rfl, solid⟩ reads laid, ?_⟩
      rw [done, List.reverse_append, reverse_lineOf, List.append_assoc]

/-- **A layout is read** row by row. -/
theorem run_laid {more : List LogicalLine} (laid : Laid front t more) (between : s.Between front) :
    run ⟨.margin 0, s, 0⟩ t = .ok (s.done.reverse ++ more) := by
  induction laid generalizing s with
  | nil =>
    obtain ⟨done, text, line, first, indent, open_⟩ := s
    obtain ⟨rfl, rfl, -⟩ := between
    rw [List.append_nil]
    rfl
  | blank margin_blank is_comment ends _ ih =>
    obtain ⟨s', between', done, step⟩ := run_blank margin_blank is_comment ends between
    rw [step, ih between', done]
  | line margin_blank solid reads _ ih =>
    obtain ⟨s', between', done, step⟩ := run_logical margin_blank solid reads between
    rw [step, ih between', done, List.reverse_append, reverse_lineOf, List.append_assoc]

end Scanner

/-- **The logical lines of a source** are those of its layout, and it has some if it can be laid out. -/
theorem logicalLines_eq_ok {source : Text} :
    logicalLines source = .ok lines ↔ Laid [] (unixLines source) lines := by
  have start : ({} : Scan).Between [] := ⟨rfl, rfl, rfl⟩
  constructor
  · intro read
    obtain ⟨more, laid, rfl⟩ := Scanner.exists_laid start
      (show Scanner.run ⟨.margin 0, {}, 0⟩ (unixLines source) = .ok lines from read)
    exact laid
  · exact fun laid => Scanner.run_laid laid start

/-- A logical line **stands** in a source: behind the end of a row, or at the beginning of the source,
and behind a margin of blanks it is read from a byte that is none. Its number is that of the physical
line where this byte stands, and its text is what it shows, without blanks around it. -/
def LogicalLine.StandsIn (ln : LogicalLine) (source : Text) : Prop :=
  ∃ front margin pieces back, source = front ++ (margin ++ (written pieces ++ back)) ∧
    (front = [] ∨ front.getLast? = some Text.newline) ∧ (∀ c ∈ margin, isMarginBlank c = true) ∧
    (∃ c ∈ (written pieces).head?, isSolid c = true) ∧ Reads 0 pieces (written pieces ++ back) back ∧
    ln.indent = margin.foldl advance 0 ∧ ln.line = source.lineAt (front ++ margin).length ∧
    ln.text = Text.trim (shown pieces) ∧ ln.text ≠ []

/-- **A line stands** where it is read. -/
theorem standsIn_of_reads {front : Text} {pieces : List Piece} {ln : LogicalLine}
    (begins : front = [] ∨ front.getLast? = some Text.newline)
    (blank : ∀ c ∈ margin, isMarginBlank c = true) (solid : ∃ c ∈ t.head?, isSolid c = true)
    (reads : Reads 0 pieces t back)
    (member : ln ∈ lineOf (margin.foldl advance 0) ((front ++ margin).newlines + 1) pieces) :
    ln.StandsIn (front ++ (margin ++ t)) := by
  have same := reads.eq_written
  rw [lineOf] at member
  split at member
  · cases member
  · rename_i filled
    obtain rfl := List.mem_singleton.1 member
    obtain ⟨c, head, solid⟩ := solid
    have first : c ∈ (written pieces).head? := by
      cases text : written pieces with
      | nil =>
        -- a line without pieces would begin with a newline
        rw [same, text] at head
        obtain rfl := reads.ends c head
        cases solid
      | cons d u => rwa [same, text] at head
    refine ⟨front, margin, pieces, back, by rw [same], begins, blank, ⟨c, first, solid⟩,
      same ▸ reads, rfl, ?_, rfl, by simpa using filled⟩
    rw [← List.append_assoc]
    exact (Text.lineAt_length _ _).symm

/-- Behind a row another one begins, or nothing is left. -/
theorem ends_row (ends : ∀ c ∈ back.head?, c = Text.newline) (front row : Text) :
    (front ++ (row ++ back.take 1)).getLast? = some Text.newline ∨ back.drop 1 = [] := by
  cases back with
  | nil => exact .inr rfl
  | cons c back =>
    obtain rfl := ends c rfl
    refine .inl ?_
    rw [← List.append_assoc]
    exact List.getLast?_concat

/-- **Logical lines stand** in the source that they are laid out in. -/
theorem Laid.standsIn {front : Text} (laid : Laid front t lines)
    (begins : front = [] ∨ front.getLast? = some Text.newline ∨ t = []) :
    ∀ ln ∈ lines, ln.StandsIn (front ++ t) := by
  induction laid with
  | nil => exact fun _ => nofun
  | @blank front margin comment back _ _ _ ends _ ih =>
    have whole : front ++ (margin ++ (comment ++ back)) =
        front ++ (margin ++ (comment ++ back.take 1)) ++ back.drop 1 := by
      simp only [List.append_assoc, List.take_append_drop]
    rw [whole]
    refine ih (.inr ?_)
    have next := ends_row ends front (margin ++ comment)
    rwa [List.append_assoc] at next
  -- A line begins at the start of the source or behind a newline; the later ones stand behind it.
  | @line front margin t back pieces _ margin_blank solid reads _ ih =>
    have same := reads.eq_written
    have whole : front ++ (margin ++ t) =
        front ++ (margin ++ (written pieces ++ back.take 1)) ++ back.drop 1 := by
      rw [same]
      simp only [List.append_assoc, List.take_append_drop]
    intro ln member
    rcases List.mem_append.1 member with here | later
    · have filled : margin ++ t ≠ [] := fun nothing => by
        obtain ⟨c, head, -⟩ := solid
        rw [(List.append_eq_nil_iff.1 nothing).2] at head
        cases head
      exact standsIn_of_reads (begins.imp_right fun begins => begins.resolve_right filled)
        margin_blank solid reads here
    · rw [whole]
      refine ih (.inr ?_) ln later
      have next := ends_row reads.ends front (margin ++ written pieces)
      rwa [List.append_assoc] at next

end FlowTrace.Python
