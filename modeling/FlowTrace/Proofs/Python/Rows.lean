import FlowTrace.Proofs.Python.Guard
import FlowTrace.Proofs.Text.Glyphs
import FlowTrace.Python.LogicalLine

/-! # Rows of literals

What the guard of the top level takes for literals, compared with what was read as one. Whoever
divides a source into lines says for each byte of a line whether it is part of a literal, in single
marks or in three. The guard **agrees** exactly when every stretch of literals is a row of literals in
single marks (`agree_iff_rows`), and then no way to divide the line divides a literal
(`Agree.spared`). -/

namespace FlowTrace.Python

/-- There are no marks in a gap. -/
theorem not_isQuote_of_gap {gap : Text} (blank : Text.IsGap gap) : ∀ c ∈ gap, isQuote c = false := by
  intro c member
  by_contra quote
  rw [Bool.not_eq_false, isQuote, Bool.or_eq_true, beq_iff_eq, beq_iff_eq] at quote
  have low : c < 0x80 := by rcases quote with rfl | rfl <;> decide
  have := blank c member low
  rcases quote with rfl | rfl <;> revert this <;> decide

/-! ## What the guard takes for a literal -/

namespace Guard

/-- For each byte behind a guard, whether it is inside a literal or one of its marks. -/
def marks : Guard → Text → List Bool
  | _, [] => []
  | g, c :: t => (g.mark.isSome || isQuote c) :: marks (g.next c) t

variable {g g' : Guard} {c : UInt8}

/-- Every byte is marked. -/
@[simp] theorem length_marks (g : Guard) (t : Text) : (g.marks t).length = t.length := by
  induction t generalizing g with
  | nil => rfl
  | cons c t ih => simp [marks, ih]

/-- A text is marked in two parts. -/
theorem marks_append (g : Guard) (t u : Text) :
    g.marks (t ++ u) = g.marks t ++ (g.behind t).marks u := by
  induction t generalizing g with
  | nil => rfl
  | cons c t ih =>
    rw [List.cons_append, marks, marks, ih, List.cons_append]
    rfl

/-- Brackets have no part in this. -/
theorem SameQuote.marks (same : SameQuote g g') (t : Text) : g.marks t = g'.marks t := by
  induction t generalizing g g' with
  | nil => rfl
  | cons c t ih => rw [Guard.marks, Guard.marks, same.1, ih (same.next c)]

/-- A guard inside of a quotation stays there up to its mark. -/
theorem next_some (depth : Int) (mark c : UInt8) :
    next ⟨depth, some mark, false⟩ c =
      if c == Text.backslash then ⟨depth, some mark, true⟩
      else ⟨depth, if c == mark then none else some mark, false⟩ := rfl

/-- A literal goes on at any byte but its mark and a backslash. -/
theorem next_inside {mark c : UInt8} (other : c ≠ mark) (unescaped : c ≠ Text.backslash)
    (depth : Int) : next ⟨depth, some mark, false⟩ c = ⟨depth, some mark, false⟩ := by
  rw [next_some, if_neg (by simpa using unescaped), if_neg (by simpa using other)]

/-- A literal ends at its mark. -/
theorem next_mark {mark : UInt8} (unescaped : mark ≠ Text.backslash) (depth : Int) :
    next ⟨depth, some mark, false⟩ mark = ⟨depth, none, false⟩ := by
  rw [next_some, if_neg (by simpa using unescaped), if_pos (by simp)]

/-- Outside of literals a byte that is no mark leaves the guard there. -/
theorem next_none {c : UInt8} (plain : isQuote c = false) (outside : SameQuote g start) :
    SameQuote (g.next c) start := by
  obtain ⟨depth, mark, escaped⟩ := g
  obtain ⟨rfl, rfl⟩ : mark = none ∧ escaped = false := outside
  have plain : (c == Text.apostrophe || c == Text.doubleQuote) = false := plain
  simp only [next, plain, Bool.false_eq_true, if_false]
  split_ifs <;> exact ⟨rfl, rfl⟩

/-- A mark outside of literals opens one. -/
theorem next_quote {c : UInt8} (quote : isQuote c = true) (outside : SameQuote g start) :
    SameQuote (g.next c) ⟨0, some c, false⟩ := by
  obtain ⟨depth, mark, escaped⟩ := g
  obtain ⟨rfl, rfl⟩ : mark = none ∧ escaped = false := outside
  have quote : (c == Text.apostrophe || c == Text.doubleQuote) = true := quote
  simp only [next, quote, if_true]
  exact ⟨rfl, rfl⟩

/-- Outside of literals nothing is escaped. -/
theorem escaped_behind {t : Text} (outside : (start.behind t).mark = none) :
    (start.behind t).escaped = false := by
  have once {g : Guard} {c : UInt8} (outside : (g.next c).mark = none) :
      (g.next c).escaped = false := by
    obtain ⟨depth, mark, escaped⟩ := g
    cases mark <;> simp only [next] at outside ⊢ <;> split_ifs at outside ⊢ <;> simp_all
  rcases List.eq_nil_or_concat t with rfl | ⟨t, c, rfl⟩
  · rfl
  · rw [List.concat_eq_append, behind_append] at outside ⊢
    exact once outside

/-- A gap has no marks. -/
theorem marks_gap {gap : Text} (blank : Text.IsGap gap) (outside : SameQuote g start) :
    g.marks gap = gap.map (fun _ => false) ∧ SameQuote (g.behind gap) start := by
  induction gap generalizing g with
  | nil => exact ⟨rfl, outside⟩
  | cons c gap ih =>
    have plain := not_isQuote_of_gap blank c List.mem_cons_self
    have rest := ih (fun d member => blank d (List.mem_cons_of_mem _ member)) (next_none plain outside)
    refine ⟨?_, rest.2⟩
    rw [marks, rest.1, plain, outside.1]
    rfl

end Guard

/-! ## Rows of literals -/

/-- A text is a **row of literals** in single quotation marks, one directly behind the other. It
begins inside of a literal with a given mark, or outside; the last one may be left open if
`open_`. -/
inductive LiteralRow (open_ : Bool) : Option UInt8 → Text → Prop where
  | nil : LiteralRow open_ none []
  | begins {mark : UInt8} {t : Text} (quote : isQuote mark = true)
      (rest : LiteralRow open_ (some mark) t) : LiteralRow open_ none (mark :: t)
  | escape {mark c : UInt8} {t : Text} (rest : LiteralRow open_ (some mark) t) :
      LiteralRow open_ (some mark) (Text.backslash :: c :: t)
  | inside {mark c : UInt8} {t : Text} (other : c ≠ mark) (unescaped : c ≠ Text.backslash)
      (rest : LiteralRow open_ (some mark) t) : LiteralRow open_ (some mark) (c :: t)
  | ends {mark : UInt8} {t : Text} (unescaped : mark ≠ Text.backslash)
      (rest : LiteralRow open_ none t) : LiteralRow open_ (some mark) (mark :: t)
  | left {mark : UInt8} (is_open : open_ = true) : LiteralRow open_ (some mark) []
  | leftEscaped {mark : UInt8} (is_open : open_ = true) :
      LiteralRow open_ (some mark) [Text.backslash]

open Guard

variable {open_ : Bool} {g : Guard}

/-- The guard takes every byte of a row of literals for a part of one. -/
theorem LiteralRow.marks {mark : Option UInt8} {t : Text} (row : LiteralRow open_ mark t)
    (state : g.mark = mark ∧ g.escaped = false) :
    g.marks t = t.map (fun _ => true) ∧ (open_ = false → SameQuote (g.behind t) .start) := by
  -- The guard is in the state that the row is in: inside a literal with its mark, or outside.
  induction row generalizing g with
  | nil => exact ⟨rfl, fun _ => state⟩
  | @begins mark t quote rest ih =>
    have next := Guard.next_quote quote state
    obtain ⟨marks, behind⟩ := ih next
    refine ⟨?_, behind⟩
    rw [Guard.marks, marks, quote, Bool.or_true]
    rfl
  | @escape mark c t rest ih =>
    obtain ⟨depth, _, _⟩ := g
    obtain ⟨rfl, rfl⟩ := state
    obtain ⟨marks, behind⟩ := ih (g := ⟨depth, some mark, false⟩) ⟨rfl, rfl⟩
    refine ⟨?_, behind⟩
    have twice : Guard.next (Guard.next ⟨depth, some mark, false⟩ Text.backslash) c =
        ⟨depth, some mark, false⟩ := rfl
    rw [Guard.marks, Guard.marks, twice, marks]
    rfl
  | @inside mark c t other unescaped rest ih =>
    obtain ⟨depth, _, _⟩ := g
    obtain ⟨rfl, rfl⟩ := state
    obtain ⟨marks, behind⟩ := ih (g := ⟨depth, some mark, false⟩) ⟨rfl, rfl⟩
    have stays := Guard.next_inside other unescaped depth
    refine ⟨?_, fun closed => ?_⟩
    · rw [Guard.marks, stays, marks]
      rfl
    · have := behind closed
      rwa [Guard.behind, List.foldl_cons, stays]
  | @ends mark t unescaped rest ih =>
    obtain ⟨depth, _, _⟩ := g
    obtain ⟨rfl, rfl⟩ := state
    obtain ⟨marks, behind⟩ := ih (g := ⟨depth, none, false⟩) ⟨rfl, rfl⟩
    have closes := Guard.next_mark unescaped depth
    refine ⟨?_, fun closed => ?_⟩
    · rw [Guard.marks, closes, marks]
      rfl
    · have := behind closed
      rwa [Guard.behind, List.foldl_cons, closes]
  | left is_open => exact ⟨rfl, fun closed => by rw [is_open] at closed; cases closed⟩
  | leftEscaped is_open =>
    obtain ⟨depth, _, _⟩ := g
    obtain ⟨rfl, rfl⟩ := state
    exact ⟨rfl, fun closed => by rw [is_open] at closed; cases closed⟩

/-- A text that the guard takes for literals throughout is a row of literals. -/
theorem literalRow_of_marks {t : Text} (all : ∀ m ∈ g.marks t, m = true)
    (unescaped : g.escaped = false) (complete : open_ = false → (g.behind t).mark = none) :
    LiteralRow open_ g.mark t := by
  -- an escape takes two bytes at once, so the induction is on the length
  induction size : t.length using Nat.strongRecOn generalizing t g with
  | ind bound ih =>
  obtain ⟨depth, mark, escaped⟩ := g
  cases unescaped
  cases t with
  | nil =>
    cases mark with
    | none => exact .nil
    | some mark =>
      cases open_ with
      | true => exact .left rfl
      | false => cases complete rfl
  | cons c t =>
    rw [Guard.marks, List.forall_mem_cons] at all
    cases mark with
    | none =>
      have quote : isQuote c = true := by simpa using all.1
      have next := Guard.next_quote (g := ⟨depth, none, false⟩) quote ⟨rfl, rfl⟩
      refine .begins quote ?_
      have rest := ih t.length (by simp [← size]) all.2 next.2 complete rfl
      rwa [next.1] at rest
    | some mark =>
      by_cases escape : c = Text.backslash
      · subst escape
        cases t with
        | nil =>
          cases open_ with
          | true => exact .leftEscaped rfl
          | false => cases complete rfl
        | cons d t =>
          have next : Guard.next ⟨depth, some mark, false⟩ Text.backslash =
            ⟨depth, some mark, true⟩ := rfl
          rw [next, Guard.marks, List.forall_mem_cons] at all
          have shorter : t.length < bound := by
            rw [← size, List.length_cons, List.length_cons]
            omega
          exact .escape (ih (g := ⟨depth, some mark, false⟩) t.length shorter all.2.2 rfl complete rfl)
      · by_cases same : c = mark
        · subst same
          have next := Guard.next_mark escape depth
          rw [next] at all
          rw [Guard.behind, List.foldl_cons, next] at complete
          exact .ends escape (ih (g := ⟨depth, none, false⟩) t.length (by simp [← size]) all.2 rfl
            complete rfl)
        · have next := Guard.next_inside same escape depth
          rw [next] at all
          rw [Guard.behind, List.foldl_cons, next] at complete
          exact .inside same escape (ih (g := ⟨depth, some mark, false⟩) t.length (by simp [← size])
            all.2 rfl complete rfl)

/-! ## Marked lines -/

/-- What the scanner of logical lines reads a byte as. -/
inductive Part where
  /-- A byte outside of literals. -/
  | code
  /-- A byte of a literal, with its marks and its escapes. -/
  | literal
  /-- A **loose mark**: inside a literal in three quotation marks one of these, neither escaped nor
  one of the three that end it. -/
  | loose
  deriving DecidableEq, Repr

/-- Whether it is a part of a literal. -/
def Part.inside (p : Part) : Bool := p != .code

/-- A **marked line**: a logical line, and its bytes with what they were read as. -/
structure MarkedLine where
  /-- The line. -/
  line : LogicalLine
  /-- Its bytes. -/
  bytes : List (UInt8 × Part)

/-- The scanner and the guard **agree** on bytes: each takes the same of them for parts of
literals. -/
def Agree (bytes : List (UInt8 × Part)) : Prop :=
  Guard.start.marks (bytes.map Prod.fst) = bytes.map fun b => b.2.inside

instance (bytes : List (UInt8 × Part)) : Decidable (Agree bytes) :=
  inferInstanceAs (Decidable (_ = _))

/-- What stands on either side of a stretch of literals: code, or an end of the line. -/
structure Around (front back : List (UInt8 × Part)) : Prop where
  before : ∀ b ∈ front.getLast?, b.2 = .code
  behind : ∀ b ∈ back.head?, b.2 = .code

variable {bytes : List (UInt8 × Part)}

/-- A part is outside of literals when it is program text. -/
theorem inside_eq_false_iff {p : Part} : p.inside = false ↔ p = .code := by cases p <;> decide

/-- A part is inside of a literal or a comment when it is no program text. -/
theorem inside_eq_true_iff {p : Part} : p.inside = true ↔ p ≠ .code := by cases p <;> decide

/-- Bytes begin with a stretch of literals, which may be empty. -/
theorem exists_stretch (bytes : List (UInt8 × Part)) : ∃ run back, bytes = run ++ back ∧
    (∀ b ∈ run, b.2 ≠ .code) ∧ ∀ b ∈ back.head?, b.2 = .code := by
  induction bytes with
  | nil => exact ⟨[], [], rfl, by simp, by simp⟩
  | cons b rest ih =>
    by_cases code : b.2 = .code
    · exact ⟨[], b :: rest, rfl, by simp, by simpa using code⟩
    · obtain ⟨run, back, rfl, all, behind⟩ := ih
      exact ⟨b :: run, back, rfl, List.forall_mem_cons.2 ⟨code, all⟩, behind⟩

/-- What the guard says of bytes, if every stretch of literals among them is a row. -/
theorem marks_of_rows {g : Guard} (outside : SameQuote g .start)
    (plain : ∀ b ∈ bytes, b.2 = .code → isQuote b.1 = false)
    (rows : ∀ front run back, bytes = front ++ (run ++ back) → (∀ b ∈ run, b.2 ≠ .code) →
      Around front back → LiteralRow back.isEmpty none (run.map Prod.fst)) :
    g.marks (bytes.map Prod.fst) = bytes.map fun b => b.2.inside := by
  -- by the stretches: a stretch and the byte of code behind it are taken off at once
  induction size : bytes.length using Nat.strongRecOn generalizing bytes g with
  | ind bound ih =>
  obtain ⟨run, back, rfl, all, behind⟩ := exists_stretch bytes
  have row := rows [] run back rfl all ⟨by simp, behind⟩
  obtain ⟨marks, closed⟩ := row.marks outside
  have inside : run.map (fun b => b.2.inside) = (run.map Prod.fst).map fun _ => true := by
    rw [List.map_map]
    exact List.map_congr_left fun b member => inside_eq_true_iff.2 (all b member)
  rw [List.map_append, List.map_append, marks_append, marks, inside]
  congr 1
  cases back with
  | nil => rfl
  | cons b rest =>
    -- behind the stretch there is a byte of code, and the guard is outside of literals
    have code : b.2 = .code := behind b (by simp)
    have outside := closed rfl
    rw [List.forall_mem_append, List.forall_mem_cons] at plain
    have shorter : rest.length < bound := by
      rw [← size, List.length_append, List.length_cons]
      omega
    have later := ih rest.length shorter (Guard.next_none (plain.2.1 code) outside) plain.2.2
      (fun front run' back split all' around => by
        refine rows (run ++ b :: front) run' back (by rw [split]; simp) all' ⟨?_, around.behind⟩
        intro x is_last
        rw [List.getLast?_append_cons] at is_last
        cases front with
        | nil =>
          cases is_last
          exact code
        | cons y front => exact around.before x (by simpa using is_last)) rfl
    rw [List.map_cons, List.map_cons, Guard.marks, later, plain.2.1 code, outside.1,
      inside_eq_false_iff.2 code]
    rfl

/-- A byte of code for which the guard says so is behind no open literal, and no mark. -/
theorem outside_of_code {g : Guard} {b : UInt8 × Part} (code : b.2 = .code)
    (agree : (g.mark.isSome || isQuote b.1) = b.2.inside) : g.mark = none ∧ isQuote b.1 = false := by
  rw [inside_eq_false_iff.2 code, Bool.or_eq_false_iff, Option.isSome_eq_false_iff,
    Option.isNone_iff_eq_none] at agree
  exact agree

/-- **Scanner and guard agree** on bytes exactly when every stretch of literals among them is a row
of literals in single marks; the last one may be open if the line ends there. -/
theorem agree_iff_rows (plain : ∀ b ∈ bytes, b.2 = .code → isQuote b.1 = false) :
    Agree bytes ↔ ∀ front run back, bytes = front ++ (run ++ back) → (∀ b ∈ run, b.2 ≠ .code) →
      Around front back → LiteralRow back.isEmpty none (run.map Prod.fst) := by
  refine ⟨?_, marks_of_rows ⟨rfl, rfl⟩ plain⟩
  rintro agree front run back rfl all around
  rw [Agree] at agree
  simp only [List.map_append, marks_append] at agree
  obtain ⟨agree_front, agree⟩ := List.append_inj agree (by simp)
  obtain ⟨agree_run, agree_back⟩ := List.append_inj agree (by simp)
  have outside : SameQuote (Guard.start.behind (front.map Prod.fst)) .start := by
    rcases List.eq_nil_or_concat front with rfl | ⟨front, b, rfl⟩
    · exact ⟨rfl, rfl⟩
    · have code : b.2 = .code := around.before b (by simp)
      simp only [List.concat_eq_append, List.map_append, marks_append] at agree_front
      obtain ⟨-, agree_last⟩ := List.append_inj agree_front (by simp)
      have last := outside_of_code code (List.cons.inj agree_last).1
      rw [List.concat_eq_append, List.map_append, behind_append]
      exact Guard.next_none last.2 ⟨last.1, Guard.escaped_behind last.1⟩
  have row : LiteralRow back.isEmpty (Guard.start.behind (front.map Prod.fst)).mark
      (run.map Prod.fst) := by
    refine literalRow_of_marks ?_ outside.2 fun closed => ?_
    · rw [agree_run]
      exact List.forall_mem_map.2 fun b member => inside_eq_true_iff.2 (all b member)
    · cases back with
      | nil => cases closed
      | cons b rest =>
        exact (outside_of_code (around.behind b (by simp)) (List.cons.inj agree_back).1).1
  rwa [outside.1] at row

/-! ## Blanks at both ends -/

/-- The bytes of a line that are left when the blanks at both ends are taken away. -/
def trimBytes (bytes : List (UInt8 × Part)) : List (UInt8 × Part) :=
  (bytes.drop (Text.leadingBlanks (bytes.map Prod.fst)).length).take
    (Text.trim (bytes.map Prod.fst)).length

/-- Trimming takes away gaps. -/
theorem exists_trimBytes (bytes : List (UInt8 × Part)) : ∃ front back,
    bytes = front ++ (trimBytes bytes ++ back) ∧ Text.IsGap (front.map Prod.fst) ∧
      Text.IsGap (back.map Prod.fst) ∧
        (trimBytes bytes).map Prod.fst = Text.trim (bytes.map Prod.fst) := by
  obtain ⟨gap, whole, blank, blank'⟩ := Text.exists_gaps (bytes.map Prod.fst)
  obtain ⟨front, rest, divided, is_front, is_rest⟩ := List.map_eq_append_iff.1 whole
  obtain ⟨middle, back, divided', is_middle, is_back⟩ := List.map_eq_append_iff.1 is_rest
  have trimmed : trimBytes bytes = middle := by
    rw [trimBytes, ← is_front, ← is_middle, List.length_map, List.length_map, divided, divided',
      List.drop_left, List.take_left]
  rw [← is_front] at blank
  rw [← is_back] at blank'
  rw [trimmed]
  exact ⟨front, back, by rw [divided, divided'], blank, blank', is_middle⟩

/-! ## Where lines are cut -/

/-- The bytes of a part, without the blanks around it, are a stretch of the bytes of a line on which
the scanner and the guard agree. -/
def Slice (bytes : List (UInt8 × Part)) (part : Text) : Prop :=
  ∃ front mid back, bytes = front ++ (mid ++ back) ∧ mid.map Prod.fst = Text.trim part ∧ Agree mid

/-- A line is **cut in code**: at bytes outside of literals, and the guard agrees with the scanner on
each of the parts, so that these are cut in code in turn. -/
structure CutInCode (bytes : List (UInt8 × Part)) (parts : List Text) : Prop where
  cuts : ∃ cuts, parts = cutAt (bytes.map Prod.fst) cuts ∧
    ∀ cut ∈ cuts, (bytes.map Prod.snd)[cut]? = some .code
  parts : ∀ part ∈ parts, Slice bytes part

/-- Literals are **spared**: no way to divide a line divides it inside of one. -/
structure Spared (bytes : List (UInt8 × Part)) : Prop where
  parts : ∀ sep, CutInCode bytes (splitTopLevel (bytes.map Prod.fst) sep)
  sides : CutInCode bytes (splitAssignment (bytes.map Prod.fst))
  colon : ∀ colon, headerColon? (bytes.map Prod.fst) = some colon →
    (bytes.map Prod.snd)[colon]? = some .code ∧
      CutInCode bytes [(bytes.map Prod.fst).take colon, (bytes.map Prod.fst).drop (colon + 1)]

/-- A byte at the top level is code, if the guard agrees. -/
theorem code_of_isTop {g : Guard} {b : UInt8 × Part} (top : g.isTop b.1 = true)
    (agree : (g.mark.isSome || isQuote b.1) = b.2.inside) : b.2 = .code := by
  simp only [Guard.isTop, Bool.and_eq_true, Bool.not_eq_true', Option.isNone_iff_eq_none] at top
  obtain ⟨⟨⟨⟨outside, plain⟩, -⟩, -⟩, -⟩ := top
  rw [outside, show isQuote b.1 = false from plain] at agree
  exact inside_eq_false_iff.1 agree.symm

/-- The places of the top level are code. -/
theorem code_of_mem_placesFrom {g : Guard} {offset : Nat} {before : Option UInt8}
    (agree : g.marks (bytes.map Prod.fst) = bytes.map fun b => b.2.inside) {place : Pattern.Place}
    (member : place ∈ placesFrom g offset before (bytes.map Prod.fst)) :
    ∃ k, place.offset = offset + k ∧ (bytes.map Prod.snd)[k]? = some .code := by
  induction bytes generalizing g offset before with
  | nil =>
    rw [List.map_nil, placesFrom, topLevel.go.eq_def] at member
    cases member
  | cons b bytes ih =>
    obtain ⟨here, later⟩ := List.cons.inj agree
    have behind (member : place ∈ placesFrom (g.next b.1) (offset + 1) (some b.1)
        (bytes.map Prod.fst)) :
        ∃ k, place.offset = offset + k ∧ ((b :: bytes).map Prod.snd)[k]? = some .code := by
      obtain ⟨k, at_k, code⟩ := ih later member
      exact ⟨k + 1, by omega, by simpa using code⟩
    rw [List.map_cons, placesFrom_cons] at member
    split at member
    · rename_i top
      rcases List.mem_cons.1 member with rfl | member
      · exact ⟨0, rfl, by simpa using code_of_isTop top here⟩
      · exact behind member
    · exact behind member

/-- Agreement is not lost when blanks are taken away. -/
theorem Agree.slice_of_trim {front mid back : List (UInt8 × Part)} (agree : Agree mid)
    (divided : bytes = front ++ (mid ++ back)) : Slice bytes (mid.map Prod.fst) := by
  obtain ⟨gap, gap', whole, blank, -, trimmed⟩ := exists_trimBytes mid
  refine ⟨front ++ gap, trimBytes mid, gap' ++ back, ?_, trimmed, ?_⟩
  · rw [divided]
    conv_lhs => rw [whole]
    simp only [List.append_assoc]
  · rw [Agree, whole] at agree
    simp only [List.map_append, marks_append] at agree
    have agree := (List.append_inj (List.append_inj agree (by simp)).2 (by simp)).1
    have same := (Guard.marks_gap blank ⟨rfl, rfl⟩).2.marks ((trimBytes mid).map Prod.fst)
    rw [Agree, ← same]
    exact agree

/-- The parts between chosen places are slices. `part` is the current one, last byte first. -/
theorem slice_of_mem_pieces {σ : Type} {choose : Chooser σ} {g : Guard} {s : σ}
    {before : Option UInt8} {line : List (UInt8 × Part)} (front part : List (UInt8 × Part))
    (same : SameQuote g (Guard.start.behind (part.reverse.map Prod.fst)))
    (agree : Agree (part.reverse ++ bytes)) (divided : line = front ++ (part.reverse ++ bytes))
    {piece : Text}
    (member : piece ∈ pieces choose g s before (bytes.map Prod.fst) (part.map Prod.fst)) :
    Slice line piece := by
  induction bytes generalizing g s before part front with
  | nil =>
    rw [List.append_nil] at agree
    have last : piece = part.reverse.map Prod.fst := by
      rw [List.map_reverse]
      exact List.mem_singleton.1 member
    rw [last]
    exact agree.slice_of_trim divided
  | cons b bytes ih =>
    have whole : part.reverse ++ b :: bytes = (b :: part).reverse ++ bytes := by simp
    -- the byte may belong to the current part
    have grown (s : σ) (member : piece ∈ pieces choose (g.next b.1) s (some b.1)
        (bytes.map Prod.fst) ((b :: part).map Prod.fst)) : Slice line piece := by
      refine ih front (b :: part) ?_ (whole ▸ agree) (whole ▸ divided) member
      rw [List.reverse_cons, List.map_append, behind_append]
      exact same.next b.1
    rw [List.map_cons, pieces] at member
    split at member
    · rename_i top
      split at member
      · -- the line is cut there
        rw [Agree, List.map_append, List.map_append, marks_append] at agree
        obtain ⟨agree, agree_rest⟩ := List.append_inj agree (by simp)
        rcases List.mem_cons.1 member with rfl | member
        · rw [← List.map_reverse]
          exact Agree.slice_of_trim agree divided
        · have outside := Guard.next_of_isTop top
          have later := (List.cons.inj agree_rest).2
          refine ih (front ++ (part.reverse ++ [b])) [] outside ?_ ?_ member
          · rw [List.reverse_nil, List.nil_append, Agree, ← outside.marks, (same.next b.1).marks]
            exact later
          · rw [divided]
            simp
      · exact grown _ member
    · exact grown _ member

/-- **Where the scanner and the guard agree** a line is cut in code. -/
theorem Agree.cutInCode (agree : Agree bytes) {σ : Type} {choose : Chooser σ}
    (relative : choose.Relative) (s : σ) :
    CutInCode bytes (pieces choose .start s none (bytes.map Prod.fst) []) where
  cuts := by
    refine ⟨_, (cutAt_select relative _ s).symm, fun cut member => ?_⟩
    obtain ⟨place, inside, rfl⟩ := mem_of_mem_select member
    obtain ⟨k, at_k, code⟩ := code_of_mem_placesFrom (g := .start) agree inside
    rwa [at_k, Nat.zero_add]
  parts := fun part member =>
    slice_of_mem_pieces [] [] ⟨rfl, rfl⟩ agree rfl member

/-- Literals are spared where the scanner and the guard agree. -/
theorem Agree.spared (agree : Agree bytes) : Spared bytes where
  parts := fun sep => by
    rw [splitTopLevel_eq]
    exact agree.cutInCode (fun _ _ _ _ => rfl) ()
  sides := by
    rw [splitAssignment_eq]
    exact agree.cutInCode (fun _ _ _ _ => rfl) ()
  colon := fun colon found => by
    obtain ⟨place, member, rfl, -⟩ := exists_place_of_colon found
    obtain ⟨k, at_k, code⟩ := code_of_mem_placesFrom (g := .start) agree member
    rw [← pieces_of_colon found]
    refine ⟨by rwa [at_k, Nat.zero_add], agree.cutInCode (fun s _ _ _ => ?_) _⟩
    cases s <;> rfl

end FlowTrace.Python
