import FlowTrace.Proofs.Text.Glyphs
import FlowTrace.Proofs.Text.Lines
import FlowTrace.Python.LogicalLine
import Mathlib.Tactic.SplitIfs

/-! # Pieces of logical lines

A logical line consists of **pieces**: literals, comments, newlines that do not end it, and other bytes,
brackets among them. It ends at the first newline outside of literals and brackets (`Reads`). Which
piece a text begins with can be told from its bytes and the number of open brackets, so a line is read
in one way only (`Reads.unique`).

The text of a line is what it shows when comments are dropped and physical lines are joined with
blanks. It is read like the line itself, with the same literals and brackets (`Reads.shown`), and so is
what is left of it when blanks are taken away at both ends (`Reads.trim`). -/

namespace FlowTrace.Python

variable {t rest rest' back back' lit lit' : Text} {c mark : UInt8} {depth depth' : Nat}

/-! ## Literals -/

/-- The quotation marks. -/
theorem isQuote_iff : isQuote c = true ↔ c = Text.apostrophe ∨ c = Text.doubleQuote := by
  rw [isQuote, Bool.or_eq_true, beq_iff_eq, beq_iff_eq]

/-- A mark is nothing else. -/
theorem plain_of_isQuote (quote : isQuote c = true) :
    c ≠ Text.backslash ∧ c ≠ Text.newline ∧ c ≠ '#' ∧ isOpening c = false ∧ isClosing c = false := by
  rcases isQuote_iff.1 quote with rfl | rfl <;> decide

/-- An opening bracket closes none. -/
theorem isClosing_of_isOpening (opens : isOpening c = true) : isClosing c = false := by
  rw [isOpening, Bool.or_eq_true, Bool.or_eq_true, beq_iff_eq, beq_iff_eq, beq_iff_eq] at opens
  rcases opens with (rfl | rfl) | rfl <;> decide

/-- The **contents** of a literal between three marks and three marks: a backslash takes the next byte
with it, and nowhere else do three marks begin. -/
inductive TripleContents (mark : UInt8) : Text → Prop
  /-- There are none. -/
  | nil : TripleContents mark []
  /-- A backslash and the byte that it takes with it. -/
  | escape {c : UInt8} {t : Text} : TripleContents mark t →
    TripleContents mark (Text.backslash :: c :: t)
  /-- Any other byte. -/
  | byte {c : UInt8} {t : Text} : c ≠ Text.backslash →
    ¬ [mark, mark, mark] <+: c :: (t ++ [mark, mark, mark]) → TripleContents mark t →
    TripleContents mark (c :: t)

/-- A **literal**, with what follows it. Two marks enclose contents, if they do not begin a literal in
three marks. -/
inductive Literal : Text → Text → Prop
  /-- A literal in three marks. -/
  | triple {mark : UInt8} {body : Text} (rest : Text) : isQuote mark = true →
    TripleContents mark body → Literal ([mark, mark, mark] ++ (body ++ [mark, mark, mark])) rest
  /-- A literal in single marks. -/
  | plain {mark : UInt8} {body rest : Text} : isQuote mark = true → Text.Contents mark body →
    (body = [] → rest.head? ≠ some mark) → Literal (mark :: (body ++ [mark])) rest

/-- A mark ends contents at one place only. -/
theorem contents_unique {body body' : Text} (contents : Text.Contents mark body)
    (contents' : Text.Contents mark body') (unescaped : mark ≠ Text.backslash)
    (same : body ++ mark :: rest = body' ++ mark :: rest') : body = body' := by
  induction contents generalizing body' with
  | nil =>
    cases contents' with
    | nil => rfl
    | escape _ => exact absurd (List.cons.inj same).1 unescaped
    | byte _ _ other _ => exact absurd (List.cons.inj same).1.symm other
  | escape _ ih =>
    cases contents' with
    | nil => exact absurd (List.cons.inj same).1.symm unescaped
    | escape contents' =>
      obtain ⟨-, behind⟩ := List.cons.inj same
      obtain ⟨rfl, tails⟩ := List.cons.inj behind
      rw [ih contents' tails]
    | byte escape _ _ _ => exact absurd (List.cons.inj same).1.symm escape
  | byte escape _ other _ ih =>
    cases contents' with
    | nil => exact absurd (List.cons.inj same).1 other
    | escape _ => exact absurd (List.cons.inj same).1 escape
    | byte _ _ _ contents' =>
      obtain ⟨rfl, tails⟩ := List.cons.inj same
      rw [ih contents' tails]

/-- Three marks end contents at one place only. -/
theorem tripleContents_unique {body body' : Text} (contents : TripleContents mark body)
    (contents' : TripleContents mark body') (unescaped : mark ≠ Text.backslash)
    (same : body ++ ([mark, mark, mark] ++ rest) = body' ++ ([mark, mark, mark] ++ rest')) :
    body = body' := by
  -- Three marks that end the one contents do not begin inside of the other.
  have first {c : UInt8} {t rest rest' : Text} (same : [mark, mark, mark] ++ rest = c :: t ++
      ([mark, mark, mark] ++ rest')) : [mark, mark, mark] <+: c :: (t ++ [mark, mark, mark]) :=
    Text.prefix_append_iff.1 ⟨rest, same⟩
  induction contents generalizing body' with
  | nil =>
    cases contents' with
    | nil => rfl
    | escape _ => exact absurd (List.cons.inj same).1 unescaped
    | byte _ other _ => exact absurd (first same) other
  | escape _ ih =>
    cases contents' with
    | nil => exact absurd (List.cons.inj same).1.symm unescaped
    | escape contents' =>
      obtain ⟨-, behind⟩ := List.cons.inj same
      obtain ⟨rfl, tails⟩ := List.cons.inj behind
      rw [ih contents' tails]
    | byte escape _ _ => exact absurd (List.cons.inj same).1.symm escape
  | byte escape other _ ih =>
    cases contents' with
    | nil => exact absurd (first same.symm) other
    | escape _ => exact absurd (List.cons.inj same).1 escape
    | byte _ _ contents' =>
      obtain ⟨rfl, tails⟩ := List.cons.inj same
      rw [ih contents' tails]

/-- A literal in single marks does not begin like one in three. -/
theorem not_triple {body : Text} (contents : Text.Contents mark body) (quote : isQuote mark = true)
    (apart : body = [] → rest.head? ≠ some mark) :
    ¬ [mark, mark] <+: body ++ mark :: rest := by
  intro begins
  cases body with
  | nil =>
    obtain ⟨-, tail, same⟩ := List.cons_prefix_cons.1 begins
    exact apart rfl (by rw [← same]; rfl)
  | cons d body =>
    obtain ⟨rfl, -⟩ := List.cons_prefix_cons.1 begins
    exact contents.head?_ne (plain_of_isQuote quote).1 rfl

/-- A literal begins with a mark, and ends with the same one. -/
theorem Literal.exists_mark (literal : Literal lit rest) :
    ∃ mark middle, lit = mark :: (middle ++ [mark]) ∧ isQuote mark = true := by
  cases literal with
  | @triple mark body _ quote _ =>
    exact ⟨mark, mark :: mark :: (body ++ [mark, mark]), by simp, quote⟩
  | @plain mark body _ quote _ _ => exact ⟨mark, body, rfl, quote⟩

/-- What begins with a literal begins with a mark. -/
theorem Literal.isQuote_head (literal : Literal lit rest) (same : c :: t = lit ++ rest) :
    isQuote c = true := by
  obtain ⟨mark, _, rfl, quote⟩ := literal.exists_mark
  obtain ⟨rfl, -⟩ := List.cons.inj same
  exact quote

/-- All that matters of what follows a literal is whether it begins with a mark. -/
theorem Literal.followed (literal : Literal lit rest)
    (head : ∀ mark, isQuote mark = true → rest'.head? = some mark → rest.head? = some mark) :
    Literal lit rest' := by
  cases literal with
  | triple _ quote contents => exact .triple rest' quote contents
  | plain quote contents apart =>
    exact .plain quote contents fun empty => mt (head _ quote) (apart empty)

/-- **A text begins with one literal** only. -/
theorem Literal.unique (literal : Literal lit rest) (literal' : Literal lit' rest')
    (same : lit ++ rest = lit' ++ rest') : lit = lit' := by
  cases literal with
  | @triple mark body _ quote contents =>
    obtain ⟨unescaped, -⟩ := plain_of_isQuote quote
    cases literal' with
    | triple _ _ contents' =>
      simp only [List.append_assoc, List.cons_append, List.cons.injEq] at same
      obtain ⟨rfl, -, -, same⟩ := same
      rw [tripleContents_unique contents contents' unescaped same]
    | plain quote' contents' apart =>
      simp only [List.append_assoc, List.cons_append, List.cons.injEq, List.nil_append] at same
      obtain ⟨rfl, same⟩ := same
      exact absurd ⟨_, same⟩ (not_triple contents' quote' apart)
  | @plain mark body _ quote contents apart =>
    obtain ⟨unescaped, -⟩ := plain_of_isQuote quote
    cases literal' with
    | triple _ _ _ =>
      simp only [List.append_assoc, List.cons_append, List.cons.injEq, List.nil_append] at same
      obtain ⟨rfl, same⟩ := same
      exact absurd ⟨_, same.symm⟩ (not_triple contents quote apart)
    | plain _ contents' _ =>
      simp only [List.append_assoc, List.cons_append, List.cons.injEq, List.nil_append] at same
      obtain ⟨rfl, same⟩ := same
      rw [contents_unique contents contents' unescaped same]

/-! ## Pieces -/

/-- The byte that comments begin with. -/
abbrev hash : UInt8 := '#'

/-- A **piece** of a logical line. -/
inductive Piece where
  /-- A byte outside of literals, which may be a bracket. -/
  | byte (c : UInt8)
  /-- A literal. -/
  | literal (t : Text)
  /-- A comment, without the newline behind it. -/
  | comment (t : Text)
  /-- What joins two physical lines: a newline inside of brackets, or a backslash with a newline. -/
  | joint (t : Text)
  deriving DecidableEq, Repr

namespace Piece

/-- The bytes of a piece. -/
def text : Piece → Text
  | .byte c => [c]
  | .literal t | .comment t | .joint t => t

/-- What is shown of a piece in the text of its line. -/
def shown : Piece → Text
  | .byte c => [c]
  | .literal t => t
  | .comment _ => []
  | .joint _ => [0x20]

/-- Whether a piece is shown as it is. -/
def isPlain : Piece → Bool
  | .byte _ | .literal _ => true
  | .comment _ | .joint _ => false

/-- The pieces that what is shown of a piece consists of. -/
def settled : Piece → List Piece
  | .byte c => [.byte c]
  | .literal t => [.literal t]
  | .comment _ => []
  | .joint _ => [.byte 0x20]

/-- The number of open brackets behind a piece; `none` if it closes one where none is open. -/
def depthBehind? (depth : Nat) : Piece → Option Nat
  | .byte c =>
    if isOpening c then some (depth + 1)
    else if isClosing c then if depth = 0 then none else some (depth - 1)
    else some depth
  | .literal _ | .comment _ | .joint _ => some depth

/-- The byte that a piece is, outside of literals. -/
def code : Piece → Text
  | .byte c => [c]
  | .literal _ | .comment _ | .joint _ => []

/-- A piece **begins** a text where `depth` brackets are open; other bytes follow it. -/
inductive Begins : Nat → Piece → Text → Prop
  /-- A byte that is no newline and begins nothing else. -/
  | byte {depth : Nat} {c : UInt8} {rest : Text} : isQuote c = false → c ≠ hash →
    c ≠ Text.newline → ¬ (c = Text.backslash ∧ rest.head? = some Text.newline) →
    Begins depth (.byte c) rest
  /-- A literal. -/
  | literal {depth : Nat} {t rest : Text} : Literal t rest → Begins depth (.literal t) rest
  /-- A comment goes on to the end of its physical line. -/
  | comment {depth : Nat} {t rest : Text} : Text.newline ∉ t →
    (∀ c ∈ rest.head?, c = Text.newline) → Begins depth (.comment (hash :: t)) rest
  /-- A backslash in front of a newline. -/
  | continued {depth : Nat} {rest : Text} :
    Begins depth (.joint [Text.backslash, Text.newline]) rest
  /-- A newline inside of brackets. -/
  | inside {depth : Nat} {rest : Text} : Begins (depth + 1) (.joint [Text.newline]) rest

variable {p p' : Piece}

/-- A piece has a first byte. Outside of brackets it is no newline. -/
theorem Begins.exists_cons (begins : Begins depth p rest) :
    ∃ c t, p.text = c :: t ∧ (depth = 0 → c ≠ Text.newline) := by
  cases begins with
  | byte _ _ other _ => exact ⟨_, [], rfl, fun _ => other⟩
  | literal literal =>
    obtain ⟨mark, _, rfl, quote⟩ := literal.exists_mark
    exact ⟨mark, _, rfl, fun _ => (plain_of_isQuote quote).2.1⟩
  | comment _ _ => exact ⟨_, _, rfl, fun _ => by decide⟩
  | continued => exact ⟨_, _, rfl, fun _ => by decide⟩
  | inside => exact ⟨_, _, rfl, nofun⟩

/-- **A text begins with one piece** only. -/
theorem Begins.unique (begins : Begins depth p rest) (begins' : Begins depth p' rest')
    (same : p.text ++ rest = p'.text ++ rest') : p = p' ∧ rest = rest' := by
  suffices pieces : p = p' by
    subst pieces
    exact ⟨rfl, List.append_cancel_left same⟩
  -- The first bytes tell the kinds of pieces apart; two of one kind end at the same place.
  cases begins with
  | byte plain no_comment no_newline no_joint =>
    cases begins' with
    | byte _ _ _ _ => rw [(List.cons.inj same).1]
    | literal literal => cases plain.symm.trans (literal.isQuote_head same)
    | comment _ _ => exact absurd (List.cons.inj same).1 no_comment
    | continued =>
      obtain ⟨first, behind⟩ := List.cons.inj same
      exact absurd ⟨first, congrArg List.head? behind⟩ no_joint
    | inside => exact absurd (List.cons.inj same).1 no_newline
  | literal literal =>
    cases begins' with
    | byte plain _ _ _ => cases plain.symm.trans (literal.isQuote_head same.symm)
    | literal literal' => rw [literal.unique literal' same]
    | comment _ _ => exact absurd (literal.isQuote_head same.symm) (by decide)
    | continued => exact absurd (literal.isQuote_head same.symm) (by decide)
    | inside => exact absurd (literal.isQuote_head same.symm) (by decide)
  | @comment _ line _ single ends =>
    cases begins' with
    | byte _ no_comment _ _ => exact absurd (List.cons.inj same).1.symm no_comment
    | literal literal => exact absurd (literal.isQuote_head same) (by decide)
    | @comment _ line' _ single' ends' =>
      have lines : line ++ rest = line' ++ rest' := (List.cons.inj same).2
      rw [← (Text.span_line single ends).1, lines, (Text.span_line single' ends').1]
    | continued => cases same
    | inside => cases same
  | continued =>
    cases begins' with
    | byte _ _ _ no_joint =>
      obtain ⟨first, behind⟩ := List.cons.inj same
      exact absurd ⟨first.symm, congrArg List.head? behind.symm⟩ no_joint
    | literal literal => exact absurd (literal.isQuote_head same) (by decide)
    | comment _ _ => cases same
    | continued => rfl
    | inside => cases same
  | inside =>
    cases begins' with
    | byte _ _ no_newline _ => exact absurd (List.cons.inj same).1.symm no_newline
    | literal literal => exact absurd (literal.isQuote_head same) (by decide)
    | comment _ _ => cases same
    | continued => cases same
    | inside => rfl

end Piece

/-! ## Lines -/

/-- The bytes of a line. -/
def written (pieces : List Piece) : Text := pieces.flatMap Piece.text

/-- What is shown of a line. -/
def shown (pieces : List Piece) : Text := pieces.flatMap Piece.shown

/-- The bytes of a line outside of its literals. -/
def outside (pieces : List Piece) : Text := pieces.flatMap Piece.code

/-- Pieces are written one after the other. -/
theorem written_cons (p : Piece) (pieces : List Piece) :
    written (p :: pieces) = p.text ++ written pieces := List.flatMap_cons

/-- Pieces are shown one after the other. -/
theorem shown_cons (p : Piece) (pieces : List Piece) :
    shown (p :: pieces) = p.shown ++ shown pieces := List.flatMap_cons

/-- The program text of pieces is that of each of them. -/
theorem outside_cons (p : Piece) (pieces : List Piece) :
    outside (p :: pieces) = p.code ++ outside pieces := List.flatMap_cons

/-- A text **reads** as the pieces of a line, from where `depth` brackets are open up to where the line
ends: at a newline outside of brackets, or at the end of the source. -/
inductive Reads : Nat → List Piece → Text → Text → Prop
  /-- The line ends. -/
  | nil {back : Text} : (∀ c ∈ back.head?, c = Text.newline) → Reads 0 [] back back
  /-- It goes on with a piece. -/
  | cons {depth depth' : Nat} {p : Piece} {pieces : List Piece} {rest back : Text} :
    p.Begins depth rest → p.depthBehind? depth = some depth' → Reads depth' pieces rest back →
    Reads depth (p :: pieces) (p.text ++ rest) back

namespace Reads

variable {pieces pieces' : List Piece}

/-- A text is the pieces that it is read as, and what is left of it. -/
theorem eq_written (reads : Reads depth pieces t back) : t = written pieces ++ back := by
  induction reads with
  | nil _ => rfl
  | cons _ _ _ ih => rw [written_cons, List.append_assoc, ← ih]

/-- A line ends in front of a newline, or with the source. -/
theorem ends (reads : Reads depth pieces t back) : ∀ c ∈ back.head?, c = Text.newline := by
  induction reads with
  | nil ends => exact ends
  | cons _ _ _ ih => exact ih

/-- **A line is read in one way** only. -/
theorem unique (reads : Reads depth pieces t back) (reads' : Reads depth pieces' t back') :
    pieces = pieces' ∧ back = back' := by
  -- Where a line ends, it does not go on.
  have over_ {p : Piece} {rest back : Text} (begins : p.Begins 0 rest)
      (ends : ∀ c ∈ back.head?, c = Text.newline) (same : back = p.text ++ rest) : False := by
    obtain ⟨c, u, text, no_newline⟩ := begins.exists_cons
    rw [text] at same
    exact no_newline rfl (ends c (by rw [same]; rfl))
  induction reads generalizing pieces' back' with
  | @nil back ends =>
    generalize whole : back = t at reads'
    generalize none_open : 0 = depth at reads'
    cases reads' with
    | nil _ => exact ⟨rfl, rfl⟩
    | cons begins _ _ =>
      subst none_open
      exact (over_ begins ends whole).elim
  | @cons depth depth' p pieces rest back begins counted _ ih =>
    generalize whole : p.text ++ rest = t at reads'
    cases reads' with
    | nil ends => exact (over_ begins ends whole.symm).elim
    | cons begins' counted' reads' =>
      obtain ⟨rfl, rfl⟩ := begins.unique begins' whole
      obtain rfl := Option.some.inj (counted.symm.trans counted')
      obtain ⟨rfl, rfl⟩ := ih reads'
      exact ⟨rfl, rfl⟩

/-! ### Brackets -/

/-- How a piece changes the number of open brackets. -/
theorem countP_code {p : Piece} (counted : p.depthBehind? depth = some depth') :
    p.code.countP isClosing + depth' = p.code.countP isOpening + depth ∧
      p.code.countP isClosing ≤ depth := by
  cases p with
  | byte c =>
    have single (kind : UInt8 → Bool) : [c].countP kind = if kind c then 1 else 0 :=
      List.countP_singleton
    show [c].countP isClosing + depth' = [c].countP isOpening + depth ∧ [c].countP isClosing ≤ depth
    rw [single, single]
    simp only [Piece.depthBehind?] at counted
    split_ifs at counted ⊢ with closes opens none_open opens
    · exact absurd closes (by rw [isClosing_of_isOpening opens]; exact nofun)
    · cases counted
      omega
    · cases counted
      omega
    · cases counted
      omega
  | literal _ | comment _ | joint _ =>
    cases counted
    exact ⟨rfl, Nat.zero_le _⟩

/-- **Brackets are closed**: as many as are opened, and those that were open in front. -/
theorem countP_outside (reads : Reads depth pieces t back) :
    (outside pieces).countP isClosing = (outside pieces).countP isOpening + depth := by
  induction reads with
  | nil _ => rfl
  | cons _ counted _ ih =>
    rw [outside_cons, List.countP_append, List.countP_append, ih]
    have := (countP_code counted).1
    omega

/-- **No bracket is closed** before it is opened. -/
theorem countP_front {front : Text} (reads : Reads depth pieces t back)
    (leads : front <+: outside pieces) : front.countP isClosing ≤ front.countP isOpening + depth := by
  induction reads generalizing front with
  | nil _ =>
    rw [List.prefix_nil.1 leads]
    exact Nat.zero_le _
  | @cons depth depth' p pieces _ _ _ counted _ ih =>
    obtain ⟨step, few⟩ := countP_code counted
    obtain ⟨behind, whole⟩ := leads
    rw [outside_cons] at whole
    rcases List.append_eq_append_iff.1 whole with ⟨more, within, -⟩ | ⟨more, rfl, rest⟩
    · have le : front.countP isClosing ≤ p.code.countP isClosing := by
        rw [within, List.countP_append]
        exact Nat.le_add_right ..
      omega
    · have := ih ⟨behind, rest.symm⟩
      rw [List.countP_append, List.countP_append]
      omega

/-! ### The text of a line -/

/-- What is shown begins like the line, but with no newline, or with the blank in the place of one. -/
theorem head_shown (reads : Reads depth pieces t back) (head : (shown pieces).head? = some c) :
    t.head? = some c ∧ c ≠ Text.newline ∨ c = 0x20 := by
  induction reads with
  | nil _ => cases head
  | @cons _ _ p pieces rest _ begins _ _ ih =>
    rw [shown_cons] at head
    cases begins with
    | byte _ _ other _ =>
      obtain rfl := Option.some.inj head
      exact .inl ⟨rfl, other⟩
    | literal literal =>
      obtain ⟨mark, _, rfl, quote⟩ := literal.exists_mark
      obtain rfl := Option.some.inj head
      exact .inl ⟨rfl, (plain_of_isQuote quote).2.1⟩
    | comment _ ends =>
      -- a comment is followed by a newline, for which a blank is shown
      rcases ih head with ⟨first, other⟩ | blank
      · exact absurd (ends c first) other
      · exact .inr blank
    | continued => exact .inr (Option.some.inj head).symm
    | inside => exact .inr (Option.some.inj head).symm

/-- **What is shown of a line** is read like the line, with blanks in the place of what joins physical
lines and without comments. -/
theorem read_shown (reads : Reads depth pieces t back) :
    Reads depth (pieces.flatMap Piece.settled) (shown pieces) [] := by
  have apart {pieces : List Piece} {t back : Text} {depth : Nat} (reads : Reads depth pieces t back)
      {d : UInt8} (known : d ≠ 0x20) (head : (shown pieces).head? = some d) :
      t.head? = some d ∧ d ≠ Text.newline := (reads.head_shown head).resolve_right known
  induction reads with
  | nil _ => exact .nil nofun
  | @cons depth depth' p pieces rest _ begins counted reads ih =>
    rw [shown_cons, List.flatMap_cons]
    -- The blank in the place of a newline is no bracket.
    have blank : Reads depth' (.byte 0x20 :: pieces.flatMap Piece.settled) (0x20 :: shown pieces) [] :=
      .cons (.byte rfl (by decide) (by decide) fun joint => absurd joint.1 (by decide)) rfl ih
    cases begins with
    | byte plain no_comment no_newline no_joint =>
      refine .cons (.byte plain no_comment no_newline fun joint => ?_) counted ih
      exact (apart reads (by decide) joint.2).2 rfl
    | literal literal =>
      refine .cons (.literal (literal.followed fun mark quote head => ?_)) counted ih
      refine (apart reads (fun blank => ?_) head).1
      rw [blank] at quote
      cases quote
    | comment _ _ =>
      cases counted
      exact ih
    | continued =>
      cases counted
      exact blank
    | inside =>
      cases counted
      exact blank

end Reads

/-- What pieces settle to is plain. -/
theorem isPlain_settled (pieces : List Piece) :
    ∀ p ∈ pieces.flatMap Piece.settled, p.isPlain = true := by
  intro p member
  obtain ⟨q, -, member⟩ := List.mem_flatMap.1 member
  cases q with
  | comment _ => cases member
  | byte _ | literal _ | joint _ =>
    rw [List.mem_singleton.1 member]
    rfl

/-- A text is **closed** when it can be read to its end without comments and newlines outside of
literals: all literals and brackets in it are closed. -/
def Closed (pieces : List Piece) (t : Text) : Prop :=
  Reads 0 pieces t [] ∧ ∀ p ∈ pieces, p.isPlain = true

/-! ### Blanks around a line -/

/-- No byte of a gap is a mark or a bracket. -/
theorem plain_of_gap {gap : Text} (blank : Text.IsGap gap) (member : c ∈ gap) :
    isQuote c = false ∧ isOpening c = false ∧ isClosing c = false := by
  have codes : ∀ n < 256, ((UInt8.ofNat n) < 0x80 → Rune.isBlank n = true) →
      isQuote (.ofNat n) = false ∧ isOpening (.ofNat n) = false ∧ isClosing (.ofNat n) = false := by
    decide +kernel
  have fact := codes c.toNat c.toNat_lt
  rw [UInt8.ofNat_toNat] at fact
  exact fact (blank c member)

section Gaps

variable {pieces : List Piece} {gap : Text}

/-- Bytes that are neither marks nor brackets can be taken away in front. -/
theorem exists_closed_behind (dull : ∀ c ∈ gap,
      isQuote c = false ∧ isOpening c = false ∧ isClosing c = false)
    (closed : Closed pieces (gap ++ t)) : ∃ pieces', Closed pieces' t := by
  induction gap generalizing pieces with
  | nil => exact ⟨pieces, closed⟩
  | cons c gap ih =>
    obtain ⟨⟨no_mark, no_opening, no_closing⟩, dull⟩ := List.forall_mem_cons.1 dull
    obtain ⟨reads, plain⟩ := closed
    generalize whole : c :: gap ++ t = u at reads
    cases reads with
    | nil _ => cases whole
    | cons begins counted reads =>
      obtain ⟨here, later⟩ := List.forall_mem_cons.1 plain
      cases begins with
      | byte _ _ _ _ =>
        obtain ⟨rfl, rfl⟩ := List.cons.inj whole
        simp only [Piece.depthBehind?, no_opening, no_closing, Bool.false_eq_true, if_false,
          Option.some.injEq] at counted
        subst counted
        exact ih dull ⟨reads, later⟩
      | literal literal => cases no_mark.symm.trans (literal.isQuote_head whole)
      | comment _ _ => cases here
      | continued => cases here

/-- A byte that is neither a mark nor a bracket can be taken away behind. -/
theorem exists_reads_front (dull : isQuote c = false ∧ isOpening c = false ∧ isClosing c = false)
    (reads : Reads depth pieces (t ++ [c]) []) (plain : ∀ p ∈ pieces, p.isPlain = true) :
    ∃ pieces', Reads depth pieces' t [] ∧ ∀ p ∈ pieces', p.isPlain = true := by
  obtain ⟨no_mark, no_opening, no_closing⟩ := dull
  generalize whole : t ++ [c] = u at reads
  generalize all : ([] : Text) = back at reads
  induction reads generalizing t with
  | nil _ =>
    subst all
    exact absurd whole (by simp)
  | @cons depth depth' p pieces rest back begins counted reads ih =>
    obtain ⟨here, later⟩ := List.forall_mem_cons.1 plain
    rcases List.eq_nil_or_concat rest with rfl | ⟨rest, d, rfl⟩
    · -- the byte is the last piece, since a literal ends with a mark
      rw [List.append_nil] at whole
      cases begins with
      | byte _ _ _ _ =>
        obtain ⟨rfl, same⟩ := List.append_inj' (show t ++ [c] = [] ++ [_] from whole) rfl
        obtain rfl := List.singleton_inj.1 same
        simp only [Piece.depthBehind?, no_opening, no_closing, Bool.false_eq_true, if_false,
          Option.some.injEq] at counted
        subst counted all
        exact ⟨pieces, reads, later⟩
      | literal literal =>
        obtain ⟨mark, middle, rfl, quote⟩ := literal.exists_mark
        obtain ⟨-, same⟩ := List.append_inj' (show t ++ [c] = (mark :: middle) ++ [mark] from whole) rfl
        rw [List.singleton_inj.1 same, quote] at no_mark
        cases no_mark
      | comment _ _ => cases here
      | continued => cases here
      | inside => cases here
    · rw [List.concat_eq_append, ← List.append_assoc] at whole
      obtain ⟨rfl, same⟩ := List.append_inj' whole rfl
      obtain rfl := List.singleton_inj.1 same
      obtain ⟨pieces', reads', plain'⟩ := ih later (List.concat_eq_append ..).symm all
      have head {d : UInt8} (head : rest.head? = some d) : (rest.concat c).head? = some d := by
        obtain ⟨tail, rfl⟩ := List.head?_eq_some_iff.1 head
        rfl
      refine ⟨p :: pieces', .cons ?_ counted reads', List.forall_mem_cons.2 ⟨here, plain'⟩⟩
      cases begins with
      | byte solid no_comment no_newline no_joint =>
        exact .byte solid no_comment no_newline fun joint => no_joint ⟨joint.1, head joint.2⟩
      | literal literal => exact .literal (literal.followed fun _ _ => head)
      | comment _ _ => cases here
      | continued => exact .continued
      | inside => exact .inside

/-- **Blanks around a text** can be taken away. -/
theorem exists_closed_trim (closed : Closed pieces t) : ∃ pieces', Closed pieces' (Text.trim t) := by
  obtain ⟨back, whole, front_blank, back_blank⟩ := Text.exists_gaps t
  rw [whole] at closed
  obtain ⟨behind, closed⟩ := exists_closed_behind (fun c => plain_of_gap front_blank) closed
  have front : ∀ gap : Text, (∀ c ∈ gap, isQuote c = false ∧ isOpening c = false ∧
      isClosing c = false) → ∀ pieces, Closed pieces (Text.trim t ++ gap) →
      ∃ pieces', Closed pieces' (Text.trim t) := by
    intro gap dull
    induction gap using List.reverseRecOn with
    | nil => exact fun pieces closed => ⟨pieces, by rwa [List.append_nil] at closed⟩
    | append_singleton gap c ih =>
      intro pieces closed
      rw [← List.append_assoc] at closed
      obtain ⟨pieces', closed'⟩ := exists_reads_front (dull c (by simp)) closed.1 closed.2
      exact ih (fun d member => dull d (List.mem_append_left _ member)) pieces' closed'
  exact front back (fun c => plain_of_gap back_blank) behind closed

end Gaps

end FlowTrace.Python
