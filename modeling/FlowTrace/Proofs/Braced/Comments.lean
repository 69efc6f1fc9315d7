import FlowTrace.Proofs.Braced.Rewording
import FlowTrace.Proofs.Text.Glyphs
import FlowTrace.Proofs.Text.Lines
import FlowTrace.Proofs.Text.Repair

/-! # Comments

A source consists of **pieces**: bytes of program text, literals, and comments of two kinds. Which
piece a text begins with can be told from its bytes (`Piece.Begins`), so there is one way at most to
divide a source into pieces (`Divides.unique`).

Comments are blanked in sources that can be divided, and there piece by piece
(`blankComments_eq_ok`): a comment becomes blank space of the same length and with the same lines,
and everything else stays. Blank space begins neither a literal nor a comment, so the result is
divided like the source, and has no comments left. The brackets that scanners of the result find in code
are those that are pieces of the source (`opens_iff`). -/

namespace FlowTrace.Braced

variable {t rest rest' code source lit : Text} {c : UInt8}

/-! ## Literals -/

/-- A **literal**, with what follows it. Two marks enclose contents, if they do not begin a text block,
and three double quotation marks enclose anything up to the next three. -/
inductive Literal : Text → Text → Prop
  /-- A text block. -/
  | block {body : Text} (rest : Text) : Text.FirstBehind blockMark body →
    Literal (blockMark ++ (body ++ blockMark)) rest
  /-- A literal on one line. -/
  | plain {mark : UInt8} {body rest : Text} : isMark mark = true → Text.Contents mark body →
    (mark = Text.doubleQuote → body = [] → rest.head? ≠ some Text.doubleQuote) →
    Literal (mark :: (body ++ [mark])) rest

/-- The marks are the two quotation marks. -/
theorem isMark_iff : isMark c = true ↔ c = Text.doubleQuote ∨ c = Text.apostrophe := by
  rw [isMark, Bool.or_eq_true, beq_iff_eq, beq_iff_eq]

/-- A mark is neither a backslash nor a newline. -/
theorem plain_of_isMark (mark : isMark c = true) : c ≠ Text.backslash ∧ c ≠ Text.newline := by
  rcases isMark_iff.1 mark with rfl | rfl <;> decide

/-- **Up to the closing mark** there are contents. -/
theorem exists_contents {mark : UInt8} {n m : Nat} (closed : plainLength? mark t false n = some m) :
    ∃ body rest, t = body ++ mark :: rest ∧ Text.Contents mark body ∧ m = n + body.length + 1 := by
  -- A backslash takes a byte with it, so the induction goes over both states of the scanner.
  suffices both : ∀ n m, (plainLength? mark t false n = some m →
      ∃ body rest, t = body ++ mark :: rest ∧ Text.Contents mark body ∧ m = n + body.length + 1) ∧
      (plainLength? mark t true n = some m → ∃ c body rest, t = c :: (body ++ mark :: rest) ∧
        Text.Contents mark body ∧ m = n + body.length + 2) from (both n m).1 closed
  clear closed
  induction t with
  | nil => exact fun n m => ⟨nofun, nofun⟩
  | cons c t ih =>
    intro n m
    constructor
    · intro closed
      rw [plainLength?] at closed
      split_ifs at closed with escape newline ends
      · obtain ⟨d, body, rest, rfl, contents, rfl⟩ := (ih _ _).2 closed
        rw [beq_iff_eq.1 escape]
        exact ⟨_, rest, rfl, .escape contents, by simp only [List.length_cons]; omega⟩
      · cases closed
        rw [beq_iff_eq.1 ends]
        exact ⟨[], t, rfl, .nil, rfl⟩
      · obtain ⟨body, rest, rfl, contents, rfl⟩ := (ih _ _).1 closed
        refine ⟨c :: body, rest, rfl, ?_, by rw [List.length_cons]; omega⟩
        exact .byte (by simpa using escape) (by simpa using newline) (by simpa using ends) contents
    · intro closed
      obtain ⟨body, rest, rfl, contents, rfl⟩ := (ih _ _).1 closed
      exact ⟨c, body, rest, rfl, contents, by omega⟩

/-- Contents reach up to their closing mark. -/
theorem plainLength_contents {mark : UInt8} {body : Text} (is_mark : isMark mark = true)
    (contents : Text.Contents mark body) (rest : Text) (n : Nat) :
    plainLength? mark (body ++ mark :: rest) false n = some (n + body.length + 1) := by
  obtain ⟨unescaped, no_newline⟩ := plain_of_isMark is_mark
  induction contents generalizing n with
  | nil =>
    rw [List.nil_append, plainLength?, if_neg (by simpa using unescaped),
      if_neg (by simpa using no_newline), if_pos (by simp)]
    rfl
  | escape _ ih =>
    rw [List.cons_append, List.cons_append, plainLength?, if_pos (by simp), plainLength?, ih]
    simp only [List.length_cons, Option.some.injEq]
    omega
  | byte escape newline ends _ ih =>
    rw [List.cons_append, plainLength?, if_neg (by simpa using escape),
      if_neg (by simpa using newline), if_neg (by simpa using ends), ih]
    simp only [List.length_cons, Option.some.injEq]
    omega

/-- A literal on one line does not begin like a text block. -/
theorem not_blockMark {mark : UInt8} {body : Text} (is_mark : isMark mark = true)
    (contents : Text.Contents mark body)
    (apart : mark = Text.doubleQuote → body = [] → rest.head? ≠ some Text.doubleQuote) :
    ¬ blockMark <+: mark :: (body ++ mark :: rest) := by
  intro begins
  obtain ⟨rfl, begins⟩ := List.cons_prefix_cons.1 begins
  cases body with
  | nil =>
    obtain ⟨-, tail, same⟩ := List.cons_prefix_cons.1 begins
    exact apart rfl rfl (by rw [← same]; rfl)
  | cons d body =>
    obtain ⟨rfl, -⟩ := List.cons_prefix_cons.1 begins
    exact contents.head?_ne (plain_of_isMark is_mark).1 rfl

/-- **How long a literal is.** -/
theorem literalLength_eq_some_iff {n : Nat} (mark : isMark c = true) :
    literalLength? (c :: t) = some n ↔
      ∃ lit rest, c :: t = lit ++ rest ∧ lit.length = n ∧ Literal lit rest := by
  rw [literalLength?]
  constructor
  · intro closed
    split at closed
    · rename_i begins
      obtain ⟨i, found, rfl⟩ := Option.map_eq_some_iff.1 closed
      obtain ⟨body, rest, behind, rfl, first⟩ := (Text.indexOf_eq_some_iff (by decide)).1 found
      obtain ⟨tail, whole⟩ := List.isPrefixOf_iff_prefix.1 begins
      rw [← whole] at behind
      obtain rfl : tail = _ := behind
      refine ⟨_, rest, by rw [← whole]; simp, ?_, .block rest first⟩
      simp only [List.length_append, show blockMark.length = 3 from rfl]
      omega
    -- Three marks were looked for first, so a literal in single marks does not begin with three.
    · rename_i other
      obtain ⟨body, rest, rfl, contents, rfl⟩ := exists_contents closed
      refine ⟨_, rest, by simp, by simp; omega, .plain mark contents ?_⟩
      rintro rfl rfl ends
      refine other (List.isPrefixOf_iff_prefix.2 ?_)
      obtain ⟨tail, rfl⟩ := List.head?_eq_some_iff.1 ends
      exact ⟨tail, rfl⟩
  · rintro ⟨lit, rest, same, rfl, literal⟩
    cases literal with
    | @block body _ first =>
      rw [same]
      have begins : blockMark.isPrefixOf (blockMark ++ (body ++ blockMark) ++ rest) = true :=
        List.isPrefixOf_iff_prefix.2 ⟨_, (List.append_assoc ..).symm⟩
      have behind : (blockMark ++ (body ++ blockMark) ++ rest).drop 3 =
          body ++ (blockMark ++ rest) := by
        rw [List.append_assoc, List.append_assoc]
        rfl
      rw [if_pos begins, behind,
        (Text.indexOf_eq_some_iff (by decide)).2 ⟨body, rest, rfl, rfl, first⟩]
      simp only [List.length_append, show blockMark.length = 3 from rfl, Option.map_some,
        Option.some.injEq]
      omega
    | @plain mark body _ is_mark contents apart =>
      have whole : mark :: (body ++ [mark]) ++ rest = mark :: (body ++ mark :: rest) := by simp
      rw [same.trans whole,
        if_neg (mt List.isPrefixOf_iff_prefix.1 (not_blockMark is_mark contents apart))]
      obtain ⟨rfl, rfl⟩ := List.cons.inj (same.trans whole)
      rw [plainLength_contents is_mark contents]
      simp
      omega

/-- All that matters of what follows a literal is whether it begins with a double quotation mark. -/
theorem Literal.followed (literal : Literal lit rest)
    (head : rest'.head? = some Text.doubleQuote → rest.head? = some Text.doubleQuote) :
    Literal lit rest' := by
  cases literal with
  | block _ first => exact .block rest' first
  | plain mark contents apart =>
    exact .plain mark contents fun double empty => mt head (apart double empty)

/-- A literal begins with a mark. -/
theorem Literal.exists_mark (literal : Literal lit rest) :
    ∃ mark tail, lit = mark :: tail ∧ isMark mark = true := by
  cases literal with
  | block _ first => exact ⟨Text.doubleQuote, _, rfl, rfl⟩
  | plain mark _ _ => exact ⟨_, _, rfl, mark⟩

/-! ## Pieces -/

/-- The byte that the marks of comments begin with. -/
abbrev slash : UInt8 := '/'

/-- The byte of the marks of comments that may span lines. -/
abbrev asterisk : UInt8 := '*'

/-- The closing mark of a comment is an asterisk and a slash. -/
theorem closing_eq : (("*/" : Text) : Text) = [asterisk, slash] := rfl

/-- A **piece** of a source. -/
inductive Piece where
  /-- A byte of program text. -/
  | code (c : UInt8)
  /-- A literal. -/
  | literal (t : Text)
  /-- A comment that ends with its line, without the newline. -/
  | line (t : Text)
  /-- A comment up to its closing mark. -/
  | block (t : Text)
  deriving DecidableEq, Repr

namespace Piece

/-- The bytes of a piece. -/
def text : Piece → Text
  | .code c => [c]
  | .literal t | .line t | .block t => t

/-- Whether a piece is a comment. -/
def isComment : Piece → Bool
  | .code _ | .literal _ => false
  | .line _ | .block _ => true

/-- What becomes of a piece when comments are blanked. -/
def blanked (p : Piece) : Text := if p.isComment then p.text.map blankByte else p.text

/-- The region in which the first byte of a piece is read. -/
def region : Piece → Region
  | .code _ => .code
  | .literal t => .literal t.length
  | .line _ => .line
  | .block t => .block t.length

/-- A piece **begins** a text, in which other bytes follow it. -/
inductive Begins : Piece → Text → Prop
  /-- A byte that opens neither a literal nor a comment. -/
  | code {c : UInt8} {rest : Text} : isMark c = false →
    ¬ (c = slash ∧ rest.head? = some slash) → ¬ (c = slash ∧ rest.head? = some asterisk) →
    Begins (.code c) rest
  /-- A literal. -/
  | literal {t rest : Text} : Literal t rest → Begins (.literal t) rest
  /-- Two slashes, and the rest of the line. -/
  | line {body rest : Text} : Text.newline ∉ body → (∀ c ∈ rest.head?, c = Text.newline) →
    Begins (.line (slash :: slash :: body)) rest
  /-- A slash and an asterisk, up to the next asterisk and slash. -/
  | block {body rest : Text} : Text.FirstBehind [asterisk, slash] body →
    Begins (.block (slash :: asterisk :: (body ++ [asterisk, slash]))) rest

variable {p p' : Piece}

/-- A piece has a first byte, and the region of this byte is that of the piece. -/
theorem Begins.regionAt (begins : p.Begins rest) :
    ∃ c t, p.text ++ rest = c :: t ∧ regionAt c t = .ok p.region := by
  cases begins with
  | @code c _ plain no_line no_block =>
    refine ⟨c, rest, rfl, ?_⟩
    simp only [regionAt, plain, Bool.and_eq_true, beq_iff_eq, if_neg no_line, if_neg no_block,
      Bool.false_eq_true, if_false]
    rfl
  | @literal lit _ literal =>
    obtain ⟨mark, tail, rfl, is_mark⟩ := literal.exists_mark
    refine ⟨mark, tail ++ rest, rfl, ?_⟩
    have closed : literalLength? (mark :: (tail ++ rest)) = some (mark :: tail).length :=
      (literalLength_eq_some_iff is_mark).2 ⟨mark :: tail, rest, rfl, rfl, literal⟩
    rw [Braced.regionAt, if_pos is_mark, closed]
    rfl
  | line _ _ => exact ⟨slash, _, rfl, rfl⟩
  | @block body _ first =>
    refine ⟨slash, asterisk :: (body ++ [asterisk, slash] ++ rest), rfl, ?_⟩
    have found : Text.indexOf? (body ++ [asterisk, slash] ++ rest) [asterisk, slash] =
        some body.length :=
      (Text.indexOf_eq_some_iff (by simp)).2 ⟨body, rest, List.append_assoc .., rfl, first⟩
    have no_line : (slash == slash &&
        (asterisk :: (body ++ [asterisk, slash] ++ rest)).head? == some slash) = false := rfl
    have opens : (slash == slash &&
        (asterisk :: (body ++ [asterisk, slash] ++ rest)).head? == some asterisk) = true := rfl
    rw [Braced.regionAt, if_neg (by decide), no_line, if_neg Bool.false_ne_true, if_pos opens,
      List.drop_succ_cons, List.drop_zero, closing_eq, found]
    simp [region]

/-- **Wherever a byte is read, a piece begins.** -/
theorem exists_begins {region : Region} (at_ : Braced.regionAt c t = .ok region) :
    ∃ p rest, Begins p rest ∧ p.text ++ rest = c :: t ∧ p.region = region := by
  rw [Braced.regionAt] at at_
  -- The regions are tried in order: a literal, a comment in a line, a comment in a block, code.
  split at at_
  · rename_i mark
    split at at_
    · rename_i n closed
      cases at_
      obtain ⟨lit, rest, same, rfl, literal⟩ := (literalLength_eq_some_iff mark).1 closed
      exact ⟨.literal lit, rest, .literal literal, same.symm, rfl⟩
    · cases at_
  · rename_i plain
    split at at_
    · rename_i opens
      cases at_
      simp only [Bool.and_eq_true, beq_iff_eq] at opens
      obtain ⟨rfl, second⟩ := opens
      obtain ⟨t, rfl⟩ := List.head?_eq_some_iff.1 second
      obtain ⟨body, rest, rfl, single, ends, -⟩ := Text.exists_line t
      exact ⟨.line (slash :: slash :: body), rest, .line single ends, rfl, rfl⟩
    · rename_i no_line
      split at at_
      · rename_i opens
        split at at_
        · rename_i n found
          cases at_
          simp only [Bool.and_eq_true, beq_iff_eq] at opens
          obtain ⟨rfl, second⟩ := opens
          obtain ⟨t, rfl⟩ := List.head?_eq_some_iff.1 second
          obtain ⟨body, rest, same, rfl, first⟩ := (Text.indexOf_eq_some_iff (by decide)).1 found
          obtain rfl : t = _ := same
          refine ⟨.block (slash :: asterisk :: (body ++ [asterisk, slash])), rest, .block first, ?_, ?_⟩
          · rw [closing_eq]
            simp [text]
          · simp [Piece.region]
        · cases at_
      · rename_i no_block
        cases at_
        exact ⟨.code c, t, .code (by simpa using plain) (by simpa using no_line)
          (by simpa using no_block), rfl, rfl⟩

/-- A piece has a byte. -/
theorem text_ne_nil (begins : p.Begins rest) : p.text ≠ [] := by
  cases begins with
  | literal literal =>
    obtain ⟨_, _, rfl, -⟩ := literal.exists_mark
    exact List.cons_ne_nil _ _
  | _ => exact List.cons_ne_nil _ _

/-- Up to its newline, or to the end of the source, a comment is a whole line. -/
theorem Begins.takeWhile_line (begins : Begins (.line t) rest) :
    (t ++ rest).takeWhile (· != Text.newline) = t := by
  cases begins with
  | @line body _ single ends =>
    have single : Text.newline ∉ slash :: slash :: body := by
      simp only [List.mem_cons, not_or]
      exact ⟨by decide, by decide, single⟩
    exact (Text.span_line single ends).1

/-- **A text begins with one piece** only. -/
theorem Begins.unique (begins : p.Begins rest) (begins' : p'.Begins rest')
    (same : p.text ++ rest = p'.text ++ rest') : p = p' ∧ rest = rest' := by
  obtain ⟨c, t, whole, at_⟩ := begins.regionAt
  obtain ⟨c', t', whole', at_'⟩ := begins'.regionAt
  obtain ⟨rfl, rfl⟩ := List.cons.inj (whole.symm.trans (same.trans whole'))
  have regions : p.region = p'.region := Except.ok.inj (at_.symm.trans at_')
  cases p <;> cases p' <;>
    simp only [Piece.region, reduceCtorEq, Region.literal.injEq, Region.block.injEq] at regions
  · obtain ⟨rfl, rfl⟩ := List.cons.inj same
    exact ⟨rfl, rfl⟩
  · obtain ⟨rfl, rfl⟩ := List.append_inj same regions
    exact ⟨rfl, rfl⟩
  · rename_i lit lit'
    have lines : lit = lit' := by
      rw [← begins.takeWhile_line, ← begins'.takeWhile_line]
      exact congrArg _ same
    subst lines
    exact ⟨rfl, List.append_cancel_left same⟩
  · obtain ⟨rfl, rfl⟩ := List.append_inj same regions
    exact ⟨rfl, rfl⟩

end Piece

/-! ## Divisions -/

/-- A source is **divided** into pieces. -/
inductive Divides : Text → List Piece → Prop
  /-- Nothing is left. -/
  | nil : Divides [] []
  /-- A piece, and those that the rest is divided into. -/
  | cons {p : Piece} {rest : Text} {pieces : List Piece} : p.Begins rest → Divides rest pieces →
    Divides (p.text ++ rest) (p :: pieces)

variable {p : Piece} {pieces pieces' : List Piece}

/-- The pieces of a source make it up. -/
theorem Divides.eq_flatMap (divides : Divides source pieces) :
    source = pieces.flatMap Piece.text := by
  induction divides with
  | nil => rfl
  | cons _ _ ih => rw [List.flatMap_cons, ← ih]

/-- **A source is divided in one way** only. -/
theorem Divides.unique (divides : Divides source pieces) (divides' : Divides source pieces') :
    pieces = pieces' := by
  induction divides generalizing pieces' with
  | nil =>
    generalize whole : ([] : Text) = source at divides'
    cases divides' with
    | nil => rfl
    | cons begins _ => exact absurd (List.append_eq_nil_iff.1 whole.symm).1 (Piece.text_ne_nil begins)
  | @cons p rest pieces begins _ ih =>
    generalize whole : p.text ++ rest = source at divides'
    cases divides' with
    | nil => exact absurd (List.append_eq_nil_iff.1 whole).1 (Piece.text_ne_nil begins)
    | cons begins' divides' =>
      obtain ⟨rfl, rfl⟩ := begins.unique begins' whole
      rw [ih divides']

/-! ## Blanking -/

/-- Where a region is over, program text goes on. -/
theorem blank_over {region : Region} (over_ : region.isOver = true) (line : Nat) (t out : Text) :
    blank region line t out = blank .code line t out := by
  cases t with
  | nil => cases region <;> rfl
  | cons c t => exact blank_of_over over_ line c t out

/-- A comment is blanked up to its closing mark. -/
theorem blank_block (contents : Text) (left line : Nat) (out : Text) :
    blank (.block (contents.length + left)) line (contents ++ t) out =
      blank (.block left) (line + contents.newlines) t
        ((contents.map blankByte).reverse ++ out) := by
  induction contents generalizing line out with
  | nil => rw [List.length_nil, Nat.zero_add]; rfl
  | cons c contents ih =>
    rw [List.length_cons, Nat.add_right_comm, List.cons_append, blank_step]
    show blank _ (lineBehind line c) _ _ = _
    rw [ih, lineBehind_add, List.map_cons, List.reverse_cons, List.append_assoc]
    rfl

/-- A comment is blanked up to the end of its line. -/
theorem blank_line {body : Text} (single : Text.newline ∉ body)
    (ends : ∀ c ∈ rest.head?, c = Text.newline) (line : Nat) (out : Text) :
    blank .line line (body ++ rest) out =
      blank .code line rest ((body.map blankByte).reverse ++ out) := by
  induction body generalizing out with
  | nil =>
    cases rest with
    | nil => rfl
    | cons c rest =>
      obtain rfl := ends c rfl
      rw [List.nil_append, blank_step, blank_step]
      rfl
  | cons c body ih =>
    rw [List.mem_cons, not_or] at single
    have plain : (c == Text.newline) = false := beq_eq_false_iff_ne.2 (Ne.symm single.1)
    have blanked : blankByte c = 0x20 := by rw [blankByte, plain]; rfl
    have next : Region.next .line c (body ++ rest) = .ok .line :=
      if_pos (by rw [bne, plain]; rfl)
    rw [List.cons_append, blank_step, next]
    simp only [lineBehind, plain, Bool.false_eq_true, if_false]
    rw [ih single.2, List.map_cons, List.reverse_cons, List.append_assoc, blanked]
    rfl

/-- **A piece is blanked** by itself. -/
theorem blank_piece (begins : p.Begins rest) (line : Nat) (out : Text) :
    blank .code line (p.text ++ rest) out =
      blank .code (line + p.text.newlines) rest (p.blanked.reverse ++ out) := by
  obtain ⟨c, t, whole, at_⟩ := begins.regionAt
  have outside : ¬ (Region.code == .line && c != Text.newline) = true := Bool.false_ne_true
  rw [whole, blank_code]
  simp only [Region.next, if_neg outside, at_]
  have behind (t : Text) : lineBehind line c + t.newlines = line + Text.newlines (c :: t) :=
    lineBehind_add line c t
  -- The first byte leads into the region of the piece, and the region ends with the piece.
  cases begins with
  | @code d _ plain _ _ =>
    obtain ⟨rfl, rfl⟩ := List.cons.inj whole
    show blank .code (lineBehind line d) rest _ = _
    rw [← Nat.add_zero (lineBehind line d)]
    exact congrArg (blank .code · rest _) (behind [])
  | literal literal =>
    obtain ⟨mark, tail, rfl, -⟩ := literal.exists_mark
    obtain ⟨rfl, rfl⟩ := List.cons.inj whole
    show blank (.literal (tail.length + 0)) _ (tail ++ rest) _ = _
    rw [blank_literal, blank_over rfl, behind]
    simp [Piece.text, Piece.blanked, Piece.isComment, Region.shown]
  | @line body _ single ends =>
    obtain ⟨rfl, rfl⟩ := List.cons.inj whole
    have single : Text.newline ∉ slash :: body := by
      rw [List.mem_cons, not_or]
      exact ⟨by decide, single⟩
    have none : Text.newlines (slash :: slash :: body) = 0 :=
      List.count_eq_zero.2 (by rw [List.mem_cons, not_or]; exact ⟨by decide, single⟩)
    show blank .line line (slash :: body ++ rest) (0x20 :: out) = _
    rw [blank_line single ends]
    show _ = blank .code (line + Text.newlines (slash :: slash :: body)) rest _
    rw [none, Nat.add_zero]
    simp [Piece.text, Piece.blanked, Piece.isComment]
    rfl
  | @block body _ first =>
    obtain ⟨rfl, rfl⟩ := List.cons.inj whole
    have length : (slash :: asterisk :: (body ++ [asterisk, slash])).length - 1 =
        (asterisk :: (body ++ [asterisk, slash])).length + 0 := rfl
    show blank (.block ((slash :: asterisk :: (body ++ [asterisk, slash])).length - 1)) _
      (asterisk :: (body ++ [asterisk, slash]) ++ rest) _ = _
    rw [length, blank_block, blank_over rfl, behind]
    simp [Piece.text, Piece.blanked, Piece.isComment, Region.shown]

/-- **Comments are blanked** exactly in sources that can be divided, and piece by piece. -/
theorem blank_code_eq_ok {line : Nat} {out : Text} : blank .code line t out = .ok code ↔
    ∃ pieces, Divides t pieces ∧ code = out.reverse ++ pieces.flatMap Piece.blanked := by
  constructor
  · intro blanked
    -- Each piece leaves a shorter text.
    induction length : t.length using Nat.strongRecOn generalizing t line out with
    | _ n ih =>
      cases t with
      | nil =>
        cases blanked
        exact ⟨[], .nil, (List.append_nil _).symm⟩
      | cons c t =>
        cases at_ : regionAt c t with
        | error fault =>
          rw [blank_code] at blanked
          have outside : ¬ (Region.code == .line && c != Text.newline) = true := Bool.false_ne_true
          simp only [Region.next, if_neg outside, at_] at blanked
          cases blanked
        | ok region =>
          obtain ⟨p, rest, begins, same, -⟩ := Piece.exists_begins at_
          rw [← same, blank_piece begins] at blanked
          have shorter : rest.length < n := by
            have filled := List.length_pos_iff.2 (Piece.text_ne_nil begins)
            have whole := congrArg List.length same
            rw [List.length_append] at whole
            omega
          obtain ⟨pieces, divides, rfl⟩ := ih _ shorter blanked rfl
          refine ⟨p :: pieces, same ▸ .cons begins divides, ?_⟩
          rw [List.flatMap_cons, List.reverse_append, List.reverse_reverse, List.append_assoc]
  · rintro ⟨pieces, divides, rfl⟩
    induction divides generalizing line out with
    | nil => rw [List.flatMap_nil, List.append_nil]; rfl
    | @cons p rest pieces begins _ ih =>
      rw [blank_piece begins, ih, List.flatMap_cons, List.reverse_append, List.reverse_reverse,
        List.append_assoc]

/-- **Comments are blanked piece by piece.** -/
theorem blankComments_eq_ok : blankComments source = .ok code ↔
    ∃ pieces, Divides source pieces ∧ code = pieces.flatMap Piece.blanked := by
  rw [blankComments, blank_code_eq_ok]
  rfl

/-! ## Newlines and offsets -/

/-- The blank in the place of a byte of a comment is a newline if the byte is one. -/
theorem blankByte_newline (c : UInt8) : (blankByte c == Text.newline) = (c == Text.newline) := by
  rw [blankByte]
  split
  · rfl
  · rename_i plain
    rw [Bool.not_eq_true] at plain
    rw [plain]
    rfl

/-- Blanking a piece keeps its newlines where they are. -/
theorem Piece.map_blanked (p : Piece) :
    p.blanked.map (· == Text.newline) = p.text.map (· == Text.newline) := by
  rw [Piece.blanked]
  split
  · rw [List.map_map]
    exact List.map_congr_left fun c _ => blankByte_newline c
  · rfl

/-- **Newlines stay where they are**, and so does everything else. -/
theorem newlines_blankComments (blanked : blankComments source = .ok code) :
    code.map (· == Text.newline) = source.map (· == Text.newline) := by
  obtain ⟨pieces, divides, rfl⟩ := blankComments_eq_ok.1 blanked
  rw [divides.eq_flatMap, List.map_flatMap, List.map_flatMap]
  exact List.flatMap_congr fun p _ => p.map_blanked

/-- Blanking comments changes no lines. -/
theorem lineCount_blankComments (blanked : blankComments source = .ok code) :
    code.lineCount = source.lineCount := Text.lineCount_congr (newlines_blankComments blanked)

/-- Blanking a piece keeps its length. -/
theorem Piece.length_blanked (p : Piece) : p.blanked.length = p.text.length := by
  rw [Piece.blanked]
  split
  · exact List.length_map _
  · rfl

/-- Blanking pieces keeps their length. -/
theorem length_flatMap_blanked (pieces : List Piece) :
    (pieces.flatMap Piece.blanked).length = (pieces.flatMap Piece.text).length := by
  rw [List.length_flatMap, List.length_flatMap]
  exact congrArg _ (List.map_congr_left fun p _ => p.length_blanked)

/-- A part of a text is what stands at its place. -/
theorem slice_append (front part back : Text) :
    (front ++ (part ++ back)).slice front.length (front.length + part.length) = part := by
  rw [Text.slice, List.drop_left, Nat.add_sub_cancel_left, List.take_left]

/-- A piece **stands** in a source at an offset: it is one of those that the source is divided into, and
this is how long the ones before it are. -/
def Piece.StandsAt (p : Piece) (source : Text) (start : Nat) : Prop :=
  ∃ before after, Divides source (before ++ p :: after) ∧
    start = (before.flatMap Piece.text).length

/-- **Pieces stay at their places**: what becomes of a piece stands where the piece did. -/
theorem Piece.StandsAt.slice (blanked : blankComments source = .ok code) {start : Nat}
    (stands : p.StandsAt source start) :
    source.slice start (start + p.text.length) = p.text ∧
      code.slice start (start + p.text.length) = p.blanked := by
  obtain ⟨before, after, divides, rfl⟩ := stands
  obtain ⟨pieces, divides', code_eq⟩ := blankComments_eq_ok.1 blanked
  obtain rfl := divides'.unique divides
  have source_eq := divides.eq_flatMap
  rw [List.flatMap_append, List.flatMap_cons] at source_eq code_eq
  rw [source_eq, code_eq]
  refine ⟨slice_append _ _ _, ?_⟩
  rw [← length_flatMap_blanked, ← p.length_blanked]
  exact slice_append _ _ _

/-! ## Sources without comments -/

/-- The pieces that a piece becomes when comments are blanked: those of a comment are blanks. -/
def Piece.settled (p : Piece) : List Piece :=
  if p.isComment then p.blanked.map .code else [p]

/-- What a piece settles to is no comment. -/
theorem Piece.isComment_of_mem_settled {q : Piece} (member : q ∈ p.settled) :
    q.isComment = false := by
  rw [Piece.settled] at member
  split at member
  · obtain ⟨c, -, rfl⟩ := List.mem_map.1 member
    rfl
  · rename_i plain
    rw [List.mem_singleton.1 member]
    simpa using plain

/-- What comments are overwritten with. -/
theorem blankByte_eq (c : UInt8) : blankByte c = Text.newline ∨ blankByte c = 0x20 := by
  rw [blankByte]
  split
  · rename_i newline
    exact .inl (by simpa using newline)
  · exact .inr rfl

/-- Behind blanking a text begins as before, or with a blank. -/
theorem Divides.head_blanked (divides : Divides rest pieces)
    (head : (pieces.flatMap Piece.blanked).head? = some c) : rest.head? = some c ∨ c = 0x20 := by
  cases divides with
  | nil => cases head
  | cons begins _ =>
    rw [List.flatMap_cons] at head
    cases begins with
    | code _ _ _ => exact .inl head
    | literal literal =>
      obtain ⟨_, _, rfl, -⟩ := literal.exists_mark
      exact .inl head
    | line _ _ => exact .inr (Option.some.inj head).symm
    | block _ => exact .inr (Option.some.inj head).symm

/-- Blanks are pieces of program text. -/
theorem divides_blanks (divides : Divides rest pieces) (t : Text) :
    Divides (t.map blankByte ++ rest) ((t.map blankByte).map .code ++ pieces) := by
  induction t with
  | nil => exact divides
  | cons c t ih =>
    have plain : isMark (blankByte c) = false ∧ blankByte c ≠ slash := by
      rcases blankByte_eq c with same | same <;> rw [same] <;> decide
    exact .cons (.code plain.1 (fun opens => plain.2 opens.1) fun opens => plain.2 opens.1) ih

/-- **The result of blanking** is divided like the source, with blanks in the place of comments. -/
theorem Divides.settled (divides : Divides source pieces) :
    Divides (pieces.flatMap Piece.blanked) (pieces.flatMap Piece.settled) := by
  induction divides with
  | nil => exact .nil
  | @cons p rest pieces begins divides ih =>
    rw [List.flatMap_cons, List.flatMap_cons]
    have before {d : UInt8} (known : d ≠ 0x20)
        (head : (pieces.flatMap Piece.blanked).head? = some d) : rest.head? = some d :=
      (divides.head_blanked head).resolve_right known
    cases begins with
    | code plain no_line no_block =>
      refine .cons (.code plain (fun opens => no_line ?_) fun opens => no_block ?_) ih
      · exact ⟨opens.1, before (by decide) opens.2⟩
      · exact ⟨opens.1, before (by decide) opens.2⟩
    | literal literal => exact .cons (.literal (literal.followed (before (by decide)))) ih
    | line _ _ => exact divides_blanks ih _
    | block _ => exact divides_blanks ih _

/-- A text **without comments** consists of program text and literals. -/
def Uncommented (t : Text) : Prop := ∃ pieces, Divides t pieces ∧ ∀ p ∈ pieces, p.isComment = false

/-- A source whose comments were blanked has none. -/
theorem uncommented_blankComments (blanked : blankComments source = .ok code) : Uncommented code := by
  obtain ⟨pieces, divides, rfl⟩ := blankComments_eq_ok.1 blanked
  refine ⟨_, divides.settled, fun p member => ?_⟩
  obtain ⟨_, -, member⟩ := List.mem_flatMap.1 member
  exact Piece.isComment_of_mem_settled member

/-- Without comments there is nothing to blank. -/
theorem Uncommented.blankComments_eq (uncommented : Uncommented t) : blankComments t = .ok t := by
  obtain ⟨pieces, divides, plain⟩ := uncommented
  refine blankComments_eq_ok.2 ⟨pieces, divides, divides.eq_flatMap.trans ?_⟩
  refine List.flatMap_congr fun p member => ?_
  rw [Piece.blanked, plain p member]
  rfl

/-- Behind a byte that is no mark there are no comments either. -/
theorem Uncommented.of_cons (uncommented : Uncommented (c :: t)) (plain : isMark c = false) :
    Uncommented t := by
  obtain ⟨pieces, divides, uncommented⟩ := uncommented
  generalize whole : c :: t = source at divides
  cases divides with
  | nil => cases whole
  | @cons p rest pieces begins divides =>
    obtain ⟨here, later⟩ := List.forall_mem_cons.1 uncommented
    cases begins with
    | code _ _ _ =>
      obtain ⟨rfl, rfl⟩ := List.cons.inj whole
      exact ⟨pieces, divides, later⟩
    | literal literal =>
      obtain ⟨mark, tail, rfl, is_mark⟩ := literal.exists_mark
      obtain ⟨rfl, -⟩ := List.cons.inj whole
      cases plain.symm.trans is_mark
    | line _ _ => cases here
    | block _ => cases here

/-- Behind bytes that are no marks there are no comments either. -/
theorem Uncommented.drop {n : Nat} (uncommented : Uncommented t)
    (plain : ∀ c ∈ t.take n, isMark c = false) : Uncommented (t.drop n) := by
  induction n generalizing t with
  | zero => exact uncommented
  | succ n ih =>
    cases t with
    | nil => exact uncommented
    | cons c t =>
      rw [List.take_succ_cons, List.forall_mem_cons] at plain
      exact ih (uncommented.of_cons plain.1) plain.2

/-- **Every literal is closed**, and behind it there are no comments either. -/
theorem Uncommented.exists_literal (uncommented : Uncommented (c :: t)) (mark : isMark c = true) :
    ∃ n, literalLength? (c :: t) = some n ∧ Uncommented (t.drop (n - 1)) := by
  obtain ⟨pieces, divides, uncommented⟩ := uncommented
  generalize whole : c :: t = source at divides
  cases divides with
  | nil => cases whole
  | @cons p rest pieces begins divides =>
    obtain ⟨here, later⟩ := List.forall_mem_cons.1 uncommented
    cases begins with
    | code plain _ _ =>
      obtain ⟨rfl, rfl⟩ := List.cons.inj whole
      cases plain.symm.trans mark
    | @literal lit _ literal =>
      have closed : literalLength? (c :: t) = some lit.length :=
        (literalLength_eq_some_iff mark).2 ⟨lit, rest, whole, rfl, literal⟩
      refine ⟨lit.length, by rw [← whole]; exact closed, ?_⟩
      obtain ⟨_, tail, rfl, -⟩ := literal.exists_mark
      obtain ⟨-, rfl⟩ := List.cons.inj whole
      rw [List.length_cons, Nat.add_sub_cancel]
      show Uncommented ((tail ++ rest).drop tail.length)
      rw [List.drop_left]
      exact ⟨pieces, divides, later⟩
    | line _ _ => cases here
    | block _ => cases here

/-! ## Valid sources

Literals and comments begin and end with ASCII, or end with their line, so that no code point reaches
from one piece into another if one of them is a comment. -/

/-- A mark is ASCII. -/
theorem ascii_of_isMark (mark : isMark c = true) : c < 0x80 := by
  rcases isMark_iff.1 mark with rfl | rfl <;> decide

/-- A literal ends with a mark. -/
theorem Literal.exists_last (literal : Literal lit rest) :
    ∃ front mark, lit = front ++ [mark] ∧ isMark mark = true := by
  cases literal with
  | @block body _ first =>
    refine ⟨blockMark ++ (body ++ [Text.doubleQuote, Text.doubleQuote]), Text.doubleQuote, ?_, rfl⟩
    rw [List.append_assoc, List.append_assoc]
    rfl
  | @plain mark body _ is_mark _ _ => exact ⟨mark :: body, mark, rfl, is_mark⟩

/-- There is a **seam** on either side of a comment. -/
theorem Piece.Begins.seams (begins : p.Begins rest) (comment : p.isComment = true) (front : Text) :
    Text.Seam front (p.text ++ rest) ∧ Text.Seam p.text rest := by
  have ascii : slash < 0x80 ∧ Text.newline < 0x80 := by decide
  cases begins with
  | code _ _ _ => cases comment
  | literal _ => cases comment
  | line _ ends =>
    refine ⟨.inr fun c first => ?_, .inr fun c first => ?_⟩
    · exact Option.some.inj first ▸ ascii.1
    · exact ends c first ▸ ascii.2
  | @block body _ _ =>
    refine ⟨.inr fun c first => ?_, .inl fun c last => ?_⟩
    · exact Option.some.inj first ▸ ascii.1
    · have whole : slash :: asterisk :: (body ++ [asterisk, slash]) =
          slash :: asterisk :: (body ++ [asterisk]) ++ [slash] := by simp
      rw [Piece.text, whole, List.getLast?_concat] at last
      exact Option.some.inj last ▸ ascii.1

/-- Blanks are ASCII. -/
theorem ascii_blanks (t : Text) : ∀ c ∈ t.map blankByte, c < 0x80 := by
  intro c member
  obtain ⟨d, -, rfl⟩ := List.mem_map.1 member
  rcases blankByte_eq d with same | same <;> rw [same] <;> decide

/-- Blanking keeps a source valid, whatever is in front of it: program text and literals stay, so they
can be counted to what is in front. -/
theorem Divides.isValid_blanked (divides : Divides source pieces) (front : Text)
    (valid : (front ++ source).isValid = true) :
    (front ++ pieces.flatMap Piece.blanked).isValid = true := by
  induction divides generalizing front with
  | nil => exact valid
  | @cons p rest pieces begins divides ih =>
    rw [List.flatMap_cons]
    cases comment : p.isComment with
    | false =>
      have stays : p.blanked = p.text := by rw [Piece.blanked, comment, if_neg Bool.false_ne_true]
      rw [stays, ← List.append_assoc]
      exact ih _ (by rwa [List.append_assoc])
    | true =>
      -- Blanks are ASCII, so there are seams around them as there are around the comment.
      have blanks : p.blanked = p.text.map blankByte := by rw [Piece.blanked, comment, if_pos rfl]
      obtain ⟨before, behind⟩ := begins.seams comment front
      rw [Text.isValid_append before, Text.isValid_append behind, Bool.and_eq_true,
        Bool.and_eq_true] at valid
      have later : Text.isValid (pieces.flatMap Piece.blanked) = true := ih [] valid.2.2
      have seams : Text.Seam front (p.blanked ++ pieces.flatMap Piece.blanked) ∧
          Text.Seam p.blanked (pieces.flatMap Piece.blanked) := by
        rw [blanks]
        refine ⟨.inr fun c first => ?_, .inl fun c last => ?_⟩
        · rw [List.head?_append_of_ne_nil _ (by simpa using Piece.text_ne_nil begins)] at first
          exact ascii_blanks p.text c (List.mem_of_head? first)
        · exact ascii_blanks p.text c (List.mem_of_getLast? last)
      rw [Text.isValid_append seams.1, Text.isValid_append seams.2, valid.1, later, blanks,
        Text.isValid_of_ascii (ascii_blanks p.text)]
      rfl

/-- **A valid source stays valid** when its comments are blanked. -/
theorem isValid_blankComments (blanked : blankComments source = .ok code)
    (valid : source.isValid = true) : code.isValid = true := by
  obtain ⟨pieces, divides, rfl⟩ := blankComments_eq_ok.1 blanked
  exact divides.isValid_blanked [] valid

/-! ## Brackets outside literals and comments

What scanners of the result take for program text is what the pieces of the source are. -/

variable {offset n skip : Nat}

/-- Behind a part of a literal the rest of it is left. -/
theorem skipBehind_of_le (within : n ≤ skip) (inside : n ≤ t.length) :
    skipBehind n t skip = skip - n := by
  induction n generalizing t skip with
  | zero => rfl
  | succ n ih =>
    obtain ⟨skip, rfl⟩ := Nat.exists_eq_add_of_le' (Nat.le_of_lt_succ (Nat.lt_succ_of_le within))
    cases t with
    | nil => cases inside
    | cons c t =>
      have left := @ih t (skip + n) (Nat.le_add_left ..) (Nat.le_of_succ_le_succ inside)
      rw [← Nat.add_assoc, skipBehind, left]
      omega

/-- Behind a part of a text at whose end no literal is open, brackets are those of the rest. -/
theorem opens_append_iff {part : Text} (passed : skipBehind part.length (part ++ rest) 0 = 0) :
    Opens (part ++ rest) (part.length + offset) ↔ Opens rest offset := by
  have bytes : (part ++ rest)[part.length + offset]? = rest[offset]? := by
    rw [List.getElem?_append_right (Nat.le_add_right ..), Nat.add_sub_cancel_left]
  have scans : InCode (part ++ rest) (part.length + offset) ↔ InCode rest offset := by
    rw [InCode, InCode, skipBehind_add, List.drop_left, passed]
  constructor
  · rintro ⟨placed, bracket⟩
    exact ⟨scans.1 placed, bytes ▸ bracket⟩
  · rintro ⟨placed, bracket⟩
    exact ⟨scans.2 placed, bytes.symm ▸ bracket⟩

/-- A literal that stands in a text is passed over, and no bracket opens inside. -/
theorem Literal.passed (literal : Literal lit rest) : skipBehind lit.length (lit ++ rest) 0 = 0 ∧
    ∀ offset < lit.length, ¬ Opens (lit ++ rest) offset := by
  obtain ⟨mark, tail, rfl, is_mark⟩ := literal.exists_mark
  have closed : literalLength? (mark :: (tail ++ rest)) = some (tail.length + 1) :=
    (literalLength_eq_some_iff is_mark).2 ⟨_, rest, rfl, rfl, literal⟩
  have within (n : Nat) (le : n ≤ tail.length) :
      skipBehind (n + 1) (mark :: tail ++ rest) 0 = tail.length - n := by
    rw [List.cons_append, skipBehind, if_pos is_mark, literalTail, closed]
    exact skipBehind_of_le le (Nat.le_trans le (List.length_append ▸ Nat.le_add_right ..))
  refine ⟨(within _ (Nat.le_refl _)).trans (Nat.sub_self _), fun offset inside opens => ?_⟩
  cases offset with
  | zero =>
    obtain ⟨c, byte, opening⟩ := opens.bracket
    obtain rfl := Option.some.inj byte
    exact Bool.false_ne_true ((plain_of_isOpening opening).1.symm.trans is_mark)
  | succ offset =>
    have inside := Nat.lt_of_succ_lt_succ inside
    have left := (within offset (Nat.le_of_lt inside)).symm.trans opens.placed
    omega

/-- Blanks are passed over, and no bracket opens among them. -/
theorem blanks_passed (t : Text) :
    skipBehind (t.map blankByte).length (t.map blankByte ++ rest) 0 = 0 ∧
      ∀ offset < (t.map blankByte).length, ¬ Opens (t.map blankByte ++ rest) offset := by
  have plain : ∀ c ∈ t.map blankByte, isMark c = false ∧ isOpening c = false := by
    intro c member
    obtain ⟨d, -, rfl⟩ := List.mem_map.1 member
    rcases blankByte_eq d with same | same <;> rw [same] <;> decide
  have byte {i : Nat} {c : UInt8} (inside : i < (t.map blankByte).length)
      (byte : (t.map blankByte ++ rest)[i]? = some c) : c ∈ t.map blankByte := by
    rw [List.getElem?_append_left inside] at byte
    exact List.mem_of_getElem? byte
  constructor
  · have start : InCode (t.map blankByte ++ rest) 0 := rfl
    exact start.reach (Nat.zero_le _) (List.length_append ▸ Nat.le_add_right ..)
      fun i _ inside c here => (plain c (byte inside here)).1
  · intro offset inside opens
    obtain ⟨c, here, opening⟩ := opens.bracket
    exact Bool.false_ne_true ((plain c (byte inside here)).2.symm.trans opening)

/-- What becomes of a piece is passed over, and no bracket opens inside, unless the piece is one. -/
theorem Piece.Begins.passed (begins : p.Begins rest) (divides : Divides rest pieces) :
    skipBehind p.blanked.length (p.blanked ++ pieces.flatMap Piece.blanked) 0 = 0 ∧
      ∀ offset < p.blanked.length, Opens (p.blanked ++ pieces.flatMap Piece.blanked) offset ↔
        offset = 0 ∧ ∃ c, p = .code c ∧ isOpening c = true := by
  have shut {part : Text} (other : ∀ c, p ≠ .code c) (passed : skipBehind part.length
      (part ++ pieces.flatMap Piece.blanked) 0 = 0 ∧ ∀ offset < part.length,
        ¬ Opens (part ++ pieces.flatMap Piece.blanked) offset) :
      skipBehind part.length (part ++ pieces.flatMap Piece.blanked) 0 = 0 ∧
        ∀ offset < part.length, Opens (part ++ pieces.flatMap Piece.blanked) offset ↔
          offset = 0 ∧ ∃ c, p = .code c ∧ isOpening c = true := by
    refine ⟨passed.1, fun offset inside => iff_of_false (passed.2 offset inside) ?_⟩
    rintro ⟨-, c, same, -⟩
    exact other c same
  cases begins with
  | @code c _ plain _ _ =>
    refine ⟨?_, fun offset inside => ?_⟩
    · show skipBehind 1 (c :: pieces.flatMap Piece.blanked) 0 = 0
      rw [skipBehind, skipBehind, plain]
      rfl
    · obtain rfl : offset = 0 := Nat.lt_one_iff.1 inside
      constructor
      · rintro ⟨-, d, byte, opening⟩
        obtain rfl := Option.some.inj byte
        exact ⟨rfl, c, rfl, opening⟩
      · rintro ⟨-, d, same, opening⟩
        obtain rfl := Piece.code.inj same
        exact ⟨rfl, c, rfl, opening⟩
  | literal literal =>
    refine shut (fun _ same => Piece.noConfusion same) (literal.followed fun head => ?_).passed
    exact (divides.head_blanked head).resolve_right (by decide)
  | line _ _ => exact shut (fun _ same => Piece.noConfusion same) (blanks_passed _)
  | block _ => exact shut (fun _ same => Piece.noConfusion same) (blanks_passed _)

/-- The brackets in code are the pieces that are brackets. -/
theorem Divides.opens_iff (divides : Divides source pieces) :
    Opens (pieces.flatMap Piece.blanked) offset ↔ ∃ before c after,
      pieces = before ++ .code c :: after ∧ isOpening c = true ∧
        offset = (before.flatMap Piece.text).length := by
  induction divides generalizing offset with
  | nil =>
    constructor
    · rintro ⟨-, c, byte, -⟩
      cases byte
    · rintro ⟨before, c, after, same, -⟩
      exact absurd same.symm (by simp)
  | @cons p rest pieces begins divides ih =>
    rw [List.flatMap_cons]
    obtain ⟨passed, shut⟩ := begins.passed divides
    by_cases inside : offset < p.blanked.length
    · rw [shut offset inside]
      constructor
      · rintro ⟨rfl, c, rfl, opening⟩
        exact ⟨[], c, pieces, rfl, opening, rfl⟩
      · rintro ⟨before, c, after, same, opening, rfl⟩
        cases before with
        | nil => exact ⟨rfl, c, (List.cons.inj same).1, opening⟩
        | cons q before =>
          -- a piece that stands further on does not begin inside of the first one
          obtain ⟨rfl, -⟩ := List.cons.inj same
          rw [List.flatMap_cons, List.length_append, p.length_blanked] at inside
          omega
    · obtain ⟨offset, rfl⟩ := Nat.exists_eq_add_of_le (Nat.le_of_not_lt inside)
      rw [opens_append_iff passed, ih]
      constructor
      · rintro ⟨before, c, after, rfl, opening, rfl⟩
        refine ⟨p :: before, c, after, rfl, opening, ?_⟩
        rw [List.flatMap_cons, List.length_append, p.length_blanked]
      · rintro ⟨before, c, after, same, opening, place⟩
        cases before with
        | nil =>
          have filled := List.length_pos_iff.2 (Piece.text_ne_nil begins)
          rw [p.length_blanked, List.flatMap_nil, List.length_nil] at place
          omega
        | cons q before =>
          obtain ⟨rfl, rfl⟩ := List.cons.inj same
          rw [List.flatMap_cons, List.length_append, p.length_blanked] at place
          exact ⟨before, c, after, rfl, opening, Nat.add_left_cancel place⟩

/-- **The brackets in code** are the opening brackets that stand in the source outside literals and
comments. -/
theorem opens_iff (blanked : blankComments source = .ok code) :
    Opens code offset ↔ ∃ c, (Piece.code c).StandsAt source offset ∧ isOpening c = true := by
  obtain ⟨pieces, divides, rfl⟩ := blankComments_eq_ok.1 blanked
  rw [divides.opens_iff]
  constructor
  · rintro ⟨before, c, after, rfl, opening, rfl⟩
    exact ⟨c, ⟨before, after, divides, rfl⟩, opening⟩
  · rintro ⟨c, ⟨before, after, divides', rfl⟩, opening⟩
    exact ⟨before, c, after, divides.unique divides', opening, rfl⟩

end FlowTrace.Braced
