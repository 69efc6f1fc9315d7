import FlowTrace.Java.Token
import FlowTrace.Proofs.Braced.Comments

/-! # Where Java tokens stand

The text of a construct is cut out of the source from its first to its last token. Tokens are laid
out over the whole source, in order and with nothing but blank space between them, and their texts are
what stands there (`tokens_cover`); so each such part is there to be cut out (`covered_between`).
Positions and lines are counted apart while tokens are read, the ones by whole tokens and the others
by newlines, and both are right at every token, whatever lines a literal spans.

The brackets of a source are checked byte by byte, before there are tokens. Both scans pass over the
same literals, and no other token of more than one byte has a bracket in it; so the brackets among
the tokens have the partners that they have in the source (`tokenPairs_tokenize`). -/

namespace FlowTrace.Java

/-- A token **stands** in the source: it is not empty, and its text is what its offsets cut out. -/
structure Token.Stands (token : Token) (code : Text) : Prop where
  /-- There is a byte in it. -/
  filled : token.offset < token.stop
  /-- It ends inside the source. -/
  inside : token.stop ≤ code.length
  /-- Its text. -/
  text : token.text = code.slice token.offset token.stop

variable {c : UInt8} {t code : Text}

/-- A number ends inside its text. -/
theorem numberTail_le (hex : Bool) (previous : UInt8) (t : Text) :
    numberTail hex previous t ≤ t.length := by
  induction t generalizing previous with
  | nil => exact Nat.zero_le _
  | cons c t ih =>
    have := ih c
    rw [numberTail, List.length_cons]
    split_ifs <;> omega

/-- A token has a byte, and ends inside the text that it begins. -/
theorem tokenAt_le {kind : TokenKind} {n : Nat} (is_token : tokenAt c t = .ok (kind, n)) :
    1 ≤ n ∧ n ≤ t.length + 1 := by
  unfold tokenAt at is_token
  split at is_token
  · cases is_token
    have := (List.takeWhile_sublist (l := t) isIdentPart).length_le
    omega
  · split at is_token
    · cases is_token
      have := numberTail_le (("0x" : Text).isPrefixOf (c :: t)) c t
      omega
    · split at is_token
      · split at is_token
        · rename_i closed
          cases is_token
          exact Braced.literalLength_le closed
        · cases is_token
      · split at is_token
        · rename_i operator found
          cases is_token
          have long : ∀ operator ∈ operators, 1 ≤ operator.length := by decide
          have leads := List.find?_some found
          exact ⟨long _ (List.mem_of_find?_eq_some found),
            (List.isPrefixOf_iff_prefix.1 leads).length_le⟩
        · split at is_token
          · cases is_token
            omega
          · cases is_token

/-- A token stands where it was read. -/
theorem stands_tokenAt {kind : TokenKind} {n offset : Nat} (line : Nat)
    (is_token : tokenAt c t = .ok (kind, n)) (here : code.drop offset = c :: t)
    (within : offset + (c :: t).length = code.length) :
    Token.Stands ⟨kind, c :: t.take (n - 1), offset, offset + n, line⟩ code := by
  obtain ⟨some_byte, short⟩ := tokenAt_le is_token
  refine ⟨Nat.lt_add_of_pos_right some_byte, ?_, ?_⟩
  · show offset + n ≤ code.length
    rw [List.length_cons] at within
    omega
  · obtain ⟨k, rfl⟩ := Nat.exists_eq_add_of_le' some_byte
    show c :: t.take k = (code.drop offset).take (offset + (k + 1) - offset)
    rw [here, Nat.add_sub_cancel_left, List.take_succ_cons]

/-! ## Layout -/

/-- The bytes of **blank space** between tokens. -/
def blankSpace : Text := " \t\r\x0c\n"

/-- Blank space are newlines and spaces. -/
theorem mem_blankSpace_iff : c ∈ blankSpace ↔ (c == Text.newline || isSpace c) = true := by
  have bytes : blankSpace = [0x20, 0x09, 0x0D, 0x0C, Text.newline] := by decide
  simp only [bytes, List.mem_cons, List.not_mem_nil, or_false, isSpace, Bool.or_eq_true, beq_iff_eq]
  tauto

/-- Blank space has no marks and no brackets. -/
theorem plain_of_blank (blank : c ∈ blankSpace) :
    Braced.isMark c = false ∧ Braced.isOpening c = false ∧ Braced.isClosing c = false := by
  rw [mem_blankSpace_iff] at blank
  simp only [isSpace, Bool.or_eq_true, beq_iff_eq] at blank
  rcases blank with rfl | ((rfl | rfl) | rfl) | rfl <;> decide

/-- Tokens are **laid out** in a source from an offset on: each of them stands there, with the number
of the line where it begins, and only blank space is in front of the first one, between two of them
and behind the last one. -/
inductive Laid (code : Text) : Nat → List Token → Prop
  /-- There are no more tokens. -/
  | nil {i : Nat} : (∀ c ∈ code.drop i, c ∈ blankSpace) → Laid code i []
  /-- Behind blank space a token stands, and the others are laid out from its end on. -/
  | cons {i : Nat} {token : Token} {rest : List Token} :
    i ≤ token.offset → (∀ c ∈ code.slice i token.offset, c ∈ blankSpace) → token.Stands code →
    token.line = code.lineAt token.offset → Laid code token.stop rest → Laid code i (token :: rest)

namespace Laid

variable {i : Nat} {tokens : List Token}

/-- Blank space in front of tokens. -/
theorem blank (laid : Laid code (i + 1) tokens) (here : code.drop i = c :: t)
    (blank : c ∈ blankSpace) : Laid code i tokens := by
  have next : code.drop (i + 1) = t := by
    rw [← List.drop_drop, here]
    rfl
  cases laid with
  | nil gap =>
    rw [next] at gap
    exact .nil (by rw [here]; exact List.forall_mem_cons.2 ⟨blank, gap⟩)
  | @cons _ token rest behind gap stands line laid =>
    have longer : code.slice i token.offset = c :: code.slice (i + 1) token.offset := by
      obtain ⟨n, same⟩ := Nat.exists_eq_add_of_le behind
      have one : token.offset - i = n + 1 := by omega
      have rest : token.offset - (i + 1) = n := by omega
      rw [Text.slice, Text.slice, here, next, one, rest, List.take_succ_cons]
    exact .cons (Nat.le_of_succ_le behind)
      (by rw [longer]; exact List.forall_mem_cons.2 ⟨blank, gap⟩) stands line laid

/-- Every token of a layout stands in the source, behind the offset and on its line. -/
theorem stands (laid : Laid code i tokens) : ∀ token ∈ tokens,
    token.Stands code ∧ i ≤ token.offset ∧ token.line = code.lineAt token.offset := by
  induction laid with
  | nil _ => exact fun _ => nofun
  | cons behind _ stands line _ ih =>
    refine List.forall_mem_cons.2 ⟨⟨stands, behind, line⟩, fun later member => ?_⟩
    obtain ⟨stands', behind', line'⟩ := ih later member
    exact ⟨stands', Nat.le_trans behind (Nat.le_trans (Nat.le_of_lt stands.filled) behind'), line'⟩

/-- Tokens of a layout do not overlap. -/
theorem pairwise (laid : Laid code i tokens) :
    tokens.Pairwise fun earlier later => earlier.stop ≤ later.offset := by
  induction laid with
  | nil _ => exact .nil
  | cons _ _ _ _ laid ih =>
    exact List.pairwise_cons.2 ⟨fun later member => (laid.stands later member).2.1, ih⟩

end Laid

/-- Reading goes on with tokens that are laid out from where the token just read ends, `skip` bytes
further, if the line is right. It is right again behind every byte, inside of a token or not. -/
theorem laid_tokensFrom {skip offset line : Nat} {done tokens : List Token}
    (read : tokensFrom t skip offset line done = .ok tokens) (here : code.drop offset = t)
    (within : offset + t.length = code.length) (counted : line = code.lineAt offset) :
    ∃ more, tokens = done.reverse ++ more ∧ Laid code (offset + skip) more := by
  induction t generalizing skip offset line done with
  | nil =>
    cases read
    refine ⟨[], (List.append_nil _).symm, .nil ?_⟩
    rw [← List.drop_drop, here, List.drop_nil]
    exact fun _ => nofun
  | cons c t ih =>
    have here' : code.drop (offset + 1) = t := by
      rw [← List.drop_drop, here]
      rfl
    have within' : offset + 1 + t.length = code.length := by
      rw [List.length_cons] at within
      omega
    have counted' : (if c == Text.newline then line + 1 else line) = code.lineAt (offset + 1) := by
      rw [Text.lineAt_succ here, counted]
    cases skip with
    -- The byte belongs to the token that was read last.
    | succ skip =>
      obtain ⟨more, same, laid⟩ := ih read here' within' counted'
      exact ⟨more, same, by rwa [Nat.add_assoc, Nat.add_comm 1] at laid⟩
    | zero =>
      rw [tokensFrom] at read
      simp only at read
      split at read
      · rename_i blank
        obtain ⟨more, same, laid⟩ := ih read here' within' counted'
        exact ⟨more, same, laid.blank here (mem_blankSpace_iff.2 blank)⟩
      · split at read
        · cases read
        · rename_i kind n is_token
          obtain ⟨more, same, laid⟩ := ih read here' within' counted'
          have stop : offset + 1 + (n - 1) = offset + n := by
            have := (tokenAt_le is_token).1
            omega
          rw [stop] at laid
          have empty : ∀ d ∈ code.slice offset offset, d ∈ blankSpace := by
            rw [Text.slice, Nat.sub_self, List.take_zero]
            exact List.forall_mem_nil _
          refine ⟨_ :: more, by rw [same, List.reverse_cons, List.append_assoc]; rfl, ?_⟩
          exact .cons (Nat.le_refl offset) empty (stands_tokenAt line is_token here within) counted
            laid

/-- **Tokens are laid out** over the whole source. -/
theorem laid_tokenize {tokens : List Token} (read : tokenize code = .ok tokens) :
    Laid code 0 tokens := by
  obtain ⟨more, rfl, laid⟩ :=
    laid_tokensFrom read rfl (Nat.zero_add _) (Text.lineAt_zero code).symm
  exact laid

/-- A token is **genuine** when it is a symbol if it is written like one of a single byte. -/
def Token.Genuine (token : Token) : Prop :=
  ∀ c, token.text = [c] → singles.contains c = true → token.kind = .punct

/-- What begins a name, a number or a literal is no symbol, but for the point of a number. -/
theorem not_symbol (c : UInt8)
    (other : isIdentStart c = true ∨ Text.isDigit c = true ∨ Braced.isMark c = true) :
    singles.contains c = false := by
  have codes : ∀ n < 256, isIdentStart (.ofNat n) = true ∨ Text.isDigit (.ofNat n) = true ∨
      Braced.isMark (.ofNat n) = true → singles.contains (.ofNat n) = false := by
    decide +kernel
  have fact := codes c.toNat c.toNat_lt
  rw [UInt8.ofNat_toNat] at fact
  exact fact other

/-- A token that is read is genuine. -/
theorem genuine_tokenAt {kind : TokenKind} {n offset line : Nat}
    (is_token : tokenAt c t = .ok (kind, n)) :
    Token.Genuine ⟨kind, c :: t.take (n - 1), offset, offset + n, line⟩ := by
  rintro d same symbol
  obtain ⟨rfl, single⟩ := List.cons.inj same
  have symbol_ne {p : Bool} (no_symbol : p = true → singles.contains c = false) : ¬ p = true :=
    fun holds => by rw [no_symbol holds] at symbol; cases symbol
  unfold tokenAt at is_token
  rw [if_neg (symbol_ne fun starts => not_symbol c (Or.inl starts))] at is_token
  split at is_token
  · rename_i digits
    rcases Bool.or_eq_true_iff.1 digits with digit | point
    · exact absurd digit (symbol_ne fun digit => not_symbol c (Or.inr (Or.inl digit)))
    · -- The number goes on with the digit behind its point.
      cases is_token
      obtain ⟨-, digit⟩ := Bool.and_eq_true_iff.1 point
      cases t with
      | nil => cases digit
      | cons d t =>
        have goes_on : isIdentPart d = true := by
          rw [isIdentPart, show Text.isDigit d = true from digit, Bool.or_true]
        rw [numberTail, goes_on, Bool.true_or, if_pos rfl] at single
        simp at single
  · rw [if_neg (symbol_ne fun mark => not_symbol c (Or.inr (Or.inr mark)))] at is_token
    split at is_token <;>
    · cases is_token
      rfl

/-- A genuine token is the symbol it is written like. -/
theorem Token.Genuine.isPunct {token : Token} (genuine : token.Genuine) {symbol : Text}
    (is_symbol : (symbol.length == 1 && symbol.all singles.contains) = true)
    (same : token.text = symbol) : token.isPunct symbol = true := by
  rw [Bool.and_eq_true, beq_iff_eq, List.length_eq_one_iff] at is_symbol
  obtain ⟨⟨c, rfl⟩, listed⟩ := is_symbol
  rw [List.all_cons, List.all_nil, Bool.and_true] at listed
  rw [Token.isPunct, genuine c same listed, same, BEq.rfl, BEq.rfl]
  rfl

/-- Reading goes on with genuine tokens. -/
theorem genuine_tokensFrom {t : Text} {skip offset line : Nat} {done tokens : List Token}
    (read : tokensFrom t skip offset line done = .ok tokens)
    (genuine : ∀ token ∈ done, token.Genuine) : ∀ token ∈ tokens, token.Genuine := by
  induction t generalizing skip offset line done with
  | nil =>
    cases read
    exact fun token member => genuine token (List.mem_reverse.1 member)
  | cons c t ih =>
    cases skip with
    | succ skip => exact ih read genuine
    | zero =>
      rw [tokensFrom] at read
      simp only at read
      split at read
      · exact ih read genuine
      · split at read
        · cases read
        · rename_i is_token
          exact ih read (List.forall_mem_cons.2 ⟨genuine_tokenAt is_token, genuine⟩)

/-- **Tokens are genuine.** -/
theorem genuine_tokenize {tokens : List Token} (read : tokenize code = .ok tokens) :
    ∀ token ∈ tokens, token.Genuine :=
  genuine_tokensFrom read fun _ => nofun

/-! ## Valid tokens

Outside of literals every byte that is not ASCII belongs to a name or a number, which goes on as long
as there are such bytes. So a token never ends inside of a code point. -/

/-- A byte that does not go on with a name is ASCII. -/
theorem ascii_of_not_isIdentPart (ends : isIdentPart c = false) : c < 0x80 := by
  simp only [isIdentPart, isIdentStart, Bool.or_eq_false_iff, decide_eq_false_iff_not] at ends
  exact UInt8.not_le.1 ends.1.1.2

/-- Behind a number there is no byte of a name. -/
theorem ascii_behind_number (hex : Bool) (previous : UInt8) (t : Text) :
    ∀ d ∈ (t.drop (numberTail hex previous t)).head?, d < 0x80 := by
  induction t generalizing previous with
  | nil => exact fun _ => nofun
  | cons c t ih =>
    rw [numberTail]
    split
    · rw [Nat.add_comm 1, List.drop_succ_cons]
      exact ih c
    · rename_i ends
      split
      · rw [Nat.add_comm 1, List.drop_succ_cons]
        exact ih c
      · intro d first
        obtain rfl := Option.some.inj first
        rw [Bool.or_eq_true, not_or, Bool.not_eq_true] at ends
        exact ascii_of_not_isIdentPart ends.1

/-- A part that ends with ASCII has a seam behind it. -/
theorem seam_of_take {n : Nat} (filled : 1 ≤ n) (ascii : ∀ d ∈ ((c :: t).take n).getLast?, d < 0x80) :
    Text.Seam (c :: t.take (n - 1)) (t.drop (n - 1)) := by
  obtain ⟨n, rfl⟩ := Nat.exists_eq_add_of_le' filled
  exact .inl ascii

/-- **There is a seam behind a token.** -/
theorem seam_tokenAt {kind : TokenKind} {n : Nat} (is_token : tokenAt c t = .ok (kind, n)) :
    Text.Seam (c :: t.take (n - 1)) (t.drop (n - 1)) := by
  have filled := (tokenAt_le is_token).1
  unfold tokenAt at is_token
  split at is_token
  -- A name may end with any byte, but no byte of a name is behind it.
  · cases is_token
    have behind : t.drop (t.takeWhile isIdentPart).length = t.dropWhile isIdentPart :=
      (congrArg (List.drop _) List.takeWhile_append_dropWhile.symm).trans List.drop_left
    rw [Nat.add_sub_cancel_left, behind]
    refine .inr fun d first => ascii_of_not_isIdentPart ?_
    have stopped := List.head?_dropWhile_not isIdentPart t
    rw [Option.mem_def.1 first] at stopped
    simpa using stopped
  · split at is_token
    · cases is_token
      rw [Nat.add_sub_cancel_left]
      exact .inr (ascii_behind_number _ c t)
    · split at is_token
      -- A literal ends with its mark, whatever is inside.
      · rename_i mark
        split at is_token
        · rename_i closed
          obtain ⟨lit, rest, whole, rfl, literal⟩ :=
            (Braced.literalLength_eq_some_iff mark).1 closed
          cases is_token
          obtain ⟨front, last, rfl, is_mark⟩ := literal.exists_last
          refine seam_of_take filled fun d ends => ?_
          rw [whole, List.take_left, List.getLast?_concat] at ends
          exact Option.some.inj ends ▸ Braced.ascii_of_isMark is_mark
        · cases is_token
      · split at is_token
        · rename_i operator found
          cases is_token
          have leads := List.find?_some found
          have ascii : ∀ operator ∈ operators, ∀ d ∈ operator, d < 0x80 := by decide +kernel
          refine seam_of_take filled fun d ends => ?_
          rw [← List.prefix_iff_eq_take.1 (List.isPrefixOf_iff_prefix.1 leads)] at ends
          exact ascii operator (List.mem_of_find?_eq_some found) d (List.mem_of_getLast? ends)
        · split at is_token
          · rename_i single
            cases is_token
            have ascii : ∀ d ∈ singles, d < 0x80 := by decide +kernel
            refine seam_of_take filled fun d ends => ?_
            exact Option.some.inj ends ▸ ascii c (List.contains_iff_mem.1 single)
          · cases is_token

/-- Reading goes on with valid tokens, where what is behind the token just read is valid. -/
theorem isValid_tokensFrom {t : Text} {skip offset line : Nat} {done tokens : List Token}
    (read : tokensFrom t skip offset line done = .ok tokens) (valid : Text.isValid (t.drop skip) = true)
    (all : ∀ token ∈ done, token.text.isValid = true) :
    ∀ token ∈ tokens, token.text.isValid = true := by
  induction t generalizing skip offset line done with
  | nil =>
    cases read
    exact fun token member => all token (List.mem_reverse.1 member)
  | cons c t ih =>
    cases skip with
    | succ skip => exact ih read valid all
    | zero =>
      rw [tokensFrom] at read
      simp only at read
      split at read
      · rename_i blank
        have ascii : ∀ d ∈ blankSpace, d < 0x80 := by decide +kernel
        have seam : Text.Seam [c] t := .inl fun d last =>
          Option.some.inj last ▸ ascii c (mem_blankSpace_iff.2 blank)
        have divided : Text.isValid ([c] ++ t) = true := valid
        rw [Text.isValid_append seam, Bool.and_eq_true] at divided
        exact ih read divided.2 all
      · split at read
        · cases read
        · rename_i kind n is_token
          have divided : Text.isValid (c :: t.take (n - 1) ++ t.drop (n - 1)) = true := by
            rw [List.cons_append, List.take_append_drop]
            exact valid
          rw [Text.isValid_append (seam_tokenAt is_token), Bool.and_eq_true] at divided
          exact ih read divided.2 (List.forall_mem_cons.2 ⟨divided.1, all⟩)

/-- **The tokens of a valid source are valid.** -/
theorem isValid_tokenize {tokens : List Token} (read : tokenize code = .ok tokens)
    (valid : code.isValid = true) : ∀ token ∈ tokens, token.text.isValid = true :=
  isValid_tokensFrom read valid fun _ => nofun

/-! ## Brackets -/

/-- Whether a closing bracket belongs to an opening one. -/
def Token.closes (t bracket : Token) : Bool := bracket.text == t.text.map Braced.partner

/-- Pairs the brackets among tokens, when `open_` are open before them, innermost first. -/
def tokenPairs? : List Token → List Token → Option (List (Nat × Nat))
  | [], [] => some []
  | [], _ :: _ => none
  | t :: rest, open_ =>
    if t.isOpening then tokenPairs? rest (t :: open_)
    else if t.isClosing then
      match open_ with
      | [] => none
      | bracket :: outer =>
        if t.closes bracket then (tokenPairs? rest outer).map ((bracket.offset, t.offset) :: ·)
        else none
    else tokenPairs? rest open_

/-- The pairs of brackets among tokens that begin with one more. -/
theorem tokenPairs_cons (t : Token) (rest open_ : List Token) :
    tokenPairs? (t :: rest) open_ =
      if t.isOpening then tokenPairs? rest (t :: open_)
      else if t.isClosing then
        match open_ with
        | [] => none
        | bracket :: outer =>
          if t.closes bracket then (tokenPairs? rest outer).map ((bracket.offset, t.offset) :: ·)
          else none
      else tokenPairs? rest open_ := by
  cases open_ <;> rfl

/-- No byte of a name is a mark or a bracket. -/
theorem not_alert_of_isIdentPart (part : isIdentPart c = true) : c ∉ Braced.alert := by
  intro member
  have apart : ∀ d ∈ Braced.alert, isIdentPart d = false := Text.forall_mem_of_all (by decide)
  rw [apart c member] at part
  cases part

/-- No byte of a number is a mark or a bracket. -/
theorem not_alert_numberTail (hex : Bool) (previous : UInt8) (t : Text) :
    ∀ d ∈ t.take (numberTail hex previous t), d ∉ Braced.alert := by
  induction t generalizing previous with
  | nil =>
    intro d member
    cases member
  | cons c t ih =>
    rw [numberTail]
    split
    · rename_i goes_on
      rw [Nat.add_comm 1, List.take_succ_cons, List.forall_mem_cons]
      refine ⟨?_, ih c⟩
      rcases Bool.or_eq_true_iff.1 goes_on with part | point
      · exact not_alert_of_isIdentPart part
      · rw [beq_iff_eq.1 point]
        decide
    · split
      · rename_i sign
        rw [Nat.add_comm 1, List.take_succ_cons, List.forall_mem_cons]
        refine ⟨?_, ih c⟩
        simp only [Bool.and_eq_true, Bool.or_eq_true, beq_iff_eq] at sign
        rcases sign.1.1 with rfl | rfl <;> decide
      · exact fun _ => nofun

/-- What begins with a mark is a literal, which both scans pass over. -/
theorem tokenAt_mark {kind : TokenKind} {n : Nat} (mark : Braced.isMark c = true)
    (is_token : tokenAt c t = .ok (kind, n)) :
    kind = .string ∧ Braced.literalTail (c :: t) = n - 1 := by
  have other : isIdentStart c = false ∧ Text.isDigit c = false ∧ (c == '.') = false := by
    rw [Braced.isMark, Bool.or_eq_true, beq_iff_eq, beq_iff_eq] at mark
    rcases mark with rfl | rfl <;> decide
  rw [tokenAt, other.1, other.2.1, other.2.2, mark] at is_token
  simp only [Bool.false_eq_true, Bool.false_or, Bool.false_and, if_false, if_true] at is_token
  split at is_token
  · rename_i closed
    cases is_token
    rw [Braced.literalTail, closed]
    exact ⟨rfl, rfl⟩
  · cases is_token

/-- A bracket is a token of its own. -/
theorem tokenAt_bracket (bracket : (Braced.isOpening c || Braced.isClosing c) = true) (t : Text) :
    tokenAt c t = .ok (.punct, 1) := by
  rw [Braced.isOpening, Braced.isClosing] at bracket
  simp only [Bool.or_eq_true, beq_iff_eq] at bracket
  rcases bracket with ((rfl | rfl) | rfl) | (rfl | rfl) | rfl <;> rfl

/-- Behind the first byte of a token that is no literal there is neither a mark nor a bracket. -/
theorem not_alert_tokenAt {kind : TokenKind} {n : Nat} (plain : Braced.isMark c = false)
    (is_token : tokenAt c t = .ok (kind, n)) : ∀ d ∈ t.take (n - 1), d ∉ Braced.alert := by
  unfold tokenAt at is_token
  split at is_token
  · cases is_token
    intro d member
    rw [Nat.add_sub_cancel_left, ← List.prefix_iff_eq_take.1 (List.takeWhile_prefix _)] at member
    exact not_alert_of_isIdentPart (List.all_eq_true.1 List.all_takeWhile d member)
  · split at is_token
    · cases is_token
      rw [Nat.add_sub_cancel_left]
      exact not_alert_numberTail _ c t
    · rw [if_neg (by rw [plain]; exact Bool.false_ne_true)] at is_token
      split at is_token
      · rename_i operator found
        cases is_token
        have dull : operators.all (·.all fun d => decide (d ∉ Braced.alert)) = true := by decide
        have dull := List.all_eq_true.1 dull operator (List.mem_of_find?_eq_some found)
        have leads := List.find?_some found
        intro d member
        refine of_decide_eq_true (List.all_eq_true.1 dull d ?_)
        rw [List.prefix_iff_eq_take.1 (List.isPrefixOf_iff_prefix.1 leads)]
        cases operator with
        | nil => cases member
        | cons _ operator => exact List.mem_cons_of_mem _ member
      · split at is_token
        · cases is_token
          exact fun _ => nofun
        · cases is_token

/-- The byte and the offset of a bracket. -/
def Token.bracket (t : Token) : UInt8 × Nat := (t.text.headD 0, t.offset)

/-- An opening bracket has one byte. -/
theorem Token.text_of_isOpening {token : Token} (opens : token.isOpening = true) :
    token.text = [token.bracket.1] := by
  simp only [isOpening, Bool.and_eq_true, Bool.or_eq_true, beq_iff_eq] at opens
  rcases opens.2 with (same | same) | same <;>
  · rw [bracket, same]
    rfl

/-- A token is a bracket if its first byte is one, and it is of one byte. -/
theorem isOpening_tokenAt {n : Nat} {kind : TokenKind} (offset line : Nat)
    (plain : Braced.isMark c = false) (is_token : tokenAt c t = .ok (kind, n)) :
    Token.isOpening ⟨kind, c :: t.take (n - 1), offset, offset + n, line⟩ = Braced.isOpening c ∧
    Token.isClosing ⟨kind, c :: t.take (n - 1), offset, offset + n, line⟩ = Braced.isClosing c := by
  by_cases bracket : (Braced.isOpening c || Braced.isClosing c) = true
  · cases (tokenAt_bracket bracket t).symm.trans is_token
    have text (d : UInt8) : ([c] == ([d] : Text)) = (c == d) := by
      rw [List.cons_beq_cons]
      exact Bool.and_true _
    exact ⟨by rw [Token.isOpening, Braced.isOpening]; simp only [← text]; rfl,
      by rw [Token.isClosing, Braced.isClosing]; simp only [← text]; rfl⟩
  · obtain ⟨not_opening, not_closing⟩ := Bool.or_eq_false_iff.1 (Bool.eq_false_iff.2 bracket)
    have first {symbol : UInt8} (same : c :: t.take (n - 1) = [symbol]) : c = symbol :=
      (List.cons.inj same).1
    rw [not_opening, not_closing]
    constructor
    · rw [Bool.eq_false_iff]
      intro opens
      simp only [Token.isOpening, Bool.and_eq_true, Bool.or_eq_true, beq_iff_eq] at opens
      rcases opens.2 with (same | same) | same <;> cases first same <;> cases not_opening
    · rw [Bool.eq_false_iff]
      intro closes
      simp only [Token.isClosing, Bool.and_eq_true, Bool.or_eq_true, beq_iff_eq] at closes
      rcases closes.2 with (same | same) | same <;> cases first same <;> cases not_closing

/-- A token that is no literal is found by the check as a bracket if it is one, and not at all if it
is none. The bytes behind its first one are still to be passed over one by one. -/
theorem tokenPairs_token {t : Text} {kind : TokenKind} {n offset line : Nat}
    {more open_ : List Token} (plain : Braced.isMark c = false)
    (is_token : tokenAt c t = .ok (kind, n)) (opened : ∀ bracket ∈ open_, bracket.isOpening = true)
    (pairs : ∀ open_ : List Token, (∀ bracket ∈ open_, bracket.isOpening = true) →
      tokenPairs? more open_ = Braced.pairsFrom? t (offset + 1) 0 (open_.map Token.bracket)) :
    tokenPairs? (⟨kind, c :: t.take (n - 1), offset, offset + n, line⟩ :: more) open_ =
      Braced.pairsFrom? (c :: t) offset 0 (open_.map Token.bracket) := by
  obtain ⟨opening, closing⟩ := isOpening_tokenAt offset line plain is_token
  rw [tokenPairs_cons, Braced.pairsFrom_cons, if_neg (Bool.eq_false_iff.1 plain), opening, closing]
  split
  · rename_i opens
    exact pairs (_ :: open_) (List.forall_mem_cons.2 ⟨opening.trans opens, opened⟩)
  · split
    · rename_i closes
      cases open_ with
      | nil => rfl
      | cons bracket outer =>
        obtain ⟨opens, opened⟩ := List.forall_mem_cons.1 opened
        have single : tokenAt c t = .ok (.punct, 1) :=
          tokenAt_bracket (by rw [closes, Bool.or_true]) t
        cases single.symm.trans is_token
        have belongs : Token.closes ⟨.punct, c :: t.take (1 - 1), offset, offset + 1, line⟩
            bracket = (bracket.bracket.1 == Braced.partner c) := by
          rw [Token.closes, Token.text_of_isOpening opens]
          exact (List.cons_beq_cons ..).trans (Bool.and_true _)
        simp only [List.map_cons, belongs]
        rw [pairs outer opened]
        rfl
    · exact pairs open_ opened

/-- Reading tokens finds the brackets that the check of the source does. It may still have `skip`
bytes to pass over where the check looks at each of them, but those are no brackets. -/
theorem tokenPairs_tokensFrom {t : Text} {skip offset line : Nat} {done tokens : List Token}
    (read : tokensFrom t skip offset line done = .ok tokens) :
    ∃ more, tokens = done.reverse ++ more ∧
      ∀ (open_ : List Token) (scan : Nat), (∀ bracket ∈ open_, bracket.isOpening = true) →
        (scan = skip ∨ scan = 0 ∧ ∀ d ∈ t.take skip, d ∉ Braced.alert) →
        tokenPairs? more open_ = Braced.pairsFrom? t offset scan (open_.map Token.bracket) := by
  induction t generalizing skip offset line done with
  | nil =>
    cases read
    refine ⟨[], (List.append_nil _).symm, fun open_ scan _ _ => ?_⟩
    cases open_ <;> rfl
  | cons c t ih =>
    cases skip with
    | succ skip =>
      obtain ⟨more, same, pairs⟩ := ih read
      refine ⟨more, same, fun open_ scan opened aligned => ?_⟩
      rcases aligned with rfl | ⟨rfl, dull⟩
      · rw [Braced.pairsFrom_skip]
        exact pairs open_ skip opened (Or.inl rfl)
      · rw [List.take_succ_cons, List.forall_mem_cons] at dull
        rw [Braced.pairsFrom_cons, Braced.isMark_eq_false dull.1, Braced.isOpening_eq_false dull.1,
          Braced.isClosing_eq_false dull.1]
        exact pairs open_ 0 opened (Or.inr ⟨rfl, dull.2⟩)
    | zero =>
      rw [tokensFrom] at read
      simp only at read
      split at read
      · rename_i blank
        obtain ⟨no_mark, no_opening, no_closing⟩ := plain_of_blank (mem_blankSpace_iff.2 blank)
        obtain ⟨more, same, pairs⟩ := ih read
        refine ⟨more, same, fun open_ scan opened aligned => ?_⟩
        obtain rfl : scan = 0 := aligned.elim id And.left
        rw [Braced.pairsFrom_cons, no_mark, no_opening, no_closing]
        exact pairs open_ 0 opened (Or.inl rfl)
      · split at read
        · cases read
        · rename_i kind n is_token
          obtain ⟨more, same, pairs⟩ := ih read
          refine ⟨_ :: more, by rw [same, List.reverse_cons, List.append_assoc]; rfl,
            fun open_ scan opened aligned => ?_⟩
          obtain rfl : scan = 0 := aligned.elim id And.left
          by_cases mark : Braced.isMark c = true
          · -- Both scans pass over the literal.
            obtain ⟨rfl, tail⟩ := tokenAt_mark mark is_token
            rw [tokenPairs_cons, Braced.pairsFrom_cons, if_pos mark, tail]
            exact pairs open_ (n - 1) opened (Or.inl rfl)
          · have plain := Bool.eq_false_iff.2 mark
            exact tokenPairs_token plain is_token opened fun open_ opened =>
              pairs open_ 0 opened (Or.inr ⟨rfl, not_alert_tokenAt plain is_token⟩)

/-- **The brackets among the tokens** are those of the source, and have the same partners. -/
theorem tokenPairs_tokenize {tokens : List Token} (read : tokenize code = .ok tokens) :
    tokenPairs? tokens [] = Braced.pairs? code := by
  obtain ⟨more, same, pairs⟩ := tokenPairs_tokensFrom read
  rw [List.reverse_nil, List.nil_append] at same
  rw [same]
  exact pairs [] 0 (fun _ => nofun) (Or.inl rfl)

/-- **What is covered by tokens is there**: of any tokens, the first one begins before the last one
ends, and that is inside the source. -/
theorem covered_between {tokens part : List Token} (read : tokenize code = .ok tokens)
    (in_order : part.Sublist tokens) {first last : Token} (is_first : part.head? = some first)
    (is_last : part.getLast? = some last) :
    first.offset < last.stop ∧ last.stop ≤ code.length := by
  have laid := laid_tokenize read
  have stands (token : Token) (member : token ∈ part) : token.Stands code :=
    (laid.stands token (in_order.subset member)).1
  have last_stands := stands last (List.mem_of_getLast? is_last)
  refine ⟨?_, last_stands.inside⟩
  obtain ⟨rest, rfl⟩ := List.head?_eq_some_iff.1 is_first
  have first_stands := stands first List.mem_cons_self
  cases rest with
  | nil =>
    cases is_last
    exact first_stands.filled
  | cons second rest =>
    have later : last ∈ second :: rest := by
      rw [List.getLast?_cons_cons] at is_last
      exact List.mem_of_getLast? is_last
    have := (List.pairwise_cons.1 (laid.pairwise.sublist in_order)).1 last later
    have := first_stands.filled
    have := last_stands.filled
    omega

/-- **Tokens cover their source.** They stand in strictly increasing order and do not overlap, each
with the text at its place, which is not empty, and with the number of the line where it begins; and
in front of the first one, between two of them and behind the last one there is blank space only. -/
theorem tokens_cover {tokens : List Token} (read : tokenize code = .ok tokens) :
    (tokens.Pairwise fun earlier later =>
      earlier.offset < later.offset ∧ earlier.stop ≤ later.offset) ∧
    (∀ token ∈ tokens, token.offset < token.stop ∧ token.stop ≤ code.length ∧
      token.text = code.slice token.offset token.stop ∧ token.text ≠ [] ∧
      token.line = code.lineAt token.offset) ∧
    Laid code 0 tokens := by
  have laid := laid_tokenize read
  have stands (token : Token) (member : token ∈ tokens) := laid.stands token member
  refine ⟨laid.pairwise.imp_of_mem fun {earlier later} member _ apart => ?_, fun token member => ?_,
    laid⟩
  · exact ⟨Nat.lt_of_lt_of_le (stands earlier member).1.filled apart, apart⟩
  · obtain ⟨stands, -, line⟩ := stands token member
    refine ⟨stands.filled, stands.inside, stands.text, fun empty => ?_, line⟩
    -- an empty slice would have no bytes, but the token has at least one and ends inside the source
    have length := congrArg List.length stands.text
    rw [empty, Text.slice, List.length_take, List.length_drop, List.length_nil] at length
    have := stands.filled
    have := stands.inside
    omega

/-- The source of a name, a text block over two lines, and a name behind it. -/
def blockSource : Text := "s =\"\"\"\na\"\"\";\n\tb "

/-- A literal that spans lines counts for the tokens behind it. -/
theorem block_tokens_cover : ∃ tokens, tokenize blockSource = .ok tokens ∧
    tokens.map (fun token => (token.offset, token.stop, token.line)) =
      [(0, 1, 1), (2, 3, 1), (3, 11, 1), (11, 12, 2), (14, 15, 3)] ∧
    Laid blockSource 0 tokens := by
  have read : tokenize blockSource = .ok
      [⟨.ident, "s", 0, 1, 1⟩, ⟨.punct, "=", 2, 3, 1⟩, ⟨.string, "\"\"\"\na\"\"\"", 3, 11, 1⟩,
        ⟨.punct, ";", 11, 12, 2⟩, ⟨.ident, "b", 14, 15, 3⟩] := by
    decide +kernel
  exact ⟨_, read, rfl, (tokens_cover read).2.2⟩

end FlowTrace.Java
