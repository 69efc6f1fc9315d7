import FlowTrace.Java.Program

/-! # Initial values

A local variable that is declared with an initial value, and the assignment of the same value: what
the reader makes of `T x = E;` and of `x = E;`, for every expression `E` in which no semicolon and no
comma stands outside brackets.

The end of an expression statement is its semicolon (`untilFrom?_append`). The end of an initial value
is looked for with more stops, a colon among them; so a declaration is read whole exactly when no
colon stands outside the brackets of `E` (`readStatement_declaration`). With the colon of a
conditional expression or of a lambda that holds one, the declaration is refused at that colon, while
the assignment is read whole all the same (`initializer_kept_iff`). -/

namespace FlowTrace.Java

variable {src : Source} {t stop : Token} {rest : List Token} {stops : List Text}

/-! ## Brackets -/

/-- Whether every bracket is closed in its turn and none is left open, when `depth` are open before
the first token. -/
def balanced : List Token → Nat → Bool
  | [], depth => depth == 0
  | t :: rest, depth =>
    if t.isOpening then balanced rest (depth + 1)
    else if t.isClosing then
      match depth with
      | 0 => false
      | depth + 1 => balanced rest depth
    else balanced rest depth

/-- Whether one more token is balanced with those behind it. -/
theorem balanced_cons (t : Token) (rest : List Token) (depth : Nat) :
    balanced (t :: rest) depth =
      if t.isOpening then balanced rest (depth + 1)
      else if t.isClosing then
        match depth with
        | 0 => false
        | depth + 1 => balanced rest depth
      else balanced rest depth := by
  cases depth <;> rfl

/-- The tokens **outside brackets**, when `depth` are open before the first token. The brackets
themselves are left out. -/
def outside : List Token → Nat → List Token
  | [], _ => []
  | t :: rest, depth =>
    if t.isOpening then outside rest (depth + 1)
    else if t.isClosing then outside rest (depth - 1)
    else if depth = 0 then t :: outside rest depth
    else outside rest depth

/-- Whether a token is one of the stops. -/
def isStop (stops : List Text) (t : Token) : Bool := t.kind == .punct && stops.contains t.text

/-- An opening bracket closes none. -/
theorem isClosing_of_isOpening (opening : t.isOpening = true) : t.isClosing = false := by
  simp only [Token.isOpening, Token.isClosing, Bool.and_eq_true, Bool.or_eq_true,
    beq_iff_eq] at opening ⊢
  obtain ⟨punct, (same | same) | same⟩ := opening
  all_goals
    rw [same]
    simp only [punct, BEq.rfl, Bool.true_and]
    decide

/-- Reading up to a stop, one token further. -/
theorem untilFrom?_cons (stops : List Text) (t : Token) (rest : List Token) (depth : Nat)
    (done : List Token) : untilFrom? stops (t :: rest) depth done =
      if isStop stops t && depth == 0 then some (done.reverse, t, rest)
      else if t.isOpening then untilFrom? stops rest (depth + 1) (t :: done)
      else if t.isClosing then
        match depth with
        | 0 => none
        | depth + 1 => untilFrom? stops rest depth (t :: done)
      else untilFrom? stops rest depth (t :: done) := by
  rw [isStop, Bool.and_right_comm]
  cases depth <;> rfl

/-- **Reading up to a stop** behind balanced tokens that hold none outside their brackets: they are
passed over as a whole. -/
theorem untilFrom?_append (is_stop : isStop stops stop = true)
    (shut : ∀ t : Token, t.isOpening = true → isStop stops t = false) (rest : List Token) :
    ∀ (tokens : List Token) (depth : Nat) (done : List Token), balanced tokens depth = true →
      (∀ t ∈ outside tokens depth, isStop stops t = false) →
      untilFrom? stops (tokens ++ stop :: rest) depth done =
        some (done.reverse ++ tokens, stop, rest) := by
  intro tokens
  induction tokens with
  | nil =>
    intro depth done even _
    obtain rfl : depth = 0 := by simpa [balanced] using even
    rw [List.nil_append, untilFrom?_cons, is_stop, if_pos (by decide), List.append_nil]
  | cons t tokens ih =>
    intro depth done even free
    have next (depth' : Nat) (even' : balanced tokens depth' = true)
        (free' : ∀ t ∈ outside tokens depth', isStop stops t = false) :
        untilFrom? stops (tokens ++ stop :: rest) depth' (t :: done) =
          some (done.reverse ++ t :: tokens, stop, rest) := by
      rw [ih depth' (t :: done) even' free']
      simp
    rw [List.cons_append, untilFrom?_cons]
    rw [balanced_cons] at even
    rw [outside] at free
    by_cases opening : t.isOpening = true
    · rw [if_pos opening] at even free
      rw [shut t opening, Bool.false_and, if_neg Bool.false_ne_true, if_pos opening]
      exact next _ even free
    · rw [if_neg opening] at even free
      by_cases closing : t.isClosing = true
      · rw [if_pos closing] at even free
        cases depth with
        | zero => cases even
        | succ depth =>
          rw [if_neg (by simp), if_neg opening, if_pos closing]
          exact next _ even free
      · rw [if_neg closing] at even free
        -- The token at hand is no bracket, so it would only stop at depth zero.
        have passed : ¬ (isStop stops t && depth == 0) = true := by
          rw [Bool.and_eq_true, beq_iff_eq]
          rintro ⟨stops_here, zero⟩
          rw [free t (by rw [if_pos zero]; exact List.mem_cons_self)] at stops_here
          cases stops_here
        rw [if_neg passed, if_neg opening, if_neg closing]
        refine next _ even fun t' member => free t' ?_
        split
        · exact List.mem_cons_of_mem _ member
        · exact member

/-- **Reading up to a stop** that is among balanced tokens, outside their brackets: reading ends
there, whatever follows. -/
theorem untilFrom?_of_outside (shut : ∀ t : Token, t.isOpening = true → isStop stops t = false)
    (tail : List Token) : ∀ (tokens : List Token) (depth : Nat) (done : List Token),
      balanced tokens depth = true → (∃ t ∈ outside tokens depth, isStop stops t = true) →
      ∃ before stop after, tokens = before ++ stop :: after ∧ stop ∈ outside tokens depth ∧
        isStop stops stop = true ∧ untilFrom? stops (tokens ++ tail) depth done =
          some (done.reverse ++ before, stop, after ++ tail) := by
  intro tokens
  induction tokens with
  | nil =>
    rintro depth done - ⟨t, member, -⟩
    cases member
  | cons t tokens ih =>
    intro depth done even found
    -- What is found behind the token at hand.
    have next (depth' : Nat) (even' : balanced tokens depth' = true)
        (found' : ∃ t ∈ outside tokens depth', isStop stops t = true) :
        ∃ before stop after, t :: tokens = before ++ stop :: after ∧
          stop ∈ outside tokens depth' ∧ isStop stops stop = true ∧
          untilFrom? stops (tokens ++ tail) depth' (t :: done) =
            some (done.reverse ++ before, stop, after ++ tail) := by
      obtain ⟨before, stop, after, rfl, member, stops_here, read⟩ :=
        ih depth' (t :: done) even' found'
      exact ⟨t :: before, stop, after, rfl, member, stops_here, by rw [read]; simp⟩
    rw [List.cons_append, untilFrom?_cons]
    rw [balanced_cons] at even
    rw [outside] at found ⊢
    by_cases opening : t.isOpening = true
    · rw [if_pos opening] at even found ⊢
      rw [shut t opening, Bool.false_and, if_neg Bool.false_ne_true, if_pos opening]
      exact next _ even found
    · rw [if_neg opening] at even found ⊢
      by_cases closing : t.isClosing = true
      · rw [if_pos closing] at even found ⊢
        cases depth with
        | zero => cases even
        | succ depth =>
          rw [if_neg (by simp), if_neg opening, if_pos closing]
          exact next _ even found
      · rw [if_neg closing] at even found ⊢
        by_cases here : (isStop stops t && depth == 0) = true
        · obtain ⟨stops_here, zero⟩ := Bool.and_eq_true_iff.1 here
          rw [if_pos (beq_iff_eq.1 zero)] at found ⊢
          refine ⟨[], t, tokens, rfl, List.mem_cons_self, stops_here, ?_⟩
          rw [if_pos here, List.append_nil]
        · rw [if_neg here, if_neg opening, if_neg closing]
          have behind : ∃ t ∈ outside tokens depth, isStop stops t = true := by
            obtain ⟨t', member, stops_here⟩ := found
            split at member
            · rename_i zero
              rcases List.mem_cons.1 member with rfl | behind
              · -- The token at hand does not stop.
                exact absurd (Bool.and_eq_true_iff.2 ⟨stops_here, beq_iff_eq.2 zero⟩) here
              · exact ⟨t', behind, stops_here⟩
            · exact ⟨t', member, stops_here⟩
          obtain ⟨before, stop, after, split, member, stops_here, read⟩ := next _ even behind
          refine ⟨before, stop, after, split, ?_, stops_here, read⟩
          split
          · exact List.mem_cons_of_mem _ member
          · exact member

/-! ## Names -/

/-- A token is a **name** when it is an identifier, no reserved word, and does not modify the
declaration of a local variable. -/
structure Token.IsName (t : Token) : Prop where
  /-- It is an identifier. -/
  kind : t.kind = .ident
  /-- It is written like one. -/
  letters : t.text.all isIdentPart = true
  /-- It is not reserved. -/
  free : reserved.contains t.text = false
  /-- It does not modify a declaration. -/
  plain : (t.text == "final") = false

/-- What is reserved, or not written like an identifier, is not the text of a name. -/
theorem Token.IsName.text_ne (name : t.IsName) {word : Text}
    (other : reserved.contains word = true ∨ word.all isIdentPart = false) :
    (t.text == word) = false := by
  rw [beq_eq_false_iff_ne]
  rintro rfl
  rcases other with other | other
  · exact absurd (name.free.symm.trans other) nofun
  · exact absurd (name.letters.symm.trans other) nofun

/-- No reserved word and no operator stands where a name does. -/
theorem Token.IsName.next_eq_false (name : t.IsName) {word : Text}
    (other : reserved.contains word = true ∨ word.all isIdentPart = false)
    (rest : List Token) : next (t :: rest) word = false := by
  simp only [next, name.text_ne other, Bool.and_false]

/-- Nothing that modifies the declaration of a local variable stands before a name. -/
theorem Token.IsName.skipLocalModifiers_eq (name : t.IsName) (bound : Nat) (rest : List Token) :
    skipLocalModifiers (bound + 1) (t :: rest) = t :: rest := by
  have no_final : next (t :: rest) "final" = false := by
    simp only [next, name.plain, Bool.and_false]
  have no_annotation : atAnnotation (t :: rest) = false := by
    rw [ atAnnotation, name.next_eq_false (Or.inr (by decide)), Bool.false_and]
  simp only [skipLocalModifiers, no_final, no_annotation, Bool.false_eq_true, if_false]

/-- A statement that begins with a name, and is no label, is a declaration or an expression. -/
theorem readStatement_of_name (name : t.IsName) (no_label : (textAt rest 0 == ":") = false)
    (src : Source) (bound : Nat) : readStatement src (bound + 1) (t :: rest) =
      if atLocal src (t :: rest) then do
        let (declared, rest) ← readLocal src (t :: rest)
        let rest ← expect src ";" rest
        return (some (.leaf t.line (.locals declared)), rest)
      else do
        let (expression, rest) ← readToSemicolon src (t :: rest)
        return (some (.leaf t.line (expressionForm src expression)), rest) := by
  have other (word : Text)
      (other : reserved.contains word = true ∨ word.all isIdentPart = false) :
      next (t :: rest) word = false := name.next_eq_false other rest
  have plain : plainWords.any (next (t :: rest)) = false := by
    rw [List.any_eq_false]
    intro word member
    rw [other word (Or.inl (by revert member; revert word; decide))]
    simp
  have label : (identAt (t :: rest) 0 && textAt (t :: rest) 1 == ":") = false := by
    have same : textAt (t :: rest) 1 = textAt rest 0 := rfl
    rw [same, no_label, Bool.and_false]
  rw [readStatement]
  simp only [plain, label, other "\x7b" (Or.inr (by decide)), other ";" (Or.inr (by decide)),
    other "if" (Or.inl (by decide)), other "for" (Or.inl (by decide)),
    other "while" (Or.inl (by decide)), other "do" (Or.inl (by decide)),
    other "try" (Or.inl (by decide)), other "switch" (Or.inl (by decide)),
    other "return" (Or.inl (by decide)), other "synchronized" (Or.inl (by decide)),
    other "class" (Or.inl (by decide)), other "interface" (Or.inl (by decide)),
    other "enum" (Or.inl (by decide)), other "else" (Or.inl (by decide)),
    other "catch" (Or.inl (by decide)), other "finally" (Or.inl (by decide)),
    other "case" (Or.inl (by decide)), Bool.or_self, Bool.false_eq_true, if_false]
  rfl

/-! ## Types -/

/-- The tokens of pairs, one after the other. -/
def flat (pairs : List (Token × Token)) : List Token := pairs.flatMap fun pair => [pair.1, pair.2]

/-- Whether angle brackets, of which `depth` are open, are closed by the last token and not before,
with nothing between them that cannot stand there. -/
def closesAngles : List Token → Nat → Bool
  | [], _ => false
  | t :: rest, depth =>
    if t.text == "<" then closesAngles rest (depth + 1)
    else if t.text == ">" then
      if depth ≤ 1 then rest.isEmpty else closesAngles rest (depth - 1)
    else !angleStops.contains t.text && closesAngles rest depth

/-- The **name of a type**: a dotted name, perhaps with type arguments behind it or one of its
parts, perhaps of an array. -/
structure TypeName where
  /-- The first part of the name. -/
  head : Token
  /-- The parts behind it, each with its point. -/
  parts : List (Token × Token)
  /-- The type arguments with their brackets, empty when there are none. -/
  arguments : List Token
  /-- The parts behind the type arguments. -/
  more : List (Token × Token)
  /-- The empty square brackets of an array. -/
  dims : List (Token × Token)
  /-- The first part is a name. -/
  head_isName : head.IsName
  /-- Points and identifiers alternate. -/
  dotted : ∀ part ∈ parts ++ more, part.1.isPunct "." = true ∧ part.2.kind = .ident
  /-- Type arguments stand between angle brackets; without them the name goes on no further. -/
  bracketed : arguments = [] ∧ more = [] ∨ ∃ opening inside, arguments = opening :: inside ∧
    opening.isPunct "<" = true ∧ closesAngles inside 1 = true
  /-- Square brackets come in pairs. -/
  paired : ∀ pair ∈ dims, pair.1.isPunct "[" = true ∧ pair.2.isPunct "]" = true

/-- The tokens of the name of a type. -/
def TypeName.tokens (T : TypeName) : List Token :=
  T.head :: (flat T.parts ++ (T.arguments ++ (flat T.more ++ flat T.dims)))

/-- What is punctuation is next when it comes first. -/
theorem next_of_isPunct {text : Text} (punct : t.isPunct text = true) (rest : List Token) :
    next (t :: rest) text = true := by
  simp only [Token.isPunct, Bool.and_eq_true] at punct
  simp only [next, punct.1, punct.2, Bool.true_or, Bool.and_self]

/-- What is other punctuation is not next. -/
theorem next_of_isPunct_ne {text other : Text} (punct : t.isPunct text = true)
    (apart : (text == other) = false) (rest : List Token) : next (t :: rest) other = false := by
  simp only [Token.isPunct, Bool.and_eq_true, beq_iff_eq] at punct
  simp only [next, punct.2, apart, Bool.and_false]

/-- Where no point stands, a dotted name is over. -/
theorem skipDotted_of_not_next (part : Text) (ended : next rest "." = false) :
    skipDotted part rest = (part, rest) := by
  unfold skipDotted
  split
  · rename_i dot name rest
    have no_dot : next [dot] "." = false := ended
    rw [no_dot, Bool.false_and, if_neg (by simp)]
  · rfl

/-- A dotted name is passed over. -/
theorem skipDotted_flat (ended : next rest "." = false) : ∀ (parts : List (Token × Token)),
    (∀ part ∈ parts, part.1.isPunct "." = true ∧ part.2.kind = .ident) → ∀ name : Text,
      ∃ base, skipDotted name (flat parts ++ rest) = (base, rest) := by
  intro parts
  induction parts with
  | nil => exact fun _ name => ⟨name, skipDotted_of_not_next name ended⟩
  | cons part parts ih =>
    intro dotted name
    obtain ⟨dot, ident⟩ := dotted part List.mem_cons_self
    obtain ⟨base, read⟩ := ih (fun p member => dotted p (List.mem_cons_of_mem _ member)) part.2.text
    refine ⟨base, ?_⟩
    show skipDotted name (part.1 :: part.2 :: (flat parts ++ rest)) = _
    rw [skipDotted, next_of_isPunct dot, ident]
    exact read

/-- Type arguments are passed over. -/
theorem skipAngles?_append (rest : List Token) : ∀ (inside : List Token) (depth : Nat),
    closesAngles inside depth = true → skipAngles? (inside ++ rest) depth = some rest := by
  intro inside
  induction inside with
  | nil => nofun
  | cons t inside ih =>
    intro depth closes
    rw [closesAngles] at closes
    rw [List.cons_append, skipAngles?]
    split at closes
    · rename_i opens
      rw [if_pos opens]
      exact ih _ closes
    · rename_i opens
      rw [if_neg opens]
      split at closes
      · rename_i shuts
        rw [if_pos shuts]
        split at closes
        · rename_i last
          rw [if_pos last, List.isEmpty_iff.1 closes]
          rfl
        · rename_i last
          rw [if_neg last]
          exact ih _ closes
      · rename_i shuts
        obtain ⟨free, closes⟩ := Bool.and_eq_true_iff.1 closes
        rw [if_neg shuts, if_neg (by simpa using free)]
        exact ih _ closes

/-- Where no square bracket opens, there are none to pass over. -/
theorem skipDims_of_not_next (ended : next rest "[" = false) : skipDims rest = (false, rest) := by
  unfold skipDims
  split
  · rename_i open_ close rest
    have no_bracket : next [open_] "[" = false := ended
    rw [no_bracket, Bool.false_and, if_neg (by simp)]
  · rfl

/-- The square brackets of an array are passed over. -/
theorem skipDims_flat (ended : next rest "[" = false) : ∀ dims : List (Token × Token),
    (∀ pair ∈ dims, pair.1.isPunct "[" = true ∧ pair.2.isPunct "]" = true) →
      (skipDims (flat dims ++ rest)).2 = rest := by
  intro dims
  induction dims with
  | nil =>
    intro _
    show (skipDims rest).2 = rest
    rw [skipDims_of_not_next ended]
  | cons pair dims ih =>
    intro paired
    obtain ⟨opens, closes⟩ := paired pair List.mem_cons_self
    show (skipDims (pair.1 :: pair.2 :: (flat dims ++ rest))).2 = rest
    simp only [Token.isPunct, Bool.and_eq_true] at closes
    rw [skipDims, next_of_isPunct opens, closes.2]
    exact ih fun p member => paired p (List.mem_cons_of_mem _ member)

/-- Nothing else is next in a row of the same punctuation. -/
theorem not_next_flat {text other : Text} (apart : (text == other) = false)
    (ended : next rest other = false) {pairs : List (Token × Token)}
    (same : ∀ pair ∈ pairs, pair.1.isPunct text = true) :
    next (flat pairs ++ rest) other = false := by
  cases pairs with
  | nil => exact ended
  | cons pair pairs => exact next_of_isPunct_ne (same pair List.mem_cons_self) apart _

/-- Reading a type, by what is passed over in turn. -/
theorem readType?_eq {head : Token} {behind inner outer dims : List Token} {base base' : Text}
    (name : head.IsName) (parts : skipDotted head.text behind = (base, inner))
    (arguments : (if next inner "<" then skipAngles? inner 0 else some inner) = some outer)
    (more : skipDotted base outer = (base', dims)) (ended : (skipDims dims).2 = rest)
    (single : next rest "..." = false) (src : Source) :
    readType? src (head :: behind) =
      some (src.text (taken (head :: behind) rest), base', rest) := by
  simp only [readType?, name.kind, name.free, BEq.rfl, Bool.not_false, Bool.and_self, if_true,
    parts, Option.bind_eq_bind]
  by_cases angle : next inner "<" = true
  · rw [if_pos angle] at arguments
    simp only [angle, if_true, arguments, Option.bind_some, more, ended, single,
      Bool.false_eq_true, if_false]
    rfl
  · rw [if_neg angle] at arguments
    obtain rfl := Option.some.inj arguments
    simp only [angle, Bool.false_eq_true, if_false, Option.bind_some, more, ended, single]
    rfl

/-- **The name of a type is read as a whole** when another name follows it. -/
theorem readType?_tokens (src : Source) (T : TypeName) {x : Token} (name : x.IsName)
    (rest : List Token) : ∃ base,
      readType? src (T.tokens ++ x :: rest) = some (src.text T.tokens, base, x :: rest) := by
  have no (word : Text) (other : word.all isIdentPart = false) : next (x :: rest) word = false :=
    name.next_eq_false (Or.inr other) rest
  have dims_first (word : Text) (apart : ("[" == word) = false)
      (other : word.all isIdentPart = false) : next (flat T.dims ++ x :: rest) word = false :=
    not_next_flat apart (no word other) fun pair member => (T.paired pair member).1
  have parts_dotted : ∀ part ∈ T.parts, part.1.isPunct "." = true ∧ part.2.kind = .ident :=
    fun part member => T.dotted part (List.mem_append_left _ member)
  have more_dotted : ∀ part ∈ T.more, part.1.isPunct "." = true ∧ part.2.kind = .ident :=
    fun part member => T.dotted part (List.mem_append_right _ member)
  -- Type arguments are passed over, if there are some.
  have arguments_over (behind : List Token) (split : T.more = [] → next behind "<" = false)
      (split' : T.more = [] → next behind "." = false) :
      next (T.arguments ++ behind) "." = false ∧
        (if next (T.arguments ++ behind) "<" then skipAngles? (T.arguments ++ behind) 0
          else some (T.arguments ++ behind)) = some behind := by
    rcases T.bracketed with ⟨none, none'⟩ | ⟨opening, inside, some_, opens, closes⟩
    · rw [none, List.nil_append, split none', split' none']
      exact ⟨rfl, rfl⟩
    · have angle : (opening.text == "<") = true := by
        simp only [Token.isPunct, Bool.and_eq_true] at opens
        exact opens.2
      rw [some_, List.cons_append, next_of_isPunct opens, if_pos rfl, skipAngles?, if_pos angle]
      exact ⟨next_of_isPunct_ne opens (by decide) _, skipAngles?_append _ inside 1 closes⟩
  have more_first (word : Text) (apart : ("[" == word) = false)
      (other : word.all isIdentPart = false) (empty : T.more = []) :
      next (flat T.more ++ (flat T.dims ++ x :: rest)) word = false := by
    rw [empty]
    exact dims_first word apart other
  obtain ⟨no_point, arguments⟩ := arguments_over (flat T.more ++ (flat T.dims ++ x :: rest))
    (more_first "<" (by decide) (by decide)) (more_first "." (by decide) (by decide))
  obtain ⟨base, parts_over⟩ := skipDotted_flat no_point T.parts parts_dotted T.head.text
  obtain ⟨base', more_over⟩ :=
    skipDotted_flat (dims_first "." (by decide) (by decide)) T.more more_dotted base
  have dims_over : (skipDims (flat T.dims ++ x :: rest)).2 = x :: rest :=
    skipDims_flat (no "[" (by decide)) T.dims T.paired
  have text : taken (T.tokens ++ x :: rest) (x :: rest) = T.tokens := by
    rw [taken, List.length_append, Nat.add_sub_cancel, List.take_left]
  have tokens : T.tokens ++ x :: rest =
      T.head :: (flat T.parts ++ (T.arguments ++ (flat T.more ++ (flat T.dims ++ x :: rest)))) := by
    simp [TypeName.tokens]
  refine ⟨base', ?_⟩
  have read := readType?_eq T.head_isName parts_over arguments more_over dims_over
    (no "..." (by decide)) src
  rw [← tokens, text] at read
  exact read

/-! ## Declarations and assignments -/

/-- No opening bracket is a stop that is none. -/
theorem isStop_of_isOpening (apart : ∀ text ∈ stops, text ≠ "(" ∧ text ≠ "[" ∧ text ≠ "\x7b")
    (t : Token) (opening : t.isOpening = true) : isStop stops t = false := by
  rw [isStop, Bool.and_eq_false_iff]
  right
  rw [List.contains_eq_mem, decide_eq_false_iff_not]
  intro member
  simp only [Token.isOpening, Bool.and_eq_true, Bool.or_eq_true, beq_iff_eq] at opening
  obtain ⟨round, square, curly⟩ := apart _ member
  rcases opening.2 with (same | same) | same
  · exact round same
  · exact square same
  · exact curly same

/-- No closing bracket stands outside the brackets of balanced tokens, nor an opening one. -/
theorem not_bracket_of_mem_outside {E : List Token} {depth : Nat} (member : t ∈ outside E depth) :
    t.isOpening = false ∧ t.isClosing = false := by
  induction E generalizing depth with
  | nil => cases member
  | cons t' E ih =>
    rw [outside] at member
    split at member
    · exact ih member
    · rename_i opening
      split at member
      · exact ih member
      · rename_i closing
        split at member
        · rcases List.mem_cons.1 member with rfl | behind
          · exact ⟨by simpa using opening, by simpa using closing⟩
          · exact ih behind
        · exact ih member

/-- The **value** of a declaration or an assignment: tokens whose brackets are balanced, with no
semicolon and no comma outside them. -/
structure IsValue (E : List Token) : Prop where
  /-- There is something. -/
  nonempty : E ≠ []
  /-- Brackets are closed. -/
  even : balanced E 0 = true
  /-- Nothing ends it. -/
  free : ∀ t ∈ outside E 0, t.isPunct ";" = false ∧ t.isPunct "," = false

/-- A value **has a colon** when one stands outside its brackets: that of a conditional expression,
for example. -/
def HasColon (E : List Token) : Prop := ∃ t ∈ outside E 0, t.isPunct ":" = true

variable {E : List Token} {T : TypeName} {x eq semi : Token}

/-- A token is no stop when it is none of the punctuation. -/
theorem isStop_eq_false_iff : isStop stops t = false ↔
    ∀ text ∈ stops, t.isPunct text = false := by
  simp only [isStop, Token.isPunct]
  cases t.kind == .punct
  · simp
  · simp only [Bool.true_and, List.contains_eq_mem, decide_eq_false_iff_not, beq_eq_false_iff_ne]
    exact ⟨fun none text member same => none (same ▸ member), fun none member => none _ member rfl⟩

/-- A closing bracket is the only stop of an initial value that is no separator. -/
theorem IsValue.isStop_iff (value : IsValue E) (member : t ∈ outside E 0) :
    isStop [",", ";", ":", ")"] t = t.isPunct ":" := by
  obtain ⟨no_semi, no_comma⟩ := value.free t member
  have no_paren : t.isPunct ")" = false := by
    have closing := (not_bracket_of_mem_outside member).2
    rw [Bool.eq_false_iff] at closing ⊢
    intro paren
    simp only [Token.isPunct, Bool.and_eq_true] at paren
    refine closing ?_
    simp [Token.isClosing, paren.1, paren.2]
  cases colon : t.isPunct ":" with
  | false =>
    refine isStop_eq_false_iff.2 fun text listed => ?_
    simp only [List.mem_cons, List.not_mem_nil, or_false] at listed
    rcases listed with rfl | rfl | rfl | rfl
    · exact no_comma
    · exact no_semi
    · exact colon
    · exact no_paren
  | true =>
    simp only [Token.isPunct, Bool.and_eq_true, beq_iff_eq] at colon
    rw [isStop, colon.1, colon.2]
    decide

/-- Listed punctuation is a stop. -/
theorem isStop_of_isPunct {text : Text} (punct : t.isPunct text = true)
    (listed : stops.contains text = true) : isStop stops t = true := by
  simp only [Token.isPunct, Bool.and_eq_true, beq_iff_eq] at punct
  rw [isStop, punct.1, punct.2, listed]
  rfl

/-- An initial value without a colon **goes on to its semicolon**. -/
theorem IsValue.untilDeclarator? (value : IsValue E) (plain : ¬ HasColon E)
    (ends : semi.isPunct ";" = true) (bound : Nat) (rest : List Token) :
    Java.untilDeclarator? (bound + 1) (E ++ semi :: rest) = some (E, semi :: rest) := by
  have read : until? [",", ";", ":", ")"] (E ++ semi :: rest) = some (E, semi, rest) := by
    refine untilFrom?_append (isStop_of_isPunct ends (by decide))
      (isStop_of_isOpening (by decide)) rest E 0 [] value.even fun t member => ?_
    rw [value.isStop_iff member]
    exact Bool.eq_false_iff.2 fun colon => plain ⟨t, member, colon⟩
  have no_comma : (semi.text != ",") = true := by
    simp only [Token.isPunct, Bool.and_eq_true, beq_iff_eq] at ends
    rw [ends.2]
    decide
  simp only [Java.untilDeclarator?, read, no_comma, Bool.true_or, if_true]

/-- An initial value with a colon is **cut off at the first one**. -/
theorem IsValue.exists_untilDeclarator? (value : IsValue E) (colon : HasColon E) (bound : Nat)
    (tail : List Token) : ∃ before stop after, E = before ++ stop :: after ∧
      stop ∈ outside E 0 ∧ stop.isPunct ":" = true ∧
      Java.untilDeclarator? (bound + 1) (E ++ tail) = some (before, stop :: (after ++ tail)) := by
  have found : ∃ t ∈ outside E 0, isStop [",", ";", ":", ")"] t = true := by
    obtain ⟨t, member, colon⟩ := colon
    exact ⟨t, member, (value.isStop_iff member).trans colon⟩
  obtain ⟨before, stop, after, split, member, stops_here, read⟩ :=
    untilFrom?_of_outside (isStop_of_isOpening (by decide)) tail E 0 [] value.even found
  have is_colon : stop.isPunct ":" = true := (value.isStop_iff member).symm.trans stops_here
  refine ⟨before, stop, after, split, member, is_colon, ?_⟩
  have no_comma : (stop.text != ",") = true := by
    simp only [Token.isPunct, Bool.and_eq_true, beq_iff_eq] at is_colon
    rw [is_colon.2]
    decide
  have read' : until? [",", ";", ":", ")"] (E ++ tail) = some (before, stop, after ++ tail) := read
  simp only [Java.untilDeclarator?, read', no_comma, Bool.true_or, if_true]

/-- The variable that is declared by a type, a name and an initial value. -/
def declaredAs (src : Source) (T : TypeName) (base : Text) (x : Token) (init : List Token) :
    Variable :=
  ⟨src.text T.tokens, base, x.text, (src.text T.tokens).includes "[", src.text init,
    initialSize init⟩

/-- A local declaration begins with the name of a type, a name and an equals sign, and it declares
one variable when its value is divided before anything but a comma. -/
theorem exists_readLocal (src : Source) (T : TypeName) (name : x.IsName)
    (assigns : eq.isPunct "=" = true) {value init behind : List Token}
    (divided : Java.untilDeclarator? (value.length + 1) value = some (init, behind))
    (single : next behind "," = false) :
    ∃ base, atLocal src (T.tokens ++ x :: eq :: value) = true ∧
      readLocal src (T.tokens ++ x :: eq :: value) =
        .ok ([declaredAs src T base x init], behind) := by
  obtain ⟨base, typed⟩ := readType?_tokens src T name (eq :: value)
  have no_modifier (bound : Nat) : skipLocalModifiers (bound + 1) (T.tokens ++ x :: eq :: value) =
      T.tokens ++ x :: eq :: value := T.head_isName.skipLocalModifiers_eq bound _
  have equals : eq.text = "=" := by
    simp only [Token.isPunct, Bool.and_eq_true, beq_iff_eq] at assigns
    exact assigns.2
  refine ⟨base, ?_, ?_⟩
  · have mark : localMarks.contains (textAt (eq :: value) 0) = true := by
      show localMarks.contains eq.text = true
      rw [equals]
      decide
    simp only [atLocal, no_modifier, typed, name.kind, name.free, mark]
    rfl
  · have no_dims : skipDims (eq :: value) = (false, eq :: value) :=
      skipDims_of_not_next (next_of_isPunct_ne assigns (by decide) value)
    simp only [readLocal, no_modifier, typed, readDeclarators, name.kind, bne_self_eq_false,
      Bool.false_eq_true, if_false, no_dims, next_of_isPunct assigns, if_true, List.drop_one,
      List.tail_cons, divided, single]
    rfl

/-- Behind the first part of a type or a name stands no colon. -/
theorem TypeName.no_label (T : TypeName) (name : x.IsName) (behind : List Token) :
    ∃ more, T.tokens ++ x :: behind = T.head :: more ∧ (textAt more 0 == ":") = false := by
  refine ⟨_, rfl, ?_⟩
  have apart {t : Token} {text : Text} (punct : t.isPunct text = true)
      (other : (text == ":") = false) : (t.text == ":") = false := by
    simp only [Token.isPunct, Bool.and_eq_true, beq_iff_eq] at punct
    rw [punct.2]
    exact other
  show (textAt (flat T.parts ++ (T.arguments ++ (flat T.more ++ flat T.dims)) ++ x :: behind) 0 ==
    ":") = false
  cases parts : T.parts with
  | cons part parts =>
    exact apart (T.dotted part (by rw [parts]; simp)).1 (by decide)
  | nil =>
    rcases T.bracketed with ⟨none, none'⟩ | ⟨opening, inside, some_, opens, -⟩
    · rw [none, none']
      cases dims : T.dims with
      | cons pair dims => exact apart (T.paired pair (by rw [dims]; simp)).1 (by decide)
      | nil => exact name.text_ne (Or.inr (by decide))
    · rw [some_]
      exact apart opens (by decide)

/-- A statement that begins with a type, a name and an equals sign is **read as a declaration**, and
its value goes as far as the search for a declarator's end says. -/
theorem readStatement_declarator (src : Source) (bound : Nat) (T : TypeName) (name : x.IsName)
    (assigns : eq.isPunct "=" = true) {value init behind : List Token}
    (divided : Java.untilDeclarator? (value.length + 1) value = some (init, behind))
    (single : next behind "," = false) :
    ∃ base, readStatement src (bound + 1) (T.tokens ++ x :: eq :: value) =
      (expect src ";" behind).map fun rest =>
        (some (.leaf T.head.line (.locals [declaredAs src T base x init])), rest) := by
  obtain ⟨base, at_local, read⟩ := exists_readLocal src T name assigns divided single
  obtain ⟨more, tokens, no_label⟩ := T.no_label name (eq :: value)
  refine ⟨base, ?_⟩
  rw [tokens] at at_local read ⊢
  rw [readStatement_of_name T.head_isName no_label, if_pos at_local, read]
  show (expect src ";" behind >>= fun rest => _) = _
  cases expect src ";" behind <;> rfl

/-- **A declaration is read whole** when no colon stands outside the brackets of its value. -/
theorem readStatement_declaration (src : Source) (bound : Nat) (T : TypeName) (name : x.IsName)
    (assigns : eq.isPunct "=" = true) (ends : semi.isPunct ";" = true) (value : IsValue E)
    (plain : ¬ HasColon E) (rest : List Token) : ∃ base,
      readStatement src (bound + 1) (T.tokens ++ x :: eq :: (E ++ semi :: rest)) =
        .ok (some (.leaf T.head.line (.locals [declaredAs src T base x E])), rest) := by
  obtain ⟨base, read⟩ := readStatement_declarator src bound T name assigns
    (value.untilDeclarator? plain ends _ rest) (next_of_isPunct_ne ends (by decide) rest)
  refine ⟨base, read.trans ?_⟩
  rw [expect, next_of_isPunct ends, if_pos rfl]
  rfl

/-- **A declaration is refused at a colon** that stands outside the brackets of its value. -/
theorem readStatement_declaration_colon (src : Source) (bound : Nat) (T : TypeName)
    (name : x.IsName) (assigns : eq.isPunct "=" = true) (value : IsValue E) (colon : HasColon E)
    (behind : List Token) : ∃ stop ∈ outside E 0, stop.isPunct ":" = true ∧
      readStatement src (bound + 1) (T.tokens ++ x :: eq :: (E ++ behind)) =
        .error ⟨stop.line, .missing ";"⟩ := by
  obtain ⟨before, stop, after, -, member, is_colon, divided⟩ :=
    value.exists_untilDeclarator? colon (E ++ behind).length behind
  obtain ⟨base, read⟩ := readStatement_declarator src bound T name assigns divided
    (next_of_isPunct_ne is_colon (by decide) _)
  refine ⟨stop, member, is_colon, read.trans ?_⟩
  rw [expect, next_of_isPunct_ne is_colon (by decide)]
  rfl

/-- Behind the name of a variable an equals sign begins no declaration. -/
theorem Token.IsName.not_atLocal (name : x.IsName) (src : Source) (assigns : eq.isPunct "=" = true)
    (value : List Token) : atLocal src (x :: eq :: value) = false := by
  have no (word : Text) (apart : ("=" == word) = false) : next (eq :: value) word = false :=
    next_of_isPunct_ne assigns apart value
  have typed := readType?_eq name (skipDotted_of_not_next x.text (no "." (by decide)))
    (by rw [no "<" (by decide)]; rfl) (skipDotted_of_not_next x.text (no "." (by decide)))
    (by rw [skipDims_of_not_next (no "[" (by decide))]) (no "..." (by decide)) src
  simp only [Token.isPunct, Bool.and_eq_true, beq_iff_eq] at assigns
  rw [atLocal, name.skipLocalModifiers_eq, typed]
  simp only [assigns.1]
  rfl

/-- **An assignment is read whole**, whatever colons its value has. -/
theorem readStatement_assignment (src : Source) (bound : Nat) (name : x.IsName)
    (assigns : eq.isPunct "=" = true) (ends : semi.isPunct ";" = true) (value : IsValue E)
    (rest : List Token) : readStatement src (bound + 1) (x :: eq :: (E ++ semi :: rest)) =
      .ok (some (.leaf x.line (.assign (src.text [x]) "=" (src.text E))), rest) := by
  have equals : eq.kind = .punct ∧ eq.text = "=" := by
    simpa [Token.isPunct] using assigns
  have no_label : (textAt (eq :: (E ++ semi :: rest)) 0 == ":") = false := by
    show (eq.text == ":") = false
    rw [equals.2]
    decide
  have not_local := name.not_atLocal src assigns (E ++ semi :: rest)
  -- The target and the equals sign are no brackets.
  have target_plain : x.isOpening = false ∧ x.isClosing = false := by
    simp [Token.isOpening, Token.isClosing, name.kind]
  have equals_plain : eq.isOpening = false ∧ eq.isClosing = false := by
    rw [Token.isOpening, Token.isClosing, equals.1, equals.2]
    decide
  have read : readToSemicolon src (x :: eq :: (E ++ semi :: rest)) =
      .ok (x :: eq :: E, rest) := by
    have even : balanced (x :: eq :: E) 0 = true := by
      simp only [balanced_cons, target_plain, equals_plain, Bool.false_eq_true, if_false]
      exact value.even
    have free : ∀ t ∈ outside (x :: eq :: E) 0, isStop [";"] t = false := by
      simp only [outside, target_plain, equals_plain, Bool.false_eq_true, if_false, if_true,
        List.mem_cons, forall_eq_or_imp]
      refine ⟨?_, ?_, fun t member => isStop_eq_false_iff.2 ?_⟩
      · rw [isStop, name.kind]
        rfl
      · rw [isStop, equals.2]
        exact Bool.and_false _
      · simpa using (value.free t member).1
    have kept := untilFrom?_append (isStop_of_isPunct ends (by decide))
      (isStop_of_isOpening (by decide)) rest (x :: eq :: E) 0 [] even free
    rw [List.cons_append, List.cons_append, List.reverse_nil, List.nil_append] at kept
    rw [readToSemicolon, until?, kept]
  have form : expressionForm src (x :: eq :: E) = .assign (src.text [x]) "=" (src.text E) := by
    have no_print : printed? src (x :: eq :: E) = none := by
      have no_point : (textAt (x :: eq :: E) 1 == ".") = false := by
        show (eq.text == ".") = false
        rw [equals.2]
        decide
      rw [printed?, no_point]
      simp
    have no_arrow : x.isPunct "->" = false ∧ eq.isPunct "->" = false := by
      rw [Token.isPunct, Token.isPunct, name.kind, equals.1, equals.2]
      exact ⟨rfl, rfl⟩
    have split : splitAssign? (x :: eq :: E) 0 [] = some ([x], eq, E) := by
      simp only [splitAssign?, target_plain, equals_plain, no_arrow, name.kind, equals]
      rfl
    rw [expressionForm, no_print, split]
    show Form.assign (src.text [x]) eq.text (src.text E) = _
    rw [equals.2]
  rw [readStatement_of_name name no_label, not_local, if_neg (by simp), read]
  show Except.ok (some (Statement.leaf x.line (expressionForm src (x :: eq :: E))), rest) = _
  rw [form]

/-- **A declaration keeps its initial value exactly when no colon stands outside the brackets of the
value.** It declares one variable then, with the text of the value, and takes no other token; with a
colon it is refused. The assignment of the same value is read whole in both cases, with the same
text. -/
theorem initializer_kept_iff (src : Source) (bound : Nat) (T : TypeName) (name : x.IsName)
    (assigns : eq.isPunct "=" = true) (ends : semi.isPunct ";" = true) (value : IsValue E)
    (rest : List Token) :
    ((∃ base, readStatement src (bound + 1) (T.tokens ++ x :: eq :: (E ++ semi :: rest)) =
        .ok (some (.leaf T.head.line (.locals [declaredAs src T base x E])), rest)) ↔
      ¬ HasColon E) ∧
    (HasColon E → ∃ stop ∈ outside E 0, stop.isPunct ":" = true ∧
      readStatement src (bound + 1) (T.tokens ++ x :: eq :: (E ++ semi :: rest)) =
        .error ⟨stop.line, .missing ";"⟩) ∧
    readStatement src (bound + 1) (x :: eq :: (E ++ semi :: rest)) =
      .ok (some (.leaf x.line (.assign (src.text [x]) "=" (src.text E))), rest) := by
  have refused (colon : HasColon E) :=
    readStatement_declaration_colon src bound T name assigns value colon (semi :: rest)
  refine ⟨⟨?_, fun plain => ?_⟩, refused, ?_⟩
  · rintro ⟨base, read⟩ colon
    obtain ⟨stop, -, -, error⟩ := refused colon
    cases read.symm.trans error
  · exact readStatement_declaration src bound T name assigns ends value plain rest
  · exact readStatement_assignment src bound name assigns ends value rest

/-- A token of the first line. -/
def lineToken (kind : TokenKind) (text : Text) (offset : Nat) : Token :=
  ⟨kind, text, offset, offset + text.length, 1⟩

/-- The type `int`, at the beginning of a line. -/
def intType : TypeName where
  head := lineToken .ident "int" 0
  parts := []
  arguments := []
  more := []
  dims := []
  head_isName := ⟨rfl, by decide, by decide, by decide⟩
  dotted := nofun
  bracketed := Or.inl ⟨rfl, rfl⟩
  paired := nofun

/-- The sum of `int x = a + 1;`. -/
def sumTokens : List Token :=
  [lineToken .ident "a" 8, lineToken .punct "+" 10, lineToken .number "1" 12]

/-- The declaration `int x = a + 1;` and the assignment in it are read whole. -/
theorem sum_kept : (lineToken .ident "x" 4).IsName ∧ IsValue sumTokens ∧ ¬ HasColon sumTokens ∧
    readStatement ⟨"int x = a + 1;", 1⟩ 1
      (lineToken .ident "x" 4 :: lineToken .punct "=" 6 ::
        (sumTokens ++ [lineToken .punct ";" 13])) =
      .ok (some (.leaf 1 (.assign "x" "=" "a + 1")), []) ∧
    ∃ base, readStatement ⟨"int x = a + 1;", 1⟩ 1
      (intType.tokens ++ lineToken .ident "x" 4 :: lineToken .punct "=" 6 ::
        (sumTokens ++ [lineToken .punct ";" 13])) =
      .ok (some (.leaf 1 (.locals [⟨"int", base, "x", false, "a + 1", 0⟩])), []) := by
  have name : (lineToken .ident "x" 4).IsName := ⟨rfl, by decide, by decide, by decide⟩
  have value : IsValue sumTokens := ⟨nofun, by decide, by decide⟩
  have plain : ¬ HasColon sumTokens := by
    rintro ⟨t, member, colon⟩
    revert t
    decide
  have assigns : (lineToken .punct "=" 6).isPunct "=" = true := by decide
  have ends : (lineToken .punct ";" 13).isPunct ";" = true := by decide
  obtain ⟨kept, -, assigned⟩ :=
    initializer_kept_iff ⟨"int x = a + 1;", 1⟩ 0 intType name assigns ends value []
  exact ⟨name, value, plain, assigned, kept.2 plain⟩

/-- The conditional expression of `int x = a ? 1 : 2;`. -/
def choiceTokens : List Token :=
  [lineToken .ident "a" 8, lineToken .punct "?" 10, lineToken .number "1" 12,
    lineToken .punct ":" 14, lineToken .number "2" 16]

set_option maxRecDepth 10000 in
/-- The declaration `int x = a ? 1 : 2;` is refused, though the assignment in it is read whole. -/
theorem choice_refused : IsValue choiceTokens ∧
    tokenize "int x = a ? 1 : 2;" = .ok (intType.tokens ++
      lineToken .ident "x" 4 :: lineToken .punct "=" 6 ::
        (choiceTokens ++ [lineToken .punct ";" 17])) ∧
    readStatement ⟨"int x = a ? 1 : 2;", 1⟩ 1 (intType.tokens ++
      lineToken .ident "x" 4 :: lineToken .punct "=" 6 ::
        (choiceTokens ++ [lineToken .punct ";" 17])) = .error ⟨1, .missing ";"⟩ ∧
    readStatement ⟨"int x = a ? 1 : 2;", 1⟩ 1
      (lineToken .ident "x" 4 :: lineToken .punct "=" 6 ::
        (choiceTokens ++ [lineToken .punct ";" 17])) =
      .ok (some (.leaf 1 (.assign "x" "=" "a ? 1 : 2")), []) := by
  refine ⟨⟨nofun, by decide, by decide⟩, rfl, rfl, rfl⟩

end FlowTrace.Java
