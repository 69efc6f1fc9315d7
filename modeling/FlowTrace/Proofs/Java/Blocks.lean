import FlowTrace.Proofs.Java.Progress

/-! # Blocks follow the braces

What is read between two braces is a row of parts, each read by one call (`Row`). The reader of a
body stops at the first closing brace that it comes to, so it stops at the partner of the opening one
when everything that it has passed over keeps the open braces; and that holds of all readers if
annotations have names (`advancing`). So bodies end where the check of brackets has them end
(`bodies_follow_braces`). -/

namespace FlowTrace.Java

variable {src : Source} {bound : Nat} {t opening close : Token}
  {tokens open_ after here there rest run part inside behind before : List Token}
  {done statements : List Statement} {s : Statement} {found : Option Statement}
  {pairs : List (Nat × Nat)} {step : List Token → List Token → Option Statement → Prop}

/-! ## Partners -/

/-- The pairs of some tokens are among those of all. -/
theorem tokenPairs_append (all : tokenPairs? (run ++ rest) open_ = some pairs) :
    ∃ after later, openBehind run open_ = some after ∧ tokenPairs? rest after = some later ∧
      later ⊆ pairs := by
  induction run generalizing open_ pairs with
  | nil => exact ⟨open_, pairs, rfl, all, fun _ => id⟩
  | cons t run ih =>
    rw [List.cons_append, tokenPairs_cons] at all
    rw [openBehind_cons]
    split at all
    · rename_i opens
      rw [if_pos opens]
      exact ih all
    · rename_i opens
      rw [if_neg opens]
      split at all
      · rename_i closes
        rw [if_pos closes]
        cases open_ with
        | nil => cases all
        | cons bracket outer =>
          simp only at all ⊢
          split at all
          · rename_i belongs
            rw [if_pos belongs]
            obtain ⟨inner, found, rfl⟩ := Option.map_eq_some_iff.1 all
            obtain ⟨after, later, reached, more, among⟩ := ih found
            exact ⟨after, later, reached, more, fun _ member =>
              List.mem_cons_of_mem _ (among member)⟩
          · cases all
      · rename_i closes
        rw [if_neg closes]
        exact ih all

/-- A bracket is closed by the next one that closes any, if it is the innermost. -/
theorem pair_of_closing (opens : close.isOpening = false) (closes : close.isClosing = true)
    (all : tokenPairs? (close :: rest) (opening :: open_) = some pairs) :
    close.closes opening = true ∧ (opening.offset, close.offset) ∈ pairs := by
  rw [tokenPairs_cons, opens, closes] at all
  simp only [Bool.false_eq_true, if_false, if_true] at all
  split at all
  · rename_i belongs
    obtain ⟨inner, -, rfl⟩ := Option.map_eq_some_iff.1 all
    exact ⟨belongs, List.mem_cons_self⟩
  · cases all

/-- An opening brace opens a bracket. -/
theorem Token.isOpening_of_brace (opens : opening.isPunct "\x7b" = true) :
    opening.isOpening = true := by
  rw [isPunct, Bool.and_eq_true, beq_iff_eq, beq_iff_eq] at opens
  rw [isOpening, opens.1, opens.2]
  decide

/-- A closing bracket opens none. -/
theorem Token.isOpening_of_isClosing (closes : close.isClosing = true) : close.isOpening = false := by
  simp only [isClosing, Bool.and_eq_true, Bool.or_eq_true, beq_iff_eq] at closes
  rcases closes.2 with (same | same) | same <;>
  · rw [isOpening, same]
    exact Bool.and_false _

/-- A closing brace closes a bracket. -/
theorem Token.isClosing_of_brace (closes : close.isPunct "\x7d" = true) :
    close.isClosing = true := by
  rw [isPunct, Bool.and_eq_true, beq_iff_eq, beq_iff_eq] at closes
  rw [isClosing, closes.1, closes.2]
  decide

/-- **Two braces are partners** if what is between them keeps the open braces. -/
theorem pair_of_keeps (all : tokenPairs? (before ++ opening :: (inside ++ close :: rest)) open_ =
      some pairs) (opens : opening.isPunct "\x7b" = true) (closes : close.isPunct "\x7d" = true)
    (kept : Keeps inside) : (opening.offset, close.offset) ∈ pairs := by
  obtain ⟨outer, later, -, found, among⟩ := tokenPairs_append all
  rw [tokenPairs_cons, if_pos (Token.isOpening_of_brace opens)] at found
  obtain ⟨inner, last, reached, found, among'⟩ := tokenPairs_append found
  have is_closing := Token.isClosing_of_brace closes
  -- The closing brace closes some bracket, which is then the innermost brace.
  have found' : tokenPairs? ([close] ++ rest) inner = some last := found
  obtain ⟨_, _, closed, -, -⟩ := tokenPairs_append found'
  have kept : braces inner = opening :: braces outer := by
    rw [kept _ _ reached, braces, List.filter_cons, if_pos (Bool.and_eq_true_iff.1 opens).2]
    rfl
  obtain ⟨outer', rfl, -, -⟩ := Keeps.closed closes kept closed
  have pair := pair_of_closing (Token.isOpening_of_isClosing is_closing) is_closing found
  exact among (among' pair.2)

/-- **Two brackets are partners** if what is between them is balanced. -/
theorem pair_of_balanced (all : tokenPairs? (before ++ opening :: (inside ++ close :: rest)) open_ =
      some pairs) (opens : opening.isOpening = true) (closes : close.isClosing = true)
    (even : balanced inside 0 = true) :
    close.closes opening = true ∧ (opening.offset, close.offset) ∈ pairs := by
  obtain ⟨outer, later, -, found, among⟩ := tokenPairs_append all
  rw [tokenPairs_cons, if_pos opens] at found
  obtain ⟨inner, last, reached, found, among'⟩ := tokenPairs_append found
  cases openBehind_of_balanced even reached
  obtain ⟨belongs, pair⟩ := pair_of_closing (Token.isOpening_of_isClosing closes) closes found
  exact ⟨belongs, among (among' pair)⟩

/-! ## Rows -/

/-- A **row** of statements: the tokens `inside` are divided into parts, each of which `step` reads
as at most one statement, with what follows it in sight. -/
inductive Row (step : List Token → List Token → Option Statement → Prop) (behind : List Token) :
    List Token → List Statement → Prop
  /-- Nothing is left to be read. -/
  | nil : Row step behind [] []
  /-- A part and what follows it. -/
  | cons {part rest : List Token} {found : Option Statement} {statements : List Statement} :
    part ≠ [] → step part (rest ++ behind) found → Row step behind rest statements →
    Row step behind (part ++ rest) (found.toList ++ statements)

/-- A loop has read a row up to a closing brace, when it had read `done` before. -/
def ReadsRow (step : List Token → List Token → Option Statement → Prop) (here : List Token)
    (done statements : List Statement) (there : List Token) : Prop :=
  ∃ inside close more, here = inside ++ close :: there ∧ next [close] "\x7d" = true ∧
    statements = done.reverse ++ more ∧ Row step (close :: there) inside more

/-- A row ends at a closing brace. -/
theorem ReadsRow.nil (closes : next here "\x7d" = true) :
    ReadsRow step here done done.reverse (here.drop 1) := by
  cases here with
  | nil => cases closes
  | cons close rest => exact ⟨[], close, [], rfl, closes, (List.append_nil _).symm, .nil⟩

/-- A row goes on behind its first part. -/
theorem ReadsRow.cons (some_part : part ≠ []) (first : step part rest found)
    (more : ReadsRow step rest (found.toList ++ done) statements there) :
    ReadsRow step (part ++ rest) done statements there := by
  obtain ⟨inside, close, more, rfl, closes, rfl, row⟩ := more
  refine ⟨part ++ inside, close, found.toList ++ more, (List.append_assoc ..).symm, closes, ?_,
    .cons some_part first row⟩
  cases found with
  | none => rfl
  | some s => simp

/-! ## What the steps are -/

/-- A statement is read. -/
def IsStatement (src : Source) (part rest : List Token) (found : Option Statement) : Prop :=
  ∃ bound, readStatement src bound (part ++ rest) = .ok (found, rest)

/-- A member of a class is read, or one at the top level. -/
def IsMember (src : Source) (topLevel : Bool) (part rest : List Token) (found : Option Statement) :
    Prop :=
  ∃ bound, readMember src bound topLevel (part ++ rest) = .ok (found, rest)

/-- A case label is passed over, or a statement is read. -/
def IsCase (src : Source) (part rest : List Token) (found : Option Statement) : Prop :=
  (found = none ∧ atLabel (part ++ rest) = true ∧
    ∃ label stop, until? [":", "->"] (part ++ rest) = some (label, stop, rest)) ∨
  IsStatement src part rest found

/-- A package or an import is passed over, or a declaration or statement is read. -/
def IsUnit (src : Source) (part rest : List Token) (found : Option Statement) : Prop :=
  (found = none ∧ ∃ passed, readToSemicolon src (part ++ rest) = .ok (passed, rest)) ∨
  IsMember src true part rest found

/-- Tokens are passed over. -/
def IsPassed (_ _ : List Token) (found : Option Statement) : Prop := found = none

/-- A reader that advances has read a part. -/
theorem Advances.exists_part (advances : Advances here there) :
    ∃ part, part ≠ [] ∧ here = part ++ there := by
  obtain ⟨⟨part, rfl, -⟩, shorter⟩ := advances
  refine ⟨part, ?_, rfl⟩
  rintro rfl
  exact Nat.lt_irrefl _ shorter

/-- The statements of a block are read in a row. -/
theorem readsRow_readBlockRest (read : readBlockRest src bound here done = .ok (statements, there)) :
    ReadsRow (IsStatement src) here done statements there := by
  induction bound generalizing here done with
  | zero => cases read
  | succ bound ih =>
    rw [readBlockRest] at read
    split at read
    · rename_i closes
      cases read
      exact .nil closes
    · split at read
      · cases read
      · split at read
        · cases read
        · rename_i first
          obtain ⟨part, some_part, rfl⟩ := ((advancing src bound).statement first).exists_part
          exact .cons some_part ⟨bound, first⟩ (ih read)

/-- The cases of a choice are read in a row. -/
theorem readsRow_readCases (read : readCases src bound here done = .ok (statements, there)) :
    ReadsRow (IsCase src) here done statements there := by
  induction bound generalizing here done with
  | zero => cases read
  | succ bound ih =>
    rw [readCases] at read
    split at read
    · rename_i closes
      cases read
      exact .nil closes
    · split at read
      · cases read
      · split at read
        · rename_i label
          split at read
          · cases read
          · rename_i before stop rest ended
            obtain ⟨rfl, -, -⟩ := until?_eq_some ended
            have divided : before ++ stop :: rest = (before ++ [stop]) ++ rest := by simp
            rw [divided] at label ended ⊢
            have first : IsCase src (before ++ [stop]) rest none :=
              Or.inl ⟨rfl, label, before, stop, ended⟩
            exact .cons (by simp) first (ih read)
        · split at read
          · cases read
          · rename_i first
            obtain ⟨part, some_part, rfl⟩ := ((advancing src bound).statement first).exists_part
            exact .cons some_part (Or.inr ⟨bound, first⟩) (ih read)

/-- The members of a class are read in a row. -/
theorem readsRow_readMembers (read : readMembers src bound here done = .ok (statements, there)) :
    ReadsRow (IsMember src false) here done statements there := by
  induction bound generalizing here done with
  | zero => cases read
  | succ bound ih =>
    rw [readMembers] at read
    split at read
    · rename_i closes
      cases read
      exact .nil closes
    · split at read
      · cases read
      · split at read
        · cases read
        · rename_i first
          obtain ⟨part, some_part, rfl⟩ := ((advancing src bound).member first).exists_part
          exact .cons some_part ⟨bound, first⟩ (ih read)

/-- The whole source is a row of its own. -/
theorem row_readUnit (read : readUnit src bound here done = .ok statements) :
    ∃ more, statements = done.reverse ++ more ∧ Row (IsUnit src) [] here more := by
  induction bound generalizing here done with
  | zero => cases read
  | succ bound ih =>
    have go_on {part rest : List Token} {found : Option Statement} (some_part : part ≠ [])
        (first : IsUnit src part rest found)
        (read : readUnit src bound rest (found.toList ++ done) = .ok statements) :
        ∃ more, statements = done.reverse ++ more ∧ Row (IsUnit src) [] (part ++ rest) more := by
      obtain ⟨more, rfl, row⟩ := ih read
      refine ⟨found.toList ++ more, ?_, .cons some_part (by rwa [List.append_nil]) row⟩
      cases found with
      | none => rfl
      | some s => simp
    rw [readUnit] at read
    split at read
    · rename_i ended
      cases read
      rw [List.isEmpty_iff.1 ended]
      exact ⟨[], (List.append_nil _).symm, .nil⟩
    · split at read
      · split at read
        · cases read
        · rename_i passed rest ended
          obtain ⟨part, some_part, rfl⟩ := (advances_readToSemicolon ended).exists_part
          have first : IsUnit src part rest none := Or.inl ⟨rfl, passed, ended⟩
          exact go_on some_part first read
      · split at read
        · cases read
        · rename_i first
          obtain ⟨part, some_part, rfl⟩ := ((advancing src bound).member first).exists_part
          exact go_on some_part (Or.inr ⟨bound, first⟩) read

/-! ## Bodies -/

/-- **A body**: an opening brace, a row of statements, and the brace that is the partner of the
opening one in the check of brackets; `there` is what follows it. -/
def IsBody (pairs : List (Nat × Nat))
    (step : List Token → List Token → Option Statement → Prop) (here : List Token)
    (statements : List Statement) (there : List Token) : Prop :=
  ∃ opening inside close, here = opening :: (inside ++ close :: there) ∧
    opening.isPunct "\x7b" = true ∧ close.isPunct "\x7d" = true ∧
    (opening.offset, close.offset) ∈ pairs ∧ Row step (close :: there) inside statements

/-- **Blocks follow the braces**: each body that a reader opens from this place on is left behind the
partner of its brace, and its statements are read from what is between the two. -/
structure FollowsBraces (src : Source) (pairs : List (Nat × Nat)) (here : List Token) : Prop where
  /-- Blocks, which are the bodies of all statements but choices. -/
  block : ∀ {bound : Nat} {statements : List Statement} {there : List Token},
    readBlock src bound here = .ok (statements, there) →
    IsBody pairs (IsStatement src) here statements there
  /-- Choices. -/
  choice : ∀ {bound : Nat} {found : Option Statement} {there : List Token},
    next here "switch" = true → readStatement src bound here = .ok (found, there) →
    ∃ s braced, found = some s ∧ braced <:+ here ∧ IsBody pairs (IsCase src) braced s.body there
  /-- Classes; the body of an enumeration is passed over. -/
  classDecl : ∀ {bound : Nat} {s : Statement} {there : List Token},
    readClass src bound here = .ok (s, there) →
    ∃ braced, braced <:+ here ∧ (IsBody pairs IsPassed braced s.body there ∨
      IsBody pairs (IsMember src false) braced s.body there)
  /-- Methods, which may have no body. -/
  method : ∀ {bound : Nat} {s : Statement} {there : List Token},
    readMethod src bound here = .ok (s, there) →
    (s.body = [] ∧ ∃ semicolon, next [semicolon] ";" = true ∧ semicolon :: there <:+ here) ∨
    ∃ braced, braced <:+ here ∧ IsBody pairs (IsStatement src) braced s.body there

/-- The tokens of a source whose brackets are paired, and whose annotations have names. -/
structure Paired (tokens : List Token) (pairs : List (Nat × Nat)) : Prop where
  /-- Their pairs. -/
  all : tokenPairs? tokens [] = some pairs
  /-- They are sound. -/
  sound : Sound tokens

namespace Paired

variable (paired : Paired tokens pairs)

include paired

/-- The tokens from a place on are sound. -/
theorem sound_of_suffix (suffix : here <:+ tokens) : Sound here := by
  obtain ⟨before, rfl⟩ := suffix
  exact paired.sound.of_append

/-- A row that ends at a closing brace is a body. -/
theorem isBody (suffix : opening :: here <:+ tokens) (opens : next [opening] "\x7b" = true)
    (ends : Ends here there) (row : ReadsRow step here [] statements there) :
    IsBody pairs step (opening :: here) statements there := by
  obtain ⟨inside, close, more, rfl, closes, rfl, row⟩ := row
  obtain ⟨close', -, run, same, kept⟩ := ends
  -- The row and the run end at the same place.
  obtain ⟨rfl, -⟩ := List.append_inj' same rfl
  have sound := paired.sound_of_suffix suffix
  have opens := (sound.genuine opening (by simp)).isPunct (by decide) (text_of_next opens)
  have closes := (sound.genuine close (by simp)).isPunct (by decide) (text_of_next closes)
  have kept := kept sound.of_cons
  obtain ⟨before, rfl⟩ := suffix
  exact ⟨opening, inside, close, rfl, opens, closes, pair_of_keeps paired.all opens closes kept, row⟩

/-- Balanced tokens in braces, passed over. -/
theorem isBody_passed (suffix : opening :: here <:+ tokens) (opens : opening.isPunct "\x7b" = true)
    (found : enclosed? (opening :: here) = some (inside, there)) :
    IsBody pairs IsPassed (opening :: here) [] there := by
  obtain ⟨close, rfl, closes, even⟩ := enclosed?_eq_some found
  obtain ⟨before, rfl⟩ := suffix
  obtain ⟨belongs, pair⟩ :=
    pair_of_balanced paired.all (Token.isOpening_of_brace opens) closes even
  have is_brace : close.isPunct "\x7d" = true := by
    rw [Token.isPunct, Bool.and_eq_true, beq_iff_eq, beq_iff_eq] at opens
    rw [Token.closes, opens.2, beq_iff_eq] at belongs
    simp only [Token.isClosing, Bool.and_eq_true, Bool.or_eq_true, beq_iff_eq] at closes
    obtain ⟨punct, (same | same) | same⟩ := closes
    · rw [same] at belongs
      cases belongs
    · rw [same] at belongs
      cases belongs
    · rw [Token.isPunct, punct, same]
      decide
  refine ⟨opening, inside, close, rfl, opens, is_brace, pair, ?_⟩
  cases inside with
  | nil => exact .nil
  | cons t inside =>
    have row : Row IsPassed (close :: there) (t :: inside ++ [])
        ((none : Option Statement).toList ++ []) :=
      .cons (List.cons_ne_nil _ _) rfl .nil
    rwa [List.append_nil] at row

/-- What a block holds is its body. -/
theorem isBody_readBlock (suffix : here <:+ tokens)
    (read : readBlock src bound here = .ok (statements, there)) :
    IsBody pairs (IsStatement src) here statements there := by
  cases bound with
  | zero => cases read
  | succ bound =>
    rw [readBlock] at read
    obtain ⟨rest, expected, body⟩ := bind_eq_ok.1 read
    obtain ⟨opening, rfl, opens⟩ := expect_eq_ok expected
    exact paired.isBody suffix opens ((advancing src bound).statements body)
      (readsRow_readBlockRest body)

/-- What a choice holds is its body. -/
theorem isBody_switch (suffix : here <:+ tokens) (is_switch : next here "switch" = true)
    (read : readStatement src bound here = .ok (found, there)) :
    ∃ s braced, found = some s ∧ braced <:+ here ∧ IsBody pairs (IsCase src) braced s.body there := by
  cases bound with
  | zero => cases read
  | succ bound =>
    have other (word : Text) (apart : ("switch" == word) = false) : next here word = false :=
      next_ne is_switch apart
    rw [readStatement] at read
    simp only [other "\x7b" (by decide), other ";" (by decide), other "if" (by decide),
      other "for" (by decide), other "while" (by decide), other "do" (by decide),
      other "try" (by decide), is_switch, Bool.false_eq_true, if_false, if_true] at read
    obtain ⟨⟨subject, rest⟩, parens, read⟩ := bind_eq_ok.1 read
    obtain ⟨inside, expected, read⟩ := bind_eq_ok.1 read
    obtain ⟨⟨body, last⟩, choices, same⟩ := bind_eq_ok.1 read
    cases same
    obtain ⟨opening, rfl, opens⟩ := expect_eq_ok expected
    have within : opening :: inside <:+ here :=
      (advances_readParens parens).passes.suffix.trans (List.drop_suffix 1 here)
    exact ⟨_, _, rfl, within, paired.isBody (within.trans suffix) opens
      ((advancing src bound).choices choices) (readsRow_readCases choices)⟩

/-- What a class holds is its body. -/
theorem isBody_readClass (suffix : here <:+ tokens)
    (read : readClass src bound here = .ok (s, there)) :
    ∃ braced, braced <:+ here ∧ (IsBody pairs IsPassed braced s.body there ∨
      IsBody pairs (IsMember src false) braced s.body there) := by
  cases bound with
  | zero => cases read
  | succ bound =>
    obtain ⟨brace, inside, within, is_brace, -, ⟨passed, found, empty⟩ | body⟩ :=
      readClass_eq_ok read
    · rw [empty]
      exact ⟨_, within, Or.inl (paired.isBody_passed (within.trans suffix) is_brace found)⟩
    · exact ⟨_, within, Or.inr (paired.isBody (within.trans suffix) (next_of_isPunct is_brace [])
        ((advancing src bound).members body) (readsRow_readMembers body))⟩

/-- What a method holds is its body, if it has one. -/
theorem isBody_readMethod (suffix : here <:+ tokens)
    (read : readMethod src bound here = .ok (s, there)) :
    (s.body = [] ∧ ∃ semicolon, next [semicolon] ";" = true ∧ semicolon :: there <:+ here) ∨
    ∃ braced, braced <:+ here ∧ IsBody pairs (IsStatement src) braced s.body there := by
  cases bound with
  | zero => cases read
  | succ bound =>
    obtain ⟨name, params, inside, rest, behind, rfl, divided, thrown, body⟩ := readMethod_eq_ok read
    have within : behind <:+ name :: params :=
      (thrown.suffix.trans (suffix_of_enclosed divided)).trans (List.suffix_cons name params)
    rcases readBody_cases body with ⟨ends, rfl, rfl⟩ | ⟨statements, block, rfl⟩
    · -- A method without a body ends with a semicolon.
      cases behind with
      | nil => cases ends
      | cons semicolon behind => exact Or.inl ⟨rfl, semicolon, ends, within⟩
    · exact Or.inr ⟨behind, within, paired.isBody_readBlock (within.trans suffix) block⟩

/-- Bodies that begin here follow the braces. -/
theorem followsBraces (suffix : here <:+ tokens) : FollowsBraces src pairs here where
  block := paired.isBody_readBlock suffix
  choice := paired.isBody_switch suffix
  classDecl := paired.isBody_readClass suffix
  method := paired.isBody_readMethod suffix

end Paired

/-! ## Programs -/

/-- The source that tokens are read with. -/
def sourceOf (code : Text) (tokens : List Token) : Source :=
  ⟨code, (tokens.getLast?.map (·.line)).getD 1⟩

/-- What a program is read from. -/
theorem Program.parse_eq_ok {source : Text} {p : Program} :
    Program.parse source = .ok p ↔ p.source = source ∧ ∃ tokens,
      Braced.blankComments source = .ok p.code ∧ Braced.checkBrackets p.code = .ok () ∧
      tokenize p.code = .ok tokens ∧
      readUnit (sourceOf p.code tokens) (8 * (tokens.length + 1)) tokens [] = .ok p.statements := by
  rw [Program.parse]
  constructor
  · intro accepted
    obtain ⟨code, blanked, accepted⟩ := bind_eq_ok.1 accepted
    obtain ⟨⟨⟩, checked, accepted⟩ := bind_eq_ok.1 accepted
    obtain ⟨tokens, tokenized, accepted⟩ := bind_eq_ok.1 accepted
    obtain ⟨statements, read, same⟩ := bind_eq_ok.1 accepted
    cases same
    exact ⟨rfl, tokens, blanked, checked, tokenized, read⟩
  · rintro ⟨rfl, tokens, blanked, checked, tokenized, read⟩
    exact bind_eq_ok.2 ⟨_, blanked, bind_eq_ok.2 ⟨(), checked, bind_eq_ok.2 ⟨_, tokenized,
      bind_eq_ok.2 ⟨_, read, rfl⟩⟩⟩⟩

/-- **Blocks follow the braces.** In a source that is accepted, and in which no brace stands behind
the mark of an annotation, every body is left exactly behind the partner of its opening brace in the
check of brackets, wherever it is read; and its statements are read from what is between the two
braces. The declarations of the source are read one after the other from all of its tokens. -/
theorem bodies_follow_braces {source : Text} {p : Program} {tokens : List Token}
    (accepted : Program.parse source = .ok p) (tokenized : tokenize p.code = .ok tokens)
    (named : Named tokens) :
    ∃ pairs, Braced.checkBrackets p.code = .ok () ∧ Braced.pairs? p.code = some pairs ∧
      Row (IsUnit (sourceOf p.code tokens)) [] tokens p.statements ∧
      ∀ here, here <:+ tokens → FollowsBraces (sourceOf p.code tokens) pairs here := by
  obtain ⟨-, tokens', -, checked, tokenized', read⟩ := Program.parse_eq_ok.1 accepted
  cases tokenized.symm.trans tokenized'
  obtain ⟨pairs, paired⟩ := Option.isSome_iff_exists.1 (Braced.checkBrackets_eq_ok.1 checked)
  have all : Paired tokens pairs :=
    ⟨(tokenPairs_tokenize tokenized).trans paired, genuine_tokenize tokenized, named⟩
  obtain ⟨more, same, row⟩ := row_readUnit read
  cases same
  exact ⟨pairs, checked, paired, row, fun here suffix => all.followsBraces suffix⟩

/-- Without the mark of an annotation there is nothing to be named. -/
theorem named_of_unmarked (unmarked : ∀ t ∈ tokens, t.isPunct "@" = false) : Named tokens := by
  intro before mark t after same marked
  rw [unmarked mark (by simp [same])] at marked
  cases marked

/-- The source `class A { void f() { ; } }`. -/
def nestedBraces : Text := "class A \x7b void f() \x7b ; \x7d \x7d"

/-- Its tokens. -/
def nestedTokens : List Token :=
  [lineToken .ident "class" 0, lineToken .ident "A" 6, lineToken .punct "\x7b" 8,
    lineToken .ident "void" 10, lineToken .ident "f" 15, lineToken .punct "(" 16,
    lineToken .punct ")" 17, lineToken .punct "\x7b" 19, lineToken .punct ";" 21,
    lineToken .punct "\x7d" 23, lineToken .punct "\x7d" 25]

set_option maxRecDepth 10000 in
/-- A class with a method in it is left behind its own brace, and the method behind the other one. -/
theorem nested_follows_braces :
    ∃ p, Program.parse nestedBraces = .ok p ∧ tokenize p.code = .ok nestedTokens ∧
      Braced.pairs? p.code = some [(16, 17), (19, 23), (8, 25)] ∧
      FollowsBraces (sourceOf p.code nestedTokens) [(16, 17), (19, 23), (8, 25)] nestedTokens := by
  have accepted : Program.parse nestedBraces = .ok ⟨nestedBraces, nestedBraces,
      [.around 1 (.classDecl "A") [.around 1 (.method "f" []) []]]⟩ :=
    Program.parse_eq_ok.2 ⟨rfl, nestedTokens, rfl, rfl, rfl, rfl⟩
  have named : Named nestedTokens := named_of_unmarked (by decide)
  obtain ⟨pairs, -, paired, -, follows⟩ := bodies_follow_braces accepted rfl named
  have same : Braced.pairs? nestedBraces = some [(16, 17), (19, 23), (8, 25)] := rfl
  cases same.symm.trans paired
  exact ⟨_, accepted, rfl, same, follows nestedTokens (List.suffix_refl _)⟩

/-- The source `{@} int x; @{ int y; }`. -/
def unnamedBraces : Text := "\x7b@\x7d int x; @\x7b int y; \x7d"

/-- Its tokens. -/
def unnamedTokens : List Token :=
  [lineToken .punct "\x7b" 0, lineToken .punct "@" 1, lineToken .punct "\x7d" 2,
    lineToken .ident "int" 4, lineToken .ident "x" 8, lineToken .punct ";" 9,
    lineToken .punct "@" 11, lineToken .punct "\x7b" 12, lineToken .ident "int" 14,
    lineToken .ident "y" 18, lineToken .punct ";" 19, lineToken .punct "\x7d" 21]

set_option maxRecDepth 10000 in
/-- **A brace that is taken for the name of an annotation** closes nothing: the block that begins with
the first brace of this source is left behind the last one, which is the partner of another. -/
theorem brace_taken_for_name :
    ∃ p body, Program.parse unnamedBraces = .ok p ∧ tokenize p.code = .ok unnamedTokens ∧
      Braced.pairs? p.code = some [(0, 2), (12, 21)] ∧ p.statements = [.around 1 .block body] ∧
      readBlock (sourceOf p.code unnamedTokens) 6 unnamedTokens = .ok (body, []) ∧
      ¬ FollowsBraces (sourceOf p.code unnamedTokens) [(0, 2), (12, 21)] unnamedTokens := by
  let number (name : Text) : Statement := .leaf 1 (.locals [⟨"int", "int", name, false, [], 0⟩])
  have accepted : Program.parse unnamedBraces = .ok ⟨unnamedBraces, unnamedBraces,
      [.around 1 .block [number "x", number "y"]]⟩ :=
    Program.parse_eq_ok.2 ⟨rfl, unnamedTokens, rfl, rfl, rfl, rfl⟩
  have block : readBlock (sourceOf unnamedBraces unnamedTokens) 6 unnamedTokens =
      .ok ([number "x", number "y"], []) := rfl
  refine ⟨_, _, accepted, rfl, rfl, rfl, block, fun follows => ?_⟩
  obtain ⟨opening, inside, close, same, -, -, pair, -⟩ := follows.block block
  -- The last token is the second closing brace.
  have first : opening.offset = 0 := by rw [← (List.cons.inj same).1]; rfl
  have last : close.offset = 21 := by
    have ends := congrArg List.getLast? same
    rw [← List.cons_append, List.getLast?_concat] at ends
    cases ends
    rfl
  rw [first, last] at pair
  revert pair
  decide

end FlowTrace.Java
