import FlowTrace.Proofs.Java.Passage

/-! # Readers advance

Every reader of a statement, a block or a declaration that succeeds has passed over some tokens
(`advancing`). The proof goes by the number of calls that a reader may still make: each reader
advances if all readers do that it calls. Bodies are passed over with both of their braces
(`Ends.body`). -/

namespace FlowTrace.Java

variable {src : Source} {bound line : Nat} {topLevel : Bool} {t opening close : Token} {text : Text}
  {here there rest inside : List Token} {done statements : List Statement}
  {s : Statement} {found : Option Statement}

/-! ## Annotations and modifiers end -/

/-- Behind an annotation fewer tokens are left. -/
theorem length_annotation_lt (marked : atAnnotation here = true) :
    (skipArguments (skipDotted [] (here.drop 2)).2).length < here.length := by
  have short := ((passes_skipDotted [] (here.drop 2)).trans (passes_skipArguments _)).length_le
  cases here with
  | nil => cases marked
  | cons mark rest =>
    simp only [List.drop_succ_cons, List.length_drop, List.length_cons] at short ⊢
    omega

/-- **All annotations are passed over**: none begins where they end. -/
theorem not_annotation_skipAnnotations (enough : here.length ≤ bound) :
    atAnnotation (skipAnnotations bound here) = false := by
  induction bound generalizing here with
  | zero =>
    rw [List.length_eq_zero_iff.1 (Nat.le_zero.1 enough)]
    rfl
  | succ bound ih =>
    by_cases marked : atAnnotation here = true
    · rw [skipAnnotations_succ marked]
      have := length_annotation_lt marked
      exact ih (by omega)
    · rw [skipAnnotations, if_neg marked]
      exact Bool.eq_false_iff.2 marked

/-- No annotation begins where modifiers end. -/
theorem not_annotation_skipModifiers (enough : here.length < bound) :
    atAnnotation (skipModifiers bound here) = false := by
  induction bound generalizing here with
  | zero => omega
  | succ bound ih =>
    have beyond := passes_skipAnnotations here.length here
    have ended := not_annotation_skipAnnotations (Nat.le_refl here.length)
    rw [skipModifiers]
    simp only
    split
    · rename_i t rest same
      split
      · have := beyond.length_le
        rw [same, List.length_cons] at this
        exact ih (by omega)
      · exact ended
    · rfl

/-! ## Bodies -/

/-- A reader **ends** behind a closing brace, up to which it passes. -/
def Ends (here there : List Token) : Prop :=
  ∃ close, next [close] "\x7d" = true ∧ Passes here (close :: there)

/-- A reader ends at a closing brace that is next. -/
theorem Ends.of_next (closes : next here "\x7d" = true) : Ends here (here.drop 1) := by
  cases here with
  | nil => cases closes
  | cons close rest => exact ⟨close, closes, .refl _⟩

/-- A reader ends where it does behind tokens that are passed over. -/
theorem Ends.of_passes (passes : Passes here rest) (ends : Ends rest there) : Ends here there := by
  obtain ⟨close, closes, passes'⟩ := ends
  exact ⟨close, closes, passes.trans passes'⟩

/-- **A body** is passed over with its braces. -/
theorem Ends.body (opens : next [opening] "\x7b" = true) (ends : Ends inside there) :
    Advances (opening :: inside) there := by
  obtain ⟨close, closes, run, rfl, kept⟩ := ends
  refine ⟨⟨opening :: (run ++ [close]), by simp, fun sound => ?_⟩, ?_⟩
  · have opens := (sound.genuine opening (by simp)).isPunct (by decide) (text_of_next opens)
    have closes := (sound.genuine close (by simp)).isPunct (by decide) (text_of_next closes)
    exact .body opens closes (kept sound.of_cons)
  · simp only [List.length_cons, List.length_append]
    omega

/-! ## Where declarations begin -/

/-- A class begins here, and no annotation does. -/
structure BeginsClass (tokens : List Token) : Prop where
  /-- A class begins. -/
  begins : atClass tokens = true
  /-- The mark of an annotation would stand before the word `interface`. -/
  unmarked : atAnnotation tokens = false

/-- The name of a method and a parenthesis. -/
structure BeginsMethod (tokens : List Token) : Prop where
  /-- The name. -/
  name : identAt tokens 0 = true
  /-- The parenthesis. -/
  paren : (textAt tokens 1 == "(") = true

/-- Passes over the resources of an attempt, if it has some. -/
def readResources (src : Source) (tokens : List Token) : Except SyntaxError (List Token) :=
  if next tokens "(" then
    match enclosed? tokens with
    | some (_, after) => .ok after
    | none => src.fail tokens (.neverClosed '(')
  else .ok tokens

/-- Reads an attempt behind its resources. -/
def readAttempt (src : Source) (bound line : Nat) (resources : Bool) (tokens : List Token) :
    Except SyntaxError (Readout (Option Statement)) := do
  let (body, rest) ← readBlock src bound tokens
  let (handlers, rest) ← readHandlers src bound rest []
  if next rest "finally" then do
    let (final, rest) ← readBlock src bound (rest.drop 1)
    return (some ⟨line, .attempt, body, final, handlers⟩, rest)
  else if !resources && handlers.isEmpty then src.fail rest .missingHandler
  else return (some ⟨line, .attempt, body, [], handlers⟩, rest)

/-- An attempt is read behind its resources. -/
theorem readTry_eq (src : Source) (bound line : Nat) (tokens : List Token) :
    readTry src (bound + 1) line tokens =
      readResources src tokens >>= readAttempt src bound line (next tokens "(") := by
  rw [readTry, readResources]
  by_cases opens : next tokens "(" = true
  · rw [if_pos opens, if_pos opens]
    cases enclosed? tokens <;> rfl
  · rw [if_neg opens, if_neg opens]
    rfl

/-- The resources of an attempt are passed over. -/
theorem passes_readResources (read : readResources src here = .ok there) : Passes here there := by
  rw [readResources] at read
  split at read
  · rename_i opens
    cases here with
    | nil => cases opens
    | cons opening here =>
      split at read
      · rename_i found
        cases read
        exact .parens (text_of_next opens) found
      · cases read
  · cases read
    exact .refl _

/-- Passes over what a method throws, up to its body or its semicolon. -/
def readThrows (src : Source) (tokens : List Token) : Except SyntaxError (List Token) :=
  if next tokens "throws" then
    match until? ["\x7b", ";"] tokens with
    | some (_, stop, after) => .ok (stop :: after)
    | none => src.fail tokens (.missing "\x7b")
  else .ok tokens

/-- Reads the body of a method, if it has one. -/
def readBody (src : Source) (bound line : Nat) (form : Form) (tokens : List Token) :
    Except SyntaxError (Readout Statement) :=
  if next tokens ";" then return (.leaf line form, tokens.drop 1)
  else do
    let (body, rest) ← readBlock src bound tokens
    return (.around line form body, rest)

/-- A method is read from its parameters, from what it throws, and from its body. -/
theorem readMethod_eq (src : Source) (bound : Nat) (name : Token) (tokens : List Token) :
    readMethod src (bound + 1) (name :: tokens) =
      match enclosed? tokens with
      | none => src.fail tokens (.neverClosed '(')
      | some (inside, rest) => readThrows src (skipDims rest).2 >>=
          readBody src bound name.line (.method name.text (readParams src inside)) := by
  rw [readMethod]
  cases enclosed? tokens with
  | none => rfl
  | some divided =>
    obtain ⟨inside, rest⟩ := divided
    simp only [readThrows]
    by_cases throws : next (skipDims rest).2 "throws" = true
    · rw [if_pos throws, if_pos throws]
      cases until? ["\x7b", ";"] (skipDims rest).2 <;> rfl
    · rw [if_neg throws, if_neg throws]
      rfl

/-- The exceptions that a method throws are passed over. -/
theorem passes_readThrows (read : readThrows src here = .ok there) : Passes here there := by
  rw [readThrows] at read
  split at read
  · split at read
    · rename_i ended
      cases read
      exact .upTo ended
    · cases read
  · cases read
    exact .refl _

/-- **What the reader of methods reads**: a name, parameters in parentheses, and behind what is thrown
the body. -/
theorem readMethod_eq_ok (read : readMethod src (bound + 1) here = .ok (s, there)) :
    ∃ name params inside rest behind, here = name :: params ∧
      enclosed? params = some (inside, rest) ∧ Passes rest behind ∧
      readBody src bound name.line (.method name.text (readParams src inside)) behind =
        .ok (s, there) := by
  cases here with
  | nil => cases read
  | cons name params =>
    rw [readMethod_eq] at read
    split at read
    · cases read
    · rename_i inside rest divided
      obtain ⟨behind, throws, body⟩ := bind_eq_ok.1 read
      exact ⟨name, params, inside, rest, behind, rfl, divided,
        (passes_skipDims rest).trans (passes_readThrows throws), body⟩

/-- A method has a semicolon or a block for its body. -/
theorem readBody_cases {form : Form} (read : readBody src bound line form here = .ok (s, there)) :
    (next here ";" = true ∧ s = .leaf line form ∧ there = here.drop 1) ∨
      ∃ body, readBlock src bound here = .ok (body, there) ∧ s = .around line form body := by
  rw [readBody] at read
  split at read
  · rename_i ends
    cases read
    exact Or.inl ⟨ends, rfl, rfl⟩
  · obtain ⟨⟨body, rest⟩, block, same⟩ := bind_eq_ok.1 read
    cases same
    exact Or.inr ⟨body, block, rfl⟩

/-- Passes over type parameters, if there are some. -/
def skipTypeParams (tokens : List Token) : List Token :=
  if next tokens "<" then (skipAngles? tokens 0).getD tokens else tokens

/-- Reads a member that is neither empty, nor a block, nor a class. -/
def readNamed (src : Source) (bound : Nat) (topLevel : Bool) (start tokens : List Token) :
    Except SyntaxError (Readout (Option Statement)) :=
  if atConstructor tokens then do
    let (s, rest) ← readMethod src bound tokens
    return (some s, rest)
  else
    match atMethod? src tokens with
    | some named => do
      let (s, rest) ← readMethod src bound named
      return (some s, rest)
    | none =>
      if topLevel then readStatement src bound start
      else
        match until? [";"] tokens with
        | some (_, _, rest) => .ok (none, rest)
        | none => src.fail tokens .missingName

/-- A member is read behind its modifiers. -/
theorem readMember_eq (src : Source) (bound : Nat) (topLevel : Bool) (start : List Token) :
    readMember src (bound + 1) topLevel start =
      let tokens := skipModifiers (start.length + 1) start
      if next tokens ";" then .ok (none, tokens.drop 1)
      else if next tokens "\x7b" then do
        let (body, rest) ← readBlock src bound tokens
        return (some (.around (src.line tokens) .block body), rest)
      else if atClass tokens then do
        let (s, rest) ← readClass src bound tokens
        return (some s, rest)
      else readNamed src bound topLevel start (skipTypeParams tokens) := by
  rw [readMember]
  rfl

/-- The parameters of a type are passed over. -/
theorem passes_skipTypeParams (here : List Token) : Passes here (skipTypeParams here) := by
  rw [skipTypeParams]
  split
  · cases found : skipAngles? here 0 with
    | none => exact .refl _
    | some rest => exact passes_skipAngles? found
  · exact .refl _

/-- A method begins where a constructor does. -/
theorem beginsMethod_of_atConstructor (begins : atConstructor here = true) : BeginsMethod here := by
  cases here with
  | nil => cases begins
  | cons name rest =>
    simp only [atConstructor, Bool.and_eq_true] at begins
    exact ⟨begins.1.1.1, begins.1.2⟩

/-- A method begins with its name behind its type, which is passed over. -/
theorem atMethod?_eq_some (found : atMethod? src here = some there) :
    Passes here there ∧ BeginsMethod there := by
  rw [atMethod?] at found
  split at found
  · rename_i type base rest typed
    split at found
    · rename_i begins
      cases found
      rw [Bool.and_eq_true] at begins
      exact ⟨(advances_readType? typed).passes, begins.1, begins.2⟩
    · cases found
  · cases found

/-- The word that declares a class is passed over with the mark in front of it. -/
theorem BeginsClass.passes (begins : BeginsClass here) :
    Passes here ((if next here "@" then here.drop 1 else here).drop 1) := by
  obtain ⟨class_, unmarked⟩ := begins
  rw [ atAnnotation] at unmarked
  split
  · rename_i marked
    rw [marked, Bool.true_and] at unmarked
    -- Behind the mark stands the word `interface`.
    rcases here with _ | ⟨mark, _ | ⟨word, rest⟩⟩
    · cases marked
    · exact passes_word marked (by decide)
    · have unmarked : (word.text != "interface") = false := unmarked
      have same : word.text = "interface" := by simpa using unmarked
      exact (passes_word marked (by decide)).trans
        (.token (Token.isBrace_eq_false (by decide) same) rest)
  · rename_i plain
    rw [atClass, Bool.eq_false_iff.2 plain] at class_
    simp only [Bool.or_false, Bool.or_eq_true, Bool.and_eq_true] at class_
    rcases class_ with ((is_word | is_word) | is_word) | is_word
    · exact passes_word is_word (by decide)
    · exact passes_word is_word (by decide)
    · exact passes_word is_word (by decide)
    · exact passes_word is_word.1.1 (by decide)

/-- **A class** is read up to its brace; what follows is passed over in an enumeration, and read as
members otherwise. -/
theorem readClass_eq_ok (read : readClass src (bound + 1) here = .ok (s, there)) :
    ∃ brace inside, brace :: inside <:+ here ∧ brace.isPunct "\x7b" = true ∧
      (BeginsClass here → Passes here (brace :: inside)) ∧
      ((∃ passed, enclosed? (brace :: inside) = some (passed, there) ∧ s.body = []) ∨
        readMembers src bound inside [] = .ok (s.body, there)) := by
  rw [readClass] at read
  simp only at read
  generalize at_word : (if next here "@" = true then here.drop 1 else here) = tokens at read
  split at read
  · cases read
  · rename_i name rest behind
    split at read
    · cases read
    · rename_i named
      have ident : name.kind = .ident := by simpa using named
      split at read
      · cases read
      -- The brace is the first one behind the name.
      · rename_i before brace inside ended
        obtain ⟨rfl, stops_here, -⟩ := until?_eq_some ended
        have is_brace : brace.isPunct "\x7b" = true := by
          simpa [isStop, Token.isPunct, List.contains_eq_mem] using stops_here
        have suffix : brace :: inside <:+ here := by
          have within : name :: (before ++ brace :: inside) <:+ here := by
            rw [← behind]
            refine (List.drop_suffix _ _).trans ?_
            rw [← at_word]
            split
            · exact List.drop_suffix _ _
            · exact List.suffix_refl _
          exact (List.suffix_append (name :: before) _).trans within
        refine ⟨brace, inside, suffix, is_brace, fun begins => ?_, ?_⟩
        · have word := begins.passes
          rw [at_word, behind] at word
          exact word.trans ((Passes.token (Token.isBrace_of_ident ident) _).trans (.upTo ended))
        · split at read
          · split at read
            · rename_i passed after found
              cases read
              exact Or.inl ⟨passed, found, rfl⟩
            · cases read
          · obtain ⟨⟨members, last⟩, body, same⟩ := bind_eq_ok.1 read
            cases same
            exact Or.inr body

/-! ## What one call of the statement reader does -/

/-- What the reader of statements **reads** when it may make `bound` further calls: each case with
the word that decides it and the calls it is made of. -/
inductive StatementRead (src : Source) (bound : Nat) (here : List Token) :
    Option Statement → List Token → Prop where
  /-- A block. -/
  | block {body : List Statement} {there : List Token} (is_block : next here "\x7b" = true)
      (block : readBlock src bound here = .ok (body, there)) :
      StatementRead src bound here (some (.around (src.line here) .block body)) there
  /-- A semicolon. -/
  | empty (ends : next here ";" = true) : StatementRead src bound here none (here.drop 1)
  /-- A conditional. -/
  | branch {condition behind behind' there : List Token} {body : Option Statement}
      {orelse : List Statement} (is_if : next here "if" = true)
      (parens : readParens src "if" (here.drop 1) = .ok (condition, behind))
      (first : readStatement src bound behind = .ok (body, behind'))
      (second : readElse src bound behind' = .ok (orelse, there)) :
      StatementRead src bound here (some ⟨src.line here, .branch (src.text condition),
        Statement.unwrap body, orelse, []⟩) there
  /-- A loop with a header. -/
  | forLoop {found : Option Statement} {there : List Token} (is_for : next here "for" = true)
      (loop : readFor src bound (src.line here) (here.drop 1) = .ok (found, there)) :
      StatementRead src bound here found there
  /-- A loop that asks first. -/
  | whileLoop {condition behind there : List Token} {body : Option Statement}
      (is_while : next here "while" = true)
      (parens : readParens src "while" (here.drop 1) = .ok (condition, behind))
      (first : readStatement src bound behind = .ok (body, there)) :
      StatementRead src bound here (some (.around (src.line here)
        (.whileLoop (src.text condition)) (Statement.unwrap body))) there
  /-- A loop that asks last. -/
  | doLoop {condition behind asked asked' there : List Token} {body : Option Statement}
      (is_do : next here "do" = true)
      (first : readStatement src bound (here.drop 1) = .ok (body, behind))
      (is_while : expect src "while" behind = .ok asked)
      (parens : readParens src "while" asked = .ok (condition, asked'))
      (ends : expect src ";" asked' = .ok there) :
      StatementRead src bound here (some (.around (src.line here)
        (.doLoop (src.text condition)) (Statement.unwrap body))) there
  /-- An attempt. -/
  | attempt {found : Option Statement} {there : List Token} (is_try : next here "try" = true)
      (attempt : readTry src bound (src.line here) (here.drop 1) = .ok (found, there)) :
      StatementRead src bound here found there
  /-- A choice. -/
  | choice {subject behind inside there : List Token} {body : List Statement}
      (is_switch : next here "switch" = true)
      (parens : readParens src "switch" (here.drop 1) = .ok (subject, behind))
      (opens : expect src "\x7b" behind = .ok inside)
      (choices : readCases src bound inside [] = .ok (body, there)) :
      StatementRead src bound here
        (some (.around (src.line here) (.choice (src.text subject)) body)) there
  /-- A return. -/
  | ret {value there : List Token} (is_return : next here "return" = true)
      (ended : readToSemicolon src (here.drop 1) = .ok (value, there)) :
      StatementRead src bound here (some (.leaf (src.line here) (.ret (src.text value)))) there
  /-- A statement with a word of its own that no node stands for. -/
  | plain {value there : List Token} (is_plain : plainWords.any (next here) = true)
      (ended : readToSemicolon src here = .ok (value, there)) :
      StatementRead src bound here (some (.leaf (src.line here) .other)) there
  /-- A block with a lock. -/
  | locked {lock behind there : List Token} {body : List Statement}
      (is_synchronized : next here "synchronized" = true)
      (parens : readParens src "synchronized" (here.drop 1) = .ok (lock, behind))
      (block : readBlock src bound behind = .ok (body, there)) :
      StatementRead src bound here (some (.around (src.line here) .block body)) there
  /-- A local class. -/
  | classDecl {s : Statement} {there : List Token}
      (begins : (next here "class" || next here "interface" || next here "enum") = true)
      (declared : readClass src bound here = .ok (s, there)) :
      StatementRead src bound here (some s) there
  /-- A label and the statement behind it. -/
  | labelled {found : Option Statement} {there : List Token}
      (label : (identAt here 0 && textAt here 1 == ":") = true)
      (first : readStatement src bound (here.drop 2) = .ok (found, there)) :
      StatementRead src bound here found there
  /-- A declaration. -/
  | locals {vars : List Variable} {behind there : List Token} (is_local : atLocal src here = true)
      (declared : readLocal src here = .ok (vars, behind)) (ends : expect src ";" behind = .ok there) :
      StatementRead src bound here (some (.leaf (src.line here) (.locals vars))) there
  /-- An expression. -/
  | expression {value there : List Token} (ended : readToSemicolon src here = .ok (value, there)) :
      StatementRead src bound here
        (some (.leaf (src.line here) (expressionForm src value))) there

/-- The reader of statements asks for one word after the other, so each case is peeled off by
the condition that decides it. -/
theorem statementRead_of_eq_ok (read : readStatement src (bound + 1) here = .ok (found, there)) :
    StatementRead src bound here found there := by
  rw [readStatement] at read
  by_cases is_block : next here "\x7b" = true
  · rw [if_pos is_block] at read
    obtain ⟨⟨body, rest⟩, block, same⟩ := bind_eq_ok.1 read
    cases same
    exact .block is_block block
  rw [if_neg is_block] at read
  by_cases ends : next here ";" = true
  · rw [if_pos ends] at read
    cases read
    exact .empty ends
  rw [if_neg ends] at read
  by_cases is_if : next here "if" = true
  · rw [if_pos is_if] at read
    obtain ⟨⟨condition, rest⟩, parens, read⟩ := bind_eq_ok.1 read
    obtain ⟨⟨body, rest'⟩, first, read⟩ := bind_eq_ok.1 read
    obtain ⟨⟨orelse, last⟩, second, same⟩ := bind_eq_ok.1 read
    cases same
    exact .branch is_if parens first second
  rw [if_neg is_if] at read
  by_cases is_for : next here "for" = true
  · rw [if_pos is_for] at read
    exact .forLoop is_for read
  rw [if_neg is_for] at read
  by_cases is_while : next here "while" = true
  · rw [if_pos is_while] at read
    obtain ⟨⟨condition, rest⟩, parens, read⟩ := bind_eq_ok.1 read
    obtain ⟨⟨body, rest'⟩, first, same⟩ := bind_eq_ok.1 read
    cases same
    exact .whileLoop is_while parens first
  rw [if_neg is_while] at read
  by_cases is_do : next here "do" = true
  · rw [if_pos is_do] at read
    obtain ⟨⟨body, rest⟩, first, read⟩ := bind_eq_ok.1 read
    obtain ⟨rest', asks, read⟩ := bind_eq_ok.1 read
    obtain ⟨⟨condition, rest''⟩, parens, read⟩ := bind_eq_ok.1 read
    obtain ⟨last, ends, same⟩ := bind_eq_ok.1 read
    cases same
    exact .doLoop is_do first asks parens ends
  rw [if_neg is_do] at read
  by_cases is_try : next here "try" = true
  · rw [if_pos is_try] at read
    exact .attempt is_try read
  rw [if_neg is_try] at read
  by_cases is_switch : next here "switch" = true
  · rw [if_pos is_switch] at read
    obtain ⟨⟨subject, rest⟩, parens, read⟩ := bind_eq_ok.1 read
    obtain ⟨rest', opens, read⟩ := bind_eq_ok.1 read
    obtain ⟨⟨body, last⟩, choices, same⟩ := bind_eq_ok.1 read
    cases same
    exact .choice is_switch parens opens choices
  rw [if_neg is_switch] at read
  by_cases is_return : next here "return" = true
  · rw [if_pos is_return] at read
    obtain ⟨⟨value, rest⟩, ended, same⟩ := bind_eq_ok.1 read
    cases same
    exact .ret is_return ended
  rw [if_neg is_return] at read
  by_cases is_plain : plainWords.any (next here) = true
  · rw [if_pos is_plain] at read
    obtain ⟨⟨value, rest⟩, ended, same⟩ := bind_eq_ok.1 read
    cases same
    exact .plain is_plain ended
  rw [if_neg is_plain] at read
  by_cases is_synchronized : next here "synchronized" = true
  · rw [if_pos is_synchronized] at read
    obtain ⟨⟨lock, rest⟩, parens, read⟩ := bind_eq_ok.1 read
    obtain ⟨⟨body, last⟩, block, same⟩ := bind_eq_ok.1 read
    cases same
    exact .locked is_synchronized parens block
  rw [if_neg is_synchronized] at read
  by_cases begins : (next here "class" || next here "interface" || next here "enum") = true
  · rw [if_pos begins] at read
    obtain ⟨⟨s, rest⟩, declared, same⟩ := bind_eq_ok.1 read
    cases same
    exact .classDecl begins declared
  rw [if_neg begins] at read
  -- words that only stand behind others do not begin a statement
  by_cases is_else : next here "else" = true
  · rw [if_pos is_else] at read
    cases read
  rw [if_neg is_else] at read
  by_cases is_catch : next here "catch" = true
  · rw [if_pos is_catch] at read
    cases read
  rw [if_neg is_catch] at read
  by_cases is_finally : next here "finally" = true
  · rw [if_pos is_finally] at read
    cases read
  rw [if_neg is_finally] at read
  by_cases is_case : next here "case" = true
  · rw [if_pos is_case] at read
    cases read
  rw [if_neg is_case] at read
  by_cases label : (identAt here 0 && textAt here 1 == ":") = true
  · rw [if_pos label] at read
    exact .labelled label read
  rw [if_neg label] at read
  by_cases is_local : atLocal src here = true
  · rw [if_pos is_local] at read
    obtain ⟨⟨vars, rest⟩, declared, read⟩ := bind_eq_ok.1 read
    obtain ⟨last, ends, same⟩ := bind_eq_ok.1 read
    cases same
    exact .locals is_local declared ends
  · rw [if_neg is_local] at read
    obtain ⟨⟨value, rest⟩, ended, same⟩ := bind_eq_ok.1 read
    cases same
    exact .expression ended

/-- All readers that may make `bound` calls **advance**. -/
structure Advancing (src : Source) (bound : Nat) : Prop where
  /-- Statements. -/
  statement : ∀ {here there : List Token} {found : Option Statement},
    readStatement src bound here = .ok (found, there) → Advances here there
  /-- Alternatives, which may be missing. -/
  alternative : ∀ {here there : List Token} {statements : List Statement},
    readElse src bound here = .ok (statements, there) → Passes here there
  /-- Loops with a header. -/
  loop : ∀ {line : Nat} {here there : List Token} {found : Option Statement},
    readFor src bound line here = .ok (found, there) → Advances here there
  /-- Attempts. -/
  attempt : ∀ {line : Nat} {here there : List Token} {found : Option Statement},
    readTry src bound line here = .ok (found, there) → Advances here there
  /-- Handlers, of which there may be none. -/
  handlers : ∀ {here there : List Token} {done statements : List Statement},
    readHandlers src bound here done = .ok (statements, there) → Passes here there
  /-- The cases of a choice. -/
  choices : ∀ {here there : List Token} {done statements : List Statement},
    readCases src bound here done = .ok (statements, there) → Ends here there
  /-- Blocks. -/
  block : ∀ {here there : List Token} {statements : List Statement},
    readBlock src bound here = .ok (statements, there) → Advances here there
  /-- The statements of a block. -/
  statements : ∀ {here there : List Token} {done statements : List Statement},
    readBlockRest src bound here done = .ok (statements, there) → Ends here there
  /-- Classes. -/
  classDecl : ∀ {here there : List Token} {s : Statement}, BeginsClass here →
    readClass src bound here = .ok (s, there) → Advances here there
  /-- The members of a class. -/
  members : ∀ {here there : List Token} {done statements : List Statement},
    readMembers src bound here done = .ok (statements, there) → Ends here there
  /-- Members. -/
  member : ∀ {topLevel : Bool} {here there : List Token} {found : Option Statement},
    readMember src bound topLevel here = .ok (found, there) → Advances here there
  /-- Methods. -/
  method : ∀ {here there : List Token} {s : Statement}, BeginsMethod here →
    readMethod src bound here = .ok (s, there) → Advances here there

/-- A reader that may make no call reads nothing. -/
theorem advancing_zero (src : Source) : Advancing src 0 := by
  constructor <;> intros <;> contradiction

namespace Advancing

variable (all : Advancing src bound)

include all

/-- The reader of an alternative passes over it when the readers with one call less go forward. -/
theorem readElse_succ (read : readElse src (bound + 1) here = .ok (statements, there)) :
    Passes here there := by
  rw [readElse] at read
  split at read
  · rename_i is_else
    obtain ⟨⟨alternative, rest⟩, first, read⟩ := bind_eq_ok.1 read
    have beyond := (passes_word is_else (by decide)).trans (all.statement first).passes
    simp only at read
    split at read
    · cases read
      exact beyond
    · cases read
      exact beyond
  · cases read
    exact .refl _

/-- The reader of a loop advances when the readers with one call less go forward. -/
theorem readFor_succ (read : readFor src (bound + 1) line here = .ok (found, there)) :
    Advances here there := by
  rw [readFor] at read
  obtain ⟨⟨header, after⟩, parens, read⟩ := bind_eq_ok.1 read
  obtain ⟨form, -, read⟩ := bind_eq_ok.1 read
  obtain ⟨⟨body, rest⟩, first, same⟩ := bind_eq_ok.1 read
  cases same
  exact (advances_readParens parens).trans (all.statement first).passes

/-- The reader of handlers passes over them when the readers with one call less go forward. -/
theorem readHandlers_succ
    (read : readHandlers src (bound + 1) here done = .ok (statements, there)) :
    Passes here there := by
  rw [readHandlers] at read
  split at read
  · rename_i is_catch
    split at read
    · cases read
    · rename_i parens
      split at read
      · cases read
      · rename_i body
        exact (passes_word is_catch (by decide)).trans ((advances_readParens parens).passes.trans
          ((all.block body).passes.trans (all.handlers read)))
  · cases read
    exact .refl _

/-- The reader of cases ends at their brace when the readers with one call less go forward. -/
theorem readCases_succ (read : readCases src (bound + 1) here done = .ok (statements, there)) :
    Ends here there := by
  rw [readCases] at read
  split at read
  · rename_i closes
    cases read
    exact .of_next closes
  · split at read
    · cases read
    · split at read
      · split at read
        · cases read
        · rename_i label
          exact .of_passes (.overStop (by decide) label) (all.choices read)
      · split at read
        · cases read
        · rename_i first
          exact .of_passes (all.statement first).passes (all.choices read)

/-- The reader of statements ends at their brace when the readers with one call less go forward. -/
theorem readBlockRest_succ
    (read : readBlockRest src (bound + 1) here done = .ok (statements, there)) :
    Ends here there := by
  rw [readBlockRest] at read
  split at read
  · rename_i closes
    cases read
    exact .of_next closes
  · split at read
    · cases read
    · split at read
      · cases read
      · rename_i first
        exact .of_passes (all.statement first).passes (all.statements read)

/-- The reader of members ends at their brace when the readers with one call less go forward. -/
theorem readMembers_succ (read : readMembers src (bound + 1) here done = .ok (statements, there)) :
    Ends here there := by
  rw [readMembers] at read
  split at read
  · rename_i closes
    cases read
    exact .of_next closes
  · split at read
    · cases read
    · split at read
      · cases read
      · rename_i first
        exact .of_passes (all.member first).passes (all.members read)

/-- The reader of a block advances when the readers with one call less go forward. -/
theorem readBlock_succ (read : readBlock src (bound + 1) here = .ok (statements, there)) :
    Advances here there := by
  rw [readBlock] at read
  obtain ⟨rest, expected, body⟩ := bind_eq_ok.1 read
  obtain ⟨opening, rfl, opens⟩ := expect_eq_ok expected
  exact (all.statements body).body opens

/-- The reader of what an attempt holds advances. -/
theorem readAttempt_eq_ok {resources : Bool}
    (read : readAttempt src bound line resources here = .ok (found, there)) :
    Advances here there := by
  obtain ⟨⟨body, rest⟩, block, read⟩ := bind_eq_ok.1 read
  obtain ⟨⟨handlers, rest'⟩, handled, read⟩ := bind_eq_ok.1 read
  have beyond : Advances here rest' := (all.block block).trans (all.handlers handled)
  simp only at read
  split at read
  · rename_i is_finally
    obtain ⟨⟨final, last⟩, block', same⟩ := bind_eq_ok.1 read
    cases same
    exact beyond.trans ((passes_word is_finally (by decide)).trans (all.block block').passes)
  · split at read
    · cases read
    · cases read
      exact beyond

/-- The reader of an attempt advances when the readers with one call less go forward. -/
theorem readTry_succ (read : readTry src (bound + 1) line here = .ok (found, there)) :
    Advances here there := by
  rw [readTry_eq] at read
  obtain ⟨behind, resources, read⟩ := bind_eq_ok.1 read
  exact .of_passes (passes_readResources resources) (all.readAttempt_eq_ok read)

/-- The reader of a body advances. -/
theorem readBody_eq_ok {form : Form} (read : readBody src bound line form here = .ok (s, there)) :
    Advances here there := by
  rcases readBody_cases read with ⟨ends, -, rfl⟩ | ⟨body, block, -⟩
  · exact .word ends (by decide)
  · exact all.block block

/-- The reader of a method advances where a method begins. -/
theorem readMethod_succ (begins : BeginsMethod here)
    (read : readMethod src (bound + 1) here = .ok (s, there)) : Advances here there := by
  obtain ⟨name, params, inside, rest, behind, rfl, divided, thrown, body⟩ := readMethod_eq_ok read
  have first : Advances (name :: params) params :=
    .token (Token.isBrace_of_ident (beq_iff_eq.1 begins.name)) params
  have parens : Passes params rest := by
    cases params with
    | nil => cases divided
    | cons opening params => exact .parens (beq_iff_eq.1 begins.paren) divided
  exact (first.trans parens).trans (thrown.trans (all.readBody_eq_ok body).passes)

/-- The reader of a class advances where a class begins. -/
theorem readClass_succ (begins : BeginsClass here)
    (read : readClass src (bound + 1) here = .ok (s, there)) : Advances here there := by
  obtain ⟨brace, inside, -, is_brace, beyond, ⟨passed, found, -⟩ | body⟩ := readClass_eq_ok read
  · have opens : brace.isOpening = true := by
      rw [Token.isPunct, Bool.and_eq_true, beq_iff_eq, beq_iff_eq] at is_brace
      rw [Token.isOpening, is_brace.1, is_brace.2]
      decide
    obtain ⟨close, rfl, closes, even⟩ := enclosed?_eq_some found
    refine .of_passes (beyond begins) ⟨⟨brace :: (passed ++ [close]), by simp, fun _ =>
      .balanced (balanced_pair opens closes even)⟩, ?_⟩
    simp only [List.length_append, List.length_cons]
    omega
  · exact .of_passes (beyond begins) ((all.members body).body (next_of_isPunct is_brace []))

/-- The reader of a member with a name advances. -/
theorem readNamed_eq_ok {start : List Token} (beyond : Passes start here)
    (read : readNamed src bound topLevel start here = .ok (found, there)) : Advances start there := by
  rw [readNamed] at read
  split at read
  · rename_i begins
    obtain ⟨⟨c, rest⟩, declared, same⟩ := bind_eq_ok.1 read
    cases same
    exact .of_passes beyond (all.method (beginsMethod_of_atConstructor begins) declared)
  · split at read
    · rename_i named is_method
      obtain ⟨⟨c, rest⟩, declared, same⟩ := bind_eq_ok.1 read
      cases same
      obtain ⟨typed, begins⟩ := atMethod?_eq_some is_method
      exact .of_passes (beyond.trans typed) (all.method begins declared)
    · split at read
      · exact all.statement read
      · split at read
        · rename_i ended
          cases read
          obtain ⟨rfl, -, -⟩ := until?_eq_some ended
          refine .of_passes beyond ⟨.overStop (by decide) ended, ?_⟩
          simp only [List.length_append, List.length_cons]
          omega
        · cases read

/-- The reader of a member advances when the readers with one call less go forward. -/
theorem readMember_succ (read : readMember src (bound + 1) topLevel here = .ok (found, there)) :
    Advances here there := by
  rw [readMember_eq] at read
  have beyond := passes_skipModifiers (here.length + 1) here
  have unmarked := not_annotation_skipModifiers (Nat.lt_succ_self here.length)
  simp only at read
  split at read
  · rename_i ends
    cases read
    exact .of_passes beyond (.word ends (by decide))
  · split at read
    · obtain ⟨⟨body, rest⟩, block, same⟩ := bind_eq_ok.1 read
      cases same
      exact .of_passes beyond (all.block block)
    · split at read
      · rename_i begins
        obtain ⟨⟨c, rest⟩, declared, same⟩ := bind_eq_ok.1 read
        cases same
        exact .of_passes beyond (all.classDecl ⟨begins, unmarked⟩ declared)
      · exact all.readNamed_eq_ok (beyond.trans (passes_skipTypeParams _)) read

/-- The reader of a statement advances when the readers with one call less go forward. -/
theorem readStatement_succ (read : readStatement src (bound + 1) here = .ok (found, there)) :
    Advances here there := by
  cases statementRead_of_eq_ok read with
  | block is_block block => exact all.block block
  | empty ends => exact .word ends (by decide)
  | branch is_if parens first second =>
    exact (Advances.word is_if (by decide)).trans ((advances_readParens parens).passes.trans
      ((all.statement first).passes.trans (all.alternative second)))
  | forLoop is_for loop => exact (Advances.word is_for (by decide)).trans (all.loop loop).passes
  | whileLoop is_while parens first =>
    exact (Advances.word is_while (by decide)).trans
      ((advances_readParens parens).passes.trans (all.statement first).passes)
  | doLoop is_do first is_while parens ends =>
    exact (Advances.word is_do (by decide)).trans ((all.statement first).passes.trans
      ((advances_expect is_while (by decide)).passes.trans
        ((advances_readParens parens).passes.trans (advances_expect ends (by decide)).passes)))
  | attempt is_try attempt =>
    exact (Advances.word is_try (by decide)).trans (all.attempt attempt).passes
  | choice is_switch parens opens choices =>
    obtain ⟨opening, rfl, is_brace⟩ := expect_eq_ok opens
    exact (Advances.word is_switch (by decide)).trans ((advances_readParens parens).passes.trans
      ((all.choices choices).body is_brace).passes)
  | ret is_return ended =>
    exact (Advances.word is_return (by decide)).trans (advances_readToSemicolon ended).passes
  | plain is_plain ended => exact advances_readToSemicolon ended
  | locked is_synchronized parens block =>
    exact (Advances.word is_synchronized (by decide)).trans
      ((advances_readParens parens).passes.trans (all.block block).passes)
  | classDecl begins declared =>
    refine all.classDecl ⟨?_, ?_⟩ declared
    · rw [atClass, begins]
      rfl
    · -- The mark of an annotation is none of these words.
      have no_mark : next here "@" = false := by
        rw [Bool.or_eq_true, Bool.or_eq_true] at begins
        rcases begins with (is_word | is_word) | is_word <;> exact next_ne is_word (by decide)
      rw [ atAnnotation, no_mark, Bool.false_and]
  | labelled label first =>
    rw [Bool.and_eq_true, beq_iff_eq] at label
    rcases here with _ | ⟨name, _ | ⟨colon, rest⟩⟩
    · cases label.1
    · cases label.2
    · have beyond := (Advances.token (Token.isBrace_of_ident (beq_iff_eq.1 label.1)) _).trans
        (Passes.token (Token.isBrace_eq_false (by decide) label.2) rest)
      exact beyond.trans (all.statement first).passes
  | locals is_local declared ends =>
    exact (advances_readLocal declared).trans (advances_expect ends (by decide)).passes
  | expression ended => exact advances_readToSemicolon ended

end Advancing

/-- **All readers advance.** -/
theorem advancing (src : Source) (bound : Nat) : Advancing src bound := by
  induction bound with
  | zero => exact advancing_zero src
  | succ bound all =>
    exact {
      statement := all.readStatement_succ
      alternative := all.readElse_succ
      loop := all.readFor_succ
      attempt := all.readTry_succ
      handlers := all.readHandlers_succ
      choices := all.readCases_succ
      block := all.readBlock_succ
      statements := all.readBlockRest_succ
      classDecl := all.readClass_succ
      members := all.readMembers_succ
      member := all.readMember_succ
      method := all.readMethod_succ }

end FlowTrace.Java
