import FlowTrace.Proofs.Java.Progress

/-! # Enough calls

The number of calls that readers may make is bounded. No reader that is given eight calls for each
token, and a few more, ever asks for another one (`enough`): on a way from one reader to itself a
token is read, and that is within four calls. So the bound is no limit on what can be read
(`readUnit_finishes`). -/

namespace FlowTrace.Java

variable {α β : Type} {src : Source} {bound line : Nat} {topLevel : Bool} {fault : Fault}
  {here there tokens : List Token} {done statements : List Statement} {x : Except SyntaxError α}

/-- A reader **finishes** when it does not run out of calls. -/
def Finishes (x : Except SyntaxError α) : Prop := ∀ e, x = .error e → e.fault ≠ .exhausted

namespace Finishes

/-- A value is no failure, so a computation that gives one finishes. -/
theorem ok (a : α) : Finishes (.ok a) := by
  rintro e ⟨⟩

/-- Another fault. -/
theorem fail (other : fault ≠ .exhausted) (tokens : List Token) :
    Finishes (src.fail (α := α) tokens fault) := by
  rintro e ⟨⟩
  exact other

/-- An error that is passed on. -/
theorem error {e : SyntaxError} (finishes : Finishes x) (same : x = .error e) :
    Finishes (.error (α := β) e) := by
  rintro _ ⟨⟩
  exact finishes e same

/-- Computations in two parts finish when both parts do. -/
theorem bind {f : α → Except SyntaxError β} (first : Finishes x)
    (second : ∀ a, x = .ok a → Finishes (f a)) : Finishes (x >>= f) := by
  cases x with
  | error e => exact first.error rfl
  | ok a => exact second a rfl

/-- A choice between computations finishes when each of them does under its condition. -/
theorem ite {c : Prop} [Decidable c] {x y : Except SyntaxError α} (yes : c → Finishes x)
    (no : ¬ c → Finishes y) : Finishes (if c then x else y) := by
  split
  · exact yes ‹_›
  · exact no ‹_›

end Finishes

/-! ## Parts of the grammar -/

/-- The reader of an expected word finishes. -/
theorem expect_finishes (text : Text) (here : List Token) : Finishes (expect src text here) := by
  cases here with
  | nil => exact .fail (by simp) _
  | cons t rest => exact .ite (fun _ => .ok _) fun _ => .fail (by simp) _

/-- The reader of what stands in parentheses finishes. -/
theorem readParens_finishes (word : Text) (here : List Token) :
    Finishes (readParens src word here) := by
  rw [readParens]
  refine .ite (fun _ => ?_) fun _ => .fail (by simp) _
  split
  · exact .ok _
  · exact .fail (by simp) _

/-- The reader of tokens up to a semicolon finishes. -/
theorem readToSemicolon_finishes (here : List Token) : Finishes (readToSemicolon src here) := by
  rw [readToSemicolon]
  split
  · exact .ok _
  · exact .fail (by simp) _

/-- The reader of declarators finishes, with more calls than there are tokens. -/
theorem readDeclarators_finishes {type base : Text} {done : List Variable}
    (enough : here.length < bound) : Finishes (readDeclarators src type base bound here done) := by
  induction bound generalizing here done with
  | zero => omega
  | succ bound ih =>
    cases here with
    | nil =>
      rw [readDeclarators]
      exact .fail (by simp) _
    | cons name here =>
      rw [readDeclarators]
      refine .ite (fun _ => .fail (by simp) _) fun _ => ?_
      have beyond := (passes_skipDims here).length_le
      rw [List.length_cons] at enough
      -- Another declarator is read behind a comma, with at least one token less.
      have finish {v : Variable} {rest : List Token} (le : rest.length ≤ here.length) :
          Finishes (if next rest "," then
              readDeclarators src type base bound (rest.drop 1) (v :: done)
            else .ok ((v :: done).reverse, rest)) := by
        refine .ite (fun comma => ih ?_) fun _ => .ok _
        have := (Advances.word comma (by decide)).shorter
        omega
      simp only
      refine .ite (fun assigns => ?_) fun _ => finish beyond
      split
      · exact .fail (by simp) _
      · rename_i found
        have := ((passes_word assigns (by decide)).trans (passes_untilDeclarator? found)).length_le
        exact finish (by omega)

/-- The reader of local variables finishes. -/
theorem readLocal_finishes (here : List Token) : Finishes (readLocal src here) := by
  rw [readLocal]
  split
  · exact .fail (by simp) _
  · exact readDeclarators_finishes (Nat.lt_succ_self _)

/-- The reader of the header of a loop finishes. -/
theorem forForm_finishes (inside here : List Token) : Finishes (forForm src inside here) := by
  rw [forForm]
  exact .ite (fun _ => .ok _) fun _ => .ite (fun _ => (readLocal_finishes here).bind fun _ _ => .ok _)
    fun _ => .ok _

/-- The reader of resources finishes. -/
theorem readResources_finishes (here : List Token) : Finishes (readResources src here) := by
  rw [readResources]
  refine .ite (fun _ => ?_) fun _ => .ok _
  split
  · exact .ok _
  · exact .fail (by simp) _

/-- The reader of a clause of exceptions finishes. -/
theorem readThrows_finishes (here : List Token) : Finishes (readThrows src here) := by
  rw [readThrows]
  refine .ite (fun _ => ?_) fun _ => .ok _
  split
  · exact .ok _
  · exact .fail (by simp) _

/-! ## Readers -/

/-- All readers that may make `bound` calls **have enough** of them, if that is eight for each token
and as many more as it takes a reader to come to a token. -/
structure Enough (src : Source) (bound : Nat) : Prop where
  /-- Statements call for blocks and classes. -/
  statement : ∀ here, 8 * here.length + 1 < bound → Finishes (readStatement src bound here)
  /-- Alternatives. -/
  alternative : ∀ here, 8 * here.length < bound → Finishes (readElse src bound here)
  /-- Loops with a header. -/
  loop : ∀ line here, 8 * here.length < bound → Finishes (readFor src bound line here)
  /-- Attempts call for blocks. -/
  attempt : ∀ line here, 8 * here.length + 1 < bound → Finishes (readTry src bound line here)
  /-- Handlers. -/
  handlers : ∀ here done, 8 * here.length < bound → Finishes (readHandlers src bound here done)
  /-- The cases of a choice call for statements. -/
  choices : ∀ here done, 8 * here.length + 2 < bound → Finishes (readCases src bound here done)
  /-- Blocks. -/
  block : ∀ here, 8 * here.length < bound → Finishes (readBlock src bound here)
  /-- The statements of a block. -/
  statements : ∀ here done, 8 * here.length + 2 < bound →
    Finishes (readBlockRest src bound here done)
  /-- Classes. -/
  classDecl : ∀ here, 8 * here.length < bound → Finishes (readClass src bound here)
  /-- The members of a class call for members, and these for statements. -/
  members : ∀ here done, 8 * here.length + 3 < bound → Finishes (readMembers src bound here done)
  /-- Members. -/
  member : ∀ topLevel here, 8 * here.length + 2 < bound →
    Finishes (readMember src bound topLevel here)
  /-- Methods. -/
  method : ∀ here, 8 * here.length < bound → Finishes (readMethod src bound here)

/-- Without calls there are not enough for any tokens. -/
theorem enough_zero (src : Source) : Enough src 0 := by
  constructor <;> intros <;> omega

namespace Enough

variable (all : Enough src bound)

include all

/-- The reader of an alternative finishes when the readers with one call less do. -/
theorem readElse_succ (here : List Token) (left : 8 * here.length < bound + 1) :
    Finishes (readElse src (bound + 1) here) := by
  rw [readElse]
  refine .ite (fun is_else => ?_) fun _ => .ok _
  have := (Advances.word is_else (by decide)).shorter
  refine (all.statement _ (by omega)).bind fun _ _ => ?_
  simp only
  split <;> exact .ok _

/-- The reader of a loop finishes when the readers with one call less do. -/
theorem readFor_succ (line : Nat) (here : List Token) (left : 8 * here.length < bound + 1) :
    Finishes (readFor src (bound + 1) line here) := by
  rw [readFor]
  refine (readParens_finishes _ _).bind fun a parens => ?_
  have := (advances_readParens parens).shorter
  exact (forForm_finishes _ _).bind fun _ _ => (all.statement _ (by omega)).bind fun _ _ => .ok _

/-- The reader of what an attempt holds finishes when the readers that it calls do. -/
theorem readAttempt_finishes (line : Nat) (resources : Bool) (here : List Token)
    (left : 8 * here.length < bound) : Finishes (readAttempt src bound line resources here) := by
  refine (all.block _ left).bind fun a block => ?_
  have beyond := ((advancing src bound).block block).shorter
  refine (all.handlers _ _ (by omega)).bind fun b handled => ?_
  have beyond' := ((advancing src bound).handlers handled).length_le
  refine .ite (fun is_finally => ?_) fun _ => .ite (fun _ => .fail (by simp) _) fun _ => .ok _
  have := (Advances.word is_finally (by decide)).shorter
  exact (all.block _ (by omega)).bind fun _ _ => .ok _

/-- The reader of an attempt finishes when the readers with one call less do. -/
theorem readTry_succ (line : Nat) (here : List Token) (left : 8 * here.length + 1 < bound + 1) :
    Finishes (readTry src (bound + 1) line here) := by
  rw [readTry_eq]
  refine (readResources_finishes here).bind fun behind resources => ?_
  have := (passes_readResources resources).length_le
  exact all.readAttempt_finishes _ _ _ (by omega)

/-- The reader of handlers finishes when the readers with one call less do. -/
theorem readHandlers_succ (here : List Token) (done : List Statement)
    (left : 8 * here.length < bound + 1) : Finishes (readHandlers src (bound + 1) here done) := by
  rw [readHandlers]
  refine .ite (fun is_catch => ?_) fun _ => .ok _
  have := (Advances.word is_catch (by decide)).shorter
  split
  · rename_i failed
    exact Finishes.error (readParens_finishes _ _) failed
  · rename_i parens
    have := (advances_readParens parens).shorter
    split
    · rename_i failed
      exact Finishes.error (all.block _ (by omega)) failed
    · rename_i block
      have := ((advancing src bound).block block).shorter
      exact all.handlers _ _ (by omega)

/-- The reader of cases finishes when the readers with one call less do. -/
theorem readCases_succ (here : List Token) (done : List Statement)
    (left : 8 * here.length + 2 < bound + 1) : Finishes (readCases src (bound + 1) here done) := by
  rw [readCases]
  refine .ite (fun _ => .ok _) fun _ => .ite (fun _ => .fail (by simp) _) fun _ =>
    .ite (fun _ => ?_) fun _ => ?_
  · split
    · exact .fail (by simp) _
    · rename_i ended
      obtain ⟨rfl, -, -⟩ := until?_eq_some ended
      simp only [List.length_append, List.length_cons] at left
      exact all.choices _ _ (by omega)
  · split
    · rename_i failed
      exact Finishes.error (all.statement _ (by omega)) failed
    · rename_i first
      have := ((advancing src bound).statement first).shorter
      exact all.choices _ _ (by omega)

/-- The reader of a block finishes when the readers with one call less do. -/
theorem readBlock_succ (here : List Token) (left : 8 * here.length < bound + 1) :
    Finishes (readBlock src (bound + 1) here) := by
  rw [readBlock]
  refine (expect_finishes _ _).bind fun rest expected => ?_
  obtain ⟨opening, rfl, -⟩ := expect_eq_ok expected
  rw [List.length_cons] at left
  exact all.statements _ _ (by omega)

/-- The reader of the statements of a block finishes when the readers with one call less do. -/
theorem readBlockRest_succ (here : List Token) (done : List Statement)
    (left : 8 * here.length + 2 < bound + 1) :
    Finishes (readBlockRest src (bound + 1) here done) := by
  rw [readBlockRest]
  refine .ite (fun _ => .ok _) fun _ => .ite (fun _ => .fail (by simp) _) fun _ => ?_
  split
  · rename_i failed
    exact Finishes.error (all.statement _ (by omega)) failed
  · rename_i first
    have := ((advancing src bound).statement first).shorter
    exact all.statements _ _ (by omega)

/-- The reader of members finishes when the readers with one call less do. -/
theorem readMembers_succ (here : List Token) (done : List Statement)
    (left : 8 * here.length + 3 < bound + 1) :
    Finishes (readMembers src (bound + 1) here done) := by
  rw [readMembers]
  refine .ite (fun _ => .ok _) fun _ => .ite (fun _ => .fail (by simp) _) fun _ => ?_
  split
  · rename_i failed
    exact Finishes.error (all.member _ _ (by omega)) failed
  · rename_i first
    have := ((advancing src bound).member first).shorter
    exact all.members _ _ (by omega)

/-- The reader of a class finishes when the readers with one call less do. -/
theorem readClass_succ (here : List Token) (left : 8 * here.length < bound + 1) :
    Finishes (readClass src (bound + 1) here) := by
  rw [readClass]
  simp only
  generalize at_word : (if next here "@" = true then here.drop 1 else here) = tokens
  have short : tokens.length ≤ here.length := by
    rw [← at_word]
    split
    · exact (List.drop_suffix 1 here).length_le
    · exact Nat.le_refl _
  split
  · exact .fail (by simp) _
  · rename_i name rest behind
    refine .ite (fun _ => .fail (by simp) _) fun _ => ?_
    split
    · exact .fail (by simp) _
    · rename_i before brace inside ended
      refine .ite (fun _ => ?_) fun _ => ?_
      · split
        · exact .ok _
        · exact .fail (by simp) _
      · obtain ⟨rfl, -, -⟩ := until?_eq_some ended
        have within := (List.drop_suffix 1 tokens).length_le
        rw [behind] at within
        simp only [List.length_append, List.length_cons] at within
        exact (all.members _ _ (by omega)).bind fun _ _ => .ok _

/-- The reader of a body finishes when the readers that it calls do. -/
theorem readBody_finishes (line : Nat) (form : Form) (here : List Token)
    (left : 8 * here.length < bound) : Finishes (readBody src bound line form here) := by
  rw [readBody]
  exact .ite (fun _ => .ok _) fun _ => (all.block _ left).bind fun _ _ => .ok _

/-- The reader of a method finishes when the readers with one call less do. -/
theorem readMethod_succ (here : List Token) (left : 8 * here.length < bound + 1) :
    Finishes (readMethod src (bound + 1) here) := by
  cases here with
  | nil =>
    rw [readMethod]
    exact .fail (by simp) _
  | cons name here =>
    rw [readMethod_eq]
    split
    · exact .fail (by simp) _
    · rename_i inside rest divided
      refine (readThrows_finishes _).bind fun behind throws => ?_
      have shorter : behind.length < here.length :=
        Nat.lt_of_le_of_lt ((passes_skipDims rest).trans (passes_readThrows throws)).length_le
          (length_lt_of_enclosed divided)
      rw [List.length_cons] at left
      exact all.readBody_finishes _ _ _ (by omega)

/-- The reader of a member with a name finishes when the readers that it calls do. -/
theorem readNamed_finishes (topLevel : Bool) (start here : List Token)
    (left : 8 * start.length + 1 < bound) (short : here.length ≤ start.length) :
    Finishes (readNamed src bound topLevel start here) := by
  rw [readNamed]
  refine .ite (fun _ => (all.method _ (by omega)).bind fun _ _ => .ok _) fun _ => ?_
  split
  · rename_i is_method
    have := (atMethod?_eq_some is_method).1.length_le
    exact (all.method _ (by omega)).bind fun _ _ => .ok _
  · refine .ite (fun _ => all.statement _ left) fun _ => ?_
    split
    · exact .ok _
    · exact .fail (by simp) _

/-- The reader of a member finishes when the readers with one call less do. -/
theorem readMember_succ (topLevel : Bool) (here : List Token)
    (left : 8 * here.length + 2 < bound + 1) :
    Finishes (readMember src (bound + 1) topLevel here) := by
  rw [readMember_eq]
  have beyond := passes_skipModifiers (here.length + 1) here
  have short := beyond.length_le
  have short' := (beyond.trans (passes_skipTypeParams _)).length_le
  simp only
  exact .ite (fun _ => .ok _) fun _ =>
    .ite (fun _ => (all.block _ (by omega)).bind fun _ _ => .ok _) fun _ =>
    .ite (fun _ => (all.classDecl _ (by omega)).bind fun _ _ => .ok _) fun _ =>
    all.readNamed_finishes _ _ _ (by omega) short'

/-- The reader of statements asks for one word after the other. -/
theorem readStatement_succ (here : List Token) (left : 8 * here.length + 1 < bound + 1) :
    Finishes (readStatement src (bound + 1) here) := by
  rw [readStatement]
  refine .ite (fun _ => (all.block _ (by omega)).bind fun _ _ => .ok _) fun _ => ?_
  refine .ite (fun _ => .ok _) fun _ => ?_
  -- Whatever the word is, it is taken away before statements are read again.
  refine .ite (fun is_if => ?_) fun _ => ?_
  · have := (Advances.word is_if (by decide)).shorter
    refine (readParens_finishes _ _).bind fun a parens => ?_
    have := (advances_readParens parens).shorter
    refine (all.statement _ (by omega)).bind fun b first => ?_
    have := ((advancing src bound).statement first).shorter
    exact (all.alternative _ (by omega)).bind fun _ _ => .ok _
  refine .ite (fun is_for => ?_) fun _ => ?_
  · have := (Advances.word is_for (by decide)).shorter
    exact all.loop _ _ (by omega)
  refine .ite (fun is_while => ?_) fun _ => ?_
  · have := (Advances.word is_while (by decide)).shorter
    refine (readParens_finishes _ _).bind fun a parens => ?_
    have := (advances_readParens parens).shorter
    exact (all.statement _ (by omega)).bind fun _ _ => .ok _
  refine .ite (fun is_do => ?_) fun _ => ?_
  · have := (Advances.word is_do (by decide)).shorter
    exact (all.statement _ (by omega)).bind fun _ _ => (expect_finishes _ _).bind fun _ _ =>
      (readParens_finishes _ _).bind fun _ _ => (expect_finishes _ _).bind fun _ _ => .ok _
  refine .ite (fun is_try => ?_) fun _ => ?_
  · have := (Advances.word is_try (by decide)).shorter
    exact all.attempt _ _ (by omega)
  refine .ite (fun is_switch => ?_) fun _ => ?_
  · have := (Advances.word is_switch (by decide)).shorter
    refine (readParens_finishes _ _).bind fun a parens => ?_
    have := (advances_readParens parens).shorter
    refine (expect_finishes _ _).bind fun b expected => ?_
    obtain ⟨opening, opened, -⟩ := expect_eq_ok expected
    have := congrArg List.length opened
    rw [List.length_cons] at this
    exact (all.choices _ _ (by omega)).bind fun _ _ => .ok _
  refine .ite (fun _ => (readToSemicolon_finishes _).bind fun _ _ => .ok _) fun _ => ?_
  refine .ite (fun _ => (readToSemicolon_finishes _).bind fun _ _ => .ok _) fun _ => ?_
  refine .ite (fun is_synchronized => ?_) fun _ => ?_
  · have := (Advances.word is_synchronized (by decide)).shorter
    refine (readParens_finishes _ _).bind fun a parens => ?_
    have := (advances_readParens parens).shorter
    exact (all.block _ (by omega)).bind fun _ _ => .ok _
  refine .ite (fun _ => (all.classDecl _ (by omega)).bind fun _ _ => .ok _) fun _ => ?_
  refine .ite (fun _ => .fail (by simp) _) fun _ => ?_
  refine .ite (fun _ => .fail (by simp) _) fun _ => ?_
  refine .ite (fun _ => .fail (by simp) _) fun _ => ?_
  refine .ite (fun _ => .fail (by simp) _) fun _ => ?_
  refine .ite (fun label => ?_) fun _ => ?_
  · -- A label has at least its name.
    have : 0 < here.length := by
      cases here with
      | nil => cases label
      | cons _ _ => exact Nat.zero_lt_succ _
    exact all.statement _ (by rw [List.length_drop]; omega)
  refine .ite (fun _ => ?_) fun _ => (readToSemicolon_finishes _).bind fun _ _ => .ok _
  exact (readLocal_finishes _).bind fun _ _ => (expect_finishes _ _).bind fun _ _ => .ok _

end Enough

/-- **All readers have enough calls.** -/
theorem enough (src : Source) (bound : Nat) : Enough src bound := by
  induction bound with
  | zero => exact enough_zero src
  | succ bound all =>
    exact {
      statement := all.readStatement_succ
      alternative := all.readElse_succ
      loop := all.readFor_succ
      attempt := all.readTry_succ
      handlers := all.readHandlers_succ
      choices := all.readCases_succ
      block := all.readBlock_succ
      statements := all.readBlockRest_succ
      classDecl := all.readClass_succ
      members := all.readMembers_succ
      member := all.readMember_succ
      method := all.readMethod_succ }

/-- **The reader of a source has enough calls.** -/
theorem readUnit_finishes (here : List Token) (done : List Statement)
    (left : 8 * here.length + 3 < bound) : Finishes (readUnit src bound here done) := by
  induction bound generalizing here done with
  | zero => omega
  | succ bound ih =>
    rw [readUnit]
    refine .ite (fun _ => .ok _) fun _ => .ite (fun _ => ?_) fun _ => ?_
    · split
      · rename_i failed
        exact Finishes.error (readToSemicolon_finishes _) failed
      · rename_i ended
        have := (advances_readToSemicolon ended).shorter
        exact ih _ _ (by omega)
    · split
      · rename_i failed
        exact Finishes.error ((enough src bound).member _ _ (by omega)) failed
      · rename_i first
        have := ((advancing src bound).member first).shorter
        exact ih _ _ (by omega)

/-! ## Loops that pass over words -/

/-- Annotations are passed over until none is left, whatever the bound is. -/
theorem skipAnnotations_bound {bound' : Nat} (left : here.length ≤ bound)
    (left' : here.length ≤ bound') : skipAnnotations bound here = skipAnnotations bound' here := by
  induction bound generalizing here bound' with
  | zero =>
    rw [List.length_eq_zero_iff.1 (Nat.le_zero.1 left)]
    cases bound' <;> rfl
  | succ bound ih =>
    cases bound' with
    | zero =>
      rw [List.length_eq_zero_iff.1 (Nat.le_zero.1 left')]
      rfl
    | succ bound' =>
      by_cases marked : atAnnotation here = true
      · rw [skipAnnotations_succ marked, skipAnnotations_succ marked]
        have := length_annotation_lt marked
        exact ih (by omega) (by omega)
      · rw [skipAnnotations, if_neg marked, skipAnnotations, if_neg marked]

/-- Modifiers are passed over until none is left. -/
theorem skipModifiers_bound {bound' : Nat} (left : here.length < bound)
    (left' : here.length < bound') : skipModifiers bound here = skipModifiers bound' here := by
  induction bound generalizing here bound' with
  | zero => omega
  | succ bound ih =>
    cases bound' with
    | zero => omega
    | succ bound' =>
      have beyond := (passes_skipAnnotations here.length here).length_le
      rw [skipModifiers, skipModifiers]
      simp only
      split
      · rename_i t rest same
        rw [same, List.length_cons] at beyond
        rw [@ih rest bound' (by omega) (by omega)]
      · rfl

/-- The modifiers of a local variable are passed over until none is left. -/
theorem skipLocalModifiers_bound {bound' : Nat} (left : here.length < bound)
    (left' : here.length < bound') :
    skipLocalModifiers bound here = skipLocalModifiers bound' here := by
  induction bound generalizing here bound' with
  | zero => omega
  | succ bound ih =>
    cases bound' with
    | zero => omega
    | succ bound' =>
      rw [skipLocalModifiers, skipLocalModifiers]
      split
      · rename_i final
        have := (Advances.word final (by decide)).shorter
        exact ih (by omega) (by omega)
      · split
        · rename_i marked
          -- An annotation has at least its mark.
          have shorter : (skipAnnotations here.length here).length < here.length := by
            cases here with
            | nil => cases marked
            | cons mark rest =>
              rw [List.length_cons, skipAnnotations_succ marked]
              exact Nat.lt_of_le_of_lt (passes_skipAnnotations _ _).length_le
                (length_annotation_lt marked)
          exact ih (by omega) (by omega)
        · rfl

/-! ## Classes and methods -/

/-- A class that is read has tokens, wherever it is read. -/
theorem readClass_shorter {s : Statement} (read : readClass src bound here = .ok (s, there)) :
    there <:+ here ∧ there.length < here.length := by
  cases bound with
  | zero => cases read
  | succ bound =>
    obtain ⟨brace, inside, within, -, -, ⟨passed, found, -⟩ | body⟩ := readClass_eq_ok read
    · obtain ⟨close, rfl, -, -⟩ := enclosed?_eq_some found
      have suffix : there <:+ brace :: (passed ++ close :: there) :=
        ⟨brace :: (passed ++ [close]), by simp⟩
      have := within.length_le
      simp only [List.length_cons, List.length_append] at this
      exact ⟨suffix.trans within, by omega⟩
    · obtain ⟨close, -, beyond⟩ := (advancing src bound).members body
      have suffix := (List.suffix_cons close there).trans
        (beyond.suffix.trans (List.suffix_cons brace inside))
      have := beyond.length_le
      have := within.length_le
      simp only [List.length_cons] at *
      exact ⟨suffix.trans within, by omega⟩

/-- A method that is read has tokens, wherever it is read. -/
theorem readMethod_shorter {s : Statement} (read : readMethod src bound here = .ok (s, there)) :
    there <:+ here ∧ there.length < here.length := by
  cases bound with
  | zero => cases read
  | succ bound =>
    obtain ⟨name, params, inside, rest, behind, rfl, divided, thrown, body⟩ := readMethod_eq_ok read
    have within := suffix_of_enclosed divided
    have beyond := thrown.trans ((advancing src bound).readBody_eq_ok body).passes
    have := beyond.length_le
    have := within.length_le
    rw [List.length_cons]
    exact ⟨beyond.suffix.trans (within.trans (List.suffix_cons name params)), by omega⟩

/-! ## Sources -/

/-- The region of a byte is told without running out of calls. -/
theorem regionAt_ne_exhausted {c : UInt8} {t : Text}
    (failed : Braced.regionAt c t = .error fault) : fault ≠ .exhausted := by
  rw [Braced.regionAt] at failed
  split at failed
  · split at failed
    · cases failed
    · cases failed
      rintro ⟨⟩
  · split at failed
    · cases failed
    · split at failed
      · split at failed
        · cases failed
        · cases failed
          rintro ⟨⟩
      · cases failed

/-- Blanking finishes in every region. -/
theorem blank_finishes (region : Braced.Region) (line : Nat) (t out : Text) :
    Finishes (Braced.blank region line t out) := by
  induction t generalizing region line out with
  | nil =>
    rw [Braced.blank]
    exact .ok _
  | cons c t ih =>
    rw [Braced.blank.eq_def]
    simp only
    split
    · exact ih _ _ _
    · exact ih _ _ _
    · refine .ite (fun _ => ih _ _ _) fun _ => ?_
      split
      · rename_i failed
        rintro _ ⟨⟩
        exact regionAt_ne_exhausted failed
      all_goals exact ih _ _ _

/-- The check of brackets finishes. -/
theorem checkFrom_finishes (t : Text) (skip line : Nat) (open_ : List (UInt8 × Nat)) :
    Finishes (Braced.checkFrom t skip line open_) := by
  induction t generalizing skip line open_ with
  | nil =>
    cases open_ with
    | nil => exact .ok _
    | cons _ _ =>
      rintro _ ⟨⟩
      rintro ⟨⟩
  | cons c t ih =>
    cases skip with
    | succ skip =>
      simp only [Braced.checkFrom]
      exact ih _ _ _
    | zero =>
      simp only [Braced.checkFrom]
      refine .ite (fun _ => ih _ _ _) fun _ => .ite (fun _ => ih _ _ _) fun _ =>
        .ite (fun _ => ?_) fun _ => ih _ _ _
      split
      · refine .ite (fun _ => ih _ _ _) fun _ => ?_
        rintro _ ⟨⟩
        rintro ⟨⟩
      · rintro _ ⟨⟩
        rintro ⟨⟩

/-- A token is read without running out of calls. -/
theorem tokenAt_ne_exhausted {c : UInt8} {t : Text} (failed : tokenAt c t = .error fault) :
    fault ≠ .exhausted := by
  rw [tokenAt] at failed
  split at failed
  · cases failed
  · split at failed
    · cases failed
    · split at failed
      · split at failed
        · cases failed
        · cases failed
          rintro ⟨⟩
      · split at failed
        · cases failed
        · split at failed
          · cases failed
          · cases failed
            rintro ⟨⟩

/-- The reader of tokens finishes. -/
theorem tokensFrom_finishes (t : Text) (skip offset line : Nat) (done : List Token) :
    Finishes (tokensFrom t skip offset line done) := by
  induction t generalizing skip offset line done with
  | nil => exact .ok _
  | cons c t ih =>
    cases skip with
    | succ skip => exact ih _ _ _ _
    | zero =>
      rw [tokensFrom]
      refine .ite (fun _ => ih _ _ _ _) fun _ => ?_
      split
      · rename_i failed
        rintro _ ⟨⟩
        exact tokenAt_ne_exhausted failed
      · exact ih _ _ _ _

/-- **Reading a source ends** with a program or with a fault of the source. -/
theorem parse_finishes (source : Text) : Finishes (Program.parse source) := by
  rw [Program.parse]
  exact (blank_finishes _ _ _ _).bind fun code _ => (checkFrom_finishes _ _ _ _).bind fun _ _ =>
    (tokensFrom_finishes _ _ _ _ _).bind fun tokens _ =>
      (readUnit_finishes tokens [] (by omega)).bind fun _ _ => .ok _

end FlowTrace.Java
