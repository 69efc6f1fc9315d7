import FlowTrace.Proofs.Attempt
import FlowTrace.Proofs.Java.Partner
import FlowTrace.Proofs.Java.Tokens

/-! # Headers of loops

The header of a `for` statement is what stands in its parentheses. With a semicolon outside brackets
it is the header of a loop that counts, and declares the variables of its first part; without one,
and with a colon, that of a loop over items. The reader looks for the colon alone
(`readStatement_for`), so it goes by the shape of a header exactly when the header does not have
both (`follows_shape_iff`): the colon of a conditional expression makes a loop that counts one over
items, which declares nothing.

The first part of a header is read where it stands, with the rest of the header behind it. Nothing
behind a semicolon has a say in what is read in front of it (`readLocal_semicolon`), so the variables
are those that the part declares on its own. -/

namespace FlowTrace.Java

variable {src : Source} {t semi stop : Token} {tokens rest A B : List Token} {text : Text}

/-! ## In front of a semicolon -/

/-- What stands at the beginning is told without what is behind the next token. -/
theorem next_append_cons (A : List Token) (t : Token) (tail : List Token) (text : Text) :
    next (A ++ t :: tail) text = next (A ++ [t]) text := by
  cases A <;> rfl

/-- What is taken does not depend on what is left over. -/
theorem taken_append (A B rest : List Token) :
    taken (A ++ rest) (B ++ rest) = A.take (A.length - B.length) := by
  rw [taken, List.length_append, List.length_append, Nat.add_sub_add_right,
    List.take_append_of_le_length (Nat.sub_le _ _)]

/-- Tokens stand behind two more of them. -/
theorem suffix_cons_cons (x y : Token) (A : List Token) : A <:+ x :: y :: A :=
  (List.suffix_cons y A).trans (List.suffix_cons x (y :: A))

section Semicolon

variable (is_semi : semi.isPunct ";" = true)

include is_semi

/-- A semicolon is written as one. -/
theorem text_of_semicolon : semi.text = ";" := by
  simp only [Token.isPunct, Bool.and_eq_true, beq_iff_eq] at is_semi
  exact is_semi.2

/-- A semicolon is no name. -/
theorem not_ident_of_semicolon : (semi.kind == .ident) = false := by
  simp only [Token.isPunct, Bool.and_eq_true, beq_iff_eq] at is_semi
  rw [is_semi.1]
  rfl

/-- A semicolon is no bracket. -/
theorem not_bracket_of_semicolon : semi.isOpening = false ∧ semi.isClosing = false := by
  simp only [Token.isPunct, Bool.and_eq_true, beq_iff_eq] at is_semi
  rw [Token.isOpening, Token.isClosing, is_semi.1, is_semi.2]
  decide

/-- A dotted name does not go on behind a semicolon. -/
theorem skipDotted_semicolon (part : Text) : ∀ A : List Token, ∃ base B, B <:+ A ∧
    ∀ tail, skipDotted part (A ++ semi :: tail) = (base, B ++ semi :: tail)
  | [] => ⟨part, [], List.suffix_refl _, fun tail => skipDotted_of_not_next part
      (next_of_isPunct_ne is_semi (by decide) tail)⟩
  | [x] => by
    refine ⟨part, [x], List.suffix_refl _, fun tail => ?_⟩
    show skipDotted part (x :: semi :: tail) = _
    rw [skipDotted, not_ident_of_semicolon is_semi, Bool.and_false, if_neg Bool.false_ne_true]
    rfl
  | x :: y :: A => by
    by_cases goes_on : (next [x] "." && y.kind == .ident) = true
    · obtain ⟨base, B, short, read⟩ := skipDotted_semicolon y.text A
      refine ⟨base, B, short.trans (suffix_cons_cons x y A), fun tail => ?_⟩
      show skipDotted part (x :: y :: (A ++ semi :: tail)) = _
      rw [skipDotted, if_pos goes_on, read]
    · refine ⟨part, x :: y :: A, List.suffix_refl _, fun tail => ?_⟩
      show skipDotted part (x :: y :: (A ++ semi :: tail)) = _
      rw [skipDotted, if_neg goes_on]
      rfl

/-- Pairs of square brackets do not go on behind a semicolon. -/
theorem skipDims_semicolon : ∀ A : List Token, ∃ dims B, B <:+ A ∧
    ∀ tail, skipDims (A ++ semi :: tail) = (dims, B ++ semi :: tail)
  | [] => ⟨false, [], List.suffix_refl _, fun tail => skipDims_of_not_next
      (next_of_isPunct_ne is_semi (by decide) tail)⟩
  | [x] => by
    refine ⟨false, [x], List.suffix_refl _, fun tail => ?_⟩
    have no_bracket : (semi.text == "]") = false := by
      rw [text_of_semicolon is_semi]
      decide
    show skipDims (x :: semi :: tail) = _
    rw [skipDims, no_bracket, Bool.and_false, if_neg Bool.false_ne_true]
    rfl
  | x :: y :: A => by
    by_cases goes_on : (next [x] "[" && y.text == "]") = true
    · obtain ⟨dims, B, short, read⟩ := skipDims_semicolon A
      refine ⟨true, B, short.trans (suffix_cons_cons x y A), fun tail => ?_⟩
      show skipDims (x :: y :: (A ++ semi :: tail)) = _
      rw [skipDims, if_pos goes_on, read]
    · refine ⟨false, x :: y :: A, List.suffix_refl _, fun tail => ?_⟩
      show skipDims (x :: y :: (A ++ semi :: tail)) = _
      rw [skipDims, if_neg goes_on]
      rfl

/-- Angle brackets do not go on behind a semicolon. -/
theorem skipAngles?_semicolon (A : List Token) (depth : Nat) :
    (∀ tail, skipAngles? (A ++ semi :: tail) depth = none) ∨
      ∃ B, B <:+ A ∧
        ∀ tail, skipAngles? (A ++ semi :: tail) depth = some (B ++ semi :: tail) := by
  -- What is left of the tokens behind the first one is left of all of them.
  have shorter (x : Token) {A : List Token} {P : List Token → Prop} :
      (∃ B, B <:+ A ∧ P B) → ∃ B, B <:+ x :: A ∧ P B :=
    Exists.imp fun _ => And.imp_left fun short => short.trans (List.suffix_cons x A)
  induction A generalizing depth with
  | nil =>
    refine Or.inl fun tail => ?_
    have listed : angleStops.contains semi.text = true ∧ (semi.text == "<") = false ∧
        (semi.text == ">") = false := by
      rw [text_of_semicolon is_semi]
      decide
    rw [List.nil_append, skipAngles?, listed.1, listed.2.1, listed.2.2]
    rfl
  | cons x A ih =>
    simp only [List.cons_append, skipAngles?]
    split
    · exact (ih _).imp_right (shorter x)
    · split
      · split
        · exact Or.inr ⟨A, List.suffix_cons x A, fun _ => rfl⟩
        · exact (ih _).imp_right (shorter x)
      · split
        · exact Or.inl fun _ => rfl
        · exact (ih _).imp_right (shorter x)

/-- **A type** does not go on behind a semicolon. -/
theorem readType?_semicolon (src : Source) (A : List Token) :
    (∀ tail, readType? src (A ++ semi :: tail) = none) ∨
      ∃ type base B, ∀ tail, readType? src (A ++ semi :: tail) =
        some (type, base, B ++ semi :: tail) := by
  cases A with
  | nil =>
    refine Or.inl fun tail => ?_
    rw [List.nil_append, readType?, not_ident_of_semicolon is_semi, Bool.false_and,
      if_neg Bool.false_ne_true]
  | cons x A =>
    by_cases named : (x.kind == .ident && !reserved.contains x.text) = true
    · obtain ⟨base, B, -, parts⟩ := skipDotted_semicolon is_semi x.text A
      -- What follows the first name and its type arguments.
      have behind (C : List Token) : ∃ type base' D, ∀ tail,
          (let there := skipDotted base (C ++ semi :: tail)
          let rest := (skipDims there.2).2
          let rest := if next rest "..." then rest.drop 1 else rest
          some (src.text (taken (x :: (A ++ semi :: tail)) rest), there.1, rest)) =
            some (type, base', D ++ semi :: tail) := by
        obtain ⟨base', D, -, more⟩ := skipDotted_semicolon is_semi base C
        obtain ⟨dims, E, -, beyond⟩ := skipDims_semicolon is_semi D
        obtain ⟨F, ends⟩ : ∃ F, ∀ tail, (if next (E ++ semi :: tail) "..." then
            (E ++ semi :: tail).drop 1 else E ++ semi :: tail) = F ++ semi :: tail := by
          cases E with
          | nil =>
            refine ⟨[], fun tail => ?_⟩
            rw [List.nil_append, next_of_isPunct_ne is_semi (by decide)]
            rfl
          | cons e E =>
            by_cases dots : next (e :: E ++ [semi]) "..." = true
            · exact ⟨E, fun tail => by rw [next_append_cons, if_pos dots]; rfl⟩
            · exact ⟨e :: E, fun tail => by rw [next_append_cons, if_neg dots]⟩
        refine ⟨src.text ((x :: A).take ((x :: A).length - F.length)), base', F, fun tail => ?_⟩
        simp only [more, beyond, ends, ← List.cons_append, taken_append]
      have angle (tail : List Token) : next (B ++ semi :: tail) "<" = next (B ++ [semi]) "<" :=
        next_append_cons B semi tail "<"
      cases opens : next (B ++ [semi]) "<" with
      | true =>
        refine (skipAngles?_semicolon is_semi B 0).imp (fun none tail => ?_) ?_
        · rw [List.cons_append, readType?, if_pos named, parts]
          simp only [angle, opens, if_true, none]
          rfl
        · rintro ⟨C, -, beyond⟩
          obtain ⟨type, base', D, read⟩ := behind C
          refine ⟨type, base', D, fun tail => ?_⟩
          rw [List.cons_append, readType?, if_pos named, parts]
          simp only [angle, opens, if_true, beyond]
          exact read tail
      | false =>
        obtain ⟨type, base', D, read⟩ := behind B
        refine Or.inr ⟨type, base', D, fun tail => ?_⟩
        rw [List.cons_append, readType?, if_pos named, parts]
        simp only [angle, opens, Bool.false_eq_true, if_false]
        exact read tail
    · refine Or.inl fun tail => ?_
      rw [List.cons_append, readType?, if_neg named]

/-! ## Declarations in front of a semicolon -/

/-- Where no type begins, and no modifier: at a parenthesis, or at the end. -/
def NoType (tokens : List Token) : Prop :=
  next tokens "final" = false ∧ next tokens "@" = false ∧ identAt tokens 0 = false

omit is_semi in
/-- Where no type begins there are no annotations. -/
theorem NoType.skipAnnotations_eq (none : NoType tokens) (bound : Nat) :
    skipAnnotations bound tokens = tokens := by
  cases bound with
  | zero => rfl
  | succ bound =>
    rw [skipAnnotations, atAnnotation, none.2.1, Bool.false_and, if_neg Bool.false_ne_true]

omit is_semi in
/-- Where no type begins there are no modifiers. -/
theorem NoType.skipLocalModifiers_eq (none : NoType tokens) (bound : Nat) :
    skipLocalModifiers bound tokens = tokens := by
  cases bound with
  | zero => rfl
  | succ bound =>
    rw [skipLocalModifiers, none.1, atAnnotation, none.2.1, Bool.false_and,
      if_neg Bool.false_ne_true, if_neg Bool.false_ne_true]

omit is_semi in
/-- Where no type begins none is read. -/
theorem NoType.readType?_eq (untyped : NoType tokens) (src : Source) :
    readType? src tokens = none := by
  cases tokens with
  | nil => rfl
  | cons x rest =>
    have not_ident : (x.kind == .ident) = false := untyped.2.2
    rw [readType?, not_ident, Bool.false_and, if_neg Bool.false_ne_true]

omit is_semi in
/-- No type begins with a parenthesis. -/
theorem noType_of_paren (genuine : t.Genuine) (opens : next (t :: rest) "(" = true) :
    NoType (t :: rest) := by
  have paren : t.isPunct "(" = true := by
    simp only [next, Bool.and_eq_true, beq_iff_eq] at opens
    exact genuine.isPunct (by decide) opens.2
  refine ⟨next_of_isPunct_ne paren (by decide) rest, next_of_isPunct_ne paren (by decide) rest, ?_⟩
  simp only [Token.isPunct, Bool.and_eq_true, beq_iff_eq] at paren
  show (t.kind == .ident) = false
  rw [paren.1]
  rfl

/-- A parenthesis in front of a semicolon either has its partner there, or has none without what is
behind the semicolon. -/
theorem enclosed?_semicolon (A : List Token) (opens : next (A ++ [semi]) "(" = true) :
    enclosed? (A ++ [semi]) = none ∨
      ∃ inside B, B <:+ A.tail ∧ ∀ tail, enclosed? (A ++ semi :: tail) =
        some (inside, B ++ semi :: tail) := by
  cases A with
  | nil => rw [List.nil_append, next_of_isPunct_ne is_semi (by decide)] at opens; cases opens
  | cons x A =>
    cases found : enclosed? (x :: A ++ [semi]) with
    | none => exact Or.inl rfl
    | some divided =>
      obtain ⟨inside, rest⟩ := divided
      obtain ⟨close, split, closes, -⟩ := enclosed?_eq_some found
      -- The semicolon is no bracket, so it stands behind the partner.
      rcases List.eq_nil_or_concat rest with rfl | ⟨B, last, rfl⟩
      · obtain ⟨-, same⟩ := List.append_inj' split rfl
        cases same
        have is_semi := text_of_semicolon is_semi
        rw [Token.isClosing, is_semi, Bool.and_eq_true] at closes
        exact absurd closes.2 (by decide)
      · rw [List.concat_eq_append] at split found
        have split' : A ++ [semi] = (inside ++ close :: B) ++ [last] := by
          rw [List.append_assoc, List.cons_append]
          exact split
        obtain ⟨rfl, same⟩ := List.append_inj' split' rfl
        cases same
        refine Or.inr ⟨inside, B, ⟨inside ++ [close], by simp⟩, fun tail => ?_⟩
        have longer := enclosed?_append found tail
        rwa [List.append_assoc, List.append_assoc] at longer

/-- The arguments of an annotation in front of a semicolon. -/
theorem skipArguments_semicolon (A : List Token) (genuine : ∀ t ∈ A, t.Genuine) :
    (∃ B, B <:+ A ∧ ∀ tail, skipArguments (A ++ semi :: tail) = B ++ semi :: tail) ∨
      NoType (skipArguments (A ++ [semi])) := by
  cases opens : next (A ++ [semi]) "(" with
  | false =>
    refine Or.inl ⟨A, List.suffix_refl _, fun tail => ?_⟩
    rw [skipArguments, next_append_cons, opens, if_neg Bool.false_ne_true]
  | true =>
    rcases enclosed?_semicolon is_semi A opens with missing | ⟨inside, B, short, found⟩
    · refine Or.inr ?_
      rw [skipArguments, opens, if_pos rfl, missing]
      cases A with
      | nil => rw [List.nil_append, next_of_isPunct_ne is_semi (by decide)] at opens; cases opens
      | cons x A => exact noType_of_paren (genuine x List.mem_cons_self) opens
    · refine Or.inl ⟨B, short.trans (List.tail_suffix A), fun tail => ?_⟩
      rw [skipArguments, next_append_cons, opens, if_pos rfl, found]

/-- Whether an annotation begins is told in front of a semicolon. -/
theorem atAnnotation_semicolon (A tail : List Token) :
    atAnnotation (A ++ semi :: tail) = atAnnotation (A ++ [semi]) := by
  rcases A with - | ⟨x, - | ⟨y, A⟩⟩
  · rw [List.nil_append, List.nil_append, atAnnotation, atAnnotation,
      next_of_isPunct_ne is_semi (by decide), next_of_isPunct_ne is_semi (by decide)]
    rfl
  · rfl
  · rfl

/-- **Annotations** in front of a semicolon: either they end in front of it, or what is left without
anything behind the semicolon begins no type. The two differ where a mark of an annotation stands
next to the semicolon, which is then taken for its name. -/
theorem skipAnnotations_semicolon (A : List Token) (genuine : ∀ t ∈ A, t.Genuine) :
    (∃ B, B <:+ A ∧ ( atAnnotation (A ++ [semi]) = true → B.length < A.length) ∧
      ∀ bound, A.length < bound → ∀ tail,
        skipAnnotations bound (A ++ semi :: tail) = B ++ semi :: tail) ∨
    ∀ bound, A.length < bound → NoType (skipAnnotations bound (A ++ [semi])) := by
  have begins_alike := atAnnotation_semicolon is_semi A
  by_cases marked : atAnnotation (A ++ [semi]) = true
  · match A with
    | [] =>
      rw [List.nil_append, atAnnotation, next_of_isPunct_ne is_semi (by decide)] at marked
      cases marked
    | [x] =>
      -- The semicolon is taken for the name of the annotation.
      refine Or.inr fun bound long => ?_
      obtain ⟨bound, rfl⟩ := Nat.exists_eq_add_of_le' (Nat.zero_lt_of_lt long)
      have ended : NoType [] := ⟨rfl, rfl, rfl⟩
      rw [skipAnnotations_succ marked]
      exact (ended.skipAnnotations_eq bound).symm ▸ ended
    | x :: y :: A =>
      obtain ⟨base, B, short, parts⟩ := skipDotted_semicolon is_semi [] A
      have shorter : B <:+ x :: y :: A := short.trans (suffix_cons_cons x y A)
      have step (bound : Nat) (tail : List Token) :
          skipAnnotations (bound + 1) (x :: y :: A ++ semi :: tail) =
            skipAnnotations bound (skipArguments (B ++ semi :: tail)) := by
        rw [skipAnnotations_succ (by rw [begins_alike, marked])]
        show skipAnnotations bound (skipArguments (skipDotted [] (A ++ semi :: tail)).2) = _
        rw [parts]
      rcases skipArguments_semicolon is_semi B fun t member => genuine t (shorter.subset member)
        with ⟨C, within, beyond⟩ | stuck
      · have length_le := (within.trans short).length_le
        rcases skipAnnotations_semicolon C fun t member =>
            genuine t ((within.trans shorter).subset member) with ⟨D, inner, -, read⟩ | stuck
        · have shorter' : D.length < (x :: y :: A).length := by
            have := inner.length_le
            simp only [List.length_cons]
            omega
          refine Or.inl ⟨D, inner.trans (within.trans shorter), fun _ => shorter',
            fun bound long tail => ?_⟩
          obtain ⟨bound, rfl⟩ := Nat.exists_eq_add_of_le' (Nat.zero_lt_of_lt long)
          rw [step, beyond]
          exact read bound (by simp only [List.length_cons] at long; omega) tail
        · refine Or.inr fun bound long => ?_
          obtain ⟨bound, rfl⟩ := Nat.exists_eq_add_of_le' (Nat.zero_lt_of_lt long)
          rw [step, beyond]
          exact stuck bound (by simp only [List.length_cons] at long; omega)
      · refine Or.inr fun bound long => ?_
        obtain ⟨bound, rfl⟩ := Nat.exists_eq_add_of_le' (Nat.zero_lt_of_lt long)
        rw [step, stuck.skipAnnotations_eq]
        exact stuck
  · refine Or.inl ⟨A, List.suffix_refl _, fun here => absurd here marked, fun bound long tail => ?_⟩
    obtain ⟨bound, rfl⟩ := Nat.exists_eq_add_of_le' (Nat.zero_lt_of_lt long)
    rw [skipAnnotations, begins_alike, if_neg marked]
termination_by A.length
decreasing_by
  simp only [List.length_cons]
  omega

/-- **Modifiers** of a local variable in front of a semicolon, likewise. -/
theorem skipLocalModifiers_semicolon (A : List Token) (genuine : ∀ t ∈ A, t.Genuine) :
    (∃ B, B <:+ A ∧ ∀ bound, A.length < bound → ∀ tail,
      skipLocalModifiers bound (A ++ semi :: tail) = B ++ semi :: tail) ∨
    ∀ bound, A.length < bound → NoType (skipLocalModifiers bound (A ++ [semi])) := by
  -- Reading goes on with fewer tokens.
  have go_on (B : List Token) (short : B <:+ A) (shorter : B.length < A.length)
      (step : ∀ bound tail, skipLocalModifiers (bound + 1) (A ++ semi :: tail) =
        skipLocalModifiers bound (B ++ semi :: tail)) :
      (∃ B, B <:+ A ∧ ∀ bound, A.length < bound → ∀ tail,
        skipLocalModifiers bound (A ++ semi :: tail) = B ++ semi :: tail) ∨
      ∀ bound, A.length < bound → NoType (skipLocalModifiers bound (A ++ [semi])) := by
    rcases skipLocalModifiers_semicolon B fun t member => genuine t (short.subset member)
      with ⟨C, inner, read⟩ | stuck
    · refine Or.inl ⟨C, inner.trans short, fun bound long tail => ?_⟩
      obtain ⟨bound, rfl⟩ := Nat.exists_eq_add_of_le' (Nat.zero_lt_of_lt long)
      rw [step]
      exact read bound (by omega) tail
    · refine Or.inr fun bound long => ?_
      obtain ⟨bound, rfl⟩ := Nat.exists_eq_add_of_le' (Nat.zero_lt_of_lt long)
      rw [step]
      exact stuck bound (by omega)
  cases final : next (A ++ [semi]) "final" with
  | true =>
    cases A with
    | nil => rw [List.nil_append, next_of_isPunct_ne is_semi (by decide)] at final; cases final
    | cons x A =>
      refine go_on A (List.suffix_cons x A) (Nat.lt_succ_self _) fun bound tail => ?_
      rw [skipLocalModifiers, next_append_cons, final, if_pos rfl]
      rfl
  | false =>
    cases marked : atAnnotation (A ++ [semi]) with
    | true =>
      have step (bound : Nat) (tail : List Token) :
          skipLocalModifiers (bound + 1) (A ++ semi :: tail) = skipLocalModifiers bound
            (skipAnnotations (A ++ semi :: tail).length (A ++ semi :: tail)) := by
        rw [skipLocalModifiers, next_append_cons, final, atAnnotation_semicolon is_semi, marked,
          if_neg Bool.false_ne_true, if_pos rfl]
      have long (tail : List Token) : A.length < (A ++ semi :: tail).length := by
        simp only [List.length_append, List.length_cons]
        omega
      rcases skipAnnotations_semicolon is_semi A genuine with ⟨B, short, shorter, read⟩ | stuck
      · exact go_on B short (shorter marked) fun bound tail => by rw [step, read _ (long tail)]
      · refine Or.inr fun bound _ => ?_
        obtain ⟨bound, rfl⟩ : ∃ k, bound = k + 1 := Nat.exists_eq_add_of_le' (by omega)
        have none := stuck _ (long [])
        rw [step, none.skipLocalModifiers_eq]
        exact none
    | false =>
      refine Or.inl ⟨A, List.suffix_refl _, fun bound long tail => ?_⟩
      obtain ⟨bound, rfl⟩ := Nat.exists_eq_add_of_le' (Nat.zero_lt_of_lt long)
      rw [skipLocalModifiers, next_append_cons, final, atAnnotation_semicolon is_semi, marked,
        if_neg Bool.false_ne_true, if_neg Bool.false_ne_true]
termination_by A.length

/-- What begins a further declarator is told in front of a semicolon. -/
theorem declarator_semicolon (A tail : List Token) :
    (identAt (A ++ semi :: tail) 0 && declaratorMarks.contains (textAt (A ++ semi :: tail) 1)) =
      (identAt (A ++ [semi]) 0 && declaratorMarks.contains (textAt (A ++ [semi]) 1)) := by
  rcases A with - | ⟨x, - | ⟨y, A⟩⟩
  · have no_name (tail : List Token) : identAt (semi :: tail) 0 = false :=
      not_ident_of_semicolon is_semi
    rw [List.nil_append, List.nil_append, no_name, no_name, Bool.false_and, Bool.false_and]
  · rfl
  · rfl

/-- **An initial value** that ends in front of a semicolon, or at it, ends there whatever follows. -/
theorem untilDeclarator?_semicolon {bound : Nat} {A init rest : List Token}
    (found : untilDeclarator? bound (A ++ [semi]) = some (init, rest)) :
    ∃ B, rest = B ++ [semi] ∧ ∀ more, bound ≤ more → ∀ tail,
      untilDeclarator? more (A ++ semi :: tail) = some (init, B ++ semi :: tail) := by
  induction bound generalizing A init rest with
  | zero => cases found
  | succ bound ih =>
    rw [untilDeclarator?] at found
    cases ended : until? [",", ";", ":", ")"] (A ++ [semi]) with
    | none => rw [ended] at found; cases found
    | some divided =>
      obtain ⟨before, stop, behind⟩ := divided
      have longer (tail : List Token) : until? [",", ";", ":", ")"] (A ++ semi :: tail) =
          some (before, stop, behind ++ tail) := by
        have same := untilFrom?_mono ended tail
        rwa [List.append_assoc] at same
      rw [ended] at found
      simp only at found
      obtain ⟨split, -, -⟩ := until?_eq_some ended
      -- The stop is the semicolon, or the semicolon is behind it.
      rcases List.eq_nil_or_concat behind with rfl | ⟨C, last, rfl⟩
      · obtain ⟨rfl, same⟩ := List.append_inj' split rfl
        cases same
        have no_comma : (semi.text != ",") = true := by
          rw [text_of_semicolon is_semi]
          decide
        rw [no_comma, Bool.true_or, if_pos rfl] at found
        cases found
        refine ⟨[], rfl, fun more le tail => ?_⟩
        obtain ⟨more, rfl⟩ := Nat.exists_eq_add_of_le' (Nat.zero_lt_of_lt le)
        simp only [untilDeclarator?, longer, no_comma, Bool.true_or, if_true, List.nil_append]
      · rw [List.concat_eq_append] at split longer found
        have split' : A ++ [semi] = (before ++ stop :: C) ++ [last] := by
          rw [split, List.append_assoc, List.cons_append]
        obtain ⟨rfl, same⟩ := List.append_inj' split' rfl
        cases same
        simp only [List.append_assoc, List.cons_append, List.nil_append] at longer
        split at found
        · rename_i here
          cases found
          refine ⟨stop :: C, rfl, fun more le tail => ?_⟩
          obtain ⟨more, rfl⟩ := Nat.exists_eq_add_of_le' (Nat.zero_lt_of_lt le)
          simp only [untilDeclarator?, longer, List.append_assoc, List.cons_append]
          rw [declarator_semicolon is_semi, if_pos here]
        · rename_i passed
          split at found
          · rename_i inner behind read
            cases found
            obtain ⟨D, rfl, onward⟩ := ih read
            refine ⟨D, rfl, fun more le tail => ?_⟩
            obtain ⟨more, rfl⟩ := Nat.exists_eq_add_of_le' (Nat.zero_lt_of_lt le)
            simp only [untilDeclarator?, longer, List.append_assoc, List.cons_append]
            rw [declarator_semicolon is_semi, if_neg passed, onward more (by omega)]
          · cases found

/-- **Declarators** that are read up to a semicolon are read so whatever follows. -/
theorem readDeclarators_semicolon {src : Source} {type base : Text} {bound : Nat}
    {A rest : List Token} {done vars : List Variable}
    (read : readDeclarators src type base bound (A ++ [semi]) done = .ok (vars, rest)) :
    ∃ B, rest = B ++ [semi] ∧ ∀ more, bound ≤ more → ∀ tail,
      readDeclarators src type base more (A ++ semi :: tail) done = .ok (vars, B ++ semi :: tail) := by
  induction bound generalizing A rest done vars with
  | zero => cases read
  | succ bound ih =>
    cases A with
    | nil =>
      have not_ident : (semi.kind != .ident) = true := by
        rw [bne, not_ident_of_semicolon is_semi]
        rfl
      rw [List.nil_append, readDeclarators, if_pos not_ident] at read
      cases read
    | cons x A =>
      obtain ⟨dims, B, -, beyond⟩ := skipDims_semicolon is_semi A
      rw [List.cons_append, readDeclarators] at read
      split at read
      · cases read
      · rename_i named
        -- Behind a declarator another one follows a comma.
        have finish (v : Variable) (C : List Token)
            (read : (if next (C ++ [semi]) "," then
                readDeclarators src type base bound ((C ++ [semi]).drop 1) (v :: done)
              else .ok ((v :: done).reverse, C ++ [semi])) = .ok (vars, rest)) :
            ∃ D, rest = D ++ [semi] ∧ ∀ more, bound ≤ more → ∀ tail,
              (if next (C ++ semi :: tail) "," then
                readDeclarators src type base more ((C ++ semi :: tail).drop 1) (v :: done)
              else .ok ((v :: done).reverse, C ++ semi :: tail)) = .ok (vars, D ++ semi :: tail) := by
          split at read
          · rename_i comma
            cases C with
            | nil => rw [List.nil_append, next_of_isPunct_ne is_semi (by decide)] at comma; cases comma
            | cons c C =>
              obtain ⟨D, rfl, onward⟩ := ih read
              refine ⟨D, rfl, fun more le tail => ?_⟩
              rw [next_append_cons, if_pos comma]
              exact onward more le tail
          · rename_i no_comma
            cases read
            exact ⟨C, rfl, fun more le tail => by rw [next_append_cons, if_neg no_comma]⟩
        rw [beyond] at read
        simp only at read
        split at read
        · rename_i assigns
          cases B with
          | nil =>
            rw [List.nil_append, next_of_isPunct_ne is_semi (by decide)] at assigns
            cases assigns
          | cons eq B =>
            split at read
            · cases read
            · rename_i init behind divided
              obtain ⟨C, rfl, initial⟩ := untilDeclarator?_semicolon is_semi divided
              obtain ⟨D, rfl, onward⟩ := finish _ C read
              refine ⟨D, rfl, fun more le tail => ?_⟩
              obtain ⟨more, rfl⟩ := Nat.exists_eq_add_of_le' (Nat.zero_lt_of_lt le)
              rw [List.cons_append, readDeclarators, if_neg named, beyond]
              have value := initial ((B ++ semi :: tail).length + 1) (by
                simp only [List.cons_append, List.drop_one, List.tail_cons, List.length_append,
                  List.length_cons, List.length_nil]
                omega) tail
              have assigns' : next (eq :: B ++ semi :: tail) "=" = true := by
                rw [next_append_cons, assigns]
              simp only
              rw [if_pos assigns']
              rw [show (eq :: B ++ semi :: tail).drop 1 = B ++ semi :: tail from rfl, value]
              exact onward more (by omega) tail
        · rename_i assigns
          obtain ⟨D, rfl, onward⟩ := finish _ B read
          refine ⟨D, rfl, fun more le tail => ?_⟩
          obtain ⟨more, rfl⟩ := Nat.exists_eq_add_of_le' (Nat.zero_lt_of_lt le)
          rw [List.cons_append, readDeclarators, if_neg named, beyond]
          simp only
          rw [next_append_cons B semi tail "=", if_neg assigns]
          exact onward more (by omega) tail

/-- **A declaration of local variables** that is read up to its semicolon is read so whatever
follows. -/
theorem readLocal_semicolon {src : Source} {A : List Token} {last : Token} {vars : List Variable}
    (genuine : ∀ t ∈ A, t.Genuine) (at_local : atLocal src (A ++ [semi]) = true)
    (read : readLocal src (A ++ [semi]) = .ok (vars, [last])) (tail : List Token) :
    atLocal src (A ++ semi :: tail) = true ∧
      readLocal src (A ++ semi :: tail) = .ok (vars, semi :: tail) := by
  have long (tail : List Token) : A.length < (A ++ semi :: tail).length + 1 := by
    simp only [List.length_append, List.length_cons]
    omega
  -- Modifiers, a type and the declarators are read without looking behind the semicolon.
  rcases skipLocalModifiers_semicolon is_semi A genuine with ⟨B, -, beyond⟩ | stuck
  · rw [atLocal, beyond _ (long [])] at at_local
    rw [readLocal, beyond _ (long [])] at read
    rcases readType?_semicolon is_semi src B with untyped | ⟨type, base, C, typed⟩
    · rw [untyped] at at_local
      cases at_local
    · rw [typed] at at_local read
      obtain ⟨D, same, onward⟩ := readDeclarators_semicolon is_semi read
      obtain rfl : D = [] := by
        have := congrArg List.length same
        simpa using this
      constructor
      · rw [atLocal, beyond _ (long tail), typed]
        -- Of what is behind the type, at most two tokens decide.
        rcases C with - | ⟨c, - | ⟨d, C⟩⟩
        · have no_name : (semi.kind == .ident) = false := not_ident_of_semicolon is_semi
          simp only [List.nil_append, no_name, Bool.false_and] at at_local
          cases at_local
        · exact at_local
        · exact at_local
      · rw [readLocal, beyond _ (long tail)]
        simp only [typed]
        exact onward _ (by simp) tail
  · have none := stuck _ (long [])
    rw [atLocal, none.readType?_eq] at at_local
    cases at_local

end Semicolon

/-! ## Headers -/

/-- The **header** of a loop: the tokens in the parentheses behind its first word. -/
def IsHeader (tokens header : List Token) : Prop :=
  ∃ word opening close body, tokens = word :: opening :: (header ++ close :: body) ∧
    next [opening] "(" = true ∧ close.isClosing = true ∧ balanced header 0 = true

/-- A header **has a semicolon** when one stands outside its brackets. -/
def HasSemicolon (header : List Token) : Prop := ∃ t ∈ outside header 0, t.isPunct ";" = true

/-- A part that ends with a semicolon **declares** variables when the whole of it is a declaration of
these. -/
def Declares (src : Source) (part : List Token) (vars : List Variable) : Prop :=
  atLocal src part = true ∧ ∃ semi, readLocal src part = .ok (vars, [semi])

/-- A form **follows the shape** of a header: with a semicolon it is a loop that counts, with the
variables that the first part declares, and it is a loop over items only with a colon and without a
semicolon. -/
structure FollowsShape (src : Source) (header : List Token) (form : Form) : Prop where
  /-- A loop that counts. -/
  counts : HasSemicolon header → ∃ vars, form = .forLoop (src.text header) vars
  /-- Its variables. -/
  declares {init more : List Token} {semi : Token} {vars : List Variable} :
    until? [";"] header = some (init, semi, more) → Declares src (init ++ [semi]) vars →
      form = .forLoop (src.text header) vars
  /-- A loop over items. -/
  items {text : Text} : form = .forEach text → HasColon header ∧ ¬ HasSemicolon header

variable {bound line : Nat} {header after : List Token} {form : Form}

/-- What stands in the parentheses behind a word is a header. -/
theorem isHeader_of_readParens (word : Token)
    (read : readParens src text rest = .ok (header, after)) :
    IsHeader (word :: rest) header ∧ ∃ opening close, rest = opening :: (header ++ close :: after) := by
  obtain ⟨opens, divided⟩ := readParens_eq_ok read
  cases rest with
  | nil => cases opens
  | cons opening rest =>
    obtain ⟨close, rfl, closes, even⟩ := enclosed?_eq_some divided
    exact ⟨⟨word, opening, close, after, rfl, opens, closes, even⟩, opening, close, rfl⟩

/-- The tokens of a header are balanced. -/
theorem IsHeader.even (is_header : IsHeader tokens header) : balanced header 0 = true := by
  obtain ⟨-, -, -, -, -, -, -, even⟩ := is_header
  exact even

/-- There is one header only. -/
theorem IsHeader.unique {other : List Token} (is_header : IsHeader tokens header)
    (is_other : IsHeader tokens other) : header = other := by
  obtain ⟨word, opening, close, body, rfl, -, closes, even⟩ := is_header
  obtain ⟨word', opening', close', body', same, -, closes', even'⟩ := is_other
  have found : closeFrom? (header ++ close :: body) 0 [] = some (header, body) :=
    closeFrom?_append closes even []
  have found' : closeFrom? (other ++ close' :: body') 0 [] = some (other, body') :=
    closeFrom?_append closes' even' []
  rw [(List.cons.inj (List.cons.inj same).2).2] at found
  cases found.symm.trans found'
  rfl

/-- The search for a colon finds one exactly when the header has one. -/
theorem until?_colon_isSome (even : balanced header 0 = true) :
    (until? [":"] header).isSome = true ↔ HasColon header := by
  have stop_iff (t : Token) : isStop [":"] t = true ↔ t.isPunct ":" = true := by
    simp [isStop, Token.isPunct, List.contains_eq_mem]
  constructor
  · intro found
    obtain ⟨⟨before, stop, rest⟩, found⟩ := Option.isSome_iff_exists.1 found
    have colon := (stop_iff stop).1 (until?_eq_some found).2.1
    have no_bracket : stop.isOpening = false ∧ stop.isClosing = false := by
      simp only [Token.isPunct, Bool.and_eq_true, beq_iff_eq] at colon
      rw [Token.isOpening, Token.isClosing, colon.1, colon.2]
      decide
    exact ⟨stop, mem_outside_of_until? found no_bracket.1 no_bracket.2, colon⟩
  · rintro ⟨t, member, colon⟩
    obtain ⟨before, stop, after, -, -, -, found⟩ := untilFrom?_of_outside
      (isStop_of_isOpening (by decide)) [] header 0 [] even ⟨t, member, (stop_iff t).2 colon⟩
    rw [List.append_nil] at found
    rw [until?, found]
    rfl

/-- **The form of a loop** goes by the colon of its header: with one it is a loop over items, without
one it counts. -/
theorem forForm_eq_ok (even : balanced header 0 = true)
    (read : forForm src header tokens = .ok form) :
    (HasColon header → form = .forEach (src.text header)) ∧
      (¬ HasColon header → ∃ vars, form = .forLoop (src.text header) vars ∧
        (atLocal src tokens = true → ∃ rest, readLocal src tokens = .ok (vars, rest))) := by
  rw [forForm] at read
  simp only at read
  split at read
  · rename_i found
    cases read
    have colon := (until?_colon_isSome even).1 found
    exact ⟨fun _ => rfl, fun plain => absurd colon plain⟩
  · rename_i missing
    have plain : ¬ HasColon header := fun colon => missing ((until?_colon_isSome even).2 colon)
    refine ⟨fun colon => absurd colon plain, fun _ => ?_⟩
    split at read
    · obtain ⟨⟨vars, rest⟩, declared, same⟩ := bind_eq_ok.1 read
      cases same
      exact ⟨vars, rfl, fun _ => ⟨rest, declared⟩⟩
    · rename_i no_local
      cases read
      exact ⟨[], rfl, fun here => absurd here no_local⟩

/-- **A loop** is read from its header, its first part where it stands, and its body. -/
theorem readStatement_for {s : Option Statement} (is_for : next tokens "for" = true)
    (read : readStatement src bound tokens = .ok (s, rest)) :
    ∃ header after form body, readParens src "for" (tokens.drop 1) = .ok (header, after) ∧
      forForm src header (tokens.drop 2) = .ok form ∧
      s = some (.around (src.line tokens) form body) := by
  cases bound with
  | zero => cases read
  | succ bound =>
    have other (word : Text) (apart : ("for" == word) = false) : next tokens word = false :=
      next_ne is_for apart
    rw [readStatement] at read
    simp only [other "\x7b" (by decide), other ";" (by decide), other "if" (by decide), is_for,
      Bool.false_eq_true, if_false, if_true] at read
    cases bound with
    | zero => cases read
    | succ bound =>
      rw [readFor] at read
      obtain ⟨⟨header, after⟩, parens, read⟩ := bind_eq_ok.1 read
      obtain ⟨form, formed, read⟩ := bind_eq_ok.1 read
      obtain ⟨⟨body, behind⟩, -, same⟩ := bind_eq_ok.1 read
      cases same
      rw [List.drop_drop] at formed
      exact ⟨header, after, form, _, parens, formed, rfl⟩

/-- **A loop follows the shape of its header exactly when the header does not have both a semicolon and
a colon** outside brackets. With a colon it is always read as a loop over items. -/
theorem follows_shape_iff {code : Text} {all : List Token} {s : Statement}
    (tokenized : tokenize code = .ok all) (here : tokens <:+ all) (is_for : next tokens "for" = true)
    (parsed : readStatement src bound tokens = .ok (some s, rest)) :
    ∃ header, IsHeader tokens header ∧
      (FollowsShape src header s.form ↔ ¬ (HasSemicolon header ∧ HasColon header)) ∧
      (HasColon header → s.form = .forEach (src.text header)) ∧
      (¬ HasColon header → ∃ vars, s.form = .forLoop (src.text header) vars) := by
  obtain ⟨header, after, form, body, parens, formed, same⟩ := readStatement_for is_for parsed
  cases same
  cases tokens with
  | nil => cases is_for
  | cons word behind =>
    obtain ⟨is_header, opening, close, split⟩ := isHeader_of_readParens word parens
    have even := is_header.even
    obtain ⟨over_items, counts⟩ := forForm_eq_ok even formed
    refine ⟨header, is_header, ⟨fun follows => ?_, fun not_both => ⟨?_, ?_, ?_⟩⟩, over_items,
      fun plain => (counts plain).imp fun _ => And.left⟩
    · rintro ⟨semicolon, colon⟩
      exact (follows.items (over_items colon)).2 semicolon
    · intro semicolon
      exact (counts fun colon => not_both ⟨semicolon, colon⟩).imp fun _ => And.left
    · intro init more semi vars first declared
      obtain ⟨rfl, stops_here, -⟩ := until?_eq_some first
      have is_semi : semi.isPunct ";" = true := by
        simpa [isStop, Token.isPunct, List.contains_eq_mem] using stops_here
      have semicolon : HasSemicolon (init ++ semi :: more) :=
        ⟨semi, mem_outside_of_until? first (not_bracket_of_semicolon is_semi).1
          (not_bracket_of_semicolon is_semi).2, is_semi⟩
      obtain ⟨vars', counted, read⟩ := counts fun colon => not_both ⟨semicolon, colon⟩
      -- The first part is read with the rest of the statement behind it.
      obtain rfl : behind = opening :: (init ++ semi :: more ++ close :: after) := split
      have genuine : ∀ t ∈ init, t.Genuine := fun t member =>
        genuine_tokenize tokenized t (here.subset (by simp [member]))
      obtain ⟨at_local, last, declared⟩ := declared
      obtain ⟨at_local', declared'⟩ :=
        readLocal_semicolon is_semi genuine at_local declared (more ++ close :: after)
      have in_place : (word :: opening :: (init ++ semi :: more ++ close :: after)).drop 2 =
          init ++ semi :: (more ++ close :: after) := List.append_assoc ..
      rw [in_place] at read
      obtain ⟨rest', read⟩ := read at_local'
      cases declared'.symm.trans read
      exact counted
    · intro text same
      by_cases colon : HasColon header
      · exact ⟨colon, fun semicolon => not_both ⟨semicolon, colon⟩⟩
      · obtain ⟨vars, counted, -⟩ := counts colon
        cases counted.symm.trans same

/-- The tokens of a loop without a body, the parentheses of whose header close at an offset. -/
def loopTokens (header : List Token) (offset : Nat) : List Token :=
  lineToken .ident "for" 0 :: lineToken .punct "(" 4 ::
    (header ++ lineToken .punct ")" offset :: [lineToken .punct ";" (offset + 2)])

/-- Balanced tokens in parentheses are the header of a loop. -/
theorem isHeader_loopTokens {offset : Nat} (even : balanced header 0 = true) :
    IsHeader (loopTokens header offset) header :=
  ⟨_, _, _, _, rfl, rfl, rfl, even⟩

/-- The beginning `int i = 0;` of a header. -/
def countingPart : List Token :=
  [lineToken .ident "int" 5, lineToken .ident "i" 9, lineToken .punct "=" 11,
    lineToken .number "0" 13, lineToken .punct ";" 14]

/-- The variable that it declares. -/
def counter : Variable := ⟨"int", "int", "i", false, "0", 0⟩

/-- The header `int i = 0; i < 3; i++`. -/
def countingHeader : List Token :=
  countingPart ++ [lineToken .ident "i" 16, lineToken .punct "<" 18, lineToken .number "3" 20,
    lineToken .punct ";" 21, lineToken .ident "i" 23, lineToken .punct "++" 24]

set_option maxRecDepth 10000 in
/-- A loop that counts follows the shape of its header, and declares its variable. -/
theorem counting_follows_shape :
    tokenize "for (int i = 0; i < 3; i++) ;" = .ok (loopTokens countingHeader 26) ∧
    ∃ s, readStatement ⟨"for (int i = 0; i < 3; i++) ;", 1⟩ 3 (loopTokens countingHeader 26) =
        .ok (some s, []) ∧
      FollowsShape ⟨"for (int i = 0; i < 3; i++) ;", 1⟩ countingHeader s.form ∧
      Declares ⟨"for (int i = 0; i < 3; i++) ;", 1⟩ countingPart [counter] ∧
      s.form = .forLoop "int i = 0; i < 3; i++" [counter] := by
  have tokenized : tokenize "for (int i = 0; i < 3; i++) ;" =
      .ok (loopTokens countingHeader 26) := rfl
  have parsed : readStatement ⟨"for (int i = 0; i < 3; i++) ;", 1⟩ 3 (loopTokens countingHeader 26) =
      .ok (some (.around 1 (.forLoop "int i = 0; i < 3; i++" [counter]) []), []) := rfl
  have plain : ¬ HasColon countingHeader := by
    rintro ⟨t, member, colon⟩
    revert t
    decide
  have declared : Declares ⟨"for (int i = 0; i < 3; i++) ;", 1⟩ countingPart [counter] :=
    ⟨rfl, _, rfl⟩
  obtain ⟨header, is_header, follows, -⟩ :=
    follows_shape_iff tokenized (List.suffix_refl _) (by decide) parsed
  obtain rfl := (isHeader_loopTokens (by decide)).unique is_header
  exact ⟨tokenized, _, parsed, follows.2 fun both => plain both.2, declared, rfl⟩

/-- The header `int i = 0; a ? i < 3 : i < 4; i++`. -/
def choiceHeader : List Token :=
  countingPart ++ [lineToken .ident "a" 16, lineToken .punct "?" 18, lineToken .ident "i" 20,
    lineToken .punct "<" 22, lineToken .number "3" 24, lineToken .punct ":" 26,
    lineToken .ident "i" 28, lineToken .punct "<" 30, lineToken .number "4" 32,
    lineToken .punct ";" 33, lineToken .ident "i" 35, lineToken .punct "++" 36]

set_option maxRecDepth 10000 in
/-- A loop that counts up to a bound it chooses is taken for one over items, though its header has
two semicolons and declares a variable. -/
theorem choice_taken_for_items :
    tokenize "for (int i = 0; a ? i < 3 : i < 4; i++) ;" = .ok (loopTokens choiceHeader 38) ∧
    IsHeader (loopTokens choiceHeader 38) choiceHeader ∧ HasSemicolon choiceHeader ∧
    Declares ⟨"for (int i = 0; a ? i < 3 : i < 4; i++) ;", 1⟩ countingPart [counter] ∧
    ∃ s, readStatement ⟨"for (int i = 0; a ? i < 3 : i < 4; i++) ;", 1⟩ 3
        (loopTokens choiceHeader 38) = .ok (some s, []) ∧
      s.form = .forEach "int i = 0; a ? i < 3 : i < 4; i++" ∧
      ¬ FollowsShape ⟨"for (int i = 0; a ? i < 3 : i < 4; i++) ;", 1⟩ choiceHeader s.form := by
  have semicolon : HasSemicolon choiceHeader :=
    ⟨lineToken .punct ";" 14, by decide, by decide⟩
  refine ⟨rfl, isHeader_loopTokens (by decide), semicolon, ⟨rfl, _, rfl⟩, _, rfl, rfl, ?_⟩
  exact fun follows => (follows.items rfl).2 semicolon

end FlowTrace.Java
