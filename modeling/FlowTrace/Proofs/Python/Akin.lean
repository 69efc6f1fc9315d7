import FlowTrace.Proofs.Attempt
import FlowTrace.Proofs.Python.Peers
import FlowTrace.Python.Flow

/-! # Akin statements

When a literal is reworded, the statement that it is part of keeps its kind: the two statements are
**akin** (`Statement.Akin`). They differ in texts that are shown inside nodes only. The tree of a
module is built from akin statements in the same way, step by step. -/

namespace FlowTrace.Python

variable {w : Rewording loud}

/-- Forms are **akin** when they are of the same kind: they differ at most in texts that nodes are
labelled with. An assignment names the same targets. -/
inductive Form.Akin (w : Rewording loud) : Form → Form → Prop where
  | func {name : Text} (params params' : List Text) (markless : w.mark ∉ name) :
      Akin w (.func name params) (.func name params')
  | classDef (name name' : Text) : Akin w (.classDef name) (.classDef name')
  | branch (condition condition' : Text) (isElif hasElse : Bool) :
      Akin w (.branch condition isElif hasElse) (.branch condition' isElif hasElse)
  | forLoop (target target' iterable iterable' : Text) :
      Akin w (.forLoop target iterable) (.forLoop target' iterable')
  | whileLoop (condition condition' : Text) : Akin w (.whileLoop condition) (.whileLoop condition')
  | attempt : Akin w .attempt .attempt
  | block : Akin w .block .block
  | ret (value value' : Text) : Akin w (.ret value) (.ret value')
  | assign {targets targets' : List Text} (value value' : Text)
      (names : targetNames targets' = targetNames targets) :
      Akin w (.assign targets value) (.assign targets' value')
  | update (target target' operator operator' value value' : Text) :
      Akin w (.update target operator value) (.update target' operator' value')
  | expr : Akin w .expr .expr
  | other : Akin w .other .other

/-- Statements are **akin** when their heads are twins, their forms are akin, and so are the
statements in them. -/
inductive Statement.Akin (w : Rewording loud) : Statement → Statement → Prop where
  | mk {line : Nat} {head head' : Text} {form form' : Form}
      {body body' orelse orelse' handlers handlers' : List Statement}
      (heads : w.Twin head head') (forms : form.Akin w form')
      (inBody : List.Forall₂ (Akin w) body body')
      (inOrelse : List.Forall₂ (Akin w) orelse orelse')
      (inHandlers : List.Forall₂ (Akin w) handlers handlers') :
      Akin w ⟨line, head, form, body, orelse, handlers⟩
        ⟨line, head', form', body', orelse', handlers'⟩

/-- Rows of akin statements. -/
abbrev AllAkin (w : Rewording loud) : List Statement → List Statement → Prop :=
  List.Forall₂ (Statement.Akin w)

namespace Statement

variable {s s' : Statement} {suite suite' : List Statement}

/-- Leaves of forms that are akin and heads that are twins are akin. -/
theorem akin_leaf {form form' : Form} (forms : form.Akin w form') (line : Nat) {head head' : Text}
    (heads : w.Twin head head') : (leaf line head form).Akin w (leaf line head' form') :=
  .mk heads forms .nil .nil .nil

namespace Akin

/-- Statements that are akin are on the same line. -/
theorem line_eq (akin : s.Akin w s') : s'.line = s.line := by
  obtain ⟨⟩ := akin
  rfl

/-- Statements that are akin have forms that are akin. -/
theorem form (akin : s.Akin w s') : s.form.Akin w s'.form := by
  obtain ⟨-, forms, -, -, -⟩ := akin
  exact forms

/-- Statements that are akin are links of chains together. -/
theorem isElif_eq (akin : s.Akin w s') : s'.isElif = s.isElif := by
  obtain ⟨-, forms, -, -, -⟩ := akin
  cases forms <;> rfl

/-- Statements that are akin are conditionals together. -/
theorem isBranch_eq (akin : s.Akin w s') : s'.isBranch = s.isBranch := by
  obtain ⟨-, forms, -, -, -⟩ := akin
  cases forms <;> rfl

/-- Statements that are akin are loops together. -/
theorem isLoop_eq (akin : s.Akin w s') : s'.isLoop = s.isLoop := by
  obtain ⟨-, forms, -, -, -⟩ := akin
  cases forms <;> rfl

/-- Statements that are akin are attempts together. -/
theorem isAttempt_eq (akin : s.Akin w s') : (s'.form == .attempt) = (s.form == .attempt) := by
  obtain ⟨-, forms, -, -, -⟩ := akin
  cases forms <;> rfl

/-- Suites that are akin keep statements akin. -/
theorem addBody (akin : s.Akin w s') (all : AllAkin w suite suite') :
    (s.addBody suite).Akin w (s'.addBody suite') := by
  obtain ⟨heads, forms, body, orelse, handlers⟩ := akin
  exact .mk heads forms (List.rel_append body all) orelse handlers

/-- Alternatives that are akin keep statements akin. -/
theorem addOrelse (akin : s.Akin w s') (all : AllAkin w suite suite') :
    (s.addOrelse suite).Akin w (s'.addOrelse suite') := by
  obtain ⟨heads, forms, body, orelse, handlers⟩ := akin
  exact .mk heads forms body (List.rel_append orelse all) handlers

/-- Handlers that are akin keep statements akin. -/
theorem addHandlers (akin : s.Akin w s') (all : AllAkin w suite suite') :
    Akin w { s with handlers := s.handlers ++ suite }
      { s' with handlers := s'.handlers ++ suite' } := by
  obtain ⟨heads, forms, body, orelse, handlers⟩ := akin
  exact .mk heads forms body orelse (List.rel_append handlers all)

/-- The mark of an alternative keeps statements akin. -/
theorem markElse (akin : s.Akin w s') : s.markElse.Akin w s'.markElse := by
  obtain ⟨heads, forms, body, orelse, handlers⟩ := akin
  have same := forms
  cases forms with
  | branch condition condition' isElif hasElse =>
    exact .mk heads (.branch condition condition' isElif true) body orelse handlers
  | _ => exact .mk heads same body orelse handlers

/-- The last link of a chain of conditionals may be changed. -/
theorem mapTail {f f' : Statement → Statement}
    (keeps : ∀ {s s' : Statement}, s.Akin w s' → (f s).Akin w (f' s')) (akin : s.Akin w s') :
    (s.mapTail f).Akin w (s'.mapTail f') := by
  induction s using Statement.mapTail.induct generalizing s' with
  -- The chain goes on: its next link is a conditional on both sides.
  | case1 line head condition isElif body next handlers continues ih =>
    obtain ⟨heads, forms, body, orelse, handlers⟩ := akin
    cases forms with
    | branch _ condition' =>
      cases orelse with
      | cons next' rest =>
        cases rest
        rw [Statement.mapTail, if_pos continues, Statement.mapTail,
          if_pos (next'.isElif_eq.trans continues)]
        exact .mk heads (.branch _ _ _ _) body (.cons (ih next') .nil) handlers
  | case2 line head condition isElif body next handlers ends =>
    have whole := akin
    obtain ⟨heads, forms, body, orelse, handlers⟩ := akin
    cases forms with
    | branch _ condition' =>
      cases orelse with
      | cons next' rest =>
        cases rest
        rw [Statement.mapTail, if_neg ends, Statement.mapTail, if_neg (by rwa [next'.isElif_eq])]
        exact keeps whole
  -- What is akin to a statement that is no chain is none either.
  | case3 s other =>
    have other' : ∀ line head condition isElif body next handlers,
        s' = ⟨line, head, .branch condition isElif false, body, [next], handlers⟩ → False := by
      rintro line head condition isElif body next handlers rfl
      obtain ⟨-, forms, -, orelse, -⟩ := akin
      cases forms
      cases orelse with
      | cons _ rest =>
        cases rest
        exact other _ _ _ _ _ _ _ rfl
    rw [Statement.mapTail, Statement.mapTail]
    · exact keeps akin
    · exact other'
    · exact other

/-- Chains of conditionals end alike. -/
theorem tailHasElse_eq (akin : s.Akin w s') : s'.tailHasElse = s.tailHasElse := by
  induction s using Statement.tailHasElse.induct generalizing s' with
  | case1 line head condition isElif body next handlers ih =>
    obtain ⟨-, forms, -, orelse, -⟩ := akin
    cases forms
    cases orelse with
    | cons next' rest =>
      cases rest
      rw [Statement.tailHasElse, Statement.tailHasElse, next'.isElif_eq, ih next']
  | case2 line head condition isElif hasElse body orelse handlers longer =>
    obtain ⟨-, forms, -, others, -⟩ := akin
    cases forms
    rw [Statement.tailHasElse, Statement.tailHasElse]
    · exact longer
    · rintro next rfl no_else
      cases others with
      | cons _ rest =>
        cases rest
        exact longer _ rfl no_else
  | case3 s _ no_branch =>
    obtain ⟨-, forms, -, -, -⟩ := akin
    cases forms with
    | branch => exact absurd rfl (no_branch _ _ _ _ _ _ _ _)
    | _ => rfl

/-- The last element of a row may be changed. -/
theorem changeLast {α : Type} {R : α → α → Prop} {f f' : α → α}
    (keeps : ∀ {a a' : α}, R a a' → R (f a) (f' a')) {as as' : List α}
    (all : List.Forall₂ R as as') : List.Forall₂ R
      (as.dropLast ++ as.getLast?.toList.map f) (as'.dropLast ++ as'.getLast?.toList.map f') := by
  induction all with
  | nil => exact .nil
  | cons first rest ih =>
    cases rest with
    | nil => exact .cons (keeps first) .nil
    | cons second rest => exact .cons first ih

/-- **A suite is put into the same slot.** -/
theorem fill (akin : s.Akin w s') (slot : Slot) (all : AllAkin w suite suite') :
    (s.fill slot suite).Akin w (s'.fill slot suite') := by
  cases slot with
  | body => exact akin.addBody all
  | orelse => exact akin.addOrelse all
  | handler =>
    obtain ⟨heads, forms, body, orelse, handlers⟩ := akin
    exact .mk heads forms body orelse (changeLast (fun akin => akin.addBody all) handlers)
  | tailBody => exact akin.mapTail fun akin => akin.addBody all
  | tailOrelse => exact akin.mapTail fun akin => akin.addOrelse all

end Akin

end Statement

/-! ## Building the tree -/

/-- Open suites are akin when they are indented alike and their statements are akin. -/
structure Frame.Akin (w : Rewording loud) (frame frame' : Frame) : Prop where
  /-- They are indented alike. -/
  indent : frame'.indent = frame.indent
  /-- Their statements are akin. -/
  done : AllAkin w frame.done frame'.done

namespace Frame.Akin

variable {frame frame' : Frame} {suite suite' : List Statement}

/-- A suite that is put into the same slot keeps frames akin. -/
theorem fill (akin : frame.Akin w frame') (slot : Slot) (all : AllAkin w suite suite') :
    (frame.fill slot suite).Akin w (frame'.fill slot suite') := by
  obtain ⟨indent, done⟩ := frame
  obtain ⟨indent', done'⟩ := frame'
  obtain ⟨rfl, statements⟩ := akin
  cases statements with
  | nil => exact ⟨rfl, .nil⟩
  | cons last earlier => exact ⟨rfl, .cons (last.fill slot all) earlier⟩

/-- More statements keep frames akin. -/
theorem append (akin : frame.Akin w frame') (all : AllAkin w suite suite') :
    (frame.append suite).Akin w (frame'.append suite') :=
  ⟨akin.indent, List.rel_append (List.rel_reverse all) akin.done⟩

end Frame.Akin

/-- Rows of open suites with their slots. -/
abbrev OuterAkin (w : Rewording loud) : List (Frame × Slot) → List (Frame × Slot) → Prop :=
  List.Forall₂ fun entry entry' => entry.1.Akin w entry'.1 ∧ entry'.2 = entry.2

/-- Drafts are akin when their open suites are, and the same suite is still to come. -/
structure Draft.Akin (w : Rewording loud) (draft draft' : Draft) : Prop where
  /-- The innermost suites are akin. -/
  inner : draft.inner.Akin w draft'.inner
  /-- So are the suites around them. -/
  outer : OuterAkin w draft.outer draft'.outer
  /-- The same suite is still to come. -/
  awaited : draft'.awaited = draft.awaited

namespace Draft

variable {draft draft' : Draft} {inner inner' : Frame} {outer outer' : List (Frame × Slot)}

/-- Closing suites down to a column keeps frames akin. -/
theorem akin_closeTo (column : Nat) (akin : inner.Akin w inner') (all : OuterAkin w outer outer') :
    (closeTo column inner outer).1.Akin w (closeTo column inner' outer').1 ∧
      OuterAkin w (closeTo column inner outer).2 (closeTo column inner' outer').2 := by
  induction all generalizing inner inner' with
  | nil => exact ⟨akin, .nil⟩
  | @cons entry entry' _ _ entries rest ih =>
    obtain ⟨frame, slot⟩ := entry
    obtain ⟨frame', slot'⟩ := entry'
    obtain ⟨frames, rfl⟩ := entries
    rw [closeTo, closeTo, akin.indent]
    split
    · exact ih (frames.fill _ (List.rel_reverse akin.done))
    · exact ⟨akin, .cons ⟨frames, rfl⟩ rest⟩

/-- Closing all suites comes to statements that are akin. -/
theorem akin_close (akin : inner.Akin w inner') (all : OuterAkin w outer outer') :
    AllAkin w (close inner outer) (close inner' outer') := by
  induction all generalizing inner inner' with
  | nil => exact List.rel_reverse akin.done
  | cons entries rest ih =>
    obtain ⟨frames, slots⟩ := entries
    rw [close, close, slots]
    exact ih (frames.fill _ (List.rel_reverse akin.done))

/-- **A line is placed in the same suite**, by its indentation. -/
theorem Akin.indentTo (akin : draft.Akin w draft') {ln ln' : LogicalLine}
    (indents : ln'.indent = ln.indent) :
    Follows (Draft.Akin w) (draft.indentTo ln) (draft'.indentTo ln') := by
  intro inside indented
  rw [Draft.indentTo] at indented
  rw [Draft.indentTo, akin.awaited, indents, akin.inner.indent]
  split at indented
  · split at indented
    · cases indented
    · rename_i deeper
      cases indented
      rw [if_neg deeper]
      exact ⟨_, rfl, ⟨rfl, .nil⟩, .cons ⟨akin.inner, rfl⟩ akin.outer, rfl⟩
  · split at indented
    · cases indented
    · rename_i shallow
      have closed := akin_closeTo ln.indent akin.inner akin.outer
      rw [if_neg shallow]
      simp only at indented ⊢
      rw [closed.1.indent]
      split at indented
      · rename_i same
        cases indented
        rw [if_pos same]
        exact ⟨_, rfl, closed.1, closed.2, rfl⟩
      · cases indented

/-- **A header is attached to the same statement.** -/
theorem akin_attach {s s' : Statement} (words : firstWord s'.head = firstWord s.head)
    (akin : inner.Akin w inner') (new : s.Akin w s') :
    Follows (fun entry entry' => entry.1.Akin w entry'.1 ∧ entry'.2 = entry.2)
      (attach inner s) (attach inner' s') := by
  rintro ⟨frame, slot⟩ attached
  obtain ⟨indent, done⟩ := inner
  obtain ⟨indent', done'⟩ := inner'
  obtain ⟨rfl, statements⟩ := akin
  have single : AllAkin w [s] [s'] := .cons new .nil
  cases statements with
  | nil =>
    simp only [attach, new.isElif_eq, words] at attached ⊢
    split_ifs at attached ⊢
    cases attached
    exact ⟨_, rfl, ⟨rfl, .cons new .nil⟩, rfl⟩
  | cons last earlier =>
    simp only [attach, new.isElif_eq, words, last.isBranch_eq, last.tailHasElse_eq,
      last.isLoop_eq, last.isAttempt_eq] at attached ⊢
    split_ifs at attached ⊢ <;> cases attached
    · exact ⟨_, rfl, ⟨rfl, .cons (last.mapTail fun akin => akin.addOrelse single) earlier⟩, rfl⟩
    · exact ⟨_, rfl, ⟨rfl, .cons (last.mapTail fun akin => akin.markElse) earlier⟩, rfl⟩
    · exact ⟨_, rfl, ⟨rfl, .cons last earlier⟩, rfl⟩
    · exact ⟨_, rfl, ⟨rfl, .cons (last.addHandlers single) earlier⟩, rfl⟩
    · exact ⟨_, rfl, ⟨rfl, .cons new (.cons last earlier)⟩, rfl⟩

end Draft

end FlowTrace.Python
