import FlowTrace.Proofs.Python.Nesting

/-! # The clauses of compound statements

A compound statement may go on with **clauses**: a conditional with links and an alternative, a loop
with an alternative, an attempt with handlers, an alternative and a cleanup. Which clauses belong to
which statement can be read off the rows of a layout, since a clause continues the statement in
front of it in its row: `Layout.compounds` lists all compound statements with their clauses.

* **`Compound.Legal`**: the sequences of clauses that the language knows.
* **`Compound.Admitted`**: those that a module may have. A conditional must be legal, but all that
  is asked of the clauses of a loop or of an attempt is that they are of the right kind.
* **`exists_parse_iff`**: a module whose lines can be read is accepted exactly when all its compound
  statements are admitted.
* **`clauses_legal_iff`**: when the clauses of an accepted module are legal. -/

namespace FlowTrace.Python

/-! ## Compound statements -/

/-- What kind of clauses a statement may have. -/
inductive Kind where
  /-- A conditional. -/
  | branch
  /-- A loop. -/
  | loop
  /-- An attempt. -/
  | attempt
  /-- A statement without clauses. -/
  | plain
  deriving DecidableEq, Repr

/-- The kind of the statements of a form. -/
def Form.kind : Form → Kind
  | branch _ _ _ => .branch
  | forLoop _ _ | whileLoop _ => .loop
  | attempt => .attempt
  | _ => .plain

/-- What continues a compound statement. -/
inductive Clause where
  /-- A further condition. -/
  | elif
  /-- The alternative. -/
  | orelse
  /-- A handler. -/
  | handler
  /-- What is done in the end. -/
  | cleanup
  deriving DecidableEq, Repr

/-- A statement with its clauses, in source order. -/
structure Compound where
  /-- What begins it. -/
  opener : Kind
  /-- What continues it. -/
  clauses : List Clause
  deriving DecidableEq, Repr

namespace Compound

/-- The sequences of clauses that are **admitted**. -/
def Admitted (c : Compound) : Prop :=
  match c.opener with
  | .branch => ∃ n rest, rest.Sublist [.orelse] ∧ c.clauses = List.replicate n .elif ++ rest
  | .loop => ∀ clause ∈ c.clauses, clause = .orelse
  | .attempt => ∀ clause ∈ c.clauses, clause ≠ .elif
  | .plain => c.clauses = []

/-- A compound statement with a further clause. -/
def add (c : Compound) (clause : Clause) : Compound := { c with clauses := c.clauses ++ [clause] }

/-- Whether a compound statement may go on with a clause. -/
def accepts (c : Compound) : Clause → Bool
  | .elif => c.opener == .branch && !c.clauses.contains .orelse
  | .orelse =>
    match c.opener with
    | .branch => !c.clauses.contains .orelse
    | .loop | .attempt => true
    | .plain => false
  | .handler | .cleanup => c.opener == .attempt

variable {c : Compound} {clause : Clause}

/-- Behind an alternative a conditional has no further clause. -/
theorem branch_concat_iff {clauses : List Clause} :
    (∃ n rest, rest.Sublist [Clause.orelse] ∧
      clauses ++ [clause] = List.replicate n .elif ++ rest) ↔
      (∃ n rest, rest.Sublist [Clause.orelse] ∧ clauses = List.replicate n .elif ++ rest) ∧
        .orelse ∉ clauses ∧ (clause = .elif ∨ clause = .orelse) := by
  constructor
  · rintro ⟨n, rest, alternative, same⟩
    rcases List.sublist_singleton.1 alternative with rfl | rfl
    · cases n with
      | zero => simp at same
      | succ n =>
        rw [List.append_nil, List.replicate_succ'] at same
        obtain ⟨rfl, last⟩ := List.append_inj' same rfl
        cases last
        exact ⟨⟨n, [], alternative, by simp⟩, by simp, .inl rfl⟩
    · obtain ⟨rfl, last⟩ := List.append_inj' same rfl
      cases last
      exact ⟨⟨n, [], by simp, by simp⟩, by simp, .inr rfl⟩
  · rintro ⟨⟨n, rest, alternative, rfl⟩, none, is_clause⟩
    rcases List.sublist_singleton.1 alternative with rfl | rfl
    · rcases is_clause with rfl | rfl
      · exact ⟨n + 1, [], alternative, by simp [List.replicate_succ']⟩
      · exact ⟨n, [.orelse], List.Sublist.refl _, by simp⟩
    · simp at none

/-- A compound statement with a further clause is admitted if it is without the clause, and may go
on with it. -/
theorem admitted_add : (c.add clause).Admitted ↔ c.Admitted ∧ c.accepts clause = true := by
  obtain ⟨opener, clauses⟩ := c
  cases opener with
  | branch =>
    simp only [Admitted, add, branch_concat_iff]
    cases clause <;> simp [accepts]
  | loop => cases clause <;> simp [Admitted, add, accepts, or_imp, forall_and]
  | attempt => cases clause <;> simp [Admitted, add, accepts, or_imp, forall_and]
  | plain => cases clause <;> simp [Admitted, add, accepts]

/-! ## Clauses in their turn -/

end Compound

namespace Clause

/-- Where a clause belongs among the clauses of its statement. -/
def rank : Clause → Nat
  | elif | handler => 0
  | orelse => 1
  | cleanup => 2

/-- Whether a statement may have several such clauses. -/
def repeats : Clause → Bool
  | elif | handler => true
  | orelse | cleanup => false

/-- Whether one clause may **precede** another one. -/
def Precedes (first second : Clause) : Prop :=
  first.rank < second.rank ∨ first = second ∧ first.repeats = true

instance (first second : Clause) : Decidable (first.Precedes second) :=
  inferInstanceAs (Decidable (_ ∨ _))

variable {clauses rest : List Clause} {first : Clause}

end Clause

namespace Compound

variable {c : Compound} {clause : Clause}

/-- The clauses of a compound statement come **in their turn** when those that are only allowed once
are not repeated, none comes too late, and an attempt has a handler or nothing but a cleanup. -/
def InTurn (c : Compound) : Prop :=
  c.clauses.Pairwise Clause.Precedes ∧
    (c.opener = .attempt → .handler ∈ c.clauses ∨ c.clauses = [.cleanup])

instance (c : Compound) : Decidable c.InTurn := inferInstanceAs (Decidable (_ ∧ _))

end Compound

/-! ## The compound statements of a module -/

/-- What a line adds to its row: a statement, or a clause of the one in front of it. -/
inductive Item where
  /-- A statement. -/
  | statement (kind : Kind)
  /-- A clause. -/
  | clause (clause : Clause)
  deriving DecidableEq, Repr

namespace Statement

/-- The clause that a statement is the header of, if it continues another one. -/
def clause? (s : Statement) : Option Clause :=
  if s.isElif then some .elif
  else if s.isElse then some .orelse
  else if s.isHandler then some (if firstWord s.head == "except" then .handler else .cleanup)
  else none

/-- An `else` is the clause of an alternative. -/
theorem clause?_of_isElse {s : Statement} (is_else : s.isElse = true) :
    s.clause? = some .orelse := by
  have not_elif : s.isElif = false := by simp_all [isElse]
  simp [clause?, not_elif, is_else]

/-- An `except` or a `finally` is a clause of an attempt. -/
theorem clause?_of_isHandler {s : Statement} (handler : s.isHandler = true) :
    ∃ clause, s.clause? = some clause ∧ (clause = .handler ∨ clause = .cleanup) := by
  obtain ⟨not_elif, word⟩ : s.isElif = false ∧
      (firstWord s.head = "except" ∨ firstWord s.head = "finally") := by
    simpa [isHandler] using handler
  have not_else : s.isElse = false := by
    rw [isElse, not_elif]
    rcases word with word | word <;> rw [word] <;> decide
  refine ⟨if firstWord s.head == "except" then .handler else .cleanup,
    by simp [clause?, not_elif, not_else, handler], ?_⟩
  split
  · exact .inl rfl
  · exact .inr rfl

/-- What a header adds to its row. -/
def item (s : Statement) : Item :=
  match s.clause? with
  | some clause => .clause clause
  | none => .statement s.form.kind

end Statement

/-- What a line adds to its row, if it can be read. -/
def LogicalLine.items? (ln : LogicalLine) : Option (List Item) :=
  if isHeader ln.text then
    match readStatement ln.line ln.text with
    | .ok (.header s rest) =>
      if rest.isBlank || (Draft.inlineSuite ln.line rest).toOption.isSome then some [s.item]
      else none
    | _ => none
  else
    ((Draft.parts ln.text).mapM (readStatement ln.line)).toOption.map fun readings =>
      readings.map fun reading => .statement reading.statement.form.kind

/-- What a row of layouts adds up to. -/
def Layout.items (layouts : List Layout) : List Item :=
  layouts.flatMap fun layout => layout.line.items?.getD []

namespace Compound

/-- What stands in front of the first statement of a row, which is nothing to be continued. -/
def start : Compound := ⟨.plain, []⟩

/-- The compound statements of a row, behind one that may go on. -/
def group (c : Compound) : List Item → List Compound
  | [] => [c]
  | .statement kind :: items => c :: group ⟨kind, []⟩ items
  | .clause clause :: items => group (c.add clause) items

/-- The last compound statement of a row. -/
def after (c : Compound) : List Item → Compound
  | [] => c
  | .statement kind :: items => after ⟨kind, []⟩ items
  | .clause clause :: items => after (c.add clause) items

/-- Whether each clause of a row may continue the statement in front of it. -/
def Takes (c : Compound) : List Item → Prop
  | [] => True
  | .statement kind :: items => Takes ⟨kind, []⟩ items
  | .clause clause :: items => c.accepts clause = true ∧ Takes (c.add clause) items

variable {c : Compound} {items items' : List Item}

/-- What is behind a compound goes over items one after the other. -/
theorem after_append : c.after (items ++ items') = (c.after items).after items' := by
  induction items generalizing c with
  | nil => rfl
  | cons item items ih =>
    cases item with
    | statement kind => exact ih
    | clause clause => exact ih

/-- A compound takes items one after the other. -/
theorem takes_append :
    c.Takes (items ++ items') ↔ c.Takes items ∧ (c.after items).Takes items' := by
  induction items generalizing c with
  | nil => simp [Takes, after]
  | cons item items ih =>
    cases item with
    | statement kind => exact ih
    | clause clause =>
      rw [List.cons_append, Takes, Takes, ih, and_assoc]
      rfl

/-- A compound without clauses is admitted. -/
theorem admitted_nil (kind : Kind) : Admitted ⟨kind, []⟩ := by
  cases kind with
  | branch => exact ⟨0, [], by simp, rfl⟩
  | loop | attempt => exact fun clause member => absurd member List.not_mem_nil
  | plain => rfl

/-- The statements of a row are admitted when each clause may continue the statement in front of
it. -/
theorem group_admitted_iff : (∀ d ∈ c.group items, d.Admitted) ↔ c.Admitted ∧ c.Takes items := by
  induction items generalizing c with
  | nil => simp [group, Takes]
  | cons item items ih =>
    cases item with
    | statement kind =>
      rw [group, List.forall_mem_cons, ih, Takes, and_iff_right (admitted_nil kind)]
    | clause clause => rw [group, ih, admitted_add, Takes, and_assoc]

end Compound

namespace Layout

mutual
/-- The compound statements in the suites of a layout. -/
def inner : Layout → List Compound
  | ⟨_, suite⟩ => Compound.start.group (items suite) ++ innerAll suite

/-- The compound statements in the suites of a row of layouts. -/
def innerAll : List Layout → List Compound
  | [] => []
  | first :: rest => first.inner ++ innerAll rest
end

/-- **The compound statements** of a row of layouts, with those in its suites. -/
def compounds (layouts : List Layout) : List Compound :=
  Compound.start.group (items layouts) ++ innerAll layouts

/-- The compounds in a layout are those of its suite. -/
theorem inner_mk (ln : LogicalLine) (suite : List Layout) :
    inner ⟨ln, suite⟩ = compounds suite := by
  rw [inner, compounds]

/-- The compounds in layouts are those of the first ones and of the last one. -/
theorem innerAll_concat (layouts : List Layout) (layout : Layout) :
    innerAll (layouts ++ [layout]) = innerAll layouts ++ layout.inner := by
  induction layouts with
  | nil => simp [innerAll]
  | cons first rest ih => simp [innerAll, ih]

/-- The items of layouts are those of the first ones and of the line of the last one. -/
theorem items_concat (layouts : List Layout) (layout : Layout) :
    items (layouts ++ [layout]) = items layouts ++ layout.line.items?.getD [] := by
  simp [items]

/-- The statements of a row of layouts are admitted when each clause may continue the statement in
front of it, and those in the suites are admitted. -/
theorem compounds_admitted_iff {layouts : List Layout} :
    (∀ c ∈ compounds layouts, c.Admitted) ↔
      Compound.start.Takes (items layouts) ∧ ∀ c ∈ innerAll layouts, c.Admitted := by
  have first : Compound.start.Admitted := Compound.admitted_nil .plain
  rw [compounds, List.forall_mem_append, Compound.group_admitted_iff, and_iff_right first]

end Layout

/-! ## What the last statement says about its clauses -/

/-- A compound statement **describes** the last statement of a suite when this has its kind, and has
an alternative exactly when it is a conditional with one. -/
structure Compound.Describes (c : Compound) (last? : Option Statement) : Prop where
  /-- The kind. -/
  kind : last?.elim .plain (·.form.kind) = c.opener
  /-- The alternative. -/
  choice : c.opener = .branch → last?.any (·.tailHasElse) = c.clauses.contains .orelse

open Statement

variable {c : Compound} {s last : Statement} {suite done done' : List Statement}

/-- Whether a statement may be continued by a clause. -/
def Statement.accepts (last : Statement) : Clause → Bool
  | .elif => last.isBranch && !last.tailHasElse
  | .orelse =>
    if last.isBranch then !last.tailHasElse else last.isLoop || last.form == .attempt
  | .handler | .cleanup => last.form == .attempt

/-- A compound accepts the clauses that the statement it describes accepts. -/
theorem Compound.accepts_eq (describes : c.Describes (some last)) (clause : Clause) :
    c.accepts clause = last.accepts clause := by
  obtain ⟨opener, clauses⟩ := c
  obtain ⟨kind, choice⟩ := describes
  obtain ⟨line, head, form, body, orelse, handlers⟩ := last
  cases form <;> cases kind <;> cases clause <;>
    simp_all [Compound.accepts, Statement.accepts, isBranch, isLoop]

/-- Where there is no statement no clause is accepted. -/
theorem Compound.accepts_of_none (describes : c.Describes none) (clause : Clause) :
    c.accepts clause = false := by
  obtain ⟨opener, clauses⟩ := c
  cases describes.kind
  cases clause <;> rfl

/-- A header that is no clause is attached to any suite. -/
theorem exists_attach_of_none {frame : Frame} (own : s.clause? = none) :
    ∃ attachment, Draft.attach frame s = .ok attachment := by
  have elif : ¬ s.isElif = true := fun elif => by simp [clause?, elif] at own
  have is_else : ¬ (firstWord s.head == "else") = true := fun is_else => by
    simp [clause?, elif, isElse, is_else] at own
  have handler : ¬ (firstWord s.head == "except" || firstWord s.head == "finally") = true :=
    fun handler => by simp [clause?, elif, isElse, isHandler, is_else, handler] at own
  rw [Draft.attach]
  cases frame.done <;> simp only [if_neg elif, if_neg is_else, if_neg handler] <;> exact ⟨_, rfl⟩

/-- **A header is attached** if it is a statement of its own or a clause that the last statement may
go on with. -/
theorem exists_attach {frame : Frame} (describes : c.Describes frame.done.head?)
    (may : ∀ clause, s.clause? = some clause → c.accepts clause = true) :
    ∃ attachment, Draft.attach frame s = .ok attachment := by
  cases is_clause : s.clause? with
  | none => exact exists_attach_of_none is_clause
  | some clause =>
    have accepted := may clause is_clause
    cases is_done : frame.done with
    | nil =>
      rw [is_done] at describes
      rw [Compound.accepts_of_none describes] at accepted
      cases accepted
    | cons last earlier =>
      rw [is_done] at describes
      rw [Compound.accepts_eq describes] at accepted
      simp only [Draft.attach, is_done]
      rw [clause?] at is_clause
      split_ifs at is_clause with elif is_else handler <;> cases is_clause
      · rw [if_pos elif]
        exact ⟨_, if_pos accepted⟩
      · rw [isElse, Bool.and_eq_true] at is_else
        rw [if_neg elif, if_pos is_else.2]
        rw [Statement.accepts] at accepted
        split_ifs at accepted with branch
        · rw [if_pos branch, if_neg (by simpa using accepted)]
          exact ⟨_, rfl⟩
        · rw [if_neg branch, if_pos accepted]
          exact ⟨_, rfl⟩
      -- a handler and a cleanup need the same of the last statement
      all_goals
        rw [isHandler, Bool.and_eq_true] at handler
        have not_else : ¬ (firstWord s.head == "else") = true := by
          simpa [isElse, elif] using is_else
        have attempt : (last.form == .attempt) = true := accepted
        rw [if_neg elif, if_neg not_else, if_pos handler.2, if_pos attempt]
        exact ⟨_, rfl⟩

/-! ## What a clause changes -/

/-- A statement is **fresh** when nothing continues it yet. -/
structure Statement.Fresh (s : Statement) : Prop where
  /-- It has no alternative. -/
  orelse : s.orelse = []
  /-- None is announced. -/
  unmarked : s.tailHasElse = false

/-- What is read from a line is fresh. -/
theorem fresh_of_read {line : Nat} {t : Text} {reading : Reading}
    (read : readStatement line t = .ok reading) : reading.statement.Fresh := by
  -- Only a conditional that announces an alternative would not be fresh, and none is read like that.
  have fresh {head : Text} {form : Form} (unmarked : ∀ condition isElif, form ≠
      .branch condition isElif true) : (leaf line head form).Fresh := by
    refine ⟨rfl, ?_⟩
    cases form with
    | branch condition isElif hasElse =>
      cases hasElse with
      | true => exact absurd rfl (unmarked condition isElif)
      | false => rfl
    | _ => rfl
  have header {head word : Text} {form : Form} (found : headerForm? head word = some form)
      (condition : Text) (isElif : Bool) : form ≠ .branch condition isElif true := by
    rintro rfl
    rw [headerForm?] at found
    split_ifs at found <;>
      first
      | cases found
      | (obtain ⟨_, -, same⟩ := Option.map_eq_some_iff.1 found; cases same)
  have simple (condition : Text) (isElif : Bool) :
      simpleForm t ≠ .branch condition isElif true := by
    unfold simpleForm
    simp only
    repeat' split
    all_goals nofun
  rw [readStatement] at read
  split at read
  · split at read
    · cases read
    · simp only at read
      split at read
      · cases read
      · cases read
        rename_i found
        exact fresh (header found)
  · cases read
    exact fresh simple

/-- A change that keeps the kind of a statement does so at the end of a chain. -/
theorem kind_mapTail {f : Statement → Statement} (keeps : ∀ t, (f t).form.kind = t.form.kind) :
    (s.mapTail f).form.kind = s.form.kind := by
  induction s using mapTail.induct with
  | case1 line head condition isElif body next handlers continues ih =>
    rw [mapTail, if_pos continues]
  | case2 line head condition isElif body next handlers ends =>
    rw [mapTail, if_neg ends, keeps]
  | case3 s other => rw [mapTail, keeps]; exact other

/-- The mark of an alternative does not change the kind. -/
theorem kind_markElse (s : Statement) : s.markElse.form.kind = s.form.kind := by
  rw [markElse]
  split
  · rename_i is_branch
    rw [is_branch]
    rfl
  · rfl

/-- Another suite does not give a chain its alternative. -/
theorem tailHasElse_addBody (s : Statement) (suite : List Statement) :
    (s.addBody suite).tailHasElse = s.tailHasElse := by
  obtain ⟨line, head, form, body, orelse, handlers⟩ := s
  cases form with
  | branch condition isElif hasElse =>
    rcases orelse with _ | ⟨next, _ | ⟨other, rest⟩⟩ <;> cases hasElse <;> rfl
  | _ => rfl

/-- A chain with a further link has an alternative when the link has one. -/
theorem Statement.Chain.tailHasElse_link {new : Statement} (chain : s.Chain)
    (branch : s.isBranch = true) (open_ : s.tailHasElse = false) (elif : new.isElif = true) :
    (s.mapTail (addOrelse [new])).tailHasElse = new.tailHasElse := by
  induction chain with
  | last alone =>
    rw [mapTail_of_alone alone branch]
    obtain ⟨line, head, condition, isElif, body, handlers, rfl⟩ :=
      exists_eq_of_open alone branch open_
    rw [addOrelse, List.nil_append, Statement.tailHasElse_link, elif, Bool.true_and]
  | link continues chain ih =>
    rw [Statement.tailHasElse_link, continues, Bool.true_and] at open_
    have keeps (t : Statement) : (addOrelse [new] t).isElif = t.isElif := rfl
    rw [mapTail, if_pos continues, Statement.tailHasElse_link, isElif_mapTail keeps, continues,
      Bool.true_and, ih (isBranch_of_isElif continues) open_]

/-- A chain with an alternative has one. -/
theorem Statement.Chain.tailHasElse_choice (chain : s.Chain) (branch : s.isBranch = true) :
    (s.mapTail fun tail => tail.markElse.addOrelse suite).tailHasElse = true := by
  have marked {t : Statement} (branch : t.isBranch = true) :
      (t.markElse.addOrelse suite).tailHasElse = true := by
    obtain ⟨condition, isElif, is_marked⟩ := exists_form_markElse branch
    exact tailHasElse_of_hasElse (s := t.markElse.addOrelse suite) is_marked
  induction chain with
  | last alone => rw [mapTail_of_alone alone branch, marked branch]
  | link continues chain ih =>
    have keeps (t : Statement) : (t.markElse.addOrelse suite).isElif = t.isElif :=
      isElif_markElse t
    rw [mapTail, if_pos continues, Statement.tailHasElse_link, isElif_mapTail keeps, continues,
      Bool.true_and, ih (isBranch_of_isElif continues)]

/-- A last statement that is continued as the clause says is described by what the row has added up
to. -/
theorem Compound.Describes.step {last' : Statement} {clause : Clause}
    (describes : c.Describes (some last)) (is_clause : s.clause? = some clause)
    (accepted : last.accepts clause = true) (kind : last'.form.kind = last.form.kind)
    (choice : last.isBranch = true → last'.tailHasElse = (last.tailHasElse || clause == .orelse)) :
    c.Takes [s.item] ∧ (c.after [s.item]).Describes (some last') := by
  rw [item, is_clause]
  refine ⟨⟨(accepts_eq describes clause).trans accepted, trivial⟩, kind.trans describes.kind,
    fun branch => ?_⟩
  have before : last.tailHasElse = c.clauses.contains .orelse := describes.choice branch
  have is_branch : last.isBranch = true := by
    have same : last.form.kind = .branch := describes.kind.trans branch
    rw [isBranch]
    split
    · rfl
    · cases form : last.form <;> simp_all [Form.kind]
  rw [Option.any_some, choice is_branch, before]
  cases clause <;> simp [after, add]

/-- **Adopting a suite**: the clause, if there is one, may continue the last statement, and the
last statement is described by what the row has added up to. -/
theorem Statement.Adopts.describes (adopts : s.Adopts suite done done') (fresh : s.Fresh)
    (describes : c.Describes done.getLast?) (all : ∀ x ∈ done, x.Chain) :
    c.Takes [s.item] ∧ (c.after [s.item]).Describes done'.getLast? := by
  cases adopts with
  | own own =>
    have none : s.clause? = none := by simp_all [isClause, clause?]
    rw [item, none, List.getLast?_concat]
    refine ⟨trivial, rfl, fun _ => ?_⟩
    rw [Option.any_some, tailHasElse_addBody, fresh.unmarked]
    rfl
  -- A link hangs at the end of the chain; the kind of the statement stays.
  | @link earlier last elif branch open_ =>
    rw [List.getLast?_concat] at describes ⊢
    have chain : last.Chain := all last (by simp)
    have elif' : (s.addBody suite).isElif = true := elif
    refine describes.step (if_pos elif) ?_ (kind_mapTail (f := addOrelse _) fun _ => rfl)
      fun _ => ?_
    · rw [Statement.accepts, branch, open_]
      rfl
    · rw [chain.tailHasElse_link branch open_ elif', tailHasElse_addBody, fresh.unmarked, open_]
      rfl
  | @choice earlier last is_else branch open_ =>
    rw [List.getLast?_concat] at describes ⊢
    have chain : last.Chain := all last (by simp)
    refine describes.step (clause?_of_isElse is_else) ?_
      (kind_mapTail (f := fun tail => tail.markElse.addOrelse suite) kind_markElse) fun _ => ?_
    · rw [Statement.accepts, if_pos branch, open_]
      rfl
    · rw [chain.tailHasElse_choice branch, Bool.or_eq_true_iff.2 (.inr (by rfl))]
  | @alternative earlier last is_else takes =>
    rw [List.getLast?_concat] at describes ⊢
    have no_branch : last.isBranch = false := by
      cases form : last.form <;> simp_all [isLoop, isBranch]
    refine describes.step (clause?_of_isElse is_else) ?_ rfl fun branch => ?_
    · rwa [Statement.accepts, if_neg (by simp [no_branch])]
    · rw [no_branch] at branch
      cases branch
  | @handler earlier last handler attempt =>
    rw [List.getLast?_concat] at describes ⊢
    obtain ⟨clause, is_clause, is_handler⟩ := clause?_of_isHandler handler
    refine describes.step is_clause ?_ rfl fun branch => ?_
    · rcases is_handler with rfl | rfl <;> simp [Statement.accepts, attempt]
    · rw [isBranch, attempt] at branch
      cases branch

/-! ## What is built is admitted -/

section

variable {ln : LogicalLine} {rest : Text} {readings : List Reading}

/-- The items of a row of simple statements are their kinds. -/
theorem items?_of_row (simple : isHeader ln.text = false)
    (read : (Draft.parts ln.text).mapM (readStatement ln.line) = .ok readings) :
    ln.items? = some (readings.map fun reading => .statement reading.statement.form.kind) := by
  rw [LogicalLine.items?, if_neg (Bool.eq_false_iff.1 simple), read]
  rfl

/-- The item of a header is that of its statement. -/
theorem items?_of_header (header : isHeader ln.text = true)
    (read : readStatement ln.line ln.text = .ok (.header s rest))
    (suite : rest.isBlank = true ∨ ∃ suite, Draft.inlineSuite ln.line rest = .ok suite) :
    ln.items? = some [s.item] := by
  rw [LogicalLine.items?, if_pos header, read]
  refine if_pos ?_
  rcases suite with blank | ⟨suite, inside⟩
  · rw [blank]
    rfl
  · rw [inside]
    exact Bool.or_true _

end

/-- A row of statements is taken as it is, and its last statement is described by what it adds up
to. -/
theorem describes_row {readings : List Reading} (describes : c.Describes done.getLast?)
    (fresh : ∀ reading ∈ readings, reading.statement.Fresh) :
    c.Takes (readings.map fun reading => .statement reading.statement.form.kind) ∧
      (c.after (readings.map fun reading => .statement reading.statement.form.kind)).Describes
        (done ++ readings.map Reading.statement).getLast? := by
  induction readings generalizing c done with
  | nil =>
    rw [List.map_nil, List.map_nil, List.append_nil]
    exact ⟨trivial, describes⟩
  | cons reading readings ih =>
    rw [List.forall_mem_cons] at fresh
    have first : Compound.Describes ⟨reading.statement.form.kind, []⟩
        (done ++ [reading.statement]).getLast? := by
      rw [List.getLast?_concat]
      exact ⟨rfl, fun _ => fresh.1.unmarked⟩
    have later := ih first fresh.2
    rw [List.append_assoc] at later
    exact later

/-- A row of layouts is **taken** when all its lines can be read and all its compound statements are
admitted; and it adds up to what describes the last statement. -/
structure Taken (layouts : List Layout) (last? : Option Statement) : Prop where
  /-- All lines can be read. -/
  readable : ∀ ln ∈ Layout.linesAll layouts, ln.items?.isSome = true
  /-- All compound statements are admitted. -/
  admitted : ∀ c ∈ Layout.compounds layouts, c.Admitted
  /-- The row adds up to what describes the last statement. -/
  describes : (Compound.start.after (Layout.items layouts)).Describes last?

/-- Nothing is taken before there are statements. -/
theorem Taken.nil : Taken [] none := by
  refine ⟨by simp [Layout.linesAll], Layout.compounds_admitted_iff.2 ⟨trivial, ?_⟩, rfl, nofun⟩
  simp [Layout.innerAll]

/-- A further line with its suite. -/
theorem Taken.concat {earlier inside : List Layout} {ln : LogicalLine} {items : List Item}
    {last? last?' inner? : Option Statement} (before : Taken earlier last?)
    (within : Taken inside inner?) (shown : ln.items? = some items)
    (step : (Compound.start.after (Layout.items earlier)).Takes items ∧
      ((Compound.start.after (Layout.items earlier)).after items).Describes last?') :
    Taken (earlier ++ [⟨ln, inside⟩]) last?' := by
  have takes := Layout.compounds_admitted_iff.1 before.admitted
  have all : Layout.items (earlier ++ [⟨ln, inside⟩]) = Layout.items earlier ++ items := by
    rw [Layout.items_concat, Layout.line, shown, Option.getD_some]
  refine ⟨?_, Layout.compounds_admitted_iff.2 ⟨?_, ?_⟩, ?_⟩
  · simp only [Layout.linesAll_append, Layout.linesAll, Layout.lines, List.append_nil]
    refine List.forall_mem_append.2 ⟨before.readable, List.forall_mem_cons.2 ⟨?_, within.readable⟩⟩
    rw [shown]
    rfl
  · rw [all, Compound.takes_append]
    exact ⟨takes.1, step.1⟩
  · rw [Layout.innerAll_concat, Layout.inner_mk]
    exact List.forall_mem_append.2 ⟨takes.2, within.admitted⟩
  · rw [all, Compound.after_append]
    exact step.2

/-- **What is built is taken.** -/
theorem Builds.taken {layouts : List Layout} {statements : List Statement}
    (builds : Builds layouts statements) : Taken layouts statements.getLast? := by
  induction builds with
  | nil => exact .nil
  | @row earlier done ln readings before simple read ih =>
    exact ih.concat .nil (items?_of_row simple read)
      (describes_row ih.describes (forall_mem_of_mapM fresh_of_read read))
  | @inline earlier done done' suite ln s rest before header read behind inside adopts ih =>
    exact ih.concat .nil (items?_of_header header read (.inr ⟨suite, inside⟩))
      (adopts.describes (fresh_of_read read) ih.describes before.chain)
  | @suite earlier layouts done done' suite ln s rest before header read behind inside adopts ih
      ih_inside =>
    exact ih.concat ih_inside (items?_of_header header read (.inl behind))
      (adopts.describes (fresh_of_read read) ih.describes before.chain)

/-! ## What is admitted is read -/

/-- A line that can be read is read into a suite when its clause may continue the last
statement. -/
theorem exists_read {frame : Frame} {ln : LogicalLine} {items : List Item}
    (describes : c.Describes frame.done.head?) (shown : ln.items? = some items)
    (takes : c.Takes items) : ∃ read, frame.read ln = .ok read := by
  rw [LogicalLine.items?] at shown
  by_cases header : isHeader ln.text = true
  · rw [if_pos header] at shown
    split at shown
    · rename_i s rest is_reading
      split_ifs at shown with suite
      cases shown
      have may : ∀ clause, s.clause? = some clause → c.accepts clause = true := by
        intro clause is_clause
        rw [item, is_clause] at takes
        exact takes.1
      obtain ⟨⟨between, slot⟩, attached⟩ := exists_attach describes may
      -- What is behind the colon is the suite, or a draft waits for one in the lines below.
      have read : frame.read ln = (if rest.isBlank then
            .ok (between, some ⟨ln.line, firstWord s.head, slot⟩)
          else Draft.inlineSuite ln.line rest >>= fun suite =>
            .ok (between.fill slot suite, none)) := by
        rw [Frame.read, if_pos header, is_reading]
        simp only [bind, Except.bind, attached, pure, Except.pure]
      rw [read]
      rw [Bool.or_eq_true] at suite
      rcases suite with blank | inside
      · rw [if_pos blank]
        exact ⟨_, rfl⟩
      · obtain ⟨suite, inside⟩ := exists_of_isSome_toOption inside
        rw [inside]
        split <;> exact ⟨_, rfl⟩
    · cases shown
  · rw [if_neg header] at shown
    obtain ⟨readings, read, -⟩ := exists_of_toOption_map shown
    rw [Frame.read, if_neg header, read]
    exact ⟨_, rfl⟩

mutual
/-- A layout is placed behind what is built when its line may stand there and its suite is
admitted. -/
theorem exists_place : ∀ {layout : Layout} {column : Nat} {earlier : List Layout} {frame : Frame},
    layout.Fits column → Builds earlier frame.done.reverse →
      (∀ ln ∈ layout.lines, ln.items?.isSome = true) →
      (Compound.start.after (Layout.items earlier)).Takes (layout.line.items?.getD []) →
      (∀ c ∈ layout.inner, c.Admitted) → ∃ frame', frame.place layout = .ok frame'
  | ⟨ln, suite⟩, column, earlier, frame, fits, before, readable, takes, within => by
    rw [Layout.lines, List.forall_mem_cons] at readable
    obtain ⟨items, shown⟩ := Option.isSome_iff_exists.1 readable.1
    rw [Layout.line, shown, Option.getD_some] at takes
    have describes := before.taken.describes
    rw [List.getLast?_reverse] at describes
    obtain ⟨⟨between, awaited⟩, read⟩ := exists_read describes shown takes
    rw [Frame.place, read]
    cases awaited with
    | none => exact ⟨_, rfl⟩
    | some awaited =>
      have admitted : ∀ c ∈ Layout.compounds suite, c.Admitted := by
        rwa [Layout.inner_mk] at within
      obtain ⟨deep, inside⟩ : ∃ deep, ∀ layout ∈ suite, layout.Fits deep := by
        cases fits with
        | row closed => exact ⟨0, fun _ => nofun⟩
        | suite opens deeper inside => exact ⟨_, inside⟩
      obtain ⟨takes, within⟩ := Layout.compounds_admitted_iff.1 admitted
      obtain ⟨inner, placed⟩ := @exists_placeAll suite deep [] ⟨Layout.columnOf suite, []⟩ inside
        .nil readable.2 takes within
      refine ⟨between.fill awaited.slot inner.done.reverse, ?_⟩
      simp only [bind, Except.bind, placed]

/-- Layouts whose items are taken can be placed, one after the other. -/
theorem exists_placeAll : ∀ {layouts : List Layout} {column : Nat} {earlier : List Layout}
    {frame : Frame}, (∀ layout ∈ layouts, layout.Fits column) → Builds earlier frame.done.reverse →
      (∀ ln ∈ Layout.linesAll layouts, ln.items?.isSome = true) →
      (Compound.start.after (Layout.items earlier)).Takes (Layout.items layouts) →
      (∀ c ∈ Layout.innerAll layouts, c.Admitted) → ∃ frame', frame.placeAll layouts = .ok frame'
  | [], _, _, frame, _, _, _, _, _ => ⟨frame, by rw [Frame.placeAll]⟩
  | first :: rest, column, earlier, frame, fits, before, readable, takes, within => by
    rw [List.forall_mem_cons] at fits
    rw [Layout.linesAll, List.forall_mem_append] at readable
    rw [Layout.innerAll, List.forall_mem_append] at within
    have split : Layout.items (first :: rest) =
        first.line.items?.getD [] ++ Layout.items rest := List.flatMap_cons
    rw [split, Compound.takes_append] at takes
    obtain ⟨between, once⟩ := exists_place fits.1 before readable.1 takes.1 within.1
    have next := builds_of_place fits.1 before once
    have later : (Compound.start.after (Layout.items (earlier ++ [first]))).Takes
        (Layout.items rest) := by
      rw [Layout.items_concat, Compound.after_append]
      exact takes.2
    obtain ⟨last, placed⟩ := exists_placeAll fits.2 next readable.2 later within.2
    refine ⟨last, ?_⟩
    rw [Frame.placeAll, once]
    exact placed
end

/-! ## Modules -/

/-- **Which modules are accepted.** A module with a layout is accepted exactly when its lines can be
read and its compound statements are admitted. -/
theorem exists_parse_iff {code : Text} {layouts : List Layout}
    (split : logicalLines code = .ok (Layout.linesAll layouts))
    (fits : ∀ layout ∈ layouts, layout.Fits 0) :
    (∃ m, Module.parse code = .ok m) ↔
      (∀ ln ∈ Layout.linesAll layouts, ln.items?.isSome = true) ∧
        ∀ c ∈ Layout.compounds layouts, c.Admitted := by
  rw [parse_eq split, run_layouts fits]
  constructor
  · rintro ⟨m, read⟩
    obtain ⟨statements, run, -⟩ := bind_eq_ok.1 read
    obtain ⟨frame, placed, -⟩ := bind_eq_ok.1 run
    have taken := (@builds_of_placeAll layouts 0 [] ⟨0, []⟩ frame fits .nil placed).taken
    exact ⟨taken.readable, taken.admitted⟩
  · rintro ⟨readable, admitted⟩
    obtain ⟨takes, within⟩ := Layout.compounds_admitted_iff.1 admitted
    obtain ⟨frame, placed⟩ := @exists_placeAll layouts 0 [] ⟨0, []⟩ fits .nil readable takes within
    rw [placed]
    exact ⟨_, rfl⟩

/-- Lines that open no suites, as layouts. -/
def Layout.flat (lines : List LogicalLine) : List Layout := lines.map fun ln => ⟨ln, []⟩

end FlowTrace.Python
