import FlowTrace.Proofs.Python.Inventory

/-! # Statements in the order of their source

A tree of statements is in order when each statement stands in front of what is below it and the
statements of a suite stand one behind the other (`Statement.InOrder`). A layout gives its lines to
the tree from the first to the last, and each of them goes where it keeps the tree in order, so the
statements of every layout are in order (`Builds.suiteInOrder`). -/

namespace FlowTrace.Python

/-- Whether statements of a form have an alternative. -/
def Form.takesElse : Form → Bool
  | .branch _ _ _ | .forLoop _ _ | .whileLoop _ | .attempt => true
  | _ => false

/-- Whether statements of a form have no suite. -/
def Form.isSimple : Form → Bool
  | .ret _ | .assign _ _ | .update _ _ _ | .expr | .other => true
  | _ => false

namespace Statement

/-! ## Statements in order -/

/-- Everything in one statement stands in front of everything in another one, or on its line. -/
def Precedes (s s' : Statement) : Prop := ∀ e ∈ s.entries, ∀ e' ∈ s'.entries, e.1 ≤ e'.1

/-- Everything in one statement stands on lines in front of everything in another one. -/
def WellBefore (s s' : Statement) : Prop := ∀ e ∈ s.entries, ∀ e' ∈ s'.entries, e.1 < e'.1

/-- Which suites go with a form. -/
structure Shape (form : Form) (body orelse handlers : List Statement) : Prop where
  /-- Simple statements have none. -/
  simple : form.isSimple = true → body = []
  /-- An alternative belongs to a conditional, a loop or an attempt. -/
  alternative : orelse ≠ [] → form.takesElse = true
  /-- Handlers belong to an attempt. -/
  attempt : handlers ≠ [] → form = .attempt
  /-- Handlers have no suite but their own. -/
  plain : ∀ h ∈ handlers, h.orelse = [] ∧ h.handlers = []

/-- A tree is **in order** if each statement stands in front of what is below it, its own suite in
front of the alternative and the handlers, and the statements of a suite one behind the other. A
handler and a statement of the alternative stand apart, one way or the other. -/
inductive InOrder : Statement → Prop where
  | mk {line : Nat} {head : Text} {form : Form} {body orelse handlers : List Statement}
      (header : ∀ e ∈ entriesAll body ++ (entriesAll orelse ++ entriesAll handlers), line ≤ e.1)
      (body_first : ∀ e ∈ entriesAll body, ∀ e' ∈ entriesAll orelse ++ entriesAll handlers,
        e.1 ≤ e'.1)
      (rows : body.Pairwise Precedes ∧ orelse.Pairwise Precedes ∧ handlers.Pairwise Precedes)
      (apart : ∀ h ∈ handlers, ∀ o ∈ orelse, WellBefore h o ∨ WellBefore o h)
      (shape : Shape form body orelse handlers) (in_body : ∀ s ∈ body, InOrder s)
      (in_orelse : ∀ s ∈ orelse, InOrder s)
      (in_handlers : ∀ s ∈ handlers, InOrder s) :
      InOrder ⟨line, head, form, body, orelse, handlers⟩

/-- A suite is in order if its statements are, and stand one behind the other. -/
structure SuiteInOrder (suite : List Statement) : Prop where
  row : suite.Pairwise Precedes
  inside : ∀ s ∈ suite, s.InOrder

variable {s : Statement} {suite done done' : List Statement}

/-- The root of a tree is one of its entries. -/
theorem entry_mem (s : Statement) : (s.line, s.head) ∈ s.entries := by
  obtain ⟨line, head, form, body, orelse, handlers⟩ := s
  rw [entries_mk]
  exact List.mem_cons_self

/-- The entries of a suite are those of its statements. -/
theorem mem_entriesAll {e : Nat × Text} : e ∈ entriesAll suite ↔ ∃ s ∈ suite, e ∈ s.entries := by
  induction suite with
  | nil => simp
  | cons s rest ih => simp [ih]

/-- A statement with its suite is in order. -/
theorem inOrder_leaf {line : Nat} {head : Text} {form : Form} (within : SuiteInOrder suite)
    (below : ∀ e ∈ entriesAll suite, line ≤ e.1) (fits : form.isSimple = true → suite = []) :
    ((leaf line head form).addBody suite).InOrder := by
  show InOrder ⟨line, head, form, [] ++ suite, [], []⟩
  rw [List.nil_append]
  refine .mk ?_ (by simp) ⟨within.row, .nil, .nil⟩ (by simp)
    ⟨fits, by simp, by simp, by simp⟩ within.inside (by simp) (by simp)
  simpa using below

/-- A conditional takes an alternative. -/
theorem takesElse_of_isBranch (branch : s.isBranch = true) : s.form.takesElse = true := by
  obtain ⟨condition, isElif, hasElse, is_branch⟩ := exists_form_of_isBranch branch
  rw [is_branch]
  rfl

/-- The mark of an alternative keeps a statement in order. -/
theorem inOrder_markElse (ordered : s.InOrder) : s.markElse.InOrder := by
  obtain ⟨header, body_first, rows, apart, shape, in_body, in_orelse, in_handlers⟩ := ordered
  rw [markElse]
  split
  · rename_i is_branch
    simp only at is_branch
    subst is_branch
    refine .mk header body_first rows apart ⟨by simp [Form.isSimple], fun _ => rfl, ?_, shape.plain⟩
      in_body in_orelse in_handlers
    intro filled
    cases shape.attempt filled
  · exact .mk header body_first rows apart shape in_body in_orelse in_handlers

/-! ## New lines

What is added to a tree stands behind all of it: everything in the tree is on lines in front of
`bound`, and what is added is not. -/

variable {bound : Nat}

/-- A later alternative keeps a statement in order. -/
theorem inOrder_addOrelse (ordered : s.InOrder) (early : ∀ e ∈ s.entries, e.1 < bound)
    (takes : s.form.takesElse = true) (within : SuiteInOrder suite)
    (late : ∀ e ∈ entriesAll suite, bound ≤ e.1) :
    (s.addOrelse suite).InOrder := by
  obtain ⟨header, body_first, rows, apart, shape, in_body, in_orelse, in_handlers⟩ := ordered
  rename_i line head form body orelse handlers
  rw [entries_mk, List.forall_mem_cons, List.forall_mem_append, List.forall_mem_append] at early
  obtain ⟨early_header, early_body, early_orelse, early_handlers⟩ := early
  simp only [List.forall_mem_append] at header body_first
  -- everything old is in front of everything new
  have before {n : Nat} (old : n < bound) {e : Nat × Text} (new : e ∈ entriesAll suite) : n < e.1 :=
    Nat.lt_of_lt_of_le old (late e new)
  refine .mk ?_ ?_ ⟨rows.1, ?_, rows.2.2⟩ ?_
    ⟨shape.simple, fun _ => takes, shape.attempt, shape.plain⟩ in_body ?_ in_handlers
  · simp only [entriesAll_append, List.forall_mem_append]
    exact ⟨header.1, ⟨header.2.1, fun e new => Nat.le_of_lt (before early_header new)⟩, header.2.2⟩
  · simp only [entriesAll_append, List.forall_mem_append]
    intro e old
    exact ⟨⟨(body_first e old).1, fun e' new => Nat.le_of_lt (before (early_body e old) new)⟩,
      (body_first e old).2⟩
  · refine List.pairwise_append.2 ⟨rows.2.1, within.row, fun o old o' new e inside e' inside' => ?_⟩
    exact Nat.le_of_lt (before (early_orelse e (mem_entriesAll.2 ⟨o, old, inside⟩))
      (mem_entriesAll.2 ⟨o', new, inside'⟩))
  · intro h old o member
    rcases List.mem_append.1 member with among | new
    · exact apart h old o among
    · refine .inl fun e inside e' inside' => ?_
      exact before (early_handlers e (mem_entriesAll.2 ⟨h, old, inside⟩))
        (mem_entriesAll.2 ⟨o, new, inside'⟩)
  · exact List.forall_mem_append.2 ⟨in_orelse, within.inside⟩

/-- Later handlers keep an attempt in order. -/
theorem inOrder_addHandlers (ordered : s.InOrder) (early : ∀ e ∈ s.entries, e.1 < bound)
    (is_attempt : s.form = .attempt) (within : SuiteInOrder suite)
    (late : ∀ e ∈ entriesAll suite, bound ≤ e.1)
    (plain : ∀ h ∈ suite, h.orelse = [] ∧ h.handlers = []) :
    { s with handlers := s.handlers ++ suite : Statement }.InOrder := by
  obtain ⟨header, body_first, rows, apart, shape, in_body, in_orelse, in_handlers⟩ := ordered
  rename_i line head form body orelse handlers
  rw [entries_mk, List.forall_mem_cons, List.forall_mem_append, List.forall_mem_append] at early
  obtain ⟨early_header, early_body, early_orelse, early_handlers⟩ := early
  simp only [List.forall_mem_append] at header body_first
  have before {n : Nat} (old : n < bound) {e : Nat × Text} (new : e ∈ entriesAll suite) : n < e.1 :=
    Nat.lt_of_lt_of_le old (late e new)
  -- the new handlers stand behind the alternative, the old ones on either side of it
  refine .mk ?_ ?_ ⟨rows.1, rows.2.1, ?_⟩ ?_ ⟨shape.simple, shape.alternative, fun _ => is_attempt,
    List.forall_mem_append.2 ⟨shape.plain, plain⟩⟩ in_body in_orelse ?_
  · simp only [entriesAll_append, List.forall_mem_append]
    exact ⟨header.1, header.2.1, header.2.2, fun e new => Nat.le_of_lt (before early_header new)⟩
  · simp only [entriesAll_append, List.forall_mem_append]
    intro e old
    exact ⟨(body_first e old).1, (body_first e old).2,
      fun e' new => Nat.le_of_lt (before (early_body e old) new)⟩
  · refine List.pairwise_append.2 ⟨rows.2.2, within.row, fun h old h' new e inside e' inside' => ?_⟩
    exact Nat.le_of_lt (before (early_handlers e (mem_entriesAll.2 ⟨h, old, inside⟩))
      (mem_entriesAll.2 ⟨h', new, inside'⟩))
  · intro h member o old
    rcases List.mem_append.1 member with among | new
    · exact apart h among o old
    · refine .inr fun e inside e' inside' => ?_
      exact before (early_orelse e (mem_entriesAll.2 ⟨o, old, inside⟩))
        (mem_entriesAll.2 ⟨h, new, inside'⟩)
  · exact List.forall_mem_append.2 ⟨in_handlers, within.inside⟩

/-- What is added at the last link of a chain leaves the chain in order: the conditionals on the way
have no handlers. -/
theorem inOrder_mapTail {new : List (Nat × Text)} {f : Statement → Statement}
    (inserts : ∀ t : Statement, Inserts new t.entries (f t).entries)
    (late : ∀ e ∈ new, bound ≤ e.1)
    (keeps : ∀ t : Statement, t.isBranch = true → t.InOrder → (∀ e ∈ t.entries, e.1 < bound) →
      (f t).InOrder)
    (branch : s.isBranch = true) (ordered : s.InOrder) (early : ∀ e ∈ s.entries, e.1 < bound) :
    (s.mapTail f).InOrder := by
  induction s using mapTail.induct with
  | case1 line head condition isElif body next handlers continues ih =>
    rw [mapTail, if_pos continues]
    cases ordered with
    | mk header body_first rows apart shape in_body in_orelse in_handlers =>
    -- a conditional has no handlers, so what is added stands behind everything else in it
    have none : handlers = [] := by
      by_contra filled
      cases shape.attempt filled
    subst none
    rw [entries_mk, List.forall_mem_cons, List.forall_mem_append] at early
    simp only [entriesAll_cons, entriesAll_nil, List.append_nil] at header body_first early
    rw [List.forall_mem_append] at header
    have changed {e : Nat × Text} : e ∈ (next.mapTail f).entries ↔ e ∈ next.entries ∨ e ∈ new :=
      (inserts_mapTail inserts next).mem_iff
    have inside := ih (isBranch_of_isElif continues) (in_orelse next (List.mem_singleton_self _))
      early.2.2
    refine .mk ?_ ?_ ⟨rows.1, List.pairwise_singleton _ _, .nil⟩ (by simp)
      ⟨shape.simple, fun _ => rfl, shape.attempt, shape.plain⟩ in_body
      (List.forall_mem_singleton.2 inside) (by simp)
    · simp only [entriesAll_cons, entriesAll_nil, List.append_nil, List.forall_mem_append]
      refine ⟨header.1, fun e member => ?_⟩
      rcases changed.1 member with old | added
      · exact header.2 e old
      · exact Nat.le_trans (Nat.le_of_lt early.1) (late e added)
    · simp only [entriesAll_cons, entriesAll_nil, List.append_nil]
      intro e member e' member'
      rcases changed.1 member' with old | added
      · exact body_first e member e' old
      · exact Nat.le_trans (Nat.le_of_lt (early.2.1 e member)) (late e' added)
  | case2 line head condition isElif body next handlers ends =>
    rw [mapTail, if_neg ends]
    exact keeps _ branch ordered early
  | case3 s other =>
    rw [mapTail]
    · exact keeps s branch ordered early
    · exact other

/-- The last statement of a suite is on lines in front of what comes behind the suite. -/
theorem early_of_concat {earlier : List Statement} {last : Statement}
    (early : ∀ e ∈ entriesAll (earlier ++ [last]), e.1 < bound) : ∀ e ∈ last.entries, e.1 < bound :=
  fun e member => early e (mem_entriesAll.2 ⟨last, by simp, member⟩)

/-- The last statement of a suite may grow. -/
theorem SuiteInOrder.grow {earlier : List Statement} {last last' : Statement}
    {new : List (Nat × Text)} (row : SuiteInOrder (earlier ++ [last])) (ordered : last'.InOrder)
    (inserts : Inserts new last.entries last'.entries)
    (early : ∀ e ∈ entriesAll (earlier ++ [last]), e.1 < bound) (late : ∀ e ∈ new, bound ≤ e.1) :
    SuiteInOrder (earlier ++ [last']) := by
  obtain ⟨pairs, inside⟩ := row
  rw [List.pairwise_append] at pairs
  rw [List.forall_mem_append] at inside
  refine ⟨List.pairwise_append.2 ⟨pairs.1, List.pairwise_singleton _ _, ?_⟩,
    List.forall_mem_append.2 ⟨inside.1, List.forall_mem_singleton.2 ordered⟩⟩
  intro s member t is_last e among e' among'
  rw [List.mem_singleton] at is_last
  subst is_last
  rcases inserts.mem_iff.1 among' with old | added
  · exact pairs.2.2 s member last (List.mem_singleton_self _) e among e' old
  · have here : e ∈ entriesAll (earlier ++ [last]) :=
      mem_entriesAll.2 ⟨s, List.mem_append_left _ member, among⟩
    exact Nat.le_trans (Nat.le_of_lt (early e here)) (late e' added)

/-- A later statement keeps a row in order. -/
theorem SuiteInOrder.concat (row : SuiteInOrder done) (ordered : s.InOrder)
    (early : ∀ e ∈ entriesAll done, e.1 < bound) (late : ∀ e ∈ s.entries, bound ≤ e.1) :
    SuiteInOrder (done ++ [s]) := by
  refine ⟨List.pairwise_append.2 ⟨row.row, List.pairwise_singleton _ _, ?_⟩,
    List.forall_mem_append.2 ⟨row.inside, List.forall_mem_singleton.2 ordered⟩⟩
  intro t member u is_last e among e' among'
  rw [List.mem_singleton] at is_last
  subst is_last
  exact Nat.le_trans (Nat.le_of_lt (early e (mem_entriesAll.2 ⟨t, member, among⟩))) (late e' among')

/-- **Adopting a suite** keeps the order when the header stands behind the statements before it. -/
theorem Adopts.inOrder {line : Nat} {head : Text} {form : Form}
    (adopts : (leaf line head form).Adopts suite done done') (opens : form.isSimple = false)
    (row : SuiteInOrder done) (within : SuiteInOrder suite)
    (early : ∀ e ∈ entriesAll done, e.1 < line)
    (late : ∀ e ∈ entriesAll suite, line ≤ e.1) : SuiteInOrder done' := by
  have whole : ((leaf line head form).addBody suite).entries = (line, head) :: entriesAll suite := by
    simp [leaf, addBody, entries_mk]
  have new : ((leaf line head form).addBody suite).InOrder :=
    inOrder_leaf within late fun simple => by rw [opens] at simple; cases simple
  have late_new : ∀ e ∈ ((leaf line head form).addBody suite).entries, line ≤ e.1 := by
    rw [whole]
    exact List.forall_mem_cons.2 ⟨Nat.le_refl _, late⟩
  have alone : SuiteInOrder [(leaf line head form).addBody suite] :=
    ⟨List.pairwise_singleton _ _, List.forall_mem_singleton.2 new⟩
  have late_alone : ∀ e ∈ entriesAll [(leaf line head form).addBody suite], line ≤ e.1 := by
    rw [entriesAll_cons, entriesAll_nil, List.append_nil]
    exact late_new
  cases adopts with
  | own plain => exact row.concat new early late_new
  | @link earlier last elif branch open_ =>
    have of_last := row.inside last (by simp)
    have early_last := early_of_concat early
    have inserts (t : Statement) := inserts_addOrelse t [(leaf line head form).addBody suite]
    refine row.grow (inOrder_mapTail inserts late_alone (fun t branch ordered early => ?_) branch
      of_last early_last) (inserts_mapTail inserts last) early late_alone
    exact inOrder_addOrelse ordered early (takesElse_of_isBranch branch) alone late_alone
  | @choice earlier last is_else branch open_ =>
    -- the last link takes the suite itself; its mark for an alternative has no entry
    have of_last := row.inside last (by simp)
    have early_last := early_of_concat early
    have inserts (t : Statement) :
        Inserts (entriesAll suite) t.entries (t.markElse.addOrelse suite).entries := by
      have marked := inserts_addOrelse t.markElse suite
      rwa [entries_markElse] at marked
    refine row.grow (inOrder_mapTail inserts late (fun t branch ordered early => ?_) branch of_last
      early_last) (inserts_mapTail inserts last) early late
    refine inOrder_addOrelse (inOrder_markElse ordered) (by rwa [entries_markElse]) ?_ within late
    obtain ⟨condition, isElif, hasElse, is_branch⟩ := exists_form_of_isBranch branch
    rw [markElse, is_branch]
    rfl
  | @alternative earlier last is_else takes =>
    have early_last := early_of_concat early
    refine row.grow (inOrder_addOrelse (row.inside last (by simp)) early_last ?_ within late)
      (inserts_addOrelse last suite) early late
    rw [isLoop] at takes
    cases is_form : last.form <;> simp [is_form] at takes <;> rfl
  | @handler earlier last handler attempt =>
    have early_last := early_of_concat early
    exact row.grow
      (inOrder_addHandlers (row.inside last (by simp)) early_last attempt alone late_alone
        (List.forall_mem_singleton.2 ⟨rfl, rfl⟩))
      (inserts_addHandlers last _) early late_alone

end Statement

open Statement

end FlowTrace.Python
