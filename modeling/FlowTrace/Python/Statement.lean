import FlowTrace.Text.Basic

/-! # Python statements

The statement tree of a Python module. What distinguishes one kind of statement from another is
its **form**; the suites nested in a statement are kept beside the form, so that every walk over
the tree is the same for all kinds. -/

namespace FlowTrace.Python

/-- What kind of statement it is, with the texts that belong to that kind. -/
inductive Form where
  /-- A function definition. -/
  | func (name : Text) (params : List Text)
  /-- A class definition. -/
  | classDef (name : Text)
  /-- A conditional, or one of its continuations; `hasElse` when an alternative follows. -/
  | branch (condition : Text) (isElif hasElse : Bool)
  /-- A loop over the items of something. -/
  | forLoop (target iterable : Text)
  /-- A loop with a condition. -/
  | whileLoop (condition : Text)
  /-- An attempt with handlers. -/
  | attempt
  /-- Any other statement with a suite. -/
  | block
  /-- A return, with the text of its value. -/
  | ret (value : Text)
  /-- An assignment to one or more targets. -/
  | assign (targets : List Text) (value : Text)
  /-- An update of a target by an operator. -/
  | update (target operator value : Text)
  /-- An expression. -/
  | expr
  /-- A statement that has no place in a flowchart. -/
  | other
  deriving DecidableEq, Repr

/-- A **statement**. The head is the text before the colon, or the whole text of a statement
without suite. -/
structure Statement where
  /-- The line where it begins. -/
  line : Nat
  /-- The text before the colon, or the whole text. -/
  head : Text
  /-- Its kind. -/
  form : Form
  /-- The statements of its own suite. -/
  body : List Statement
  /-- The statements of its alternative. -/
  orelse : List Statement
  /-- The handlers of an attempt. -/
  handlers : List Statement
  deriving Repr

namespace Statement

/-- A statement without suites. -/
def leaf (line : Nat) (head : Text) (form : Form) : Statement := ⟨line, head, form, [], [], []⟩

/-- Whether the statement is a loop. -/
def isLoop (s : Statement) : Bool :=
  match s.form with
  | .forLoop _ _ | .whileLoop _ => true
  | _ => false

/-- Whether the statement continues a conditional. -/
def isElif (s : Statement) : Bool :=
  match s.form with
  | .branch _ isElif _ => isElif
  | _ => false

/-- Changes the last link of a chain of conditionals: as long as a conditional has no alternative
of its own, its only continuation is followed. -/
def mapTail (f : Statement → Statement) : Statement → Statement
  | ⟨line, head, .branch condition isElif false, body, [next], handlers⟩ =>
    if next.isElif then
      ⟨line, head, .branch condition isElif false, body, [next.mapTail f], handlers⟩
    else f ⟨line, head, .branch condition isElif false, body, [next], handlers⟩
  | s => f s

/-- Whether the last link of a chain of conditionals has an alternative. -/
def tailHasElse : Statement → Bool
  | ⟨_, _, .branch _ _ false, _, [next], _⟩ => next.isElif && next.tailHasElse
  | ⟨_, _, .branch _ _ hasElse, _, _, _⟩ => hasElse
  | _ => false

/-- Whether the statement begins a chain of conditionals. -/
def isBranch (s : Statement) : Bool :=
  match s.form with
  | .branch _ _ _ => true
  | _ => false

/-- The statements directly below a statement: body, alternative, handlers. -/
def children (s : Statement) : List Statement := s.body ++ s.orelse ++ s.handlers

mutual
/-- All statements of a tree in source order, each with the number of loops around it. -/
def walk (depth : Nat) : Statement → List (Statement × Nat)
  | ⟨line, head, form, body, orelse, handlers⟩ =>
    let s : Statement := ⟨line, head, form, body, orelse, handlers⟩
    (s, depth) :: (walkAll (if s.isLoop then depth + 1 else depth) body ++
      (walkAll depth orelse ++ walkAll depth handlers))

/-- All statements of a list of trees in source order. -/
def walkAll (depth : Nat) : List Statement → List (Statement × Nat)
  | [] => []
  | s :: rest => s.walk depth ++ walkAll depth rest
end

mutual
/-- The number of statements of a tree. -/
def size : Statement → Nat
  | ⟨_, _, _, body, orelse, handlers⟩ =>
    1 + (sizeAll body + (sizeAll orelse + sizeAll handlers))

/-- The number of statements of a list of trees. -/
def sizeAll : List Statement → Nat
  | [] => 0
  | s :: rest => s.size + sizeAll rest
end

/-- The size of suites behind each other is the sum of theirs. -/
theorem sizeAll_append (suite rest : List Statement) :
    sizeAll (suite ++ rest) = sizeAll suite + sizeAll rest := by
  induction suite with
  | nil => simp [sizeAll]
  | cons s suite ih => rw [List.cons_append, sizeAll, sizeAll, ih, Nat.add_assoc]

/-- A statement is one more than those below it. -/
theorem size_eq (s : Statement) : s.size = 1 + sizeAll s.children := by
  rw [children, sizeAll_append, sizeAll_append, Nat.add_assoc]
  cases s
  rw [size]

/-- All statements of a **queue** of trees: the first one is taken, and those directly below it go to
the end of the queue. -/
def drain : List Statement → List Statement
  | [] => []
  | s :: queue => s :: drain (queue ++ s.children)
termination_by queue => sizeAll queue
decreasing_by
  rw [sizeAll_append, sizeAll, size_eq]
  omega

end Statement

end FlowTrace.Python
