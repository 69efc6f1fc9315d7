import FlowTrace.Java.Estimate
import FlowTrace.Proofs.Braced.Comments
import FlowTrace.Proofs.Java.Blocks
import FlowTrace.Proofs.Traversal

/-! # Where Java statements are placed

Every reader takes the lines of its statements from tokens that it passes over, in their order. So
what it reads **spans** the lines from the token where it begins to the token where it ends
(`placing`), and the statements of a program span lines of its source (`spans_of_parse`). What
statements declare, the names of methods and the initial values of local variables, is written in
those tokens too (`writtenIn_of_parse`). -/

namespace FlowTrace

/-! ## The lines of Java tokens

A source without comments has the lines of the source that it comes from
(`lineCount_blankComments`). The numbers of its tokens do not decrease, and lie between one and the
number of its lines (`numbered_tokenize`). -/

namespace Java

/-- The tokens read so far are **numbered**: no line number is smaller than the one before it, and
each is the number of a line of the source. -/
structure Numbered (code : Text) (line : Nat) (done : List Token) : Prop where
  /-- The tokens, last first, do not go back. -/
  ordered : done.Pairwise fun later earlier => earlier.line ≤ later.line
  /-- They begin on lines up to the current one. -/
  before : ∀ t ∈ done, t.line ≤ line
  /-- Lines are counted from one, up to the last line. -/
  inside : ∀ t ∈ done, 1 ≤ t.line ∧ t.line ≤ code.lineCount

namespace Numbered

variable {code : Text} {line later : Nat} {done : List Token}

/-- Tokens stay numbered as the lines go on. -/
theorem mono (numbered : Numbered code line done) (le : line ≤ later) : Numbered code later done :=
  ⟨numbered.ordered, fun t member => Nat.le_trans (numbered.before t member) le, numbered.inside⟩

/-- A token on the current line is numbered with those before it. -/
theorem cons {t : Token} (numbered : Numbered code t.line done)
    (inside : 1 ≤ t.line ∧ t.line ≤ code.lineCount) : Numbered code t.line (t :: done) where
  ordered := List.pairwise_cons.2 ⟨numbered.before, numbered.ordered⟩
  before := List.forall_mem_cons.2 ⟨Nat.le_refl _, numbered.before⟩
  inside := List.forall_mem_cons.2 ⟨inside, numbered.inside⟩

end Numbered

/-- The number of the line behind a byte. -/
theorem newlines_behind (front : Text) (c : UInt8) :
    (if c == Text.newline then front.newlines + 1 + 1 else front.newlines + 1) =
      Text.newlines (front ++ [c]) + 1 := by
  rw [Text.newlines_append, Text.newlines, Text.newlines, List.count_singleton]
  by_cases newline : c == Text.newline
  · simp only [newline, if_true]
  · simp only [newline, Bool.false_eq_true, if_false, Nat.add_zero]

/-- Reading goes on with tokens that are numbered, whatever is in front. -/
theorem numbered_tokensFrom {code t : Text} (front : Text) {skip offset line : Nat}
    {done tokens : List Token} (read : tokensFrom t skip offset line done = .ok tokens)
    (whole : code = front ++ t)
    (here : line = front.newlines + 1) (numbered : Numbered code line done) :
    ∃ last, Numbered code last tokens.reverse := by
  induction t generalizing front skip offset line done with
  | nil =>
    cases read
    exact ⟨line, by rwa [List.reverse_reverse]⟩
  | cons c t ih =>
    subst here
    have whole' : code = (front ++ [c]) ++ t := by rw [whole, List.append_assoc]; rfl
    have further : front.newlines + 1 ≤ Text.newlines (front ++ [c]) + 1 := by
      rw [Text.newlines_append]
      omega
    cases skip with
    | succ skip =>
      rw [tokensFrom, newlines_behind] at read
      exact ih _ read whole' rfl (numbered.mono further)
    | zero =>
      rw [tokensFrom, newlines_behind] at read
      simp only at read
      split at read
      · exact ih _ read whole' rfl (numbered.mono further)
      · rename_i solid
        split at read
        · cases read
        · -- a token begins, and its first byte is no newline
          have plain : c ≠ Text.newline := by
            rintro rfl
            exact solid rfl
          have inside : front.newlines + 1 ≤ code.lineCount := by
            rw [whole]
            exact Text.le_lineCount plain
          refine ih _ read whole' rfl (Numbered.mono ?_ further)
          exact numbered.cons (t := ⟨_, _, _, _, _⟩) ⟨Nat.le_add_left 1 _, inside⟩

/-- The lines of **tokens** do not decrease, and are lines of the source. -/
theorem numbered_tokenize {code : Text} {tokens : List Token} (read : tokenize code = .ok tokens) :
    tokens.Pairwise (fun earlier later => earlier.line ≤ later.line) ∧
      ∀ t ∈ tokens, 1 ≤ t.line ∧ t.line ≤ code.lineCount := by
  obtain ⟨last, numbered⟩ := numbered_tokensFrom [] read rfl rfl ⟨.nil, by simp, by simp⟩
  exact ⟨List.pairwise_reverse.1 numbered.ordered,
    fun t member => numbered.inside t (List.mem_reverse.2 member)⟩

end Java

namespace Java

open Statement (walkAll)

/-! ## Statements in lines -/

/-- The statements directly below a statement, in the order of the walk. -/
def Statement.children (s : Statement) : List Statement := s.body ++ (s.handlers ++ s.orelse)

/-- The lines of all statements of some trees, in the order of the walk. -/
def linesOf (statements : List Statement) : List Nat := (walkAll statements).map (·.line)

/-- Tokens are **in lines** when their line numbers do not decrease, up to the last line. -/
structure InLines (src : Source) (tokens : List Token) : Prop where
  /-- The line numbers do not decrease. -/
  ordered : tokens.Pairwise fun earlier later => earlier.line ≤ later.line
  /-- None is behind the last line. -/
  last : ∀ t ∈ tokens, t.line ≤ src.lastLine

variable {src : Source} {bound line : Nat} {topLevel : Bool} {here mid there : List Token}
  {done statements later : List Statement} {s : Statement} {found : Option Statement} {form : Form}

/-- Tokens in lines stay so when some are passed over. -/
theorem InLines.of_suffix (inLines : InLines src here) (suffix : there <:+ here) :
    InLines src there :=
  ⟨inLines.ordered.sublist suffix.sublist, fun t member => inLines.last t (suffix.mem member)⟩

/-- Further tokens are on further lines. -/
theorem InLines.line_le (inLines : InLines src here) (suffix : there <:+ here) :
    src.line here ≤ src.line there := by
  obtain ⟨front, rfl⟩ := suffix
  cases front with
  | nil => exact Nat.le_refl _
  | cons t front =>
    cases there with
    | nil => exact inLines.last t List.mem_cons_self
    | cons u there => exact (List.pairwise_cons.1 inLines.ordered).1 u (by simp)

/-- A walk over trees goes over the first ones first. -/
theorem walkAll_append (statements later : List Statement) :
    walkAll (statements ++ later) = walkAll statements ++ walkAll later := by
  induction statements with
  | nil => rfl
  | cons s statements ih => rw [List.cons_append, walkAll, walkAll, ih, List.append_assoc]

/-- The lines of some trees are those of the first ones and of the later ones. -/
theorem linesOf_append (statements later : List Statement) :
    linesOf (statements ++ later) = linesOf statements ++ linesOf later := by
  rw [linesOf, walkAll_append, List.map_append]
  rfl

/-- A walk over a tree begins with its root. -/
theorem walk_eq (s : Statement) : s.walk = s :: walkAll s.children := by
  obtain ⟨line, form, body, orelse, handlers⟩ := s
  rw [Statement.walk, Statement.children, walkAll_append, walkAll_append]

/-- The lines of some trees begin with that of the first root. -/
theorem linesOf_cons (s : Statement) (later : List Statement) :
    linesOf (s :: later) = s.line :: linesOf s.children ++ linesOf later := by
  rw [linesOf, walkAll, walk_eq, List.map_append]
  rfl

/-- The statements that a statement stands for are among it and those below it. -/
theorem walkAll_unwrap (found : Option Statement) :
    (walkAll (Statement.unwrap found)).Sublist (walkAll found.toList) := by
  cases found with
  | none => exact List.Sublist.refl _
  | some s =>
    rw [Statement.unwrap]
    split
    · rw [Option.toList_some, walkAll, walk_eq, Statement.children, walkAll_append]
      exact ((List.sublist_append_left _ _).cons _).trans (List.sublist_append_left _ _)
    · exact List.Sublist.refl _

/-! ## Initial values -/

/-- A variable is **written in** tokens when its initial value, and the number of elements that the
value tells, are those of a piece of the tokens. -/
def Variable.WrittenIn (v : Variable) (src : Source) (tokens : List Token) : Prop :=
  ∃ init, init <:+: tokens ∧ v.init = src.text init ∧ v.size = initialSize init

/-- What is written in some tokens is written in more of them. -/
theorem Variable.WrittenIn.of_suffix {v : Variable} (written : v.WrittenIn src there)
    (suffix : there <:+ here) : v.WrittenIn src here := by
  obtain ⟨init, piece, value⟩ := written
  exact ⟨init, piece.trans suffix.isInfix, value⟩

/-- Declarators are written where they are read. -/
theorem writtenIn_readDeclarators {type base : Text} {bound : Nat} {done vars : List Variable}
    (read : readDeclarators src type base bound here done = .ok (vars, there)) :
    ∀ v ∈ vars, v ∈ done ∨ v.WrittenIn src here := by
  induction bound generalizing here done with
  | zero => cases read
  | succ bound ih =>
    cases here with
    | nil => cases read
    | cons name here =>
      have dims := (passes_skipDims here).suffix
      rw [readDeclarators] at read
      split at read
      · cases read
      · -- Behind a declarator another one follows a comma.
        have finish {v : Variable} {rest : List Token} (behind : rest <:+ here)
            (written : v.WrittenIn src here) (read : (if next rest "," then
                readDeclarators src type base bound (rest.drop 1) (v :: done)
              else .ok ((v :: done).reverse, rest)) = .ok (vars, there)) :
            ∀ w ∈ vars, w ∈ done ∨ w.WrittenIn src (name :: here) := by
          have written := written.of_suffix (List.suffix_cons name here)
          intro w member
          split at read
          · rcases ih read w member with known | later
            · rcases List.mem_cons.1 known with rfl | known
              · exact .inr written
              · exact .inl known
            · exact .inr (later.of_suffix
                (((List.drop_suffix 1 rest).trans behind).trans (List.suffix_cons name here)))
          · cases read
            rcases List.mem_cons.1 (List.mem_reverse.1 member) with rfl | known
            · exact .inr written
            · exact .inl known
        simp only at read
        split at read
        · split at read
          · cases read
          · rename_i init rest found
            obtain ⟨value, -⟩ := untilDeclarator?_eq_some found
            have piece : init ++ rest <:+ here := value ▸ (List.drop_suffix 1 _).trans dims
            exact finish ((List.suffix_append init rest).trans piece)
              ⟨init, (List.prefix_append init rest).isInfix.trans piece.isInfix, rfl, rfl⟩ read
        · exact finish dims ⟨[], List.nil_infix, rfl, rfl⟩ read

/-- **Local variables** are written where their declaration is read. -/
theorem writtenIn_readLocal {vars : List Variable} (read : readLocal src here = .ok (vars, there))
    (v : Variable) (member : v ∈ vars) : v.WrittenIn src here := by
  rw [readLocal] at read
  split at read
  · cases read
  · rename_i typed
    have front := (advances_readType? typed).passes.suffix.trans
      (passes_skipLocalModifiers (here.length + 1) here).suffix
    rcases writtenIn_readDeclarators read v member with known | written
    · cases known
    · exact written.of_suffix front

/-! ## What statements declare -/

/-- The name of the method that a statement declares. -/
def Statement.methodName? (s : Statement) : Option Text :=
  match s.form with
  | .method name _ => some name
  | _ => none

/-- A statement is **written in** tokens when all that it declares is. -/
structure Statement.WrittenIn (s : Statement) (src : Source) (tokens : List Token) : Prop where
  /-- Variables. -/
  declared : ∀ v ∈ s.declared, v.WrittenIn src tokens
  /-- The name of a method is one of the tokens. -/
  named : ∀ name ∈ s.methodName?, ∃ t ∈ tokens, t.text = name

/-- What is written in some tokens is written in more of them. -/
theorem Statement.WrittenIn.of_suffix (written : s.WrittenIn src there) (suffix : there <:+ here) :
    s.WrittenIn src here where
  declared v member := (written.declared v member).of_suffix suffix
  named name is_name :=
    have ⟨t, member, same⟩ := written.named name is_name
    ⟨t, suffix.mem member, same⟩

/-- A statement is **plain** when it declares neither local variables nor a method. -/
structure Statement.Plain (s : Statement) : Prop where
  /-- No variable. -/
  declared : s.declared = []
  /-- No method. -/
  unnamed : s.methodName? = none

/-- A plain statement is written anywhere. -/
theorem Statement.Plain.writtenIn (plain : s.Plain) : s.WrittenIn src here where
  declared := by
    rw [plain.declared]
    nofun
  named := by
    rw [plain.unnamed]
    nofun

/-- An expression declares nothing. -/
theorem plain_expressionForm (src : Source) (tokens : List Token) (line : Nat) :
    (Statement.leaf line (expressionForm src tokens)).Plain := by
  rw [expressionForm]
  split
  · exact ⟨rfl, rfl⟩
  · split <;> exact ⟨rfl, rfl⟩

/-- The header of a loop declares nothing beside the variables of the loop. -/
theorem plain_forForm {form : Form} {inside tokens : List Token}
    (read : forForm src inside tokens = .ok form) (statements : List Statement) :
    (Statement.around line form statements).Plain := by
  rw [forForm] at read
  simp only at read
  split at read
  · cases read
    exact ⟨rfl, rfl⟩
  · split at read
    · obtain ⟨declared, -, same⟩ := bind_eq_ok.1 read
      cases same
      exact ⟨rfl, rfl⟩
    · cases read
      exact ⟨rfl, rfl⟩

/-! ## Places -/

/-- A reader **places** statements: it goes on to a later place, and if the tokens are in lines the
statements span the lines from one place to the other. -/
structure Places (src : Source) (here there : List Token) (statements : List Statement) : Prop where
  /-- It passes over tokens. -/
  suffix : there <:+ here
  /-- The statements are on the lines of those tokens. -/
  spans : InLines src here → Spans (src.line here) (src.line there) (linesOf statements)
  /-- What they declare is written in those tokens. -/
  written : ∀ s ∈ walkAll statements, s.WrittenIn src here

namespace Places

/-- Tokens are passed over. -/
theorem pass (suffix : there <:+ here) : Places src here there [] :=
  ⟨suffix, fun inLines => .nil (inLines.line_le suffix), nofun⟩

/-- Two readers place statements one after the other. -/
theorem trans (first : Places src here mid statements) (second : Places src mid there later) :
    Places src here there (statements ++ later) where
  suffix := second.suffix.trans first.suffix
  spans := fun inLines => by
    rw [linesOf_append]
    exact (first.spans inLines).append (second.spans (inLines.of_suffix first.suffix))
  written := fun s member => by
    rw [walkAll_append] at member
    rcases List.mem_append.1 member with earlier | later
    · exact first.written s earlier
    · exact (second.written s later).of_suffix first.suffix

/-- Tokens in front are passed over. -/
theorem behind (suffix : mid <:+ here) (places : Places src mid there statements) :
    Places src here there statements := (pass suffix).trans places

/-- Tokens behind are passed over. -/
theorem upTo (places : Places src here mid statements) (suffix : there <:+ mid) :
    Places src here there statements := by
  rw [← List.append_nil statements]
  exact places.trans (pass suffix)

/-- **A statement** that begins here, when what is below it is placed. -/
theorem node (at_ : s.line = src.line here) (own : s.WrittenIn src here)
    (inside : Places src here there s.children) : Places src here there [s] where
  suffix := inside.suffix
  spans := fun inLines => by
    rw [linesOf_cons, at_]
    exact ((inside.spans inLines).cons (Nat.le_refl _)).append
      (.nil (Nat.le_refl _))
  written := fun s' member => by
    rw [walkAll, walk_eq] at member
    rcases List.mem_append.1 member with inner | none
    · rcases List.mem_cons.1 inner with rfl | below
      · exact own
      · exact inside.written s' below
    · cases none

/-- A statement that declares nothing itself. -/
theorem bare (at_ : s.line = src.line here) (plain : s.Plain)
    (inside : Places src here there s.children) : Places src here there [s] :=
  node at_ plain.writtenIn inside

/-- A statement without a body is placed where it is read. -/
theorem leaf (suffix : there <:+ here) {form : Form}
    (plain : (Statement.leaf (src.line here) form).Plain) :
    Places src here there [.leaf (src.line here) form] := bare rfl plain (pass suffix)

/-- What is below a statement with a body. -/
theorem below (body : Places src here there statements) :
    Places src here there (Statement.around line form statements).children := by
  show Places src here there (statements ++ [])
  rwa [List.append_nil]

/-- A statement with a body is placed with it. -/
theorem around {form : Form} (body : Places src here there statements)
    (plain : (Statement.around (src.line here) form statements).Plain) :
    Places src here there [.around (src.line here) form statements] := bare rfl plain body.below

/-- What a statement stands for is placed with it. -/
theorem unwrap (places : Places src here there found.toList) :
    Places src here there (Statement.unwrap found) :=
  ⟨places.suffix, fun inLines => (places.spans inLines).sublist ((walkAll_unwrap found).map _),
    fun s member => places.written s ((walkAll_unwrap found).subset member)⟩

end Places

/-! ## Readers place statements -/

/-- What stands behind a stop is passed to. -/
theorem suffix_of_until {stops : List Text} {before rest : List Token} {stop : Token}
    (found : until? stops here = some (before, stop, rest)) : rest <:+ here := by
  obtain ⟨rfl, -, -⟩ := until?_eq_some found
  exact (List.suffix_cons stop rest).trans (List.suffix_append before _)

/-- All readers that may make `bound` calls **place** what they read. The readers of rows go on with
what is done already. -/
structure Placing (src : Source) (bound : Nat) : Prop where
  /-- Statements. -/
  statement : ∀ {here there : List Token} {found : Option Statement},
    readStatement src bound here = .ok (found, there) → Places src here there found.toList
  /-- Alternatives. -/
  alternative : ∀ {here there : List Token} {statements : List Statement},
    readElse src bound here = .ok (statements, there) → Places src here there statements
  /-- Loops with a header, behind their word. -/
  loop : ∀ {line : Nat} {here there : List Token} {found : Option Statement},
    readFor src bound line here = .ok (found, there) →
      ∃ s, found = some s ∧ s.line = line ∧ s.Plain ∧
        Places src here there s.children
  /-- Attempts, behind their word. -/
  attempt : ∀ {line : Nat} {here there : List Token} {found : Option Statement},
    readTry src bound line here = .ok (found, there) →
      ∃ s, found = some s ∧ s.line = line ∧ s.Plain ∧
        Places src here there s.children
  /-- Handlers. -/
  handlers : ∀ {here there : List Token} {done statements : List Statement},
    readHandlers src bound here done = .ok (statements, there) →
      ∃ more, statements = done.reverse ++ more ∧ Places src here there more
  /-- The cases of a choice. -/
  choices : ∀ {here there : List Token} {done statements : List Statement},
    readCases src bound here done = .ok (statements, there) →
      ∃ more, statements = done.reverse ++ more ∧ Places src here there more
  /-- Blocks. -/
  block : ∀ {here there : List Token} {statements : List Statement},
    readBlock src bound here = .ok (statements, there) → Places src here there statements
  /-- The statements of a block. -/
  statements : ∀ {here there : List Token} {done statements : List Statement},
    readBlockRest src bound here done = .ok (statements, there) →
      ∃ more, statements = done.reverse ++ more ∧ Places src here there more
  /-- Classes. -/
  classDecl : ∀ {here there : List Token} {s : Statement},
    readClass src bound here = .ok (s, there) → Places src here there [s]
  /-- The members of a class. -/
  members : ∀ {here there : List Token} {done statements : List Statement},
    readMembers src bound here done = .ok (statements, there) →
      ∃ more, statements = done.reverse ++ more ∧ Places src here there more
  /-- Members. -/
  member : ∀ {topLevel : Bool} {here there : List Token} {found : Option Statement},
    readMember src bound topLevel here = .ok (found, there) → Places src here there found.toList
  /-- Methods. -/
  method : ∀ {here there : List Token} {s : Statement},
    readMethod src bound here = .ok (s, there) → Places src here there [s]

/-- A reader that may make no call reads nothing. -/
theorem placing_zero (src : Source) : Placing src 0 := by
  constructor <;> intros <;> contradiction

/-- One more statement of a row. -/
theorem exists_more {first : Option Statement}
    (places : Places src here mid first.toList)
    (rest : ∃ more, statements = (first.toList ++ done).reverse ++ more ∧
      Places src mid there more) :
    ∃ more, statements = done.reverse ++ more ∧ Places src here there more := by
  obtain ⟨more, rfl, placed⟩ := rest
  refine ⟨first.toList ++ more, ?_, places.trans placed⟩
  cases first <;> simp

/-- A row ends. -/
theorem exists_no_more (suffix : there <:+ here) :
    ∃ more, done.reverse = done.reverse ++ more ∧ Places src here there more :=
  ⟨[], (List.append_nil _).symm, .pass suffix⟩

namespace Placing

variable (all : Placing src bound)

include all

/-- The reader of an alternative places it when the readers with one call less place what they
read. -/
theorem readElse_succ (read : readElse src (bound + 1) here = .ok (statements, there)) :
    Places src here there statements := by
  rw [readElse] at read
  split at read
  · obtain ⟨⟨alternative, rest⟩, first, read⟩ := bind_eq_ok.1 read
    have placed := (all.statement first).behind (List.drop_suffix 1 here)
    simp only at read
    split at read
    · cases read
      exact .leaf placed.suffix ⟨rfl, rfl⟩
    · cases read
      exact placed.unwrap
  · cases read
    exact .pass (List.suffix_refl _)

/-- The reader of a loop places what is below it when the readers with one call less place what they
read. -/
theorem readFor_succ (read : readFor src (bound + 1) line here = .ok (found, there)) :
    ∃ s, found = some s ∧ s.line = line ∧ s.Plain ∧
        Places src here there s.children := by
  rw [readFor] at read
  obtain ⟨⟨header, after⟩, parens, read⟩ := bind_eq_ok.1 read
  obtain ⟨form, header_read, read⟩ := bind_eq_ok.1 read
  obtain ⟨⟨body, rest⟩, first, same⟩ := bind_eq_ok.1 read
  cases same
  exact ⟨_, rfl, rfl, plain_forForm header_read _,
    (all.statement first).unwrap.below.behind (advances_readParens parens).passes.suffix⟩

/-- The reader of handlers places them when the readers with one call less place what they read. -/
theorem readHandlers_succ (read : readHandlers src (bound + 1) here done = .ok (statements, there)) :
    ∃ more, statements = done.reverse ++ more ∧ Places src here there more := by
  rw [readHandlers] at read
  split at read
  · split at read
    · cases read
    · rename_i inside rest parens
      split at read
      · cases read
      · rename_i body last block
        have front : rest <:+ here :=
          (advances_readParens parens).passes.suffix.trans (List.drop_suffix 1 here)
        have handler : Places src here last (Option.toList
            (some (.around (src.line here) (.handler (readParams src inside)) body))) :=
          .around ((all.block block).behind front) ⟨rfl, rfl⟩
        exact exists_more handler (all.handlers read)
  · cases read
    exact exists_no_more (List.suffix_refl _)

/-- The reader of cases places them when the readers with one call less place what they read. -/
theorem readCases_succ (read : readCases src (bound + 1) here done = .ok (statements, there)) :
    ∃ more, statements = done.reverse ++ more ∧ Places src here there more := by
  rw [readCases] at read
  split at read
  · cases read
    exact exists_no_more (List.drop_suffix 1 here)
  · split at read
    · cases read
    · split at read
      · split at read
        · cases read
        · rename_i label
          obtain ⟨more, same, placed⟩ := all.choices read
          exact ⟨more, same, placed.behind (suffix_of_until label)⟩
      · split at read
        · cases read
        · rename_i first
          exact exists_more (all.statement first) (all.choices read)

/-- The reader of statements places them when the readers with one call less place what they
read. -/
theorem readBlockRest_succ
    (read : readBlockRest src (bound + 1) here done = .ok (statements, there)) :
    ∃ more, statements = done.reverse ++ more ∧ Places src here there more := by
  rw [readBlockRest] at read
  split at read
  · cases read
    exact exists_no_more (List.drop_suffix 1 here)
  · split at read
    · cases read
    · split at read
      · cases read
      · rename_i first
        exact exists_more (all.statement first) (all.statements read)

/-- The reader of members places them when the readers with one call less place what they read. -/
theorem readMembers_succ (read : readMembers src (bound + 1) here done = .ok (statements, there)) :
    ∃ more, statements = done.reverse ++ more ∧ Places src here there more := by
  rw [readMembers] at read
  split at read
  · cases read
    exact exists_no_more (List.drop_suffix 1 here)
  · split at read
    · cases read
    · split at read
      · cases read
      · rename_i first
        exact exists_more (all.member first) (all.members read)

/-- The reader of a block places it when the readers with one call less place what they read. -/
theorem readBlock_succ (read : readBlock src (bound + 1) here = .ok (statements, there)) :
    Places src here there statements := by
  rw [readBlock] at read
  obtain ⟨rest, expected, body⟩ := bind_eq_ok.1 read
  obtain ⟨opening, rfl, -⟩ := expect_eq_ok expected
  obtain ⟨more, rfl, placed⟩ := all.statements body
  exact placed.behind (List.suffix_cons opening rest)

/-- What an attempt holds is placed below it. -/
theorem readAttempt_eq_ok {resources : Bool}
    (read : readAttempt src bound line resources here = .ok (found, there)) :
    ∃ s, found = some s ∧ s.line = line ∧ s.Plain ∧
        Places src here there s.children := by
  obtain ⟨⟨body, rest⟩, block, read⟩ := bind_eq_ok.1 read
  obtain ⟨⟨handlers, rest'⟩, handled, read⟩ := bind_eq_ok.1 read
  obtain ⟨more, rfl, placed⟩ := all.handlers handled
  simp only at read
  split at read
  · obtain ⟨⟨final, last⟩, block', same⟩ := bind_eq_ok.1 read
    cases same
    exact ⟨_, rfl, rfl, ⟨rfl, rfl⟩, (all.block block).trans
      (placed.trans ((all.block block').behind (List.drop_suffix 1 rest')))⟩
  · split at read
    · cases read
    · cases read
      exact ⟨_, rfl, rfl, ⟨rfl, rfl⟩, (all.block block).trans (placed.trans (.pass (List.suffix_refl _)))⟩

/-- The reader of an attempt places what is below it when the readers with one call less place what
they read. -/
theorem readTry_succ (read : readTry src (bound + 1) line here = .ok (found, there)) :
    ∃ s, found = some s ∧ s.line = line ∧ s.Plain ∧
        Places src here there s.children := by
  rw [readTry_eq] at read
  obtain ⟨behind, resources, read⟩ := bind_eq_ok.1 read
  obtain ⟨s, same, at_, plain, placed⟩ := all.readAttempt_eq_ok read
  exact ⟨s, same, at_, plain, placed.behind (passes_readResources resources).suffix⟩

/-- The reader of a method places it when the readers with one call less place what they read. -/
theorem readMethod_succ (read : readMethod src (bound + 1) here = .ok (s, there)) :
    Places src here there [s] := by
  obtain ⟨name, params, inside, rest, behind, rfl, divided, thrown, body⟩ := readMethod_eq_ok read
  have front : behind <:+ name :: params :=
    (thrown.suffix.trans (suffix_of_enclosed divided)).trans (List.suffix_cons name params)
  -- the name of a method is the token that its declaration begins with
  have own (statements : List Statement) : (Statement.around (src.line (name :: params))
      (.method name.text (readParams src inside)) statements).WrittenIn src (name :: params) :=
    ⟨nofun, fun _ same => ⟨name, List.mem_cons_self, Option.some.inj same⟩⟩
  rcases readBody_cases body with ⟨-, rfl, rfl⟩ | ⟨statements, block, rfl⟩
  · exact .node rfl (own _) (.pass ((List.drop_suffix 1 behind).trans front))
  · exact .node rfl (own _) ((all.block block).behind front).below

/-- The reader of a class places it when the readers with one call less place what they read. -/
theorem readClass_succ (read : readClass src (bound + 1) here = .ok (s, there)) :
    Places src here there [s] := by
  -- the line is that of the word, behind the mark of an annotation
  have word : (if next here "@" = true then here.drop 1 else here) <:+ here := by
    split
    · exact List.drop_suffix 1 here
    · exact List.suffix_refl here
  rw [readClass] at read
  simp only at read
  refine .behind word ?_
  generalize (if next here "@" = true then here.drop 1 else here) = tokens at read
  split at read
  · cases read
  · rename_i name rest behind
    split at read
    · cases read
    · split at read
      · cases read
      · rename_i before brace inside found
        have front : brace :: inside <:+ tokens := by
          obtain ⟨rfl, -, -⟩ := until?_eq_some found
          refine List.IsSuffix.trans ?_ (List.drop_suffix 1 tokens)
          rw [behind]
          exact List.suffix_append (name :: before) _
        split at read
        · split at read
          · rename_i passed after closed
            cases read
            exact .leaf ((suffix_of_enclosed closed).trans front) ⟨rfl, rfl⟩
          · cases read
        · obtain ⟨⟨members, last⟩, body, same⟩ := bind_eq_ok.1 read
          cases same
          obtain ⟨more, rfl, placed⟩ := all.members body
          exact .around (placed.behind ((List.suffix_cons brace inside).trans front)) ⟨rfl, rfl⟩

/-- A member with a name is placed where it begins. -/
theorem readNamed_eq_ok {start : List Token} (front : here <:+ start)
    (read : readNamed src bound topLevel start here = .ok (found, there)) :
    Places src start there found.toList := by
  rw [readNamed] at read
  split at read
  · obtain ⟨⟨s, rest⟩, declared, same⟩ := bind_eq_ok.1 read
    cases same
    exact (all.method declared).behind front
  · split at read
    · rename_i named is_method
      obtain ⟨⟨s, rest⟩, declared, same⟩ := bind_eq_ok.1 read
      cases same
      exact (all.method declared).behind ((atMethod?_eq_some is_method).1.suffix.trans front)
    · split at read
      · exact all.statement read
      · split at read
        · rename_i ended
          cases read
          exact .pass ((suffix_of_until ended).trans front)
        · cases read

/-- The reader of a member places it when the readers with one call less place what they read. -/
theorem readMember_succ (read : readMember src (bound + 1) topLevel here = .ok (found, there)) :
    Places src here there found.toList := by
  rw [readMember_eq] at read
  have front := (passes_skipModifiers (here.length + 1) here).suffix
  simp only at read
  split at read
  · cases read
    exact .pass ((List.drop_suffix 1 _).trans front)
  · split at read
    · obtain ⟨⟨body, rest⟩, block, same⟩ := bind_eq_ok.1 read
      cases same
      exact (Places.around (all.block block) ⟨rfl, rfl⟩).behind front
    · split at read
      · obtain ⟨⟨s, rest⟩, declared, same⟩ := bind_eq_ok.1 read
        cases same
        exact (all.classDecl declared).behind front
      · exact all.readNamed_eq_ok ((passes_skipTypeParams _).suffix.trans front) read

/-- Each statement begins with the token that is read first, and what is below it is read behind that
token. -/
theorem readStatement_succ (read : readStatement src (bound + 1) here = .ok (found, there)) :
    Places src here there found.toList := by
  have word : here.drop 1 <:+ here := List.drop_suffix 1 here
  cases statementRead_of_eq_ok read with
  | block is_block block => exact .around (all.block block) ⟨rfl, rfl⟩
  | empty ends => exact .pass word
  | branch is_if parens first second =>
    exact .bare rfl ⟨rfl, rfl⟩ (((all.statement first).unwrap.trans (all.alternative second)).behind
      ((advances_readParens parens).passes.suffix.trans word))
  | forLoop is_for loop =>
    obtain ⟨s, rfl, at_, plain, placed⟩ := all.loop loop
    exact .bare at_ plain (placed.behind word)
  | whileLoop is_while parens first =>
    exact .around ((all.statement first).unwrap.behind
      ((advances_readParens parens).passes.suffix.trans word)) ⟨rfl, rfl⟩
  | doLoop is_do first is_while parens ends =>
    -- the condition stands behind the body
    have condition := (advances_expect ends (by decide)).passes.suffix.trans
      ((advances_readParens parens).passes.suffix.trans
        (advances_expect is_while (by decide)).passes.suffix)
    exact .around (((all.statement first).unwrap.behind word).upTo condition) ⟨rfl, rfl⟩
  | attempt is_try attempt =>
    obtain ⟨s, rfl, at_, plain, placed⟩ := all.attempt attempt
    exact .bare at_ plain (placed.behind word)
  | choice is_switch parens opens choices =>
    obtain ⟨opening, rfl, -⟩ := expect_eq_ok opens
    obtain ⟨more, rfl, placed⟩ := all.choices choices
    exact .around (placed.behind ((List.suffix_cons opening _).trans
      ((advances_readParens parens).passes.suffix.trans word))) ⟨rfl, rfl⟩
  | ret is_return ended =>
    exact .leaf ((advances_readToSemicolon ended).passes.suffix.trans word) ⟨rfl, rfl⟩
  | plain is_plain ended => exact .leaf (advances_readToSemicolon ended).passes.suffix ⟨rfl, rfl⟩
  | locked is_synchronized parens block =>
    exact .around ((all.block block).behind
      ((advances_readParens parens).passes.suffix.trans word)) ⟨rfl, rfl⟩
  | classDecl begins declared => exact all.classDecl declared
  | labelled label first => exact (all.statement first).behind (List.drop_suffix 2 here)
  | locals is_local declared ends =>
    exact .node rfl ⟨writtenIn_readLocal declared, nofun⟩
      (.pass ((advances_expect ends (by decide)).passes.suffix.trans
        (advances_readLocal declared).passes.suffix))
  | expression ended =>
    exact .leaf (advances_readToSemicolon ended).passes.suffix (plain_expressionForm ..)

end Placing

/-- **All readers place what they read.** -/
theorem placing (src : Source) (bound : Nat) : Placing src bound := by
  induction bound with
  | zero => exact placing_zero src
  | succ bound all =>
    exact {
      statement := all.readStatement_succ
      alternative := all.readElse_succ
      loop := all.readFor_succ
      attempt := all.readTry_succ
      handlers := all.readHandlers_succ
      choices := all.readCases_succ
      block := all.readBlock_succ
      statements := all.readBlockRest_succ
      classDecl := all.readClass_succ
      members := all.readMembers_succ
      member := all.readMember_succ
      method := all.readMethod_succ }

/-- The declarations of a source. -/
theorem places_readUnit (read : readUnit src bound here done = .ok statements) :
    ∃ more, statements = done.reverse ++ more ∧ Places src here [] more := by
  induction bound generalizing here done with
  | zero => cases read
  | succ bound ih =>
    rw [readUnit] at read
    split at read
    · rename_i empty
      cases read
      rw [List.isEmpty_iff.1 empty]
      exact exists_no_more (List.suffix_refl _)
    · split at read
      · split at read
        · cases read
        · rename_i passed
          obtain ⟨more, same, placed⟩ := ih read
          exact ⟨more, same, placed.behind (advances_readToSemicolon passed).passes.suffix⟩
      · split at read
        · cases read
        · rename_i first
          exact exists_more ((placing src bound).member first) (ih read)

/-! ## Programs -/

/-- The tokens of a source are in lines. -/
theorem inLines_tokenize {code : Text} {tokens : List Token} (tokenized : tokenize code = .ok tokens) :
    InLines (sourceOf code tokens) tokens := by
  have ordered := (numbered_tokenize tokenized).1
  refine ⟨ordered, fun t member => ?_⟩
  rcases List.eq_nil_or_concat tokens with rfl | ⟨front, last, rfl⟩
  · cases member
  · -- the last line is that of the last token
    rw [List.concat_eq_append] at member ordered ⊢
    have last_line : (sourceOf code (front ++ [last])).lastLine = last.line := by
      rw [sourceOf, List.getLast?_concat]
      rfl
    rw [last_line]
    rcases List.mem_append.1 member with earlier | same
    · exact (List.pairwise_append.1 ordered).2.2 t earlier last (by simp)
    · exact Nat.le_of_eq (congrArg Token.line (List.mem_singleton.1 same))

/-- **The statements of a program span its lines**, if it has any tokens. -/
theorem spans_of_parse {source : Text} {p : Program} (read : Program.parse source = .ok p) :
    p.statements = [] ∨ Spans 1 source.lineCount (linesOf p.statements) := by
  obtain ⟨-, tokens, blanked, -, tokenized, unit⟩ := Program.parse_eq_ok.1 read
  obtain ⟨more, same, placed⟩ := places_readUnit unit
  rw [List.reverse_nil, List.nil_append] at same
  subst same
  have inLines := inLines_tokenize tokenized
  have inside := (numbered_tokenize tokenized).2
  rw [Braced.lineCount_blankComments blanked] at inside
  cases tokens with
  | nil =>
    have none : readUnit (sourceOf p.code []) (8 * ([] : List Token).length + 8) [] [] = .ok [] := rfl
    exact .inl (Except.ok.inj (unit.symm.trans none))
  | cons first rest =>
    have spans := placed.spans inLines
    obtain ⟨last, is_last⟩ : ∃ last, (first :: rest).getLast? = some last :=
      Option.isSome_iff_exists.1 (by simp)
    have last_line : (sourceOf p.code (first :: rest)).line [] = last.line := by
      rw [sourceOf, is_last]
      rfl
    have low := (inside first List.mem_cons_self).1
    have high := (inside last (List.mem_of_getLast? is_last)).2
    rw [last_line] at spans
    exact .inr (spans.widen low high)

/-- **What a program declares is written in it**: the names of its methods are tokens of it, and the
initial values of its local variables are pieces of its tokens. -/
theorem writtenIn_of_parse {source : Text} {p : Program} (read : Program.parse source = .ok p) :
    ∃ tokens, Braced.blankComments source = .ok p.code ∧ tokenize p.code = .ok tokens ∧
      ∀ s ∈ p.walk, s.WrittenIn (sourceOf p.code tokens) tokens := by
  obtain ⟨-, tokens, blanked, -, tokenized, unit⟩ := Program.parse_eq_ok.1 read
  obtain ⟨more, same, placed⟩ := places_readUnit unit
  rw [List.reverse_nil, List.nil_append] at same
  refine ⟨tokens, blanked, tokenized, ?_⟩
  rw [Program.walk, same]
  exact placed.written

end Java

end FlowTrace
