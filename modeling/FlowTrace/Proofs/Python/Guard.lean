import FlowTrace.Proofs.Pattern.Extent
import FlowTrace.Python.Line

/-! # Guards

Whether a byte of a line stands at the top level depends on the bytes in front of it through a
**guard** only: how many brackets are open, and which literal. The places of the top level, the
parts of a line that is cut at some of them, and the colon of a header are found by one walk that
carries the guard along (`cutAt_select`). What is chosen at a place may depend on the places that
were passed (`Chooser`). -/

/-! ## Where lines of Python are divided

A line is divided at places outside literals and brackets. Each of them is the place of a byte of
the line, so what is cut out in front of it and behind it is there. -/

namespace FlowTrace.Python

open Pattern (Place)

variable {t : Text}

/-- **The places of the top level** are places of bytes. -/
theorem reads_of_mem_topLevel {place : Place} (member : place ∈ topLevel t) :
    place.rest ≠ [] ∧ ∃ read, (Place.start t).Reads read place := by
  have visited : ∀ (t : Text) (offset : Nat) (before : Option UInt8) (depth : Int)
      (mark : Option UInt8) (escaped : Bool),
      place ∈ topLevel.go t offset before depth mark escaped →
        place.rest ≠ [] ∧ ∃ read, Place.Reads ⟨offset, before, t⟩ read place := by
    intro t
    induction t with
    | nil =>
      intro offset before depth mark escaped member
      rw [topLevel.go.eq_def] at member
      cases member
    | cons c t ih =>
      intro offset before depth mark escaped member
      -- Whatever the byte does to the state, it is read on the way to all later places.
      have later {depth : Int} {mark : Option UInt8} {escaped : Bool}
          (member : place ∈ topLevel.go t (offset + 1) (some c) depth mark escaped) :
          place.rest ≠ [] ∧ ∃ read, Place.Reads ⟨offset, before, c :: t⟩ read place := by
        obtain ⟨filled, read, reads⟩ := ih _ _ _ _ _ member
        exact ⟨filled, _, (Place.reads_byte offset before c t).trans reads⟩
      cases mark with
      | some mark =>
        rw [topLevel.go] at member
        split_ifs at member
        · exact later member
        · exact later member
        · exact later member
        · exact later member
      | none =>
        rw [topLevel.go] at member
        split_ifs at member with mark opening closing outside
        · exact later member
        · exact later member
        · exact later member
        · rcases List.mem_cons.1 member with rfl | member
          · exact ⟨List.cons_ne_nil _ _, [], Place.Reads.refl _⟩
          · exact later member
        · exact later member
  exact visited t 0 none 0 none false member

/-- The places at the top level of a text are inside of it. -/
theorem offset_lt_of_mem_topLevel {place : Place} (member : place ∈ topLevel t) :
    place.offset < t.length := by
  obtain ⟨filled, read, reads⟩ := reads_of_mem_topLevel member
  have whole : t = read ++ place.rest := reads.rest
  have ahead : place.offset = 0 + read.length := reads.offset
  have some_byte := List.length_pos_iff.2 filled
  rw [whole, List.length_append]
  omega

/-- **The colon of a header** is found at one of the places that are searched. -/
theorem exists_place_of_colon {places : List Place} {lambdas colon : Nat}
    (found : headerColon?.go places lambdas = some colon) :
    ∃ place ∈ places, place.offset = colon ∧ place.rest.head? = some (':' : UInt8) := by
  induction places generalizing lambdas with
  | nil => cases found
  | cons place places ih =>
    have later {lambdas : Nat} (found : headerColon?.go places lambdas = some colon) :
        ∃ other ∈ place :: places, other.offset = colon ∧
          other.rest.head? = some (':' : UInt8) := by
      obtain ⟨other, member, same⟩ := ih found
      exact ⟨other, List.mem_cons_of_mem _ member, same⟩
    rw [headerColon?.go.eq_def] at found
    simp only at found
    split at found
    · exact later found
    · split at found
      · exact later found
      · rename_i is_colon
        split at found
        · exact later found
        · rw [Bool.or_eq_true, not_or, bne_iff_ne, not_not] at is_colon
          exact ⟨place, List.mem_cons_self, Option.some.inj found, is_colon.1⟩

/-- The colon of a header is inside of its line. -/
theorem headerColon_lt {colon : Nat} (found : headerColon? t = some colon) : colon < t.length := by
  obtain ⟨place, member, rfl, -⟩ := exists_place_of_colon found
  exact offset_lt_of_mem_topLevel member

/-- It is a colon. -/
theorem getElem_headerColon {colon : Nat} (found : headerColon? t = some colon) :
    t[colon]? = some (':' : UInt8) := by
  obtain ⟨place, member, rfl, is_colon⟩ := exists_place_of_colon found
  obtain ⟨-, read, reads⟩ := reads_of_mem_topLevel member
  have whole : t = read ++ place.rest := reads.rest
  have ahead : place.offset = 0 + read.length := reads.offset
  rw [whole, ahead, Nat.zero_add, List.getElem?_append_right (Nat.le_refl _), Nat.sub_self,
    ← List.head?_eq_getElem?, is_colon]

/-! ## The guard -/

/-- What is known of the bytes in front of a place of a line. -/
structure Guard where
  /-- The number of open brackets. -/
  depth : Int
  /-- The quotation mark of an open literal. -/
  mark : Option UInt8
  /-- Whether a backslash of a literal stands just in front. -/
  escaped : Bool

namespace Guard

/-- The guard at the beginning of a line. -/
def start : Guard := ⟨0, none, false⟩

/-- The guard behind a byte. -/
def next : Guard → UInt8 → Guard
  | ⟨depth, some mark, escaped⟩, c =>
    if escaped then ⟨depth, some mark, false⟩
    else if c == Text.backslash then ⟨depth, some mark, true⟩
    else ⟨depth, if c == mark then none else some mark, false⟩
  | ⟨depth, none, _⟩, c =>
    if c == Text.apostrophe || c == Text.doubleQuote then ⟨depth, some c, false⟩
    else if c == '(' || c == '[' || c == '\x7b' then ⟨depth + 1, none, false⟩
    else if c == ')' || c == ']' || c == '\x7d' then ⟨depth - 1, none, false⟩
    else ⟨depth, none, false⟩

/-- The guard behind some bytes. -/
def behind (g : Guard) (t : Text) : Guard := t.foldl next g

/-- Whether a byte behind the guard stands at the top level. -/
def isTop (g : Guard) (c : UInt8) : Bool :=
  g.mark.isNone && !(c == Text.apostrophe || c == Text.doubleQuote) &&
    !(c == '(' || c == '[' || c == '\x7b') && !(c == ')' || c == ']' || c == '\x7d') &&
      g.depth == 0

/-- Guards that differ in the number of open brackets only. -/
def SameQuote (g g' : Guard) : Prop := g.mark = g'.mark ∧ g.escaped = g'.escaped

variable {g g' : Guard} {c : UInt8}

/-- A guard goes over texts one after the other. -/
theorem behind_append (g : Guard) (t u : Text) : g.behind (t ++ u) = (g.behind t).behind u :=
  List.foldl_append

/-- Guards with the same open quotation go together either way. -/
theorem SameQuote.symm (same : SameQuote g g') : SameQuote g' g := ⟨same.1.symm, same.2.symm⟩

/-- Guards with the same open quotation go together in a row. -/
theorem SameQuote.trans {g'' : Guard} (same : SameQuote g g') (same' : SameQuote g' g'') :
    SameQuote g g'' := ⟨same.1.trans same'.1, same.2.trans same'.2⟩

/-- The same byte keeps guards together. -/
theorem SameQuote.next (same : SameQuote g g') (c : UInt8) : SameQuote (g.next c) (g'.next c) := by
  obtain ⟨depth, mark, escaped⟩ := g
  obtain ⟨depth', mark', escaped'⟩ := g'
  obtain ⟨rfl, rfl⟩ : mark = mark' ∧ escaped = escaped' := same
  cases mark with
  | some mark =>
    simp only [Guard.next]
    split_ifs <;> exact ⟨rfl, rfl⟩
  | none =>
    simp only [Guard.next]
    split_ifs <;> exact ⟨rfl, rfl⟩

/-- The same text keeps guards together. -/
theorem SameQuote.behind (same : SameQuote g g') (t : Text) :
    SameQuote (g.behind t) (g'.behind t) := by
  induction t generalizing g g' with
  | nil => exact same
  | cons c t ih => exact ih (same.next c)

/-- At the top level no literal is open. -/
theorem next_of_isTop (top : g.isTop c = true) : SameQuote (g.next c) start := by
  obtain ⟨depth, mark, escaped⟩ := g
  simp only [isTop, Bool.and_eq_true, Bool.not_eq_true', Option.isNone_iff_eq_none] at top
  obtain ⟨⟨⟨⟨rfl, no_mark⟩, no_opening⟩, no_closing⟩, -⟩ := top
  simp only [Guard.next, no_mark, no_opening, no_closing, Bool.false_eq_true, if_false]
  exact ⟨rfl, rfl⟩

end Guard

/-! ## Places -/

/-- The top-level places behind a guard. -/
abbrev placesFrom (g : Guard) (offset : Nat) (before : Option UInt8) (t : Text) : List Place :=
  topLevel.go t offset before g.depth g.mark g.escaped

/-- The places of a text begin with its first byte if that is at the top level. -/
theorem placesFrom_cons (g : Guard) (offset : Nat) (before : Option UInt8) (c : UInt8) (t : Text) :
    placesFrom g offset before (c :: t) =
      if g.isTop c then ⟨offset, before, c :: t⟩ :: placesFrom (g.next c) (offset + 1) (some c) t
      else placesFrom (g.next c) (offset + 1) (some c) t := by
  obtain ⟨depth, mark, escaped⟩ := g
  cases mark with
  | some mark =>
    simp only [placesFrom, topLevel.go, Guard.isTop, Guard.next, Option.isNone_some,
      Bool.false_and, Bool.false_eq_true, if_false]
    split_ifs <;> rfl
  | none =>
    simp only [placesFrom, topLevel.go, Guard.isTop, Guard.next, Option.isNone_none, Bool.true_and]
    split_ifs <;> simp_all

/-- Places are not in front of where the search begins. -/
theorem le_offset_of_mem {place : Place} {t : Text} {g : Guard} {offset : Nat}
    {before : Option UInt8} (member : place ∈ placesFrom g offset before t) :
    offset ≤ place.offset := by
  induction t generalizing g offset before with
  | nil =>
    rw [placesFrom, topLevel.go.eq_def] at member
    cases member
  | cons c t ih =>
    rw [placesFrom_cons] at member
    split at member
    · rcases List.mem_cons.1 member with rfl | later
      · exact Nat.le_refl _
      · exact Nat.le_of_succ_le (ih later)
    · exact Nat.le_of_succ_le (ih member)

/-! ## Choosing places -/

/-- A way to **choose places**, one after the other: what is remembered from one place to the next,
and whether a place is chosen. -/
abbrev Chooser (σ : Type) := σ → Place → σ × Bool

variable {σ : Type}

/-- The offsets of the places that are chosen. -/
def select (choose : Chooser σ) : σ → List Place → List Nat
  | _, [] => []
  | s, place :: places =>
    if (choose s place).2 then place.offset :: select choose (choose s place).1 places
    else select choose (choose s place).1 places

/-- What is chosen is one of the places. -/
theorem mem_of_mem_select {choose : Chooser σ} {s : σ} {places : List Place} {offset : Nat}
    (member : offset ∈ select choose s places) : ∃ place ∈ places, place.offset = offset := by
  induction places generalizing s with
  | nil => cases member
  | cons place places ih =>
    have later (member : offset ∈ select choose (choose s place).1 places) :
        ∃ other ∈ place :: places, other.offset = offset := by
      obtain ⟨other, inside, same⟩ := ih member
      exact ⟨other, List.mem_cons_of_mem _ inside, same⟩
    rw [select] at member
    split at member
    · rcases List.mem_cons.1 member with rfl | member
      · exact ⟨place, List.mem_cons_self, rfl⟩
      · exact later member
    · exact later member

/-- What is chosen does not depend on how far a place is from the beginning. -/
def Chooser.Relative (choose : Chooser σ) : Prop :=
  ∀ s offset before rest, choose s ⟨offset, before, rest⟩ = choose s ⟨0, before, rest⟩

/-- The parts between the chosen places. `part` holds the current part, last byte first. -/
def pieces (choose : Chooser σ) : Guard → σ → Option UInt8 → Text → Text → List Text
  | _, _, _, [], part => [part.reverse]
  | g, s, before, c :: t, part =>
    if g.isTop c then
      if (choose s ⟨0, before, c :: t⟩).2 then
        part.reverse :: pieces choose (g.next c) (choose s ⟨0, before, c :: t⟩).1 (some c) t []
      else pieces choose (g.next c) (choose s ⟨0, before, c :: t⟩).1 (some c) t (c :: part)
    else pieces choose (g.next c) s (some c) t (c :: part)

/-- A byte in front of all cuts belongs to the part that was begun. -/
theorem cutAt_pass {c : UInt8} {t part : Text} {offset : Nat} {cuts : List Nat}
    (later : ∀ cut ∈ cuts, offset < cut) :
    cutAt.go (c :: t) offset cuts part = cutAt.go t (offset + 1) cuts (c :: part) := by
  cases cuts with
  | nil => rfl
  | cons cut cuts =>
    have other : (offset == cut) = false :=
      beq_eq_false_iff_ne.2 (Nat.ne_of_lt (later cut List.mem_cons_self))
    rw [cutAt.go, other]
    rfl

/-- Cutting at what is chosen divides a text while it is scanned, wherever the scan begins. -/
theorem cutAt_go_select {choose : Chooser σ} (relative : choose.Relative) (t : Text) (g : Guard)
    (s : σ) (offset : Nat) (before : Option UInt8) (part : Text) :
    cutAt.go t offset (select choose s (placesFrom g offset before t)) part =
      pieces choose g s before t part := by
  induction t generalizing g s offset before part with
  | nil =>
    rw [placesFrom, topLevel.go.eq_def]
    rfl
  | cons c t ih =>
    have later (g : Guard) (s : σ) :
        ∀ cut ∈ select choose s (placesFrom g (offset + 1) (some c) t), offset < cut := by
      intro cut member
      obtain ⟨place, inside, rfl⟩ := mem_of_mem_select member
      exact le_offset_of_mem inside
    rw [placesFrom_cons, pieces]
    split
    · rw [select, relative s offset]
      split
      · rw [cutAt.go, beq_self_eq_true, if_pos rfl, ih]
      · rw [cutAt_pass (later _ _), ih]
    · rw [cutAt_pass (later _ _), ih]

/-- **Cutting a line at chosen places** is a walk with the guard. -/
theorem cutAt_select {choose : Chooser σ} (relative : choose.Relative) (t : Text) (s : σ) :
    cutAt t (select choose s (topLevel t)) = pieces choose .start s none t [] :=
  cutAt_go_select relative t .start s 0 none []

/-! ## Parts and colons -/

/-- All places of some kind are chosen. -/
def chooseAll (kind : Place → Bool) : Chooser Unit := fun _ place => ((), kind place)

/-- All places of a kind are chosen. -/
theorem select_chooseAll (kind : Place → Bool) (places : List Place) :
    select (chooseAll kind) () places = (places.filter kind).map (·.offset) := by
  induction places with
  | nil => rfl
  | cons place places ih =>
    have once : select (chooseAll kind) () (place :: places) =
        if kind place then place.offset :: select (chooseAll kind) () places
        else select (chooseAll kind) () places := rfl
    rw [once, List.filter_cons, ih]
    split <;> rfl

/-- The colon that ends a header is chosen, and nothing behind it. What is remembered is the number
of lambdas whose colon is still to come. -/
def chooseColon : Chooser (Option Nat)
  | none, _ => (none, false)
  | some lambdas, place =>
    if atLambda place then (some (lambdas + 1), false)
    else if place.rest.head? != some (':' : UInt8) || place.rest[1]? == some ('=' : UInt8) then
      (some lambdas, false)
    else if lambdas = 0 then (none, true)
    else (some (lambdas - 1), false)

/-- Behind the colon nothing more is chosen. -/
theorem select_none (places : List Place) : select chooseColon none places = [] := by
  induction places with
  | nil => rfl
  | cons place places ih => exact ih

/-- The colon of a header is the only place that is chosen. -/
theorem select_chooseColon (places : List Place) (lambdas : Nat) :
    select chooseColon (some lambdas) places = (headerColon?.go places lambdas).toList := by
  induction places generalizing lambdas with
  | nil => rfl
  | cons place places ih =>
    rw [select, headerColon?.go.eq_def, chooseColon]
    simp only
    split
    · exact ih _
    · split
      · exact ih _
      · cases lambdas with
        | succ lambdas => exact ih _
        | zero => exact congrArg (place.offset :: ·) (select_none places)

/-- A text is divided at the separators of its top level. -/
theorem splitTopLevel_eq (t : Text) (sep : UInt8) : splitTopLevel t sep =
    pieces (chooseAll (·.rest.head? == some sep)) .start () none t [] := by
  rw [splitTopLevel, ← select_chooseAll, cutAt_select fun _ _ _ _ => rfl]

/-- A text is divided at the signs of its assignments. -/
theorem splitAssignment_eq (t : Text) :
    splitAssignment t = pieces (chooseAll atAssignment) .start () none t [] := by
  rw [splitAssignment, ← select_chooseAll, cutAt_select fun _ _ _ _ => rfl]

/-- Without cuts the part that was begun goes on to the end. -/
theorem cutAt_nil (t : Text) (offset : Nat) (part : Text) :
    cutAt.go t offset [] part = [part.reverse ++ t] := by
  induction t generalizing offset part with
  | nil => rw [cutAt.go, List.append_nil]
  | cons c t ih =>
    rw [cutAt.go, ih, List.reverse_cons, List.append_assoc]
    rfl

/-- One cut divides a text in two. -/
theorem cutAt_single {t : Text} {cut : Nat} (inside : cut < t.length) :
    cutAt t [cut] = [t.take cut, t.drop (cut + 1)] := by
  have found : ∀ (t : Text) (k offset : Nat) (part : Text), k < t.length →
      cutAt.go t offset [offset + k] part = [part.reverse ++ t.take k, t.drop (k + 1)] := by
    intro t
    induction t with
    | nil => exact fun k offset part inside => absurd inside (Nat.not_lt_zero _)
    | cons c t ih =>
      intro k offset part inside
      cases k with
      | zero => simp [cutAt.go, cutAt_nil]
      | succ k =>
        have later : ∀ cut ∈ [offset + (k + 1)], offset < cut := by
          simp only [List.mem_singleton, forall_eq]
          omega
        rw [cutAt_pass later, show offset + (k + 1) = offset + 1 + k by omega,
          ih k _ _ (Nat.lt_of_succ_lt_succ inside), List.reverse_cons, List.append_assoc]
        rfl
  have whole := found t cut 0 [] inside
  rwa [Nat.zero_add] at whole

/-- A text is divided at the colon of its header, if there is one. -/
theorem pieces_chooseColon (t : Text) : pieces chooseColon .start (some 0) none t [] =
    cutAt t (headerColon? t).toList := by
  have relative : chooseColon.Relative := fun s _ _ _ => by cases s <;> rfl
  rw [← cutAt_select relative, select_chooseColon]
  rfl

/-- **The colon of a header** cuts it in two. -/
theorem pieces_of_colon {t : Text} {colon : Nat} (found : headerColon? t = some colon) :
    pieces chooseColon .start (some 0) none t [] = [t.take colon, t.drop (colon + 1)] := by
  rw [pieces_chooseColon, found]
  exact cutAt_single (headerColon_lt found)

/-- A text without a colon is not divided. -/
theorem pieces_of_no_colon {t : Text} (missing : headerColon? t = none) :
    pieces chooseColon .start (some 0) none t [] = [t] := by
  rw [pieces_chooseColon, missing]
  exact cutAt_nil t 0 []

end FlowTrace.Python
