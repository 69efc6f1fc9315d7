import FlowTrace.Proofs.Pattern.Groups
import FlowTrace.Proofs.Python.Guard
import FlowTrace.Python.Line
import Mathlib.Data.List.Forall2
import Mathlib.Data.List.Infix

/-! # Reworded lines

A line with a literal in it and the line that it becomes when the literal is reworded are
**peers**, if the readers of lines take the literal for one: the guard in front of it has no other
literal open (`Clear`). Peers are cut, trimmed and divided alike, and their parts are peers again
(`Peers.pieces`, `Peers.trim`, `Peers.headerColon`). -/

namespace FlowTrace.Python

open Pattern (Place)

/-- The bytes that readers of Python are alert to. -/
def loud : Loud where
  bytes := "\"'\\\n\r()="
  ascii := Text.forall_mem_of_all (by decide)
  marks := Text.forall_mark (by decide) (by decide)

/-- The words that begin headers of loops over items. -/
def loopWords : List Text := ["for", "async"]

/-- The words that readers of such headers are alert to. -/
def loudWords : List Text := ["in"]

/-- Whether `async` stands in a text with something behind it that is neither a part of the same
name nor a blank. -/
def splitsAsync (t : Text) : Bool :=
  t.tails.any fun u => ("async" : Text).isPrefixOf u &&
    u[5]?.any fun c => !Text.isWord c && !Text.isPatternBlank c

/-- A literal is **clear** to the readers of its line when it begins behind the text `front`. -/
structure Clear (w : Rewording loud) (front : Text) : Prop where
  /-- No other literal is open in front of it. -/
  closed : (Guard.start.behind front).SameQuote .start
  /-- It is not a part of the word behind `async`. -/
  apart : splitsAsync (front ++ [w.mark]) = false
  /-- Behind a word that may begin the header of a loop it has no words that the reader of such a
  header is alert to. -/
  wordless : ∀ begins ∈ loopWords, begins <:+: front →
    ∀ v ∈ loudWords, w.old.hasWord v = false ∧ w.new.hasWord v = false

/-- Two texts are **peers** when they are equal, or differ in the contents of a clear literal. -/
def Peers (w : Rewording loud) (t t' : Text) : Prop :=
  t' = t ∨ ∃ front back, Clear w front ∧ t = w.original front back ∧ t' = w.reworded front back

variable {w : Rewording loud} {front back t t' : Text} {mark : UInt8}

/-- What has no marks in it leaves the guard as it is. -/
theorem closed_of_markless {gap : Text} (markless : ∀ c ∈ gap, c ∉ Text.marks) {g : Guard}
    (closed : g.SameQuote .start) : (g.behind gap).SameQuote .start := by
  induction gap generalizing g with
  | nil => exact closed
  | cons c gap ih =>
    rw [List.forall_mem_cons] at markless
    refine ih markless.2 ?_
    have no_mark : (c == Text.apostrophe || c == Text.doubleQuote) = false := by
      rw [Bool.or_eq_false_iff, beq_eq_false_iff_ne, beq_eq_false_iff_ne]
      exact ⟨fun same => markless.1 (same ▸ by decide), fun same => markless.1 (same ▸ by decide)⟩
    obtain ⟨depth, mark, escaped⟩ := g
    obtain ⟨rfl, rfl⟩ : mark = none ∧ escaped = false := closed
    simp only [Guard.next, no_mark, Bool.false_eq_true, if_false]
    split_ifs <;> exact ⟨rfl, rfl⟩

/-- A literal remains clear when something in front of it is taken away in which all literals are
complete. -/
theorem Clear.of_append {gap : Text} (clear : Clear w (gap ++ front))
    (complete : (Guard.start.behind gap).SameQuote .start) : Clear w front where
  closed := by
    have whole := clear.closed
    rw [Guard.behind_append] at whole
    exact (complete.behind front).symm.trans whole
  apart := by
    rw [splitsAsync, List.any_eq_false]
    intro u member
    refine List.any_eq_false.1 clear.apart u ?_
    rw [List.mem_tails] at member ⊢
    rw [List.append_assoc]
    exact member.trans (List.suffix_append _ _)
  wordless begins member behind :=
    clear.wordless begins member (behind.trans (List.suffix_append _ _).isInfix)

namespace Peers

/-- A text is its own peer. -/
theorem refl (w : Rewording loud) (t : Text) : Peers w t t := Or.inl rfl

/-- Peers are twins. -/
theorem twin (peers : Peers w t t') : w.Twin t t' :=
  peers.imp id fun ⟨front, back, _, first, second⟩ => ⟨front, back, first, second⟩

/-- Texts around a literal are peers when the text in front is clear. -/
theorem of_clear (clear : Clear w front) (back : Text) :
    Peers w (w.original front back) (w.reworded front back) :=
  Or.inr ⟨front, back, clear, rfl, rfl⟩

/-- Peers stay peers when the same is written behind them. -/
theorem append (peers : Peers w t t') (u : Text) : Peers w (t ++ u) (t' ++ u) := by
  have longer (front contents back : Text) : Text.enquote w.mark front contents back ++ u =
      Text.enquote w.mark front contents (back ++ u) := by
    simp [Text.enquote]
  rcases peers with rfl | ⟨front, back, clear, rfl, rfl⟩
  · exact refl w _
  · exact Or.inr ⟨front, back ++ u, clear, longer .., longer ..⟩

/-- Peers are of the same length. -/
theorem length_eq (peers : Peers w t t') : t'.length = t.length := by
  rcases peers with rfl | ⟨front, back, -, rfl, rfl⟩
  · rfl
  · exact Pattern.length_reworded w front back

/-- Peers are empty together. -/
theorem isEmpty_eq (peers : Peers w t t') : t'.isEmpty = t.isEmpty := by
  rw [Bool.eq_iff_iff, List.isEmpty_iff_length_eq_zero, List.isEmpty_iff_length_eq_zero,
    peers.length_eq]

/-- Peers begin with the same byte. -/
theorem head_eq (peers : Peers w t t') : t'.head? = t.head? := by
  rcases peers with rfl | ⟨front, back, -, rfl, rfl⟩
  · rfl
  · cases front <;> rfl

/-- A mark is not blank. -/
theorem solid (w : Rewording loud) : Rune.isBlank w.mark.toNat = false :=
  Text.solid_of_mark _ w.is_mark

/-- **Trimming** peers. -/
theorem trim (peers : Peers w t t') : Peers w (Text.trim t) (Text.trim t') := by
  rcases peers with rfl | ⟨front, back, clear, rfl, rfl⟩
  · exact refl w _
  · obtain ⟨gap, front, back, rfl, is_gap, trimmed⟩ :=
      Text.trim_enquote w.mark_lt (solid w) front back
    refine Or.inr ⟨front, back, clear.of_append (closed_of_markless ?_ ⟨rfl, rfl⟩), trimmed _,
      trimmed _⟩
    intro c member is_mark
    have solid := Text.solid_of_mark c is_mark
    rw [is_gap c member (loud.ascii c (loud.marks c is_mark))] at solid
    cases solid

/-- Peers are blank only if they are equal. -/
theorem isBlank_eq (peers : Peers w t t') : t'.isBlank = t.isBlank := by
  rcases peers with rfl | ⟨front, back, -, rfl, rfl⟩
  · rfl
  · rw [Text.isBlank_enquote w.mark_lt (solid w), Text.isBlank_enquote w.mark_lt (solid w)]

/-- Taking away a word that peers begin with. -/
theorem of_append {word u : Text} (peers : Peers w (word ++ u) t')
    (markless : ∀ c ∈ word, c ∉ Text.marks) : ∃ u', t' = word ++ u' ∧ Peers w u u' := by
  rcases peers with rfl | ⟨front, back, clear, first, rfl⟩
  · exact ⟨u, rfl, refl w u⟩
  · have absent : w.mark ∉ word := fun member => markless _ member w.is_mark
    obtain ⟨rest, rfl, same⟩ := Text.exists_of_append_mark absent first
    exact ⟨w.reworded rest back, List.append_assoc .., Or.inr ⟨rest, back,
      clear.of_append (closed_of_markless markless ⟨rfl, rfl⟩), same, rfl⟩⟩

/-- Peers begin with the same word, if there are no marks in it. -/
theorem startsWith_eq {word : Text} (peers : Peers w t t') (markless : ∀ c ∈ word, c ∉ Text.marks) :
    t'.startsWith word = t.startsWith word := by
  have absent : w.mark ∉ word := fun member => markless _ member w.is_mark
  rcases peers with rfl | ⟨front, back, -, rfl, rfl⟩
  · rfl
  · exact (Text.isPrefixOf_mark absent front _).trans (Text.isPrefixOf_mark absent front _).symm

/-- What is left of peers behind a word. -/
theorem dropStart {word : Text} (peers : Peers w t t') (markless : ∀ c ∈ word, c ∉ Text.marks) :
    Peers w (t.dropStart word) (t'.dropStart word) := by
  rw [Text.dropStart, Text.dropStart, peers.startsWith_eq markless]
  split
  · rename_i begins
    obtain ⟨u, rfl⟩ := List.isPrefixOf_iff_prefix.1 begins
    obtain ⟨u', rfl, rest⟩ := peers.of_append markless
    rwa [List.drop_left, List.drop_left]
  · exact peers

end Peers

/-! ## Dividing -/

variable {σ : Type} {choose : Chooser σ}

/-- What is chosen depends on the text up to the next mark only. -/
structure Chooser.Near (choose : Chooser σ) (mark : UInt8) : Prop where
  /-- It does not depend on the distance to the beginning. -/
  relative : choose.Relative
  /-- It does not depend on what is behind the mark. -/
  local_ : ∀ s before c a u u', choose s ⟨0, before, c :: (a ++ mark :: u)⟩ =
    choose s ⟨0, before, c :: (a ++ mark :: u')⟩

/-- Texts are their own peers, one by one. -/
theorem forall₂_refl (w : Rewording loud) (ts : List Text) : List.Forall₂ (Peers w) ts ts :=
  List.forall₂_same.2 fun _ _ => Peers.refl w _

/-- Behind the literal, peers are divided alike. -/
theorem pieces_back (clear : Clear w front) (rest : Text) (g : Guard) (s : σ)
    (before : Option UInt8) (back : Text) : List.Forall₂ (Peers w)
      (pieces choose g s before rest (w.original front back).reverse)
      (pieces choose g s before rest (w.reworded front back).reverse) := by
  induction rest generalizing g s before back with
  | nil =>
    rw [pieces, pieces, List.reverse_reverse, List.reverse_reverse]
    exact .cons (.of_clear clear back) .nil
  | cons c rest ih =>
    have longer (contents : Text) : c :: (Text.enquote w.mark front contents back).reverse =
        (Text.enquote w.mark front contents (back ++ [c])).reverse := by
      simp [Text.enquote]
    rw [pieces, pieces, longer, longer]
    split
    · split
      · rw [List.reverse_reverse, List.reverse_reverse]
        exact .cons (.of_clear clear back) (forall₂_refl w _)
      · exact ih _ _ _ _
    · exact ih _ _ _ _

/-- A mark opens a quotation and closes it. -/
theorem next_mark (is_mark : mark ∈ Text.marks) (depth : Int) :
    Guard.next ⟨depth, none, false⟩ mark = ⟨depth, some mark, false⟩ ∧
      Guard.next ⟨depth, some mark, false⟩ mark = ⟨depth, none, false⟩ := by
  rcases List.mem_pair.1 is_mark with rfl | rfl <;> exact ⟨rfl, rfl⟩

/-- A mark is not at the top level. -/
theorem isTop_mark (is_mark : mark ∈ Text.marks) (g : Guard) : g.isTop mark = false := by
  have quote : (mark == Text.apostrophe || mark == Text.doubleQuote) = true := by
    rcases List.mem_pair.1 is_mark with rfl | rfl <;> rfl
  rw [Guard.isTop, quote, Bool.not_true, Bool.and_false, Bool.false_and, Bool.false_and,
    Bool.false_and]

/-- Nothing is chosen in a literal. -/
theorem pieces_literal {contents : Text} (quiet : loud.Quiet contents)
    (is_mark : mark ∈ Text.marks) (rest part : Text) (depth : Int) (s : σ) (before : Option UInt8) :
    pieces choose ⟨depth, none, false⟩ s before (mark :: (contents ++ mark :: rest)) part =
      pieces choose ⟨depth, none, false⟩ s (some mark) rest
        (mark :: (contents.reverse ++ mark :: part)) := by
  -- The induction is on the contents, during which the guard stays inside of the literal.
  have passed : ∀ (contents part : Text) (before : Option UInt8), loud.Quiet contents →
      pieces choose ⟨depth, some mark, false⟩ s before (contents ++ mark :: rest) part =
        pieces choose ⟨depth, none, false⟩ s (some mark) rest
          (mark :: (contents.reverse ++ part)) := by
    intro contents
    induction contents with
    | nil =>
      intro part before _
      rw [List.nil_append, pieces, isTop_mark is_mark, (next_mark is_mark depth).2]
      rfl
    | cons c contents ih =>
      intro part before quiet
      obtain ⟨dull, quiet⟩ := List.forall_mem_cons.1 quiet
      have no_backslash : (c == Text.backslash) = false :=
        beq_eq_false_iff_ne.2 fun same => dull (same ▸ by decide)
      have no_mark : (c == mark) = false :=
        beq_eq_false_iff_ne.2 fun same => dull (same ▸ loud.marks mark is_mark)
      have stays : Guard.next ⟨depth, some mark, false⟩ c = ⟨depth, some mark, false⟩ := by
        simp only [Guard.next, no_backslash, no_mark, Bool.false_eq_true, if_false]
      have inside : Guard.isTop ⟨depth, some mark, false⟩ c = false := rfl
      rw [List.cons_append, pieces, inside, stays, if_neg Bool.false_ne_true, ih _ _ quiet,
        List.reverse_cons, List.append_assoc]
      rfl
  rw [pieces, isTop_mark is_mark, (next_mark is_mark depth).1, if_neg Bool.false_ne_true,
    passed _ _ _ quiet]

/-- **Peers are divided alike**, when what is chosen depends on the text up to the next mark only:
their parts are peers again. -/
theorem pieces_front (near : choose.Near w.mark) (front back : Text) (g : Guard) (s : σ)
    (before : Option UInt8) (part : Text) (clear : Clear w (part.reverse ++ front))
    (same : g.SameQuote (Guard.start.behind part.reverse)) : List.Forall₂ (Peers w)
      (pieces choose g s before (w.original front back) part)
      (pieces choose g s before (w.reworded front back) part) := by
  -- The induction is on what stands in front of the literal; both sides cut it in the same places.
  induction front generalizing g s before part with
  | nil =>
    rw [List.append_nil] at clear
    obtain ⟨depth, mark, escaped⟩ := g
    obtain ⟨rfl, rfl⟩ : mark = none ∧ escaped = false := same.trans clear.closed
    have ended (contents : Text) : w.mark :: (contents.reverse ++ w.mark :: part) =
        (Text.enquote w.mark part.reverse contents []).reverse := by
      simp [Text.enquote]
    rw [Rewording.original, Rewording.reworded, Text.enquote, Text.enquote, List.nil_append,
      List.nil_append, pieces_literal w.quiet_old w.is_mark,
      pieces_literal w.quiet_new w.is_mark, ended, ended]
    exact pieces_back clear back _ s _ []
  | cons c front ih =>
    have longer : Clear w ((c :: part).reverse ++ front) := by
      rwa [List.reverse_cons, List.append_assoc]
    have step := same.next c
    have step' : (g.next c).SameQuote (Guard.start.behind (c :: part).reverse) := by
      rwa [List.reverse_cons, Guard.behind_append]
    have split (contents : Text) : Text.enquote w.mark (c :: front) contents back =
        c :: Text.enquote w.mark front contents back := rfl
    rw [Rewording.original, Rewording.reworded, split, split, pieces, pieces,
      Text.enquote, Text.enquote,
      near.local_ s before c front (w.new ++ w.mark :: back) (w.old ++ w.mark :: back)]
    split
    · rename_i top
      split
      -- The piece ends here, and the next one begins outside literals again.
      · have complete := step'.symm.trans (Guard.next_of_isTop top)
        exact .cons (Peers.refl w _) (ih _ _ _ [] (longer.of_append complete)
          (Guard.next_of_isTop top))
      · exact ih _ _ _ _ longer step'
    · exact ih _ _ _ _ longer step'

/-- Places that are alike up to the next mark are both at a lambda, or neither is. -/
theorem atLambda_eq (is_mark : mark ∈ Text.marks) (before : Option UInt8) (c : UInt8) (a u u' : Text) :
    atLambda ⟨0, before, c :: (a ++ mark :: u)⟩ = atLambda ⟨0, before, c :: (a ++ mark :: u')⟩ := by
  have unmarked : ∀ mark ∈ Text.marks, mark ∉ ("lambda" : Text) :=
    Text.forall_mark (by decide) (by decide)
  have absent := unmarked mark is_mark
  have prefixed (u : Text) : ("lambda" : Text).isPrefixOf (c :: (a ++ mark :: u)) =
      ("lambda" : Text).isPrefixOf (c :: a) := Text.isPrefixOf_mark absent (c :: a) u
  simp only [atLambda, prefixed]
  by_cases begins : ("lambda" : Text).isPrefixOf (c :: a) = true
  · have long : 6 ≤ (c :: a).length := (List.isPrefixOf_iff_prefix.1 begins).length_le
    have same (u : Text) : (c :: (a ++ mark :: u))[6]? = (c :: a ++ [mark])[6]? := by
      have split : c :: (a ++ mark :: u) = (c :: a ++ [mark]) ++ u := by simp
      rw [split, List.getElem?_append_left]
      rw [List.length_append]
      exact Nat.lt_succ_of_le long
    rw [same u, same u']
  · rw [Bool.not_eq_true] at begins
    simp only [begins, Bool.false_and]

/-- The byte in front of a mark, or the mark, is the same whatever follows. -/
theorem second_eq (a u u' : Text) : (a ++ mark :: u)[0]? = (a ++ mark :: u')[0]? := by
  cases a <;> rfl

/-- Separators are told by their own byte. -/
theorem near_separator (sep : UInt8) (mark : UInt8) :
    Chooser.Near (chooseAll (·.rest.head? == some sep)) mark :=
  ⟨fun _ _ _ _ => rfl, fun _ _ _ _ _ _ => rfl⟩

/-- The signs of assignments are told by the bytes next to them. -/
theorem near_assignment (mark : UInt8) : Chooser.Near (chooseAll atAssignment) mark where
  relative _ _ _ _ := rfl
  local_ s before c a u u' := by
    simp only [chooseAll, atAssignment, List.head?_cons, List.getElem?_cons_succ,
      second_eq a u u']

/-- The colon of a header is told by the bytes next to it. -/
theorem near_colon (is_mark : mark ∈ Text.marks) : Chooser.Near chooseColon mark where
  relative s _ _ _ := by cases s <;> rfl
  local_ s before c a u u' := by
    cases s with
    | none => rfl
    | some lambdas =>
      have second : (c :: (a ++ mark :: u))[1]? = (c :: (a ++ mark :: u'))[1]? := second_eq a u u'
      have read (u : Text) : chooseColon (some lambdas) ⟨0, before, c :: (a ++ mark :: u)⟩ =
          if atLambda ⟨0, before, c :: (a ++ mark :: u)⟩ then (some (lambdas + 1), false)
          else if some c != some (':' : UInt8) ||
              (c :: (a ++ mark :: u))[1]? == some ('=' : UInt8) then (some lambdas, false)
          else if lambdas = 0 then (none, true) else (some (lambdas - 1), false) := rfl
      rw [read, read, atLambda_eq is_mark before c a u u', second]

namespace Peers

/-- **The parts of peers are peers.** -/
theorem pieces (near : choose.Near w.mark) (peers : Peers w t t') (s : σ) :
    List.Forall₂ (Peers w) (pieces choose .start s none t [])
      (pieces choose .start s none t' []) := by
  rcases peers with rfl | ⟨front, back, clear, rfl, rfl⟩
  · exact forall₂_refl w _
  · exact pieces_front near front back .start s none [] clear ⟨rfl, rfl⟩

/-- Peers are divided into peers at separators. -/
theorem splitTopLevel (peers : Peers w t t') (sep : UInt8) :
    List.Forall₂ (Peers w) (splitTopLevel t sep) (splitTopLevel t' sep) := by
  rw [splitTopLevel_eq, splitTopLevel_eq]
  exact peers.pieces (near_separator sep w.mark) ()

/-- Peers are divided into peers at the signs of assignments. -/
theorem splitAssignment (peers : Peers w t t') :
    List.Forall₂ (Peers w) (splitAssignment t) (splitAssignment t') := by
  rw [splitAssignment_eq, splitAssignment_eq]
  exact peers.pieces (near_assignment w.mark) ()

/-- **The colon of a header** is found at the same place, and what stands in front of it and behind
it are peers. -/
theorem headerColon (peers : Peers w t t') : headerColon? t' = headerColon? t ∧
    ∀ colon, headerColon? t = some colon →
      Peers w (t.take colon) (t'.take colon) ∧
        Peers w (t.drop (colon + 1)) (t'.drop (colon + 1)) := by
  -- Cut at the first colon, both sides have as many pieces: two or one.
  have parts := peers.pieces (near_colon w.is_mark) (some 0)
  cases found : headerColon? t with
  | none =>
    cases found' : headerColon? t' with
    | none => exact ⟨rfl, fun _ => nofun⟩
    | some colon' =>
      rw [pieces_of_no_colon found, pieces_of_colon found'] at parts
      cases parts with
      | cons _ rest => cases rest
  | some colon =>
    cases found' : headerColon? t' with
    | none =>
      rw [pieces_of_colon found, pieces_of_no_colon found'] at parts
      cases parts with
      | cons _ rest => cases rest
    | some colon' =>
      rw [pieces_of_colon found, pieces_of_colon found'] at parts
      cases parts with
      | cons first rest =>
        cases rest with
        | cons second _ =>
          have inside := headerColon_lt found
          have inside' := headerColon_lt found'
          have length := first.length_eq
          rw [List.length_take, List.length_take, Nat.min_eq_left (Nat.le_of_lt inside),
            Nat.min_eq_left (Nat.le_of_lt inside')] at length
          subst length
          exact ⟨rfl, by rintro _ ⟨⟩; exact ⟨first, second⟩⟩

end Peers

end FlowTrace.Python
