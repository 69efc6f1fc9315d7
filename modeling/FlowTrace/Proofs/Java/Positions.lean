import FlowTrace.Proofs.Java.Blocks
import FlowTrace.Proofs.Java.Enough

/-! # Positions of tokens

A reader takes the tokens from its place on, so it never asks for one that is not there. Some parts
of the grammar look at tokens by their positions, though, and in loops that end at a position. Here
they are written in that way: a token is asked for by its position, and if there is none, nothing
comes of it (`none`); nor does anything come of a loop that takes too many steps. In a source whose
brackets have partners all of them come to what the readers come to. -/

namespace FlowTrace.Java

variable {src : Source} {tokens here rest run tail inside after : List Token} {t opening : Token}
  {i start stop bound : Nat} {stops : List Text}

/-- The tokens from a position on. -/
structure At (tokens : List Token) (i : Nat) (here : List Token) : Prop where
  /-- They are what is left behind the position. -/
  drop : tokens.drop i = here
  /-- The position is one of the tokens, or their end. -/
  length : i + here.length = tokens.length

namespace At

/-- The token at a position is the first one from there on. -/
theorem get (at_ : At tokens i (t :: rest)) : tokens[i]? = some t := by
  have head := congrArg List.head? at_.drop
  rwa [List.head?_drop] at head

/-- The position behind some tokens. -/
theorem append (at_ : At tokens i (run ++ rest)) : At tokens (i + run.length) rest where
  drop := by rw [← List.drop_drop, at_.drop, List.drop_left]
  length := by rw [← at_.length, List.length_append, Nat.add_assoc]

/-- The position behind one token. -/
theorem next (at_ : At tokens i (t :: rest)) : At tokens (i + 1) rest :=
  @append tokens rest [t] i at_

end At

/-! ## Texts -/

/-- The text of the tokens from one position up to another. -/
def textBetween? (src : Source) (tokens : List Token) (start stop : Nat) : Option Text :=
  if stop ≤ start ∨ tokens.length ≤ start then some []
  else do
    let first ← tokens[start]?
    let last ← tokens[stop - 1]?
    return Text.collapse (src.code.slice first.offset last.stop)

/-- The text between two positions is that of the tokens between them. -/
theorem textBetween?_eq (at_ : At tokens start (run ++ rest)) (src : Source) :
    textBetween? src tokens start (start + run.length) = some (src.text run) := by
  have length := at_.length
  cases run with
  | nil =>
    have empty : start + ([] : List Token).length ≤ start := Nat.le_refl _
    rw [textBetween?, if_pos (Or.inl empty)]
    rfl
  | cons first run =>
    simp only [List.length_append, List.length_cons] at length
    have some_token : ¬ (start + (first :: run).length ≤ start ∨ tokens.length ≤ start) := by
      rw [List.length_cons]
      omega
    obtain ⟨last, is_last⟩ : ∃ last, (first :: run).getLast? = some last :=
      ⟨_, List.getLast?_eq_some_getLast (List.cons_ne_nil _ _)⟩
    have get_last : tokens[start + (first :: run).length - 1]? = some last := by
      obtain ⟨before, same⟩ := List.getLast?_eq_some_iff.1 is_last
      rw [same, List.append_assoc] at at_
      have at_last := at_.append.get
      rw [same, List.length_append, List.length_singleton, ← Nat.add_assoc, Nat.add_sub_cancel]
      exact at_last
    rw [textBetween?, if_neg some_token, At.get at_, get_last]
    show some (Text.collapse _) = some (coveredText _ _)
    rw [coveredText, is_last]
    rfl

/-! ## Partners and stops -/

/-- The position of the bracket at which as many brackets were closed as opened; `none` inside if
there is none. -/
def matchFrom? (tokens : List Token) : Nat → Nat → Int → Option (Option Nat)
  | 0, _, _ => some none
  | steps + 1, i, depth => do
    let t ← tokens[i]?
    if t.isOpening then matchFrom? tokens steps (i + 1) (depth + 1)
    else if t.isClosing then
      if depth == 1 then some (some i) else matchFrom? tokens steps (i + 1) (depth - 1)
    else matchFrom? tokens steps (i + 1) depth

/-- The position of the partner of the bracket at a position. -/
def match? (tokens : List Token) (i : Nat) : Option (Option Nat) :=
  matchFrom? tokens (tokens.length - i) i 0

/-- The search for a partner finds it where the readers do, however deep it begins. -/
theorem matchFrom?_eq (at_ : At tokens i here) (depth : Nat) (done : List Token) :
    matchFrom? tokens here.length i (depth + 1) = some ((closeFrom? here depth done).map fun divided =>
      tokens.length - (divided.2.length + 1)) := by
  induction here generalizing i depth done with
  | nil => rfl
  | cons t here ih =>
    have length := at_.length
    rw [List.length_cons] at length
    rw [List.length_cons, matchFrom?, at_.get, closeFrom?_cons]
    show (if t.isOpening then _ else _) = _
    split
    · exact ih at_.next (depth + 1) _
    · split
      · cases depth with
        | zero =>
          show some (some i) = some (some (tokens.length - (here.length + 1)))
          rw [← length, Nat.add_sub_cancel]
        | succ depth =>
          have deep : (((depth + 1 : Nat) : Int) + 1 == 1) = false := by
            rw [beq_eq_false_iff_ne]
            omega
          have same : ((depth + 1 : Nat) : Int) + 1 - 1 = (depth : Int) + 1 := by omega
          rw [deep, same]
          exact ih at_.next depth _
      · exact ih at_.next depth _

/-- **The partner of a bracket** is found where the readers find it. -/
theorem match?_eq (at_ : At tokens i (opening :: here)) (opens : opening.isOpening = true) :
    match? tokens i = some ((enclosed? (opening :: here)).map fun divided =>
      tokens.length - (divided.2.length + 1)) := by
  have length := at_.length
  rw [List.length_cons] at length
  have steps : tokens.length - i = here.length + 1 := by omega
  rw [match?, steps, matchFrom?, at_.get]
  show (if opening.isOpening then _ else _) = _
  rw [if_pos opens]
  exact matchFrom?_eq at_.next 0 []

/-- The position of the first stop outside brackets; `none` inside if there is none. -/
def scanFrom? (tokens : List Token) (stops : List Text) : Nat → Nat → Nat → Option (Option Nat)
  | 0, _, _ => some none
  | steps + 1, i, depth => do
    let t ← tokens[i]?
    if t.kind == .punct && depth == 0 && stops.contains t.text then some (some i)
    else if t.isOpening then scanFrom? tokens stops steps (i + 1) (depth + 1)
    else if t.isClosing then
      if depth == 0 then some none else scanFrom? tokens stops steps (i + 1) (depth - 1)
    else scanFrom? tokens stops steps (i + 1) depth

/-- The position of the first stop from a position on. -/
def scan? (tokens : List Token) (stops : List Text) (i : Nat) : Option (Option Nat) :=
  scanFrom? tokens stops (tokens.length - i) i 0

/-- The search for a stop finds it where the readers do, however deep it begins. -/
theorem scanFrom?_eq (at_ : At tokens i here) (depth : Nat) (done : List Token) :
    scanFrom? tokens stops here.length i depth = some ((untilFrom? stops here depth done).map
      fun divided => tokens.length - (divided.2.2.length + 1)) := by
  induction here generalizing i depth done with
  | nil => rfl
  | cons t here ih =>
    have length := at_.length
    rw [List.length_cons] at length
    rw [List.length_cons, scanFrom?, at_.get, untilFrom?_cons, isStop, Bool.and_right_comm]
    show (if (t.kind == .punct && depth == 0 && stops.contains t.text) = true then _ else _) = _
    split
    · show some (some i) = some (some (tokens.length - (here.length + 1)))
      rw [← length, Nat.add_sub_cancel]
    · split
      · exact ih at_.next (depth + 1) _
      · split
        · cases depth with
          | zero => rfl
          | succ depth => exact ih at_.next depth _
        · exact ih at_.next depth _

/-- **A stop** is found where the readers find it. -/
theorem scan?_eq (at_ : At tokens i here) :
    scan? tokens stops i = some ((until? stops here).map fun divided =>
      tokens.length - (divided.2.2.length + 1)) := by
  have length := at_.length
  have steps : tokens.length - i = here.length := by omega
  rw [scan?, steps]
  exact scanFrom?_eq at_ 0 []

/-! ## Brackets by their texts -/

/-- A condition that only punctuation meets need not ask for punctuation. -/
theorem Token.punct_and {bracket : Bool} (only : bracket = true → t.kind = .punct) :
    (t.kind == .punct && bracket) = bracket := by
  cases bracket with
  | true => rw [only rfl, BEq.rfl, Bool.true_and]
  | false => exact Bool.and_false _

/-- What is written like a symbol of one byte is punctuation. -/
theorem Token.Genuine.punct_of_text (genuine : t.Genuine) {symbol : Text}
    (is_symbol : (symbol.length == 1 && symbol.all singles.contains) = true)
    (same : t.text = symbol) : t.kind = .punct :=
  beq_iff_eq.1 (Bool.and_eq_true_iff.1 (genuine.isPunct is_symbol same)).1

/-- The texts of opening brackets. -/
theorem Token.Genuine.text_isOpening (genuine : t.Genuine) :
    (t.text == "(" || t.text == "[" || t.text == "\x7b") = t.isOpening := by
  refine (Token.punct_and fun bracket => ?_).symm
  simp only [Bool.or_eq_true, beq_iff_eq] at bracket
  rcases bracket with (same | same) | same <;> exact genuine.punct_of_text (by decide) same

/-- A token that is written as a parenthesis opens a bracket. -/
theorem Token.Genuine.opens_of_paren (genuine : t.Genuine) (paren : (t.text == "(") = true) :
    t.isOpening = true := by
  rw [← genuine.text_isOpening, paren]
  rfl

/-- A token that is written as a brace opens a bracket. -/
theorem Token.Genuine.opens_of_brace (genuine : t.Genuine) (brace : (t.text == "\x7b") = true) :
    t.isOpening = true := by
  rw [← genuine.text_isOpening, brace, Bool.or_true]

/-- The texts of closing brackets. -/
theorem Token.Genuine.text_isClosing (genuine : t.Genuine) :
    (t.text == ")" || t.text == "]" || t.text == "\x7d") = t.isClosing := by
  refine (Token.punct_and fun bracket => ?_).symm
  simp only [Bool.or_eq_true, beq_iff_eq] at bracket
  rcases bracket with (same | same) | same <;> exact genuine.punct_of_text (by decide) same

/-- A bracket that is opened is closed again before the end of some tokens, if they close all
brackets that are open before them. -/
theorem exists_partner {depth : Nat} (closed : depthBehind (opening :: run) depth = some 0)
    (opens : opening.isOpening = true) : ∃ inside close after, run = inside ++ close :: after ∧
      enclosed? (opening :: run) = some (inside, after) ∧ balanced inside 0 = true ∧
      depthBehind after depth = some 0 := by
  rw [depthBehind_cons, if_pos opens] at closed
  have closed' : depthBehind run (0 + 1 + depth) = some 0 := by rwa [Nat.zero_add, Nat.add_comm 1]
  obtain ⟨inside, after, found⟩ := exists_closeFrom? closed' (Nat.zero_le _) []
  obtain ⟨close, rfl, closes, even⟩ := @enclosed?_eq_some run inside after opening found
  refine ⟨inside, close, after, rfl, found, even, ?_⟩
  have inner := depthBehind_add (depth + 1) (balanced_iff.1 even)
  rw [Nat.zero_add] at inner
  rw [depthBehind_append, inner, Option.bind_some, depthBehind_cons,
    if_neg (by rw [Token.isOpening_of_isClosing closes]; simp), if_pos closes] at closed
  exact closed

/-- The partner stands where it is counted to be. -/
theorem match?_of_enclosed {close : Token}
    (at_ : At tokens i (opening :: (inside ++ close :: after) ++ tail))
    (opens : opening.isOpening = true)
    (found : enclosed? (opening :: (inside ++ close :: after)) = some (inside, after)) :
    match? tokens i = some (some (i + 1 + inside.length)) := by
  have length := at_.length
  simp only [List.length_append, List.length_cons] at length
  have found := enclosed?_append found tail
  rw [List.cons_append] at at_ found
  rw [match?_eq at_ opens, found]
  show some (some (tokens.length - ((after ++ tail).length + 1))) = _
  rw [List.length_append]
  congr 2
  omega

/-- **A bracket that is closed again has a partner**, which the readers find, and which is counted to
be there. -/
theorem exists_match {depth : Nat} (at_ : At tokens i (opening :: run ++ tail))
    (opens : opening.isOpening = true) (closed : depthBehind (opening :: run) depth = some 0) :
    ∃ inside close after, run = inside ++ close :: after ∧
      enclosed? (opening :: run) = some (inside, after) ∧
      match? tokens i = some (some (i + 1 + inside.length)) := by
  obtain ⟨inside, close, after, rfl, found, -, -⟩ := exists_partner closed opens
  exact ⟨inside, close, after, rfl, found, match?_of_enclosed at_ opens found⟩

/-! ## Constructors -/

/-- Whether a constructor begins at a position. The token behind the partner of its parenthesis is
asked for by its position, if there is one. -/
def constructor? (tokens : List Token) (i : Nat) : Option Bool :=
  match tokens[i]? with
  | none => some false
  | some name =>
    if name.kind == .ident && !reserved.contains name.text && textAt tokens (i + 1) == "(" then do
      match ← match? tokens (i + 1) with
      | none => some false
      | some close =>
        if close + 1 < tokens.length then do
          let behind ← tokens[close + 1]?
          some (behind.text == "\x7b" || behind.text == "throws")
        else some false
    else some false

/-- The token that is asked for by its position is there, or none is asked for. -/
theorem textBehind_eq (at_ : At tokens i rest) :
    (if i < tokens.length then do
        let behind ← tokens[i]?
        some (behind.text == "\x7b" || behind.text == "throws")
      else some false) = some (textAt rest 0 == "\x7b" || textAt rest 0 == "throws") := by
  have length := at_.length
  cases rest with
  | nil =>
    have length : i = tokens.length := length
    rw [if_neg (Nat.not_lt.2 (Nat.le_of_eq length.symm))]
    rfl
  | cons behind rest =>
    rw [List.length_cons] at length
    rw [if_pos (by omega), at_.get]
    rfl

/-- **A constructor begins** where the readers say. -/
theorem constructor?_eq (genuine : ∀ t ∈ tokens, t.Genuine) (at_ : At tokens i here) :
    constructor? tokens i = some (atConstructor here) := by
  cases here with
  | nil =>
    have last : i = tokens.length := at_.length
    rw [constructor?, List.getElem?_eq_none (Nat.le_of_eq last.symm)]
    rfl
  | cons name here =>
    have at_next := at_.next
    have same : textAt tokens (i + 1) = textAt here 0 := by
      rw [textAt, textAt, ← at_next.drop, List.getElem?_drop, Nat.add_zero]
    rw [constructor?, at_.get, atConstructor, same]
    simp only
    split
    · rename_i named
      rw [named, Bool.true_and]
      cases here with
      | nil => exact absurd (Bool.and_eq_true_iff.1 named).2 (by decide)
      | cons opening here =>
        have paren : (opening.text == "(") = true := (Bool.and_eq_true_iff.1 named).2
        have opens := (genuine opening (List.mem_of_getElem? at_next.get)).opens_of_paren paren
        rw [match?_eq at_next opens]
        cases found : enclosed? (opening :: here) with
        | none => rfl
        | some divided =>
          obtain ⟨inside, after⟩ := divided
          obtain ⟨close, rfl, -, -⟩ := enclosed?_eq_some found
          have at_close := at_next.next.append
          -- The partner stands behind the name, the opening parenthesis and what is inside.
          have place : tokens.length - (after.length + 1) = i + 1 + 1 + inside.length := by
            rw [← at_close.length, List.length_cons, Nat.add_sub_cancel]
          simp only [Option.map_some, Option.bind_eq_bind, Option.bind_some, place]
          exact textBehind_eq at_close.next
    · rename_i unnamed
      rw [Bool.eq_false_iff.2 unnamed, Bool.false_and]

/-! ## Parameters -/

/-- The position behind the annotations and modifiers of a parameter. Behind an annotation with
arguments the loop goes on behind their closing parenthesis; without one it would begin again at the
first token of all. -/
def skipParam? (tokens : List Token) (stop : Nat) : Nat → Nat → Option Nat
  | 0, _ => none
  | bound + 1, start =>
    if start < stop then do
      let t ← tokens[start]?
      if t.text == "final" then skipParam? tokens stop bound (start + 1)
      else if t.text == "@" && start + 1 < stop then
        if start + 2 < stop then do
          let opening ← tokens[start + 2]?
          if opening.text == "(" then do
            let close ← match? tokens (start + 2)
            skipParam? tokens stop bound (match close with | some close => close + 1 | none => 0)
          else skipParam? tokens stop bound (start + 2)
        else skipParam? tokens stop bound (start + 2)
      else some start
    else some start

/-- **The loop over annotations ends**, and where the readers end it. Every parenthesis has a partner
inside the parameter, so it goes forward with each step. -/
theorem skipParam?_eq {depth : Nat} (genuine : ∀ t ∈ tokens, t.Genuine)
    (at_ : At tokens start (run ++ tail)) (closed : depthBehind run depth = some 0)
    (left : run.length < bound) :
    ∃ passed more, run = passed ++ more ∧ skipParamModifiers bound run = more ∧
      skipParam? tokens (start + run.length) bound start = some (start + passed.length) := by
  induction bound generalizing start run depth with
  | zero => omega
  | succ bound ih =>
    cases run with
    | nil =>
      refine ⟨[], [], rfl, rfl, ?_⟩
      have ended : ¬ start < start + ([] : List Token).length := Nat.lt_irrefl _
      rw [skipParam?, if_neg ended]
      rfl
    | cons t run =>
      -- A step goes forward over the tokens `first`.
      have go_on (first more : List Token) (split : t :: run = first ++ more)
          (shorter : more.length < bound) : ∃ passed more', t :: run = passed ++ more' ∧
          skipParamModifiers bound more = more' ∧ skipParam? tokens (start + (t :: run).length) bound
            (start + first.length) = some (start + passed.length) := by
        rw [split] at at_ closed
        obtain ⟨depth', closed⟩ := exists_depthBehind closed
        rw [List.append_assoc] at at_
        obtain ⟨passed, more', rfl, skipped, found⟩ := ih at_.append closed shorter
        refine ⟨first ++ passed, more', by rw [split, List.append_assoc], skipped, ?_⟩
        rw [split, List.length_append, ← Nat.add_assoc, found, List.length_append, Nat.add_assoc]
      have begun : start < start + (t :: run).length := by
        rw [List.length_cons]
        omega
      rw [List.length_cons] at left
      rw [skipParam?, if_pos begun, At.get at_, skipParamModifiers, Option.bind_eq_bind,
        Option.bind_some]
      by_cases final : (t.text == "final") = true
      · rw [if_pos final, if_pos final]
        exact go_on [t] run rfl (by omega)
      rw [if_neg final, if_neg final]
      cases run with
      | nil =>
        -- The mark of an annotation at the end is no annotation.
        have last : ¬ start + 1 < start + [t].length := Nat.lt_irrefl _
        rw [decide_eq_false last, Bool.and_false, if_neg Bool.false_ne_true, List.isEmpty_nil,
          Bool.not_true, Bool.and_false, if_neg Bool.false_ne_true]
        exact ⟨[], [t], rfl, rfl, rfl⟩
      | cons name run =>
        have more : start + 1 < start + (t :: name :: run).length := by
          simp only [List.length_cons]
          omega
        rw [decide_eq_true more, Bool.and_true, List.isEmpty_cons, Bool.not_false, Bool.and_true]
        by_cases marked : (t.text == "@") = true
        · rw [if_pos marked, if_pos marked]
          simp only [List.length_cons] at left
          cases run with
          | nil =>
            have last : ¬ start + 2 < start + [t, name].length := Nat.lt_irrefl _
            rw [if_neg last]
            exact go_on [t, name] [] rfl (by rw [List.length_nil]; omega)
          | cons opening run =>
            have more : start + 2 < start + (t :: name :: opening :: run).length := by
              simp only [List.length_cons]
              omega
            have at_opening : At tokens (start + 2) (opening :: run ++ tail) := At.next (At.next at_)
            rw [if_pos more, At.get at_opening, Option.bind_eq_bind, Option.bind_some]
            show ∃ passed more, _ ∧ (if (opening.text == "(") = true then _ else _) = more ∧ _
            simp only [List.drop_succ_cons, List.drop_zero]
            by_cases paren : (opening.text == "(") = true
            · have opens := (genuine opening (List.mem_of_getElem? at_opening.get)).opens_of_paren paren
              have closed : depthBehind ([t, name] ++ opening :: run) depth = some 0 := closed
              obtain ⟨depth', closed⟩ := exists_depthBehind closed
              obtain ⟨inside, close, after, rfl, found, is_match⟩ := exists_match at_opening opens closed
              rw [if_pos paren, if_pos paren, is_match, found]
              simp only [Option.bind_some]
              have behind : start + 2 + 1 + inside.length + 1 =
                  start + ([t, name, opening] ++ (inside ++ [close])).length := by
                simp only [List.length_append, List.length_cons, List.length_nil]
                omega
              rw [behind]
              refine go_on _ after (by simp) ?_
              simp only [List.length_append, List.length_cons] at left
              omega
            · rw [if_neg paren, if_neg paren]
              exact go_on [t, name] (opening :: run) rfl (by rw [List.length_cons] at left ⊢; omega)
        · rw [if_neg marked, if_neg marked]
          exact ⟨[], _, rfl, rfl, rfl⟩

/-- The end of the name of a parameter, behind which there are only empty square brackets, and
whether there are any. -/
def nameEnd? (tokens : List Token) (start : Nat) : Nat → Bool → Nat → Option (Bool × Nat)
  | 0, _, _ => none
  | bound + 1, found, stop =>
    if start + 1 < stop then do
      let t ← tokens[stop - 1]?
      if t.text == "]" then nameEnd? tokens start bound true (stop - 2) else some (found, stop)
    else some (found, stop)

/-- The name of a parameter is found in front of the brackets of an array type. -/
theorem nameEnd?_eq {back : List Token} {found : Bool} (at_ : At tokens start (back.reverse ++ tail))
    (left : back.length < bound) :
    nameEnd? tokens start bound found (start + back.length) =
        some ((dropDims found back).1, start + (dropDims found back).2.length) ∧
      (dropDims found back).2 <:+ back := by
  induction bound generalizing back found tail with
  | zero => omega
  | succ bound ih =>
    rw [nameEnd?]
    match back with
    | [] =>
      rw [if_neg (by simp)]
      exact ⟨rfl, List.suffix_refl _⟩
    | [name] =>
      rw [if_neg (by simp)]
      exact ⟨rfl, List.suffix_refl _⟩
    -- The tokens are read from the end; a pair of brackets takes two of them away.
    | close :: open_ :: back =>
      have split : (close :: open_ :: back).reverse ++ tail =
          back.reverse ++ (open_ :: close :: tail) := by simp
      rw [split] at at_
      have last : tokens[start + (close :: open_ :: back).length - 1]? = some close := by
        have at_close := at_.append.next.get
        rw [List.length_reverse] at at_close
        simpa [Nat.add_assoc] using at_close
      have more : start + 1 < start + (close :: open_ :: back).length := by
        simp only [List.length_cons]
        omega
      rw [if_pos more, last, Option.bind_eq_bind, Option.bind_some, dropDims]
      split
      · have shorter : start + (close :: open_ :: back).length - 2 = start + back.length := by
          simp only [List.length_cons]
          omega
        simp only [List.length_cons] at left
        obtain ⟨same, suffix⟩ := @ih (open_ :: close :: tail) back true at_ (by omega)
        rw [shorter, same]
        exact ⟨rfl, suffix.trans ((List.suffix_cons _ _).trans (List.suffix_cons _ _))⟩
      · exact ⟨rfl, List.suffix_refl _⟩

/-- The parameter between two positions; `none` inside if it is malformed. -/
def param? (src : Source) (tokens : List Token) (start stop : Nat) : Option (Option Variable) := do
  let start ← skipParam? tokens stop (stop - start + 1) start
  if stop - start < 2 then some none
  else do
    let (dims, last) ← nameEnd? tokens start (stop + 1) false stop
    if last ≤ start + 1 then some none
    else do
      let name ← tokens[last - 1]?
      if name.kind == .ident then do
        let type ← textBetween? src tokens start (last - 1)
        some (some {
          type, base := baseType type, name := name.text
          isArray := dims || type.includes "[" || type.endsWith "..."
          init := [], size := 0 })
      else some none

/-- **A parameter** is read from its position. -/
theorem param?_eq (genuine : ∀ t ∈ tokens, t.Genuine) (at_ : At tokens start (run ++ tail))
    (even : balanced run 0 = true) (src : Source) :
    param? src tokens start (start + run.length) = some (readParam? src run) := by
  obtain ⟨passed, more, rfl, skipped, found⟩ := skipParam?_eq genuine at_ (balanced_iff.1 even)
    (Nat.lt_succ_self _)
  have steps : start + (passed ++ more).length - start + 1 = (passed ++ more).length + 1 := by omega
  rw [param?, steps, found, Option.bind_eq_bind, Option.bind_some, readParam?]
  simp only [skipped]
  have left : start + (passed ++ more).length - (start + passed.length) = more.length := by
    rw [List.length_append]
    omega
  rw [left]
  by_cases short : more.length < 2
  · rw [if_pos short, if_pos short]
  · rw [if_neg short, if_neg short]
    -- The reader of tokens looks for the name in the reversed tokens, the one of positions from the
    -- end on.
    have at_more : At tokens (start + passed.length) (more.reverse.reverse ++ tail) := by
      rw [List.append_assoc] at at_
      rw [List.reverse_reverse]
      exact at_.append
    have stop : start + (passed ++ more).length = start + passed.length + more.reverse.length := by
      rw [List.length_append, List.length_reverse, Nat.add_assoc]
    obtain ⟨ended, suffix⟩ := @nameEnd?_eq tokens tail (start + passed.length)
      (start + (passed ++ more).length + 1) more.reverse false at_more
      (by rw [List.length_reverse, List.length_append]; omega)
    rw [← stop] at ended
    rw [ended, Option.bind_eq_bind, Option.bind_some]
    generalize dropDims false more.reverse = named at suffix ⊢
    obtain ⟨dims, kept⟩ := named
    obtain ⟨gone, split⟩ := suffix
    rw [← split] at at_more
    match kept with
    | [] =>
      rw [if_pos (by simp)]
    | [name] =>
      rw [if_pos (by simp)]
    | name :: first :: back =>
      have apart : (gone ++ name :: first :: back).reverse ++ tail =
          (first :: back).reverse ++ name :: (gone.reverse ++ tail) := by simp
      rw [apart] at at_more
      have last : start + passed.length + (name :: first :: back).length - 1 =
          start + passed.length + (first :: back).reverse.length := by
        rw [List.length_reverse, List.length_cons]
        omega
      have long : ¬ start + passed.length + (name :: first :: back).length ≤
          start + passed.length + 1 := by
        simp only [List.length_cons]
        omega
      simp only
      rw [if_neg long, last, at_more.append.get, textBetween?_eq at_more]
      simp only [Option.bind_eq_bind, Option.bind_some]
      split <;> rfl

/-- The parameters of a list that is left from a position on, the first of which begins at `start`. -/
def paramsFrom? (src : Source) (tokens : List Token) :
    Nat → Nat → (depth angle : Int) → Nat → Option (List Variable)
  | 0, i, _, _, start => do
    let v ← param? src tokens start i
    some v.toList
  | steps + 1, i, depth, angle, start => do
    let t ← tokens[i]?
    if t.text == "(" || t.text == "[" || t.text == "\x7b" then
      paramsFrom? src tokens steps (i + 1) (depth + 1) angle start
    else if t.text == ")" || t.text == "]" || t.text == "\x7d" then
      paramsFrom? src tokens steps (i + 1) (depth - 1) angle start
    else if t.text == "<" then paramsFrom? src tokens steps (i + 1) depth (angle + 1) start
    else if t.text == ">" then paramsFrom? src tokens steps (i + 1) depth (angle - 1) start
    else if t.text == "," && depth == 0 && angle == 0 then do
      let v ← param? src tokens start i
      let more ← paramsFrom? src tokens steps (i + 1) depth angle (i + 1)
      some (v.toList ++ more)
    else paramsFrom? src tokens steps (i + 1) depth angle start

/-- The parameters between two positions. -/
def params? (src : Source) (tokens : List Token) (start stop : Nat) : Option (List Variable) :=
  paramsFrom? src tokens (stop - start) start 0 0 start

/-- The parameters behind some tokens of a list are read from their positions. -/
theorem paramsFrom?_eq {part : List Token} {depth : Nat} (genuine : ∀ t ∈ tokens, t.Genuine)
    (at_ : At tokens start (part.reverse ++ (run ++ tail)))
    (reached : depthBehind part.reverse 0 = some depth) (closed : depthBehind run depth = some 0)
    (angle : Int) (src : Source) :
    paramsFrom? src tokens run.length (start + part.length) depth angle start =
      some ((splitParams run depth angle part).filterMap (readParam? src)) := by
  induction run generalizing start part depth angle with
  | nil =>
    cases closed
    have one := param?_eq genuine at_ (balanced_iff.2 reached) src
    rw [List.length_reverse] at one
    rw [List.length_nil, paramsFrom?, one, splitParams, List.filterMap_cons, List.filterMap_nil]
    cases readParam? src part.reverse <;> rfl
  | cons t run ih =>
    have at_t := at_.append
    rw [List.length_reverse] at at_t
    have genuine_t := genuine t (List.mem_of_getElem? (At.get at_t))
    have split : part.reverse ++ (t :: run ++ tail) = (t :: part).reverse ++ (run ++ tail) := by simp
    have at_part := at_
    rw [split] at at_
    -- The token goes to the part at hand, and the depth is that behind it.
    have go_on {depth' : Nat} (reached' : depthBehind (t :: part).reverse 0 = some depth')
        (closed' : depthBehind run depth' = some 0) (angle : Int) :
        paramsFrom? src tokens run.length (start + part.length + 1) depth' angle start =
          some ((splitParams run depth' angle (t :: part)).filterMap (readParam? src)) :=
      ih at_ reached' closed' angle
    have behind : depthBehind (t :: part).reverse 0 = depthBehind [t] depth := by
      rw [List.reverse_cons, depthBehind_append, reached]
      rfl
    rw [List.length_cons, paramsFrom?, At.get at_t, splitParams, Option.bind_eq_bind,
      Option.bind_some, genuine_t.text_isOpening, genuine_t.text_isClosing]
    rw [depthBehind_cons] at closed behind
    split
    · rename_i opens
      rw [if_pos opens] at closed behind
      exact go_on behind closed angle
    · rename_i opens
      rw [if_neg opens] at closed behind
      split
      · rename_i closes
        rw [if_pos closes] at closed behind
        cases depth with
        | zero => cases closed
        | succ depth =>
          have same : ((depth + 1 : Nat) : Int) - 1 = depth := by omega
          rw [same]
          exact go_on behind closed angle
      · rename_i closes
        rw [if_neg closes] at closed behind
        split
        · exact go_on behind closed _
        · split
          · exact go_on behind closed _
          · split
            · rename_i comma
              simp only [Bool.and_eq_true, beq_iff_eq] at comma
              obtain rfl : depth = 0 := by omega
              have one := param?_eq genuine at_part (balanced_iff.2 reached) src
              rw [List.length_reverse] at one
              have rest := @ih (start + part.length + 1) [] 0 (At.next at_t) rfl closed angle
              rw [List.length_nil, Nat.add_zero] at rest
              rw [one, Option.bind_eq_bind, Option.bind_some, rest, Option.bind_eq_bind,
                Option.bind_some, List.filterMap_cons]
              cases readParam? src part.reverse <;> rfl
            · exact go_on behind closed _

/-- **The parameters of a method** are read from their positions. -/
theorem params?_eq (genuine : ∀ t ∈ tokens, t.Genuine) (at_ : At tokens start (run ++ tail))
    (even : balanced run 0 = true) (src : Source) :
    params? src tokens start (start + run.length) = some (readParams src run) := by
  rw [params?, Nat.add_sub_cancel_left]
  exact @paramsFrom?_eq tokens run tail start [] 0 genuine at_ rfl (balanced_iff.1 even) 0 src

/-! ## Initial values -/

/-- The position where an initial value ends; `none` inside if it does not. -/
def declaratorEnd? (tokens : List Token) : Nat → Nat → Option (Option Nat)
  | 0, _ => none
  | bound + 1, i => do
    let ended ← scan? tokens [",", ";", ":", ")"] i
    match ended with
    | none => some none
    | some stop => do
      let t ← tokens[stop]?
      if t.text != "," then some (some stop)
      else if stop + 2 < tokens.length then do
        let name ← tokens[stop + 1]?
        let mark ← tokens[stop + 2]?
        if name.kind == .ident && declaratorMarks.contains mark.text then some (some stop)
        else declaratorEnd? tokens bound (stop + 1)
      else declaratorEnd? tokens bound (stop + 1)

/-- **The end of an initial value** is found where the readers find it. -/
theorem declaratorEnd?_eq (at_ : At tokens i here) (left : here.length < bound) :
    declaratorEnd? tokens bound i =
      some ((untilDeclarator? bound here).map fun divided => tokens.length - divided.2.length) := by
  induction bound generalizing i here with
  | zero => omega
  | succ bound ih =>
    rw [declaratorEnd?, scan?_eq at_, untilDeclarator?, Option.bind_eq_bind, Option.bind_some]
    cases found : until? [",", ";", ":", ")"] here with
    | none => rfl
    | some divided =>
      obtain ⟨before, stop, rest⟩ := divided
      obtain ⟨rfl, -, -⟩ := until?_eq_some found
      have length := at_.length
      rw [List.length_append, List.length_cons] at length
      have at_stop := at_.append
      have place : tokens.length - (rest.length + 1) = i + before.length := by omega
      have go_on := ih at_stop.next (by rw [List.length_append, List.length_cons] at left; omega)
      simp only [Option.map_some, place, at_stop.get, Option.bind_eq_bind, Option.bind_some]
      by_cases ends : (stop.text != ",") = true
      · rw [if_pos ends, if_pos (by rw [ends, Bool.true_or])]
        show _ = some (some (tokens.length - (rest.length + 1)))
        rw [place]
      · rw [if_neg ends, Bool.eq_false_iff.2 ends, Bool.false_or]
        -- Behind a comma, two more tokens decide; with fewer of them there is no declarator.
        rcases rest with _ | ⟨name, _ | ⟨mark, rest⟩⟩
        · have last : ¬ i + before.length + 2 < tokens.length := by
            rw [List.length_nil] at length
            omega
          rw [if_neg last, go_on]
          cases untilDeclarator? bound [] <;> rfl
        · have last : ¬ i + before.length + 2 < tokens.length := by
            rw [List.length_singleton] at length
            omega
          have unmarked : declaratorMarks.contains (textAt [name] 1) = false := rfl
          rw [if_neg last, go_on, unmarked, Bool.and_false]
          cases untilDeclarator? bound [name] <;> rfl
        · have more : i + before.length + 2 < tokens.length := by
            simp only [List.length_cons] at length
            omega
          have at_name := at_stop.next.get
          have at_mark : tokens[i + before.length + 2]? = some mark := at_stop.next.next.get
          rw [if_pos more, at_name, Option.bind_some, at_mark, Option.bind_some]
          show (if (name.kind == .ident && declaratorMarks.contains mark.text) = true then _ else _) =
            some ((if (name.kind == .ident && declaratorMarks.contains mark.text) = true then _
              else _ : Option (List Token × List Token)).map _)
          split
          · show _ = some (some (tokens.length - ((name :: mark :: rest).length + 1)))
            rw [place]
          · rw [go_on]
            cases untilDeclarator? bound (name :: mark :: rest) <;> rfl

/-- The number of elements up to a position. -/
def countElements? (tokens : List Token) : Nat → Nat → Int → Option Int64
  | 0, _, _ => some 1
  | steps + 1, i, depth => do
    let t ← tokens[i]?
    if t.text == "(" || t.text == "[" || t.text == "\x7b" then
      countElements? tokens steps (i + 1) (depth + 1)
    else if t.text == ")" || t.text == "]" || t.text == "\x7d" then
      countElements? tokens steps (i + 1) (depth - 1)
    else if t.text == "," && depth == 0 && steps != 0 then do
      let n ← countElements? tokens steps (i + 1) depth
      some (1 + n)
    else countElements? tokens steps (i + 1) depth

/-- The number of elements of the list whose opening brace stands at a position. -/
def writtenSize? (tokens : List Token) (start : Nat) : Option Int64 := do
  let close ← match? tokens start
  match close with
  | none => some 0
  | some close =>
    if close == start + 1 then some 0
    else countElements? tokens (close - (start + 1)) (start + 1) 0

/-- The number of elements of a new array, between two positions behind the word `new`. -/
def newSize? (tokens : List Token) (stop : Nat) : Nat → Nat → Option Int64
  | 0, _ => none
  | bound + 1, i =>
    if i + 2 < stop then do
      let open_ ← tokens[i]?
      let number ← tokens[i + 1]?
      let close ← tokens[i + 2]?
      if open_.text == "[" && number.kind == .number && close.text == "]" then
        some (elementCount number.text)
      else if open_.text == "\x7b" then writtenSize? tokens i
      else newSize? tokens stop bound (i + 1)
    else some 0

/-- The number of elements of the initial value between two positions. -/
def arraySize? (tokens : List Token) (start stop : Nat) : Option Int64 :=
  if stop ≤ start then some 0
  else do
    let t ← tokens[start]?
    if t.text == "new" then newSize? tokens stop (stop - start) (start + 1)
    else if t.text == "\x7b" then writtenSize? tokens start
    else some 0

/-- Elements are counted from their positions. -/
theorem countElements?_eq (at_ : At tokens i (run ++ tail)) (depth : Int) :
    countElements? tokens run.length i depth = some (countElements run depth) := by
  induction run generalizing i depth with
  | nil => rfl
  | cons t run ih =>
    have last : (run.length != 0) = !run.isEmpty := by cases run <;> rfl
    rw [List.length_cons, countElements?, At.get at_, countElements, Option.bind_eq_bind,
      Option.bind_some, last]
    have at_next := At.next at_
    split
    · exact ih at_next _
    · split
      · exact ih at_next _
      · split
        · rw [ih at_next]
          rfl
        · exact ih at_next _

/-- The elements of a list are counted up to the partner of its brace, which stands before the end of
the initial value. -/
theorem writtenSize?_eq {depth : Nat} (at_ : At tokens i (opening :: run ++ tail))
    (opens : opening.isOpening = true) (closed : depthBehind (opening :: run) depth = some 0) :
    writtenSize? tokens i = some (writtenSize (opening :: run)) := by
  obtain ⟨inside, close, after, rfl, found, is_match⟩ := exists_match at_ opens closed
  rw [writtenSize?, is_match, writtenSize, found, Option.bind_eq_bind, Option.bind_some]
  simp only
  cases inside with
  | nil => rw [if_pos (by simp)]
  | cons t inside =>
    have some_element : ¬ (i + 1 + (t :: inside).length == i + 1) = true := by
      simp only [List.length_cons, beq_iff_eq]
      omega
    rw [if_neg some_element, Nat.add_sub_cancel_left]
    rw [List.cons_append, List.append_assoc] at at_
    exact countElements?_eq at_.next 0

/-- The size of a new array is found from its positions. -/
theorem newSize?_eq {depth : Nat} (genuine : ∀ t ∈ tokens, t.Genuine)
    (at_ : At tokens i (run ++ tail)) (closed : depthBehind run depth = some 0)
    (left : run.length < bound) : newSize? tokens (i + run.length) bound i = some (newSize run) := by
  induction bound generalizing i run depth with
  | zero => omega
  | succ bound ih =>
    rw [newSize?]
    match run with
    | [] => rw [if_neg (by simp)]; rfl
    | [_] => rw [if_neg (by simp)]; rfl
    | [_, _] => rw [if_neg (by simp)]; rfl
    | open_ :: number :: close :: run =>
      have more : i + 2 < i + (open_ :: number :: close :: run).length := by
        simp only [List.length_cons]
        omega
      have at_number := At.next at_
      have at_close := At.next at_number
      rw [if_pos more, At.get at_, At.get at_number, At.get at_close]
      simp only [Option.bind_eq_bind, Option.bind_some]
      rw [newSize]
      split
      · rfl
      · split
        -- The elements are listed: the brace must be an opening one to have a partner.
        · rename_i brace
          have is_token : open_ ∈ tokens := List.mem_of_getElem? (At.get at_)
          exact writtenSize?_eq at_ ((genuine open_ is_token).opens_of_brace brace) closed
        · have closed : depthBehind ([open_] ++ number :: close :: run) depth = some 0 := closed
          obtain ⟨depth', closed⟩ := exists_depthBehind closed
          have rest := ih at_number closed (by simp only [List.length_cons] at left ⊢; omega)
          rw [← rest]
          congr 1
          simp only [List.length_cons]
          omega

/-- **The size of an initial value** is read from its positions. -/
theorem arraySize?_eq (genuine : ∀ t ∈ tokens, t.Genuine) (at_ : At tokens start (run ++ tail))
    (even : balanced run 0 = true) :
    arraySize? tokens start (start + run.length) = some (initialSize run) := by
  cases run with
  | nil =>
    have empty : start + ([] : List Token).length ≤ start := Nat.le_refl _
    rw [arraySize?, if_pos empty]
    rfl
  | cons t run =>
    have some_token : ¬ start + (t :: run).length ≤ start := by
      rw [List.length_cons]
      omega
    rw [arraySize?, if_neg some_token, At.get at_, initialSize, Option.bind_eq_bind,
      Option.bind_some]
    have closed := balanced_iff.1 even
    split
    · have closed : depthBehind ([t] ++ run) 0 = some 0 := closed
      obtain ⟨depth, closed⟩ := exists_depthBehind closed
      have steps : start + (t :: run).length - start = run.length + 1 := by
        rw [List.length_cons]
        omega
      have rest := newSize?_eq genuine (At.next at_) closed (Nat.lt_succ_self _)
      rw [steps, ← rest]
      congr 1
      rw [List.length_cons]
      omega
    · split
      · rename_i brace
        have is_token : t ∈ tokens := List.mem_of_getElem? (At.get at_)
        exact writtenSize?_eq at_ ((genuine t is_token).opens_of_brace brace) closed
      · rfl

/-! ## Expressions -/

/-- What a call of a print method between two positions prints; `none` inside if there is none. -/
def printedBetween? (src : Source) (tokens : List Token) (start stop : Nat) : Option (Option Text) :=
  if start + 6 ≤ stop then do
    let system ← tokens[start]?
    let dot ← tokens[start + 1]?
    let out ← tokens[start + 2]?
    let dot' ← tokens[start + 3]?
    let method ← tokens[start + 4]?
    let opening ← tokens[start + 5]?
    if system.text == "System" && dot.text == "." && (out.text == "out" || out.text == "err") &&
        dot'.text == "." && method.text.startsWith "print" && opening.text == "(" then do
      let close ← match? tokens (start + 5)
      match close with
      | some close =>
        if close < stop then do
          let text ← textBetween? src tokens (start + 6) close
          some (some text)
        else some none
      | none => some none
    else some none
  else some none

/-- The assignment between two positions, the tokens of which are looked at from another one on. -/
def assignBetween? (src : Source) (tokens : List Token) (start stop : Nat) :
    Nat → Nat → Int → Option (Option Form)
  | 0, _, _ => some none
  | steps + 1, i, depth => do
    let t ← tokens[i]?
    if t.isOpening then assignBetween? src tokens start stop steps (i + 1) (depth + 1)
    else if t.isClosing then assignBetween? src tokens start stop steps (i + 1) (depth - 1)
    else if t.isPunct "->" then some none
    else if t.kind == .punct && depth == 0 && assignments.contains t.text then do
      let target ← textBetween? src tokens start i
      let value ← textBetween? src tokens (i + 1) stop
      some (some (.assign target t.text value))
    else assignBetween? src tokens start stop steps (i + 1) depth

/-- The form of the expression between two positions. -/
def expressionBetween? (src : Source) (tokens : List Token) (start stop : Nat) : Option Form := do
  let text ← textBetween? src tokens start stop
  let printed ← printedBetween? src tokens start stop
  match printed with
  | some text => some (.print text)
  | none => do
    let assigned ← assignBetween? src tokens start stop (stop - start) start 0
    some (assigned.getD (.expr text))

/-- What a statement prints is found from its positions. -/
theorem printedBetween?_eq (genuine : ∀ t ∈ tokens, t.Genuine) (at_ : At tokens start (run ++ tail))
    (even : balanced run 0 = true) (src : Source) :
    printedBetween? src tokens start (start + run.length) = some (printed? src run) := by
  by_cases long : 6 ≤ run.length
  · obtain ⟨system, dot, out, dot', method, opening, run, rfl⟩ : ∃ a b c d e f rest,
        run = a :: b :: c :: d :: e :: f :: rest := by
      match run with
      | a :: b :: c :: d :: e :: f :: rest => exact ⟨a, b, c, d, e, f, rest, rfl⟩
    have at_opening : At tokens (start + 5) (opening :: run ++ tail) :=
      (At.next at_).next.next.next.next
    -- The parentheses are even in all tokens, so the one of the call has a partner among them.
    have closed : depthBehind ([system, dot, out, dot', method] ++ opening :: run) 0 = some 0 :=
      balanced_iff.1 even
    obtain ⟨depth, closed⟩ := exists_depthBehind closed
    rw [printedBetween?, if_pos (Nat.add_le_add_left long start), At.get at_, At.get (At.next at_),
      At.get (At.next at_).next, At.get (At.next at_).next.next,
      At.get (At.next at_).next.next.next, At.get at_opening, printed?]
    simp only [Option.bind_eq_bind, Option.bind_some]
    show (if (system.text == "System" && dot.text == "." && (out.text == "out" || out.text == "err") &&
        dot'.text == "." && method.text.startsWith "print" && opening.text == "(") = true then _
      else _) = some (if (system.text == "System" && dot.text == "." &&
        (out.text == "out" || out.text == "err") && dot'.text == "." &&
        method.text.startsWith "print" && opening.text == "(") = true then _ else _)
    split
    · rename_i prints
      have paren : (opening.text == "(") = true := (Bool.and_eq_true_iff.1 prints).2
      have opens := (genuine opening (List.mem_of_getElem? at_opening.get)).opens_of_paren paren
      obtain ⟨inside, close, after, rfl, found, is_match⟩ := exists_match at_opening opens closed
      have within : start + 5 + 1 + inside.length <
          start + (system :: dot :: out :: dot' :: method :: opening ::
            (inside ++ close :: after)).length := by
        simp only [List.length_cons, List.length_append]
        omega
      have at_inside : At tokens (start + 6) (inside ++ (close :: (after ++ tail))) := by
        rw [List.cons_append, List.append_assoc] at at_opening
        exact at_opening.next
      rw [is_match, Option.bind_some]
      simp only
      rw [if_pos within, textBetween?_eq at_inside]
      show _ = some ((enclosed? (opening :: (inside ++ close :: after))).map _)
      rw [found]
      rfl
    · rfl
  -- With fewer than six tokens there is no opening parenthesis at the sixth.
  · have short : ¬ start + 6 ≤ start + run.length := by omega
    have missing : textAt run 5 = [] := by
      rw [textAt, List.getElem?_eq_none (by omega)]
      rfl
    have no_paren : (([] : Text) == "(") = false := rfl
    rw [printedBetween?, if_neg short, printed?, missing, no_paren, Bool.and_false]
    rfl

/-- An assignment is divided from its positions, whatever part of the target was passed. -/
theorem assignBetween?_eq {done : List Token} (at_ : At tokens start (done.reverse ++ (run ++ tail)))
    (ends : stop = start + done.length + run.length) (depth : Int) (src : Source) :
    assignBetween? src tokens start stop run.length (start + done.length) depth =
      some ((splitAssign? run depth done).map fun divided =>
        .assign (src.text divided.1) divided.2.1.text (src.text divided.2.2)) := by
  induction run generalizing done depth with
  | nil => rfl
  | cons t run ih =>
    -- The tokens already passed are kept in `done`, so that the target can be taken from the start.
    have at_t := at_.append
    have target := textBetween?_eq at_ src
    rw [List.length_reverse] at at_t target
    have value := textBetween?_eq (At.next at_t) src
    have behind : start + done.length + 1 + run.length = stop := by
      rw [ends, List.length_cons]
      omega
    rw [behind] at value
    have split : done.reverse ++ (t :: run ++ tail) = (t :: done).reverse ++ (run ++ tail) := by simp
    rw [split] at at_
    have go_on (depth : Int) := ih at_ (by rw [← behind, List.length_cons]; omega) depth
    rw [List.length_cons, assignBetween?, At.get at_t, splitAssign?, Option.bind_eq_bind,
      Option.bind_some]
    split
    · exact go_on _
    · split
      · exact go_on _
      · split
        · rfl
        · split
          · rw [target, value]
            rfl
          · exact go_on _

/-- **An expression** is read from its positions. -/
theorem expressionBetween?_eq (genuine : ∀ t ∈ tokens, t.Genuine)
    (at_ : At tokens start (run ++ tail)) (even : balanced run 0 = true) (src : Source) :
    expressionBetween? src tokens start (start + run.length) = some (expressionForm src run) := by
  have steps : start + run.length - start = run.length := Nat.add_sub_cancel_left ..
  have assigned := @assignBetween?_eq tokens run tail start (start + run.length) [] at_ rfl 0 src
  rw [expressionBetween?, textBetween?_eq at_, printedBetween?_eq genuine at_ even, steps,
    expressionForm, Option.bind_eq_bind, Option.bind_some, Option.bind_eq_bind, Option.bind_some]
  cases printed? src run with
  | some text => rfl
  | none =>
    rw [List.length_nil, Nat.add_zero] at assigned
    show (assignBetween? src tokens start (start + run.length) run.length start 0).bind _ = _
    rw [assigned]
    cases splitAssign? run 0 [] <;> rfl

/-! ## Parsing ends -/

/-- Fewer tokens are left behind a reader than before it: it has gone **forward**. -/
def Forward (here there : List Token) : Prop := there <:+ here ∧ there.length < here.length

/-- A reader that advances goes forward. -/
theorem Advances.forward {there : List Token} (advances : Advances here there) : Forward here there :=
  ⟨advances.passes.suffix, advances.shorter⟩

/-- **Readers go forward**: each reader that succeeds at this place leaves fewer tokens. -/
structure GoesForward (src : Source) (here : List Token) : Prop where
  /-- Statements. -/
  statement : ∀ {bound : Nat} {found : Option Statement} {there : List Token},
    readStatement src bound here = .ok (found, there) → Forward here there
  /-- Members. -/
  member : ∀ {bound : Nat} {topLevel : Bool} {found : Option Statement} {there : List Token},
    readMember src bound topLevel here = .ok (found, there) → Forward here there
  /-- Blocks. -/
  block : ∀ {bound : Nat} {statements : List Statement} {there : List Token},
    readBlock src bound here = .ok (statements, there) → Forward here there
  /-- Classes. -/
  classDecl : ∀ {bound : Nat} {s : Statement} {there : List Token},
    readClass src bound here = .ok (s, there) → Forward here there
  /-- Methods. -/
  method : ∀ {bound : Nat} {s : Statement} {there : List Token},
    readMethod src bound here = .ok (s, there) → Forward here there
  /-- Loops, behind their word. -/
  loop : ∀ {bound line : Nat} {found : Option Statement} {there : List Token},
    readFor src bound line here = .ok (found, there) → Forward here there
  /-- Attempts, behind their word. -/
  attempt : ∀ {bound line : Nat} {found : Option Statement} {there : List Token},
    readTry src bound line here = .ok (found, there) → Forward here there
  /-- Choices, behind their word. -/
  choice : ∀ {bound : Nat} {subject behind inside : List Token} {statements : List Statement}
    {there : List Token}, readParens src "switch" here = .ok (subject, behind) →
    expect src "\x7b" behind = .ok inside → readCases src bound inside [] = .ok (statements, there) →
    Forward here there

/-- All readers go forward. -/
theorem goesForward (src : Source) (here : List Token) : GoesForward src here where
  statement read := ((advancing src _).statement read).forward
  member read := ((advancing src _).member read).forward
  block read := ((advancing src _).block read).forward
  classDecl read := readClass_shorter read
  method read := readMethod_shorter read
  loop read := ((advancing src _).loop read).forward
  attempt read := ((advancing src _).attempt read).forward
  choice parens expected choices := by
    obtain ⟨opening, rfl, opens⟩ := expect_eq_ok expected
    exact ((advances_readParens parens).trans
      (((advancing src _).choices choices).body opens).passes).forward

/-- **Loops end**: a loop that passes over words at this place ends by itself, so that no bound makes
a difference that is as large as the number of tokens that are left. -/
structure LoopsEnd (here : List Token) : Prop where
  /-- Annotations. -/
  annotations : ∀ bound, here.length ≤ bound →
    skipAnnotations bound here = skipAnnotations here.length here
  /-- Modifiers. -/
  modifiers : ∀ bound, here.length < bound →
    skipModifiers bound here = skipModifiers (here.length + 1) here
  /-- The modifiers of a local variable. -/
  localModifiers : ∀ bound, here.length < bound →
    skipLocalModifiers bound here = skipLocalModifiers (here.length + 1) here

/-- All loops over words end. -/
theorem loopsEnd (here : List Token) : LoopsEnd here where
  annotations _ left := skipAnnotations_bound left (Nat.le_refl _)
  modifiers _ left := skipModifiers_bound left (Nat.lt_succ_self _)
  localModifiers _ left := skipLocalModifiers_bound left (Nat.lt_succ_self _)

/-- **Every token is there** that is asked for by its position, and no loop over positions takes more
steps than there are positions: what is written with positions comes to what the readers take from
the lists of tokens at those positions. -/
structure InRange (src : Source) (tokens : List Token) : Prop where
  /-- Every bracket that is opened has a partner. -/
  partner : ∀ {i : Nat} {opening : Token} {here : List Token}, At tokens i (opening :: here) →
    opening.isOpening = true → ∃ close, match? tokens i = some (some close) ∧ i < close ∧
      close < tokens.length
  /-- Constructors. -/
  constructor : ∀ {i : Nat} {here : List Token}, At tokens i here →
    constructor? tokens i = some (atConstructor here)
  /-- Texts. -/
  text : ∀ {i : Nat} {part rest : List Token}, At tokens i (part ++ rest) →
    textBetween? src tokens i (i + part.length) = some (src.text part)
  /-- The annotations of a parameter: the loop ends. -/
  annotations : ∀ {i : Nat} {part rest : List Token}, At tokens i (part ++ rest) →
    balanced part 0 = true → ∃ passed, passed <+: part ∧
      skipParam? tokens (i + part.length) (part.length + 1) i = some (i + passed.length)
  /-- Parameters. -/
  param : ∀ {i : Nat} {part rest : List Token}, At tokens i (part ++ rest) →
    balanced part 0 = true → param? src tokens i (i + part.length) = some (readParam? src part)
  /-- The parameters of a method or a handler. -/
  params : ∀ {i : Nat} {opening : Token} {here inside rest : List Token},
    At tokens i (opening :: here) → enclosed? (opening :: here) = some (inside, rest) →
    params? src tokens (i + 1) (i + 1 + inside.length) = some (readParams src inside)
  /-- The ends of initial values. -/
  declaratorEnd : ∀ {i : Nat} {here : List Token}, At tokens i here →
    declaratorEnd? tokens (here.length + 1) i =
      some ((untilDeclarator? (here.length + 1) here).map fun divided => i + divided.1.length)
  /-- The sizes of initial values. -/
  arraySize : ∀ {i : Nat} {here init rest : List Token}, At tokens i here →
    untilDeclarator? (here.length + 1) here = some (init, rest) →
    arraySize? tokens i (i + init.length) = some (initialSize init)
  /-- Expressions. -/
  expression : ∀ {i : Nat} {here inside rest : List Token}, At tokens i here →
    readToSemicolon src here = .ok (inside, rest) →
    expressionBetween? src tokens i (i + inside.length) = some (expressionForm src inside)

/-- Brackets that are paired are balanced. -/
theorem balanced_of_tokenPairs {pairs : List (Nat × Nat)} (all : tokenPairs? tokens [] = some pairs) :
    balanced tokens 0 = true := by
  rw [← List.append_nil tokens] at all
  obtain ⟨left, later, reached, none_left, -⟩ := tokenPairs_append all
  cases left with
  | nil => exact balanced_iff.2 (depthBehind_of_openBehind reached)
  | cons _ _ => cases none_left

/-- Every token that is asked for by its position is there. -/
theorem inRange {pairs : List (Nat × Nat)} (genuine : ∀ t ∈ tokens, t.Genuine)
    (all : tokenPairs? tokens [] = some pairs) (src : Source) : InRange src tokens where
  partner := by
    intro i opening here at_ opens
    -- Brackets are even over all tokens, so the opening one has a partner behind it.
    have even := balanced_iff.1 (balanced_of_tokenPairs all)
    rw [← List.take_append_drop i tokens, at_.drop] at even
    obtain ⟨depth, closed⟩ := exists_depthBehind even
    have length := at_.length
    rw [← List.append_nil (opening :: here)] at at_
    obtain ⟨inside, close, after, rfl, -, is_match⟩ := exists_match at_ opens closed
    simp only [List.length_cons, List.length_append] at length
    exact ⟨_, is_match, by omega, by omega⟩
  constructor at_ := constructor?_eq genuine at_
  text at_ := textBetween?_eq at_ src
  annotations at_ even := by
    obtain ⟨passed, more, rfl, -, found⟩ := skipParam?_eq genuine at_ (balanced_iff.1 even)
      (Nat.lt_succ_self _)
    exact ⟨passed, List.prefix_append passed more, found⟩
  param at_ even := param?_eq genuine at_ even src
  params := by
    intro i opening here inside rest at_ found
    obtain ⟨close, rfl, -, even⟩ := enclosed?_eq_some found
    exact params?_eq genuine at_.next even src
  declaratorEnd := by
    intro i here at_
    rw [declaratorEnd?_eq at_ (Nat.lt_succ_self _)]
    cases found : untilDeclarator? (here.length + 1) here with
    | none => rfl
    | some divided =>
      obtain ⟨init, rest⟩ := divided
      obtain ⟨same, -⟩ := untilDeclarator?_eq_some found
      have length := at_.length
      rw [same, List.length_append] at length
      show some (some (tokens.length - rest.length)) = some (some (i + init.length))
      rw [← length, ← Nat.add_assoc, Nat.add_sub_cancel]
  arraySize := by
    intro i here init rest at_ found
    obtain ⟨rfl, even⟩ := untilDeclarator?_eq_some found
    exact arraySize?_eq genuine at_ even
  expression := by
    intro i here inside rest at_ read
    rw [readToSemicolon] at read
    split at read
    · rename_i found
      cases read
      obtain ⟨rfl, -, even⟩ := until?_eq_some found
      exact expressionBetween?_eq genuine at_ even src
    · cases read

/-- **Parsing ends**, with a program or with a fault of the source: no reader runs out of the calls it
may make. In a source whose brackets have partners, every reader that succeeds leaves fewer tokens
than it found; the loops over annotations and modifiers end by themselves; and every token that is
asked for by its position is there. -/
theorem parsing_ends (source : Text) :
    ((∃ p, Program.parse source = .ok p) ∨
      ∃ e, Program.parse source = .error e ∧ e.fault ≠ .exhausted) ∧
    ∀ code tokens, Braced.blankComments source = .ok code → Braced.checkBrackets code = .ok () →
      tokenize code = .ok tokens →
      (∀ here, here <:+ tokens → GoesForward (sourceOf code tokens) here ∧ LoopsEnd here) ∧
      InRange (sourceOf code tokens) tokens := by
  constructor
  · cases parsed : Program.parse source with
    | ok p => exact Or.inl ⟨p, rfl⟩
    | error e => exact Or.inr ⟨e, rfl, parse_finishes source e parsed⟩
  · intro code tokens _ checked tokenized
    obtain ⟨pairs, paired⟩ := Option.isSome_iff_exists.1 (Braced.checkBrackets_eq_ok.1 checked)
    exact ⟨fun here _ => ⟨goesForward _ here, loopsEnd here⟩,
      inRange (genuine_tokenize tokenized) ((tokenPairs_tokenize tokenized).trans paired) _⟩

/-- The source `void f(@A(1) int x) { }`. -/
def annotatedSource : Text := "void f(@A(1) int x) \x7b \x7d"

/-- The tokens of its list of parameters. -/
def annotatedParams : List Token :=
  [lineToken .punct "@" 7, lineToken .ident "A" 8, lineToken .punct "(" 9, lineToken .number "1" 10,
    lineToken .punct ")" 11, lineToken .ident "int" 13, lineToken .ident "x" 17]

/-- Its tokens. -/
def annotatedTokens : List Token :=
  lineToken .ident "void" 0 :: lineToken .ident "f" 5 :: lineToken .punct "(" 6 ::
    (annotatedParams ++ [lineToken .punct ")" 18, lineToken .punct "\x7b" 20,
      lineToken .punct "\x7d" 22])

set_option maxRecDepth 10000 in
/-- A parameter with an annotation that has arguments is read from its positions, and the reader of
blocks goes forward. -/
theorem annotated_parsing_ends :
    tokenize annotatedSource = .ok annotatedTokens ∧
    params? (sourceOf annotatedSource annotatedTokens) annotatedTokens 3 10 =
      some [⟨"int", "int", "x", false, [], 0⟩] ∧
    (∃ start, skipParam? annotatedTokens 10 8 3 = some start) ∧
    Forward (annotatedTokens.drop 11) [] := by
  have tokenized : tokenize annotatedSource = .ok annotatedTokens := rfl
  obtain ⟨forward, in_range⟩ :=
    (parsing_ends annotatedSource).2 annotatedSource annotatedTokens rfl rfl tokenized
  have at_params : At annotatedTokens 2 (annotatedTokens.drop 2) := ⟨rfl, rfl⟩
  have params := in_range.params at_params rfl
  have at_first : At annotatedTokens 3 (annotatedParams ++ annotatedTokens.drop 10) := ⟨rfl, rfl⟩
  obtain ⟨passed, -, loop⟩ := in_range.annotations at_first (by decide)
  have block : readBlock (sourceOf annotatedSource annotatedTokens) 2 (annotatedTokens.drop 11) =
      .ok ([], []) := rfl
  exact ⟨tokenized, params, ⟨_, loop⟩, (forward _ (List.drop_suffix 11 annotatedTokens)).1.block block⟩

end FlowTrace.Java
