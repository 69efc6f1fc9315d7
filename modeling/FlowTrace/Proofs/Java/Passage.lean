import FlowTrace.Java.Program
import FlowTrace.Proofs.Attempt
import FlowTrace.Proofs.Java.Partner
import FlowTrace.Proofs.Java.Tokens

/-! # Passing over tokens

A reader **passes** from its place to the place behind what it has read (`Passes`). What it passes
over leaves the braces that are open as they are: single tokens that are no braces, pairs of brackets
with all that is between them, and whole bodies. The one exception is the token behind the mark of an
annotation, which is passed over whatever it is; so nothing is said of tokens in which a brace stands
there (`Sound`). The parts of the grammar below statements are passed over in this way. -/

namespace FlowTrace.Java

variable {src : Source} {t opening close mark : Token} {text : Text}
  {here there behind rest run inside open_ after : List Token}

/-! ## Open brackets -/

/-- The brackets that are open behind some tokens, innermost first, when `open_` are open before
them; `none` if a bracket is closed by another than its own. -/
def openBehind : List Token → List Token → Option (List Token)
  | [], open_ => some open_
  | t :: rest, open_ =>
    if t.isOpening then openBehind rest (t :: open_)
    else if t.isClosing then
      match open_ with
      | [] => none
      | bracket :: outer => if t.closes bracket then openBehind rest outer else none
    else openBehind rest open_

/-- The brackets that are open behind one more token. -/
theorem openBehind_cons (t : Token) (rest open_ : List Token) :
    openBehind (t :: rest) open_ =
      if t.isOpening then openBehind rest (t :: open_)
      else if t.isClosing then
        match open_ with
        | [] => none
        | bracket :: outer => if t.closes bracket then openBehind rest outer else none
      else openBehind rest open_ := by
  cases open_ <;> rfl

/-- The brackets that are open behind some tokens are those behind the rest of them. -/
theorem openBehind_append (run rest open_ : List Token) :
    openBehind (run ++ rest) open_ = (openBehind run open_).bind (openBehind rest) := by
  induction run generalizing open_ with
  | nil => rfl
  | cons t run ih =>
    rw [List.cons_append, openBehind_cons, openBehind_cons]
    split
    · exact ih _
    · split
      · cases open_ with
        | nil => rfl
        | cons bracket outer =>
          show (if t.closes bracket then openBehind (run ++ rest) outer else none) =
            (if t.closes bracket then openBehind run outer else none).bind (openBehind rest)
          split
          · exact ih _
          · rfl
      · exact ih _

/-- Among the brackets that are open behind some tokens are those before them that the tokens do not
reach by their number. -/
theorem exists_openBehind {top : List Token} {depth : Nat}
    (reach : depthBehind run top.length = some depth)
    (behind : openBehind run (top ++ open_) = some after) :
    ∃ top', top'.length = depth ∧ after = top' ++ open_ := by
  -- Brackets below those that the run has opened itself are never closed by it.
  induction run generalizing top with
  | nil =>
    cases reach
    cases behind
    exact ⟨top, rfl, rfl⟩
  | cons t run ih =>
    rw [depthBehind_cons] at reach
    rw [openBehind_cons] at behind
    split at reach
    · rename_i opens
      rw [if_pos opens] at behind
      exact @ih (t :: top) reach behind
    · rename_i opens
      rw [if_neg opens] at behind
      split at reach
      · rename_i closes
        rw [if_pos closes] at behind
        cases top with
        | nil => cases reach
        | cons bracket top =>
          simp only [List.cons_append] at behind
          split at behind
          · exact ih reach behind
          · cases behind
      · rename_i closes
        rw [if_neg closes] at behind
        exact ih reach behind

/-- **Balanced tokens** leave the open brackets as they are. -/
theorem openBehind_of_balanced (even : balanced run 0 = true)
    (behind : openBehind run open_ = some after) : after = open_ := by
  obtain ⟨top, length, same⟩ := @exists_openBehind run open_ after [] 0 (balanced_iff.1 even) behind
  rw [same, List.length_eq_zero_iff.1 length, List.nil_append]

/-- What leaves no bracket open is balanced. -/
theorem depthBehind_of_openBehind (behind : openBehind run open_ = some after) :
    depthBehind run open_.length = some after.length := by
  induction run generalizing open_ with
  | nil =>
    cases behind
    rfl
  | cons t run ih =>
    rw [openBehind_cons] at behind
    rw [depthBehind_cons]
    split
    · rename_i opens
      rw [if_pos opens] at behind
      exact ih behind
    · rename_i opens
      rw [if_neg opens] at behind
      split
      · rename_i closes
        rw [if_pos closes] at behind
        cases open_ with
        | nil => cases behind
        | cons bracket outer =>
          simp only at behind
          split at behind
          · exact ih behind
          · cases behind
      · rename_i closes
        rw [if_neg closes] at behind
        exact ih behind

/-! ## Open braces -/

/-- The braces among open brackets. -/
def braces (open_ : List Token) : List Token := open_.filter (·.text == "\x7b")

/-- Tokens **keep** the open braces when the same ones are open behind them as before. -/
def Keeps (run : List Token) : Prop :=
  ∀ open_ after, openBehind run open_ = some after → braces after = braces open_

/-- Whether a token is a brace. -/
def Token.isBrace (t : Token) : Bool := t.isPunct "\x7b" || t.isPunct "\x7d"

/-- What is written in another way is no brace. -/
theorem Token.isBrace_eq_false (other : (text == "\x7b" || text == "\x7d") = false)
    (same : t.text = text) : t.isBrace = false := by
  rw [Bool.or_eq_false_iff] at other
  rw [Token.isBrace, Token.isPunct, Token.isPunct, same, other.1, other.2, Bool.and_false,
    Bool.or_false]

/-- A name is no brace. -/
theorem Token.isBrace_of_ident (ident : t.kind = .ident) : t.isBrace = false := by
  rw [Token.isBrace, Token.isPunct, Token.isPunct, ident]
  rfl

/-- The text of the next token. -/
theorem text_of_next (here : next (t :: rest) text = true) : t.text = text := by
  simp only [next, Bool.and_eq_true, beq_iff_eq] at here
  exact here.2

namespace Keeps

/-- No tokens keep the open braces. -/
theorem nil : Keeps [] := by
  rintro open_ after ⟨⟩
  rfl

/-- Tokens that keep the open braces do so together. -/
theorem append (first : Keeps run) (second : Keeps rest) : Keeps (run ++ rest) := by
  intro open_ after reached
  rw [openBehind_append] at reached
  obtain ⟨between, once, later⟩ := Option.bind_eq_some_iff.1 reached
  rw [second _ _ later, first _ _ once]

/-- Balanced tokens keep the open braces. -/
theorem balanced (even : balanced run 0 = true) : Keeps run := fun _ _ reached => by
  rw [openBehind_of_balanced even reached]

/-- A token that is no brace. -/
theorem single (plain : t.isBrace = false) : Keeps [t] := by
  intro open_ after reached
  simp only [Token.isBrace, Token.isPunct, Bool.or_eq_false_iff] at plain
  rw [openBehind_cons] at reached
  split at reached
  · rename_i opens
    have other : (t.text == "\x7b") = false := by
      rw [Token.isOpening, Bool.and_eq_true] at opens
      simpa [opens.1] using plain.1
    cases reached
    rw [braces, List.filter_cons, other, if_neg Bool.false_ne_true]
    rfl
  · split at reached
    · rename_i closes
      cases open_ with
      | nil => cases reached
      | cons bracket outer =>
        simp only at reached
        split at reached
        · rename_i belongs
          cases reached
          -- The bracket that is closed is no brace either.
          have other : (bracket.text == "\x7b") = false := by
            rw [Token.isClosing, Bool.and_eq_true, Bool.or_eq_true, Bool.or_eq_true] at closes
            obtain ⟨punct, (same | same) | same⟩ := closes
            · rw [beq_iff_eq.1 belongs, beq_iff_eq.1 same]
              decide
            · rw [beq_iff_eq.1 belongs, beq_iff_eq.1 same]
              decide
            · rw [punct, same] at plain
              cases plain.2
          rw [braces, braces, List.filter_cons, other, if_neg Bool.false_ne_true]
        · cases reached
    · cases reached
      rfl

/-- Behind a body, its brace is closed again. -/
theorem closed (closes : close.isPunct "\x7d" = true) (kept : braces open_ = opening :: braces rest)
    (reached : openBehind [close] open_ = some after) :
    ∃ outer, open_ = opening :: outer ∧ after = outer ∧ braces after = braces rest := by
  have is_closing : close.isOpening = false ∧ close.isClosing = true ∧
      close.text.map Braced.partner = "\x7b" := by
    simp only [Token.isPunct, Bool.and_eq_true, beq_iff_eq] at closes
    rw [Token.isOpening, Token.isClosing, closes.1, closes.2]
    decide
  rw [openBehind_cons, if_neg (by rw [is_closing.1]; simp), if_pos is_closing.2.1] at reached
  cases open_ with
  | nil => cases reached
  | cons bracket outer =>
    simp only at reached
    split at reached
    · rename_i belongs
      have is_brace : (bracket.text == "\x7b") = true := by
        rw [Token.closes, is_closing.2.2] at belongs
        exact belongs
      cases reached
      rw [braces, List.filter_cons, if_pos is_brace, List.cons.injEq] at kept
      exact ⟨after, by rw [kept.1], rfl, kept.2⟩
    · cases reached

/-- **A body** between its braces. -/
theorem body (opens : opening.isPunct "\x7b" = true) (closes : close.isPunct "\x7d" = true)
    (kept : Keeps inside) : Keeps (opening :: (inside ++ [close])) := by
  intro open_ after reached
  have is_opening : opening.isOpening = true ∧ (opening.text == "\x7b") = true := by
    simp only [Token.isPunct, Bool.and_eq_true, beq_iff_eq] at opens
    rw [Token.isOpening, opens.1, opens.2]
    decide
  rw [openBehind_cons, if_pos is_opening.1, openBehind_append] at reached
  obtain ⟨between, once, later⟩ := Option.bind_eq_some_iff.1 reached
  have kept := kept _ _ once
  rw [braces, braces, List.filter_cons, if_pos is_opening.2] at kept
  obtain ⟨outer, -, -, same⟩ := closed closes kept later
  exact same

end Keeps

/-! ## Passages -/

/-- **Names of annotations**: no brace stands behind the mark of one. -/
def Named (tokens : List Token) : Prop :=
  ∀ before mark t after, tokens = before ++ mark :: t :: after → mark.isPunct "@" = true →
    t.isBrace = false

/-- Tokens are **sound** when they are genuine and annotations have names. -/
structure Sound (tokens : List Token) : Prop where
  /-- They are as they are made. -/
  genuine : ∀ t ∈ tokens, t.Genuine
  /-- Annotations have names. -/
  named : Named tokens

/-- The tokens behind sound ones are sound. -/
theorem Sound.of_append (sound : Sound (run ++ rest)) : Sound rest where
  genuine t member := sound.genuine t (List.mem_append_right _ member)
  named before mark t after same := by
    subst same
    exact sound.named (run ++ before) mark t after (List.append_assoc ..).symm

/-- The tokens behind the first of sound ones are sound. -/
theorem Sound.of_cons (sound : Sound (t :: rest)) : Sound rest :=
  @Sound.of_append rest [t] sound

/-- A reader **passes** from its place to another one: it passes over a run of tokens, which keeps
the open braces if the tokens are sound. -/
def Passes (here there : List Token) : Prop :=
  ∃ run, here = run ++ there ∧ (Sound here → Keeps run)

namespace Passes

/-- A reader may stay where it is. -/
theorem refl (here : List Token) : Passes here here := ⟨[], rfl, fun _ => .nil⟩

/-- Two readers pass over tokens one after the other. -/
theorem trans (first : Passes here there) (second : Passes there behind) : Passes here behind := by
  obtain ⟨run, rfl, kept⟩ := first
  obtain ⟨rest, rfl, kept'⟩ := second
  exact ⟨run ++ rest, (List.append_assoc ..).symm, fun sound =>
    (kept sound).append (kept' sound.of_append)⟩

/-- A reader goes on with tokens that it has not passed over. -/
theorem suffix (passes : Passes here there) : there <:+ here := by
  obtain ⟨run, rfl, -⟩ := passes
  exact List.suffix_append run there

/-- No more tokens are left than there were. -/
theorem length_le (passes : Passes here there) : there.length ≤ here.length :=
  passes.suffix.length_le

/-- Sound tokens stay sound behind what is passed over. -/
theorem sound (passes : Passes here there) (sound : Sound here) : Sound there := by
  obtain ⟨run, rfl, -⟩ := passes
  exact sound.of_append

/-- Balanced tokens. -/
theorem balanced (even : Java.balanced run 0 = true) (rest : List Token) :
    Passes (run ++ rest) rest := ⟨run, rfl, fun _ => .balanced even⟩

/-- A token that is no brace. -/
theorem token (plain : t.isBrace = false) (rest : List Token) : Passes (t :: rest) rest :=
  ⟨[t], rfl, fun _ => .single plain⟩

/-- The mark of an annotation, and its name. -/
theorem marked (is_mark : mark.text = "@") (t : Token) (rest : List Token) :
    Passes (mark :: t :: rest) rest := by
  refine ⟨[mark, t], rfl, fun sound => ?_⟩
  have plain : mark.isBrace = false := Token.isBrace_eq_false (by decide) is_mark
  have punct := (sound.genuine mark List.mem_cons_self).isPunct (by decide) is_mark
  have named : t.isBrace = false := sound.named [] mark t rest rfl punct
  exact (Keeps.single plain).append (.single named)

/-- Parentheses, with all that is between them. -/
theorem parens (opens : opening.text = "(")
    (found : enclosed? (opening :: here) = some (inside, rest)) : Passes (opening :: here) rest := by
  obtain ⟨close, rfl, closes, even⟩ := enclosed?_eq_some found
  refine ⟨opening :: (inside ++ [close]), by simp, fun sound => ?_⟩
  have is_opening : opening.isOpening = true := by
    have punct := (sound.genuine opening List.mem_cons_self).isPunct (by decide) opens
    rw [Token.isPunct, Bool.and_eq_true, beq_iff_eq, beq_iff_eq] at punct
    rw [Token.isOpening, punct.1, punct.2]
    decide
  exact .balanced (balanced_pair is_opening closes even)

/-- Tokens up to a stop. -/
theorem upTo {stops : List Text} {stop : Token}
    (found : until? stops here = some (inside, stop, rest)) : Passes here (stop :: rest) := by
  obtain ⟨rfl, -, even⟩ := until?_eq_some found
  exact balanced even _

/-- Tokens up to a stop that is no brace, and the stop. -/
theorem overStop {stops : List Text} {stop : Token}
    (plain : ∀ text ∈ stops, (text == "\x7b" || text == "\x7d") = false)
    (found : until? stops here = some (inside, stop, rest)) : Passes here rest := by
  obtain ⟨-, stops_here, -⟩ := until?_eq_some found
  rw [isStop, Bool.and_eq_true, List.contains_iff_mem] at stops_here
  exact (upTo found).trans (token (Token.isBrace_eq_false (plain _ stops_here.2) rfl) rest)

end Passes

/-! ## Annotations and modifiers -/

/-- The rest of a dotted name is passed over. -/
theorem passes_skipDotted (part : Text) : ∀ here : List Token, Passes here (skipDotted part here).2
  | [] => .refl _
  | [_] => .refl _
  | dot :: name :: rest => by
    rw [skipDotted]
    split
    · rename_i goes_on
      rw [Bool.and_eq_true, beq_iff_eq] at goes_on
      exact (Passes.token (Token.isBrace_eq_false (by decide) (text_of_next goes_on.1)) _).trans
        ((Passes.token (Token.isBrace_of_ident goes_on.2) _).trans (passes_skipDotted _ rest))
    · exact .refl _

/-- The arguments of an annotation are passed over. -/
theorem passes_skipArguments (here : List Token) : Passes here (skipArguments here) := by
  rw [skipArguments]
  split
  · rename_i opens
    cases here with
    | nil => cases opens
    | cons opening here =>
      split
      · rename_i found
        exact .parens (text_of_next opens) found
      · exact .refl _
  · exact .refl _

/-- The mark of an annotation and the token behind it, if there is one. -/
theorem passes_mark (is_mark : next here "@" = true) : Passes here (here.drop 2) := by
  match here with
  | [] => exact .refl _
  | [mark] => exact .token (Token.isBrace_eq_false (by decide) (text_of_next is_mark)) []
  | mark :: t :: rest => exact .marked (text_of_next is_mark) t rest

/-- Annotations are passed over. -/
theorem passes_skipAnnotations (bound : Nat) (here : List Token) :
    Passes here (skipAnnotations bound here) := by
  induction bound generalizing here with
  | zero => exact .refl _
  | succ bound ih =>
    by_cases marked : atAnnotation here = true
    · rw [skipAnnotations_succ marked]
      rw [ atAnnotation, Bool.and_eq_true] at marked
      exact (passes_mark marked.1).trans ((passes_skipDotted _ _).trans
        ((passes_skipArguments _).trans (ih _)))
    · rw [skipAnnotations, if_neg marked]
      exact .refl _

/-- The next token, when it is a word that is no brace. -/
theorem passes_word (is_word : next here text = true)
    (other : (text == "\x7b" || text == "\x7d") = false) : Passes here (here.drop 1) := by
  cases here with
  | nil => cases is_word
  | cons t rest => exact .token (Token.isBrace_eq_false other (text_of_next is_word)) rest

/-- Modifiers are passed over. -/
theorem passes_skipModifiers (bound : Nat) (here : List Token) :
    Passes here (skipModifiers bound here) := by
  induction bound generalizing here with
  | zero => exact .refl _
  | succ bound ih =>
    have beyond := passes_skipAnnotations here.length here
    rw [skipModifiers]
    simp only
    split
    · rename_i t rest found
      rw [found] at beyond
      split
      · rename_i modifies
        simp only [Bool.and_eq_true, beq_iff_eq] at modifies
        exact beyond.trans ((Passes.token (Token.isBrace_of_ident modifies.1.1.1.1) _).trans (ih _))
      · rw [found]
        exact beyond
    · rename_i found
      rwa [found] at beyond

/-- The modifiers of a local variable are passed over. -/
theorem passes_skipLocalModifiers (bound : Nat) (here : List Token) :
    Passes here (skipLocalModifiers bound here) := by
  induction bound generalizing here with
  | zero => exact .refl _
  | succ bound ih =>
    rw [skipLocalModifiers]
    split
    · rename_i final
      exact (passes_word final (by decide)).trans (ih _)
    · split
      · exact (passes_skipAnnotations _ _).trans (ih _)
      · exact .refl _

/-! ## Types -/

/-- Type arguments are passed over. -/
theorem passes_skipAngles? {depth : Nat} (found : skipAngles? here depth = some there) :
    Passes here there := by
  induction here generalizing depth with
  | nil => cases found
  | cons t here ih =>
    rw [skipAngles?] at found
    split at found
    · rename_i opens
      exact (Passes.token (Token.isBrace_eq_false (by decide) (beq_iff_eq.1 opens)) _).trans (ih found)
    · split at found
      · rename_i closes
        have beyond := Passes.token (t := t)
          (Token.isBrace_eq_false (by decide) (beq_iff_eq.1 closes)) here
        split at found
        · cases found
          exact beyond
        · exact beyond.trans (ih found)
      · split at found
        · cases found
        · rename_i free
          have other : (t.text == "\x7b" || t.text == "\x7d") = false := by
            simp only [angleStops, List.contains_cons, Bool.or_eq_true, not_or] at free
            rw [Bool.or_eq_false_iff, Bool.eq_false_iff, Bool.eq_false_iff]
            exact ⟨free.2.1, free.2.2.1⟩
          exact (Passes.token (Token.isBrace_eq_false other rfl) _).trans (ih found)

/-- The brackets of an array type are passed over. -/
theorem passes_skipDims : ∀ here : List Token, Passes here (skipDims here).2
  | [] => .refl _
  | [_] => .refl _
  | open_ :: close :: rest => by
    rw [skipDims]
    split
    · rename_i goes_on
      rw [Bool.and_eq_true, beq_iff_eq] at goes_on
      exact (Passes.token (Token.isBrace_eq_false (by decide) (text_of_next goes_on.1)) _).trans
        ((Passes.token (Token.isBrace_eq_false (by decide) goes_on.2) _).trans (passes_skipDims rest))
    · exact .refl _

/-- A reader **advances** when it passes over a token. -/
structure Advances (here there : List Token) : Prop where
  /-- It passes. -/
  passes : Passes here there
  /-- Fewer tokens are left. -/
  shorter : there.length < here.length

namespace Advances

/-- Two readers advance one after the other. -/
theorem trans (first : Advances here there) (second : Passes there behind) :
    Advances here behind :=
  ⟨first.passes.trans second, Nat.lt_of_le_of_lt second.length_le first.shorter⟩

/-- A reader advances when it does so behind tokens that are passed over. -/
theorem of_passes (first : Passes here there) (second : Advances there behind) :
    Advances here behind :=
  ⟨first.trans second.passes, Nat.lt_of_lt_of_le second.shorter first.length_le⟩

/-- A token that is no brace is passed over. -/
theorem token (plain : t.isBrace = false) (rest : List Token) : Advances (t :: rest) rest :=
  ⟨.token plain rest, Nat.lt_succ_self _⟩

/-- The next token, when it is a word that is no brace. -/
theorem word (is_word : next here text = true)
    (other : (text == "\x7b" || text == "\x7d") = false) : Advances here (here.drop 1) := by
  cases here with
  | nil => cases is_word
  | cons t rest => exact .token (Token.isBrace_eq_false other (text_of_next is_word)) rest

end Advances

/-- **A type** is passed over. -/
theorem advances_readType? {type base : Text} (read : readType? src here = some (type, base, there)) :
    Advances here there := by
  cases here with
  | nil => cases read
  | cons t here =>
    rw [readType?] at read
    split at read
    · rename_i named
      rw [Bool.and_eq_true, beq_iff_eq] at named
      -- What follows the first name and its type arguments.
      have behind {base' : Text} {here' : List Token} (read :
          (let beyond := skipDotted base' here'
          let rest := (skipDims beyond.2).2
          let rest := if next rest "..." then rest.drop 1 else rest
          some (src.text (taken (t :: here) rest), beyond.1, rest)) = some (type, base, there)) :
          Passes here' there := by
        have beyond := (passes_skipDotted base' here').trans
          (passes_skipDims (skipDotted base' here').2)
        cases read
        split
        · rename_i dots
          exact beyond.trans (passes_word dots (by decide))
        · exact beyond
      have first := (Advances.token (Token.isBrace_of_ident named.1) here).trans
        (passes_skipDotted t.text here)
      simp only at read
      split at read
      · obtain ⟨inner, beyond, read⟩ := Option.bind_eq_some_iff.1 read
        exact first.trans ((passes_skipAngles? beyond).trans (behind read))
      · exact first.trans (behind read)
    · cases read

/-! ## Declarations -/

/-- **An initial value** is balanced. A comma in it is passed over if no declarator follows. -/
theorem untilDeclarator?_eq_some {bound : Nat} {init : List Token}
    (found : untilDeclarator? bound here = some (init, there)) :
    here = init ++ there ∧ balanced init 0 = true := by
  induction bound generalizing here init there with
  | zero => cases found
  | succ bound ih =>
    rw [untilDeclarator?] at found
    split at found
    · cases found
    · rename_i before stop rest ended
      obtain ⟨rfl, -, even⟩ := until?_eq_some ended
      simp only at found
      split at found
      · cases found
        exact ⟨rfl, even⟩
      · rename_i goes_on
        split at found
        · rename_i more behind read
          cases found
          obtain ⟨rfl, even'⟩ := ih read
          refine ⟨by simp, balanced_append even ?_⟩
          have comma : stop.text = "," := by
            rw [Bool.or_eq_true, not_or] at goes_on
            simpa using goes_on.1
          -- The end goes on behind a comma, which is no bracket.
          have no_bracket : stop.isOpening = false ∧ stop.isClosing = false := by
            rw [Token.isOpening, Token.isClosing, comma]
            exact ⟨Bool.and_false _, Bool.and_false _⟩
          rw [balanced_cons, no_bracket.1, no_bracket.2]
          exact even'
        · cases found

/-- The initial value of a variable is passed over. -/
theorem passes_untilDeclarator? {bound : Nat} {init : List Token}
    (found : untilDeclarator? bound here = some (init, there)) : Passes here there := by
  obtain ⟨rfl, even⟩ := untilDeclarator?_eq_some found
  exact .balanced even there

/-- The reader of declarators advances. -/
theorem advances_readDeclarators {type base : Text} {bound : Nat} {done vars : List Variable}
    (read : readDeclarators src type base bound here done = .ok (vars, there)) :
    Advances here there := by
  induction bound generalizing here done with
  | zero => cases read
  | succ bound ih =>
    cases here with
    | nil => cases read
    | cons name here =>
      rw [readDeclarators] at read
      split at read
      · cases read
      · rename_i named
        have ident : name.kind = .ident := by simpa using named
        have first := (Advances.token (Token.isBrace_of_ident ident) here).trans
          (passes_skipDims here)
        -- Behind a declarator another one follows a comma.
        have finish {v : Variable} {rest : List Token} (beyond : Passes (skipDims here).2 rest)
            (read : (if next rest "," then
                readDeclarators src type base bound (rest.drop 1) (v :: done)
              else .ok ((v :: done).reverse, rest)) = .ok (vars, there)) :
            Advances (name :: here) there := by
          split at read
          · rename_i comma
            exact (first.trans beyond).trans ((passes_word comma (by decide)).trans (ih read).passes)
          · cases read
            exact first.trans beyond
        simp only at read
        split at read
        · rename_i assigns
          split at read
          · cases read
          · rename_i found
            exact finish ((passes_word assigns (by decide)).trans (passes_untilDeclarator? found)) read
        · exact finish (.refl _) read

/-- The reader of local variables advances. -/
theorem advances_readLocal {vars : List Variable} (read : readLocal src here = .ok (vars, there)) :
    Advances here there := by
  rw [readLocal] at read
  split at read
  · cases read
  · rename_i typed
    exact .of_passes (passes_skipLocalModifiers _ _)
      ((advances_readType? typed).trans (advances_readDeclarators read).passes)

/-! ## Single tokens and parentheses -/

/-- The token that is expected is the first one. -/
theorem expect_eq_ok (read : expect src text here = .ok there) :
    ∃ t, here = t :: there ∧ next [t] text = true := by
  cases here with
  | nil => cases read
  | cons t rest =>
    rw [expect] at read
    split at read
    · rename_i is_next
      cases read
      exact ⟨t, rfl, is_next⟩
    · cases read

/-- The reader of an expected word advances, if the word is no brace. -/
theorem advances_expect (read : expect src text here = .ok there)
    (other : (text == "\x7b" || text == "\x7d") = false) : Advances here there := by
  obtain ⟨t, rfl, is_next⟩ := expect_eq_ok read
  exact .token (Token.isBrace_eq_false other (text_of_next is_next)) there

/-- The reader of what stands in parentheses advances. -/
theorem advances_readParens (read : readParens src text here = .ok (inside, there)) :
    Advances here there := by
  obtain ⟨opens, divided⟩ := readParens_eq_ok read
  cases here with
  | nil => cases opens
  | cons opening here =>
    exact ⟨.parens (text_of_next opens) divided, length_lt_of_enclosed divided⟩

/-- The reader of tokens up to a semicolon advances. -/
theorem advances_readToSemicolon (read : readToSemicolon src here = .ok (inside, there)) :
    Advances here there := by
  rw [readToSemicolon] at read
  split at read
  · rename_i found
    cases read
    obtain ⟨rfl, -, -⟩ := until?_eq_some found
    exact ⟨.overStop (by decide) found, by simp only [List.length_append, List.length_cons]; omega⟩
  · cases read

end FlowTrace.Java
