import FlowTrace.Proofs.Java.Initializer

/-! # Partners of brackets

What the searches among tokens find, in terms of the tokens alone. `enclosed?` divides tokens at the
partner of their first bracket: what is inside is balanced (`enclosed?_eq_some`), and a bracket that
opens among balanced tokens has its partner there (`exists_enclosed?`). `until?` divides tokens at
the first stop outside brackets: what stands in front of it is balanced (`until?_eq_some`), and
balanced tokens have no stop outside their brackets if none is found (`until?_eq_none`). What is
found does not change when more tokens follow. -/

namespace FlowTrace.Java

variable {t close stop : Token} {tokens inside before rest tail run : List Token}
  {stops : List Text} {depth : Nat}

/-- The next token is one word only. -/
theorem next_ne {text other : Text} (here : next tokens text = true) (apart : (text == other) = false) :
    next tokens other = false := by
  cases tokens with
  | nil => cases here
  | cons t rest =>
    simp only [next, Bool.and_eq_true, beq_iff_eq] at here
    rw [next, here.2, apart, Bool.and_false]

/-! ## Depth -/

/-- The number of open brackets behind some tokens when `depth` are open before them; `none` if a
bracket is closed that was not opened. -/
def depthBehind : List Token → Nat → Option Nat
  | [], depth => some depth
  | t :: rest, depth =>
    if t.isOpening then depthBehind rest (depth + 1)
    else if t.isClosing then
      match depth with
      | 0 => none
      | depth + 1 => depthBehind rest depth
    else depthBehind rest depth

/-- How deep brackets are nested behind one more token. -/
theorem depthBehind_cons (t : Token) (rest : List Token) (depth : Nat) :
    depthBehind (t :: rest) depth =
      if t.isOpening then depthBehind rest (depth + 1)
      else if t.isClosing then
        match depth with
        | 0 => none
        | depth + 1 => depthBehind rest depth
      else depthBehind rest depth := by
  cases depth <;> rfl

/-- Tokens are balanced when no bracket is open behind them. -/
theorem balanced_iff : balanced tokens depth = true ↔ depthBehind tokens depth = some 0 := by
  induction tokens generalizing depth with
  | nil => simp [balanced, depthBehind]
  | cons t rest ih =>
    rw [balanced_cons, depthBehind_cons]
    split
    · exact ih
    · split
      · cases depth with
        | zero => simp
        | succ depth => exact ih
      · exact ih

/-- How deep brackets are nested behind two runs of tokens. -/
theorem depthBehind_append (run rest : List Token) (depth : Nat) :
    depthBehind (run ++ rest) depth = (depthBehind run depth).bind (depthBehind rest) := by
  induction run generalizing depth with
  | nil => rfl
  | cons t run ih =>
    rw [List.cons_append, depthBehind_cons, depthBehind_cons]
    split
    · exact ih _
    · split
      · cases depth with
        | zero => rfl
        | succ depth => exact ih _
      · exact ih _

/-- The second of two runs of tokens closes what the first leaves open. -/
theorem exists_depthBehind {run rest : List Token} {depth last : Nat}
    (reach : depthBehind (run ++ rest) depth = some last) :
    ∃ depth', depthBehind rest depth' = some last := by
  rw [depthBehind_append] at reach
  obtain ⟨depth', -, reach⟩ := Option.bind_eq_some_iff.1 reach
  exact ⟨depth', reach⟩

/-- Brackets that are open before all tokens stay open. -/
theorem depthBehind_add {last : Nat} (more : Nat) (reach : depthBehind tokens depth = some last) :
    depthBehind tokens (depth + more) = some (last + more) := by
  induction tokens generalizing depth with
  | nil =>
    cases reach
    rfl
  | cons t rest ih =>
    rw [depthBehind_cons] at reach ⊢
    split
    · rename_i opening
      rw [if_pos opening] at reach
      have shifted := ih reach
      rwa [Nat.add_right_comm] at shifted
    · rename_i opening
      rw [if_neg opening] at reach
      split
      · rename_i closing
        rw [if_pos closing] at reach
        cases depth with
        | zero => cases reach
        | succ depth =>
          rw [Nat.add_right_comm]
          exact ih reach
      · rename_i closing
        rw [if_neg closing] at reach
        exact ih reach

/-- Balanced tokens one behind the other are balanced. -/
theorem balanced_append (first : balanced run depth = true) (second : balanced rest 0 = true) :
    balanced (run ++ rest) depth = true := by
  rw [balanced_iff] at *
  rw [depthBehind_append, first]
  exact second

/-- What stands outside brackets behind balanced tokens. -/
theorem outside_append (even : balanced run depth = true) (rest : List Token) :
    outside (run ++ rest) depth = outside run depth ++ outside rest 0 := by
  induction run generalizing depth with
  | nil =>
    obtain rfl : depth = 0 := by simpa [balanced] using even
    rfl
  | cons t run ih =>
    rw [balanced_cons] at even
    rw [List.cons_append, outside, outside]
    split
    · rename_i opening
      rw [if_pos opening] at even
      exact ih even
    · rename_i opening
      rw [if_neg opening] at even
      split
      · rename_i closing
        rw [if_pos closing] at even
        cases depth with
        | zero => cases even
        | succ depth => exact ih even
      · rename_i closing
        rw [if_neg closing] at even
        split
        · rw [ih even, List.cons_append]
        · exact ih even

/-- **A pair of brackets** around balanced tokens is balanced. -/
theorem balanced_pair {opening : Token} (opens : opening.isOpening = true)
    (closes : close.isClosing = true) (even : balanced inside 0 = true) :
    balanced (opening :: (inside ++ [close])) 0 = true := by
  have unopened : close.isOpening = false :=
    Bool.eq_false_iff.2 fun opens => by rw [isClosing_of_isOpening opens] at closes; cases closes
  rw [balanced_iff] at *
  have last : depthBehind [close] 1 = some 0 := by
    rw [depthBehind_cons, if_neg (by rw [unopened]; simp), if_pos closes]
    rfl
  rw [depthBehind_cons, if_pos opens, depthBehind_append, depthBehind_add 1 even]
  exact last

/-! ## The partner of a bracket -/

/-- The partner of a bracket behind one more token. -/
theorem closeFrom?_cons (t : Token) (rest : List Token) (depth : Nat) (done : List Token) :
    closeFrom? (t :: rest) depth done =
      if t.isOpening then closeFrom? rest (depth + 1) (t :: done)
      else if t.isClosing then
        match depth with
        | 0 => some (done.reverse, rest)
        | depth + 1 => closeFrom? rest depth (t :: done)
      else closeFrom? rest depth (t :: done) := by
  cases depth <;> rfl

/-- What stands in front of the partner is balanced. -/
theorem closeFrom?_eq_some {done : List Token}
    (found : closeFrom? tokens depth done = some (inside, rest)) :
    ∃ run close, inside = done.reverse ++ run ∧ tokens = run ++ close :: rest ∧
      close.isClosing = true ∧ balanced run depth = true := by
  induction tokens generalizing depth done with
  | nil => cases found
  | cons t tokens ih =>
    -- The token at hand belongs to what is inside.
    have passed {depth' : Nat} (found : closeFrom? tokens depth' (t :: done) = some (inside, rest))
        (step : ∀ run, balanced run depth' = true → balanced (t :: run) depth = true) :
        ∃ run close, inside = done.reverse ++ run ∧ t :: tokens = run ++ close :: rest ∧
          close.isClosing = true ∧ balanced run depth = true := by
      obtain ⟨run, close, rfl, rfl, closes, even⟩ := ih found
      exact ⟨t :: run, close, by simp, rfl, closes, step run even⟩
    rw [closeFrom?_cons] at found
    split at found
    · rename_i opening
      exact passed found fun run even => by rwa [balanced_cons, if_pos opening]
    · rename_i opening
      split at found
      · rename_i closing
        cases depth with
        | zero =>
          cases found
          exact ⟨[], t, by simp, rfl, closing, rfl⟩
        | succ depth =>
          exact passed found fun run even => by rwa [balanced_cons, if_neg opening, if_pos closing]
      · rename_i closing
        exact passed found fun run even => by rwa [balanced_cons, if_neg opening, if_neg closing]

/-- Balanced tokens in front of a closing bracket are what it encloses. -/
theorem closeFrom?_append (closes : close.isClosing = true) (even : balanced run depth = true)
    (done : List Token) :
    closeFrom? (run ++ close :: rest) depth done = some (done.reverse ++ run, rest) := by
  induction run generalizing depth done with
  | nil =>
    obtain rfl : depth = 0 := by simpa [balanced] using even
    have unopened : ¬ close.isOpening = true := fun opens => by
      rw [isClosing_of_isOpening opens] at closes
      cases closes
    rw [List.nil_append, closeFrom?_cons, if_neg unopened, if_pos closes, List.append_nil]
  | cons t run ih =>
    rw [List.cons_append, closeFrom?_cons]
    rw [balanced_cons] at even
    split
    · rename_i opening
      rw [if_pos opening] at even
      simp [ih even]
    · rename_i opening
      rw [if_neg opening] at even
      split
      · rename_i closing
        rw [if_pos closing] at even
        cases depth with
        | zero => cases even
        | succ depth => simp [ih even]
      · rename_i closing
        rw [if_neg closing] at even
        simp [ih even]

/-- **What a bracket encloses is balanced**, and its partner follows. -/
theorem enclosed?_eq_some {opening : Token}
    (found : enclosed? (opening :: tokens) = some (inside, rest)) :
    ∃ close, tokens = inside ++ close :: rest ∧ close.isClosing = true ∧
      balanced inside 0 = true := by
  obtain ⟨run, close, rfl, rfl, closes, even⟩ := closeFrom?_eq_some found
  exact ⟨close, rfl, closes, even⟩

/-- Behind a bracket and its partner the tokens go on to the same end. -/
theorem suffix_of_enclosed (found : enclosed? tokens = some (inside, rest)) : rest <:+ tokens := by
  cases tokens with
  | nil => cases found
  | cons opening tokens =>
    obtain ⟨close, rfl, -, -⟩ := enclosed?_eq_some found
    exact ⟨opening :: (inside ++ [close]), by simp⟩

/-- Behind a bracket and its partner fewer tokens are left. -/
theorem length_lt_of_enclosed (found : enclosed? tokens = some (inside, rest)) :
    rest.length < tokens.length := by
  cases tokens with
  | nil => cases found
  | cons opening tokens =>
    obtain ⟨close, rfl, -, -⟩ := enclosed?_eq_some found
    simp only [List.length_append, List.length_cons]
    omega

/-- What is **read in parentheses** stands between a bracket and its partner. -/
theorem readParens_eq_ok {src : Source} {word : Text}
    (read : readParens src word tokens = .ok (inside, rest)) :
    next tokens "(" = true ∧ enclosed? tokens = some (inside, rest) := by
  rw [readParens] at read
  split at read
  · rename_i opens
    split at read
    · rename_i divided
      cases read
      exact ⟨opens, divided⟩
    · cases read
  · cases read

/-- A token closes the innermost of `depth + 1` brackets if not more than those around them are open
at the end. -/
theorem exists_closeFrom? {more last : Nat}
    (reach : depthBehind tokens (depth + 1 + more) = some last) (le : last ≤ more)
    (done : List Token) : ∃ inside rest, closeFrom? tokens depth done = some (inside, rest) := by
  induction tokens generalizing depth done with
  | nil =>
    rw [depthBehind, Option.some.injEq] at reach
    omega
  | cons t rest ih =>
    rw [closeFrom?_cons]
    rw [depthBehind_cons] at reach
    split
    · rename_i opening
      rw [if_pos opening, Nat.add_right_comm] at reach
      exact ih reach _
    · rename_i opening
      rw [if_neg opening] at reach
      split
      · rename_i closing
        rw [if_pos closing, Nat.add_right_comm depth] at reach
        cases depth with
        | zero => exact ⟨_, _, rfl⟩
        | succ depth =>
          have reach : depthBehind rest (depth + more + 1) = some last := by
            rwa [Nat.add_right_comm depth] at reach
          exact ih (by rwa [Nat.add_right_comm depth]) _
      · rename_i closing
        rw [if_neg closing] at reach
        exact ih reach _

/-- **A bracket that opens among balanced tokens has a partner** among them. -/
theorem exists_enclosed? {opening : Token} (even : balanced (before ++ opening :: tokens) 0 = true)
    (opens : opening.isOpening = true) :
    ∃ inside rest, enclosed? (opening :: tokens) = some (inside, rest) := by
  obtain ⟨depth, even⟩ := exists_depthBehind (balanced_iff.1 even)
  rw [depthBehind_cons, if_pos opens, Nat.add_comm] at even
  have behind : depthBehind tokens (0 + 1 + depth) = some 0 := by rwa [Nat.zero_add]
  exact exists_closeFrom? behind (Nat.zero_le _) []

/-- The partner stays the same when more tokens follow. -/
theorem enclosed?_append (found : enclosed? tokens = some (inside, rest)) (tail : List Token) :
    enclosed? (tokens ++ tail) = some (inside, rest ++ tail) := by
  cases tokens with
  | nil => cases found
  | cons opening tokens =>
    obtain ⟨close, rfl, closes, even⟩ := enclosed?_eq_some found
    rw [List.cons_append, List.append_assoc, List.cons_append]
    exact closeFrom?_append closes even []

/-- Passes over parentheses that have a partner, if some begin here. -/
def skipArguments (tokens : List Token) : List Token :=
  if next tokens "(" then
    match enclosed? tokens with
    | some (_, after) => after
    | none => tokens
  else tokens

/-- An annotation is its mark, its name, and perhaps its arguments. -/
theorem skipAnnotations_succ (marked : atAnnotation tokens = true) (bound : Nat) :
    skipAnnotations (bound + 1) tokens =
      skipAnnotations bound (skipArguments (skipDotted [] (tokens.drop 2)).2) := by
  rw [skipAnnotations, if_pos marked]
  rfl

/-! ## Stops -/

/-- **What stands in front of a stop is balanced.** -/
theorem untilFrom?_eq_some {done : List Token}
    (found : untilFrom? stops tokens depth done = some (before, stop, rest)) :
    ∃ run, before = done.reverse ++ run ∧ tokens = run ++ stop :: rest ∧
      isStop stops stop = true ∧ balanced run depth = true := by
  induction tokens generalizing depth done with
  | nil => cases found
  | cons t tokens ih =>
    -- A token that is passed over belongs to the run, at whatever depth the search goes on.
    have passed {depth' : Nat}
        (found : untilFrom? stops tokens depth' (t :: done) = some (before, stop, rest))
        (step : ∀ run, balanced run depth' = true → balanced (t :: run) depth = true) :
        ∃ run, before = done.reverse ++ run ∧ t :: tokens = run ++ stop :: rest ∧
          isStop stops stop = true ∧ balanced run depth = true := by
      obtain ⟨run, rfl, rfl, stops_here, even⟩ := ih found
      exact ⟨t :: run, by simp, rfl, stops_here, step run even⟩
    rw [untilFrom?_cons] at found
    split at found
    · rename_i here
      cases found
      obtain ⟨stops_here, zero⟩ := Bool.and_eq_true_iff.1 here
      obtain rfl := beq_iff_eq.1 zero
      exact ⟨[], by simp, rfl, stops_here, rfl⟩
    · split at found
      · rename_i opening
        exact passed found fun run even => by rwa [balanced_cons, if_pos opening]
      · rename_i opening
        split at found
        · rename_i closing
          cases depth with
          | zero => cases found
          | succ depth =>
            exact passed found fun run even => by
              rwa [balanced_cons, if_neg opening, if_pos closing]
        · rename_i closing
          exact passed found fun run even => by rwa [balanced_cons, if_neg opening, if_neg closing]

/-- The tokens before a stop are balanced, and it is one of the stops. -/
theorem until?_eq_some (found : until? stops tokens = some (before, stop, rest)) :
    tokens = before ++ stop :: rest ∧ isStop stops stop = true ∧ balanced before 0 = true := by
  obtain ⟨run, rfl, rfl, stops_here, even⟩ := untilFrom?_eq_some found
  exact ⟨rfl, stops_here, even⟩

/-- A stop that is no bracket stands outside brackets. -/
theorem mem_outside_of_until? (found : until? stops tokens = some (before, stop, rest))
    (unopened : stop.isOpening = false) (unclosed : stop.isClosing = false) :
    stop ∈ outside tokens 0 := by
  obtain ⟨rfl, -, even⟩ := until?_eq_some found
  rw [outside_append even, outside, if_neg (by simp [unopened]), if_neg (by simp [unclosed]),
    if_pos rfl]
  exact List.mem_append_right _ List.mem_cons_self

/-- **Where no stop is found** among balanced tokens, there is none outside their brackets. -/
theorem until?_eq_none (shut : ∀ t : Token, t.isOpening = true → isStop stops t = false)
    (even : balanced tokens 0 = true) (missing : until? stops tokens = none) :
    ∀ t ∈ outside tokens 0, isStop stops t = false := by
  refine fun t member => Bool.eq_false_iff.2 fun here => ?_
  obtain ⟨before, stop, after, -, -, -, found⟩ :=
    untilFrom?_of_outside shut [] tokens 0 [] even ⟨t, member, here⟩
  rw [List.append_nil] at found
  cases missing.symm.trans found

/-- The first stop stays the same when more tokens follow. -/
theorem untilFrom?_mono {done : List Token}
    (found : untilFrom? stops tokens depth done = some (before, stop, rest)) (tail : List Token) :
    untilFrom? stops (tokens ++ tail) depth done = some (before, stop, rest ++ tail) := by
  induction tokens generalizing depth done with
  | nil => cases found
  | cons t tokens ih =>
    rw [List.cons_append, untilFrom?_cons]
    rw [untilFrom?_cons] at found
    split
    · rename_i here
      rw [if_pos here] at found
      cases found
      rfl
    · rename_i passed
      rw [if_neg passed] at found
      split
      · rename_i opening
        rw [if_pos opening] at found
        exact ih found
      · rename_i opening
        rw [if_neg opening] at found
        split
        · rename_i closing
          rw [if_pos closing] at found
          cases depth with
          | zero => cases found
          | succ depth => exact ih found
        · rename_i closing
          rw [if_neg closing] at found
          exact ih found

end FlowTrace.Java
