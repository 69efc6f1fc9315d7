import FlowTrace.Braced.Source
import Mathlib.Tactic.SplitIfs

/-! # How far literals and brackets reach

A literal ends inside the text that it begins (`literalLength_le`), and the partner of a bracket
stands behind it and inside the text (`closing_between`). So whatever is cut out of a source at
these offsets is there.

The check of brackets finds a partner for each of them, but keeps none. `pairs?` is the same scan
with the offsets of the pairs as its result; it has one exactly when the check succeeds
(`checkBrackets_eq_ok`). Brackets that stand in code are nested (`closing_nested`), and the pairs are
those brackets with their partners (`mem_pairs_iff`). -/

namespace FlowTrace

/-- What is found in a text lies inside it. -/
theorem Text.indexOf_le {t part : Text} {i : Nat} (found : t.indexOf? part = some i) :
    i + part.length ≤ t.length := by
  have counted : ∀ (t : Text) (n : Nat), indexOf?.go part t n = some i →
      i + part.length ≤ n + t.length := by
    intro t
    induction t with
    | nil =>
      intro n found
      rw [indexOf?.go] at found
      split at found
      · rename_i none
        cases found
        simp [List.isEmpty_iff.1 none]
      · cases found
    | cons c t ih =>
      intro n found
      rw [indexOf?.go] at found
      split at found
      · rename_i here
        cases found
        exact Nat.add_le_add_left (List.isPrefixOf_iff_prefix.1 here).length_le _
      · have := ih (n + 1) found
        rw [List.length_cons]
        omega
  simpa using counted t 0 found

namespace Braced

variable {t code : Text}

/-- A literal ends behind its mark, inside the text. -/
theorem plainLength_le {mark : UInt8} {n m : Nat} {escaped : Bool}
    (closed : plainLength? mark t escaped n = some m) : n < m ∧ m ≤ n + t.length := by
  induction t generalizing n escaped with
  | nil => cases escaped <;> cases closed
  | cons c t ih =>
    have later {escaped : Bool} (closed : plainLength? mark t escaped (n + 1) = some m) :
        n < m ∧ m ≤ n + (c :: t).length := by
      have := ih closed
      rw [List.length_cons]
      omega
    cases escaped with
    | true => exact later closed
    | false =>
      rw [plainLength?] at closed
      split_ifs at closed
      · exact later closed
      · cases closed
        exact ⟨Nat.lt_succ_self _, Nat.add_le_add_left (Nat.le_add_left 1 _) _⟩
      · exact later closed

/-- **A literal** has at least its mark, and ends inside the text. -/
theorem literalLength_le {n : Nat} (closed : literalLength? t = some n) : 1 ≤ n ∧ n ≤ t.length := by
  unfold literalLength? at closed
  split at closed
  · rename_i block
    obtain ⟨i, found, rfl⟩ := Option.map_eq_some_iff.1 closed
    have opened : 3 ≤ t.length := (List.isPrefixOf_iff_prefix.1 block).length_le
    have inside := Text.indexOf_le found
    rw [List.length_drop] at inside
    have three : blockMark.length = 3 := rfl
    omega
  · split at closed
    · cases closed
    · have := plainLength_le closed
      rw [List.length_cons]
      omega

/-- The partner of a bracket is found inside the text, and behind it if the bracket is still to
come. -/
theorem closingFrom_between {offset skip stop : Nat} {depth : Int}
    (found : closingFrom? t offset skip depth = some stop) :
    offset ≤ stop ∧ stop < offset + t.length ∧ (depth ≠ 1 → offset < stop) := by
  -- What is found at the offset itself closes a bracket that was opened before.
  induction t generalizing offset skip depth with
  | nil => cases found
  | cons c t ih =>
    have later {skip : Nat} {depth' : Int}
        (found : closingFrom? t (offset + 1) skip depth' = some stop) :
        offset ≤ stop ∧ stop < offset + (c :: t).length ∧ (depth ≠ 1 → offset < stop) := by
      have := ih found
      rw [List.length_cons]
      omega
    cases skip with
    | succ skip => exact later found
    | zero =>
      rw [closingFrom?] at found
      split_ifs at found with mark opening closing last
      · exact later found
      · exact later found
      · cases found
        refine ⟨Nat.le_refl _, Nat.lt_add_of_pos_right (Nat.zero_lt_succ _), fun deeper => ?_⟩
        exact absurd (by simpa using last) deeper
      · exact later found
      · exact later found

/-- **The partner of a bracket** stands behind it, and inside the source. -/
theorem closing_between {opening stop : Nat} (found : closing? code opening = some stop) :
    opening < stop ∧ stop < code.length := by
  obtain ⟨-, inside, behind⟩ := closingFrom_between found
  have after := behind (by decide)
  rw [List.length_drop] at inside
  omega

/-! ## Pairs -/

/-- Pairs the brackets of a text. The next `skip` bytes belong to a literal, `offset` is that of the
next byte, and `open_` holds the open brackets with their offsets, innermost first. A pair is found
with its closing bracket. -/
def pairsFrom? : Text → (offset skip : Nat) → List (UInt8 × Nat) → Option (List (Nat × Nat))
  | [], _, _, [] => some []
  | [], _, _, _ :: _ => none
  | _ :: t, offset, skip + 1, open_ => pairsFrom? t (offset + 1) skip open_
  | c :: t, offset, 0, open_ =>
    if isMark c then pairsFrom? t (offset + 1) (literalTail (c :: t)) open_
    else if isOpening c then pairsFrom? t (offset + 1) 0 ((c, offset) :: open_)
    else if isClosing c then
      match open_ with
      | (bracket, opening) :: outer =>
        if bracket == partner c then
          (pairsFrom? t (offset + 1) 0 outer).map ((opening, offset) :: ·)
        else none
      | [] => none
    else pairsFrom? t (offset + 1) 0 open_

/-- The **pairs of brackets** of a text, as the offsets of both; `none` if a bracket has no partner
of its kind. -/
def pairs? (code : Text) : Option (List (Nat × Nat)) := pairsFrom? code 0 0 []

/-- The pairs of brackets in a text that begins with program text. -/
theorem pairsFrom_cons (c : UInt8) (t : Text) (offset : Nat) (open_ : List (UInt8 × Nat)) :
    pairsFrom? (c :: t) offset 0 open_ =
      if isMark c then pairsFrom? t (offset + 1) (literalTail (c :: t)) open_
      else if isOpening c then pairsFrom? t (offset + 1) 0 ((c, offset) :: open_)
      else if isClosing c then
        match open_ with
        | (bracket, opening) :: outer =>
          if bracket == partner c then
            (pairsFrom? t (offset + 1) 0 outer).map ((opening, offset) :: ·)
          else none
        | [] => none
      else pairsFrom? t (offset + 1) 0 open_ := by
  cases open_ <;> rfl

/-- A byte of a literal is passed over. -/
theorem pairsFrom_skip (c : UInt8) (t : Text) (offset skip : Nat) (open_ : List (UInt8 × Nat)) :
    pairsFrom? (c :: t) offset (skip + 1) open_ = pairsFrom? t (offset + 1) skip open_ := by
  cases open_ <;> rfl

/-- The check and the pairing agree on which brackets are open, and so on whether all are closed. -/
theorem isSome_pairsFrom {t : Text} {offset skip line : Nat} {lines offsets : List (UInt8 × Nat)}
    (same : lines.map Prod.fst = offsets.map Prod.fst) :
    (pairsFrom? t offset skip offsets).isSome = true ↔ checkFrom t skip line lines = .ok () := by
  induction t generalizing offset skip line lines offsets with
  | nil =>
    cases lines <;> cases offsets
    · exact ⟨fun _ => rfl, fun _ => rfl⟩
    · cases same
    · cases same
    · constructor <;> intro closed <;> cases closed
  | cons c t ih =>
    cases skip with
    | succ skip =>
      rw [pairsFrom_skip]
      exact ih same
    | zero =>
      rw [pairsFrom_cons]
      simp only [checkFrom]
      split
      · exact ih same
      · split
        · exact ih (by rw [List.map_cons, List.map_cons, same])
        · split
          -- A closing bracket: both have the same innermost bracket open, or none.
          · cases lines with
            | nil =>
              cases offsets with
              | nil => constructor <;> intro closed <;> cases closed
              | cons _ _ => cases same
            | cons first lines =>
              cases offsets with
              | nil => cases same
              | cons first' offsets =>
                obtain ⟨bracket, line'⟩ := first
                obtain ⟨bracket', opening⟩ := first'
                obtain ⟨rfl, outer⟩ := List.cons.inj same
                simp only
                split
                · rw [Option.isSome_map]
                  exact ih outer
                · constructor <;> intro closed <;> cases closed
          · exact ih same

/-- **The check of brackets** succeeds exactly when they can be paired. -/
theorem checkBrackets_eq_ok {code : Text} :
    checkBrackets code = .ok () ↔ (pairs? code).isSome = true :=
  (isSome_pairsFrom rfl).symm

/-! ## Brackets inside brackets

An offset stands **in code** when no literal is open there (`InCode`). Brackets in code are nested:
between a bracket and its partner stands, with each bracket, its own partner (`closing_nested`).
Both scans go through the same literals there, and the one that began earlier counts at least one
bracket more. -/

/-- The number of bytes that still belong to a literal behind the first bytes of a text, when the
next `skip` bytes do. -/
def skipBehind : (n : Nat) → Text → (skip : Nat) → Nat
  | 0, _, skip => skip
  | _ + 1, [], skip => skip
  | n + 1, _ :: t, skip + 1 => skipBehind n t skip
  | n + 1, c :: t, 0 => skipBehind n t (if isMark c then literalTail (c :: t) else 0)

/-- An offset stands **in code**: no literal is open there. -/
def InCode (code : Text) (offset : Nat) : Prop := skipBehind offset code 0 = 0

instance (code : Text) (offset : Nat) : Decidable (InCode code offset) :=
  inferInstanceAs (Decidable (_ = _))

variable {n offset skip stop : Nat} {depth : Int} {c : UInt8}

/-- At the end of a text nothing is passed over. -/
theorem skipBehind_nil (n skip : Nat) : skipBehind n [] skip = skip := by
  cases n <;> rfl

/-- What is passed over is passed over in stages. -/
theorem skipBehind_add (m n : Nat) (t : Text) (skip : Nat) :
    skipBehind (m + n) t skip = skipBehind n (t.drop m) (skipBehind m t skip) := by
  induction m generalizing t skip with
  | zero => rw [Nat.zero_add, List.drop_zero, skipBehind]
  | succ m ih =>
    rw [Nat.add_right_comm]
    cases t with
    | nil => rw [List.drop_nil, skipBehind_nil, skipBehind_nil, skipBehind_nil]
    | cons c t =>
      cases skip with
      | succ skip => exact ih t skip
      | zero => exact ih t _

/-- Behind a byte in code that opens no literal is code. -/
theorem InCode.succ (here : InCode code offset) (byte : code[offset]? = some c)
    (plain : isMark c = false) : InCode code (offset + 1) := by
  rw [InCode, skipBehind_add, show skipBehind offset code 0 = 0 from here]
  obtain ⟨bound, rfl⟩ := List.getElem?_eq_some_iff.1 byte
  rw [List.drop_eq_getElem_cons bound, skipBehind, skipBehind, plain]
  rfl

/-- Code goes on as long as nothing opens a literal. -/
theorem InCode.reach {stop : Nat} (here : InCode code offset) (le : offset ≤ stop)
    (inside : stop ≤ code.length)
    (plain : ∀ i, offset ≤ i → i < stop → ∀ c, code[i]? = some c → isMark c = false) :
    InCode code stop := by
  induction le with
  | refl => exact here
  | @step stop le ih =>
    have before := ih (Nat.le_of_succ_le inside) fun i low high =>
      plain i low (Nat.lt_succ_of_lt high)
    have byte := List.getElem?_eq_getElem (Nat.lt_of_succ_le inside)
    exact before.succ byte (plain stop le (Nat.lt_succ_self stop) _ byte)

/-! ### Scanning for a partner -/

/-- While a scan has not come to the end, the bracket that it began with is open. -/
theorem closingFrom_step (found : closingFrom? (c :: t) offset skip depth = some stop)
    (before : offset < stop) (opened : 1 ≤ depth) :
    ∃ depth', 1 ≤ depth' ∧
      closingFrom? t (offset + 1) (skipBehind 1 (c :: t) skip) depth' = some stop := by
  cases skip with
  | succ skip => exact ⟨depth, opened, found⟩
  | zero =>
    rw [skipBehind, skipBehind]
    rw [closingFrom?] at found
    split_ifs at found ⊢ with mark opening closing last
    · exact ⟨depth, opened, found⟩
    · exact ⟨depth + 1, by omega, found⟩
    · exact absurd (Option.some.inj found) (Nat.ne_of_lt before)
    · have deeper : depth ≠ 1 := by simpa using last
      exact ⟨depth - 1, by omega, found⟩
    · exact ⟨depth, opened, found⟩

/-- A scan can be taken up at any offset in front of where it ends. -/
theorem closingFrom_drop (n : Nat) (found : closingFrom? t offset skip depth = some stop)
    (before : offset + n ≤ stop) (opened : 1 ≤ depth) :
    ∃ depth', 1 ≤ depth' ∧
      closingFrom? (t.drop n) (offset + n) (skipBehind n t skip) depth' = some stop := by
  induction n generalizing t offset skip depth with
  | zero => exact ⟨depth, opened, found⟩
  | succ n ih =>
    cases t with
    | nil => cases found
    | cons c t =>
      obtain ⟨depth', opened', went_on⟩ := closingFrom_step found (by omega) opened
      obtain ⟨depth'', opened'', there⟩ := ih went_on (by omega) opened'
      refine ⟨depth'', opened'', ?_⟩
      rw [List.drop_succ_cons, Nat.add_comm n 1, skipBehind_add, ← Nat.add_assoc]
      exact there

/-- A scan that has fewer brackets open ends earlier. -/
theorem closingFrom_lt {depth' : Int} (found : closingFrom? t offset skip depth = some stop)
    (opened : 1 ≤ depth') (fewer : depth' < depth) :
    ∃ stop' < stop, closingFrom? t offset skip depth' = some stop' := by
  induction t generalizing offset skip depth depth' with
  | nil => cases found
  | cons c t ih =>
    cases skip with
    | succ skip => exact ih found opened fewer
    | zero =>
      rw [closingFrom?] at found ⊢
      split_ifs at found ⊢ with mark opening closing last' last last
      · exact ih found opened fewer
      · exact ih found (by omega) (by omega)
      · have one : depth = 1 := by simpa using last
        omega
      · exact ⟨offset, Nat.lt_of_succ_le (closingFrom_between found).1, rfl⟩
      · have one : depth = 1 := by simpa using last
        omega
      · have deeper : depth' ≠ 1 := by simpa using last'
        exact ih found (by omega) (by omega)
      · exact ih found opened fewer

/-- A scan ends at a closing bracket in code. -/
theorem closingFrom_end (found : closingFrom? t offset skip depth = some stop) :
    ∃ n c, stop = offset + n ∧ t[n]? = some c ∧ isClosing c = true ∧ isMark c = false ∧
      skipBehind n t skip = 0 := by
  induction t generalizing offset skip depth with
  | nil => cases found
  | cons d t ih =>
    have later {skip' : Nat} {depth : Int} (same : skipBehind 1 (d :: t) skip = skip')
        (found : closingFrom? t (offset + 1) skip' depth = some stop) :
        ∃ n c, stop = offset + n ∧ (d :: t)[n]? = some c ∧ isClosing c = true ∧
          isMark c = false ∧ skipBehind n (d :: t) skip = 0 := by
      obtain ⟨n, c, rfl, byte, closing, plain, code⟩ := ih found
      refine ⟨n + 1, c, by omega, byte, closing, plain, ?_⟩
      rw [Nat.add_comm n 1, skipBehind_add, same]
      exact code
    cases skip with
    | succ skip => exact later rfl found
    | zero =>
      rw [closingFrom?] at found
      split_ifs at found with mark opening closing last
      · exact later (by rw [skipBehind, if_pos mark, skipBehind]) found
      · exact later (by rw [skipBehind, if_neg mark, skipBehind]) found
      · exact ⟨0, d, (Option.some.inj found).symm, rfl, closing, by simpa using mark, rfl⟩
      · exact later (by rw [skipBehind, if_neg mark, skipBehind]) found
      · exact later (by rw [skipBehind, if_neg mark, skipBehind]) found

/-! ### Partners -/

/-- An opening bracket is nothing else. -/
theorem plain_of_isOpening (opening : isOpening c = true) :
    isMark c = false ∧ isClosing c = false := by
  rw [isOpening, Bool.or_eq_true, Bool.or_eq_true, beq_iff_eq, beq_iff_eq, beq_iff_eq] at opening
  rcases opening with (rfl | rfl) | rfl <;> decide

/-- An **opening bracket** in code. -/
structure Opens (code : Text) (offset : Nat) : Prop where
  /-- It stands in code. -/
  placed : InCode code offset
  /-- It is an opening bracket. -/
  bracket : ∃ c, code[offset]? = some c ∧ isOpening c = true

/-- No bracket closes where one opens. -/
theorem Opens.ne_closing (opens : Opens code offset) (byte : code[stop]? = some c)
    (closing : isClosing c = true) : offset ≠ stop := by
  rintro rfl
  obtain ⟨d, byte', opening⟩ := opens.bracket
  obtain rfl := Option.some.inj (byte.symm.trans byte')
  rw [(plain_of_isOpening opening).2] at closing
  cases closing

/-- A scan counts an opening bracket in code. -/
theorem Opens.scan (opens : Opens code offset) (depth : Int) :
    closingFrom? (code.drop offset) offset 0 depth =
      closingFrom? (code.drop (offset + 1)) (offset + 1) 0 (depth + 1) := by
  obtain ⟨c, byte, opening⟩ := opens.bracket
  obtain ⟨bound, rfl⟩ := List.getElem?_eq_some_iff.1 byte
  rw [List.drop_eq_getElem_cons bound, closingFrom?, (plain_of_isOpening opening).1, opening]
  rfl

/-- **Brackets in code are nested**: between a bracket and its partner stands, with each bracket,
its own partner. -/
theorem closing_nested {inner stop' : Nat} (opens : Opens code offset)
    (found : closing? code offset = some stop) (opens' : Opens code inner)
    (found' : closing? code inner = some stop') (behind : offset < inner) (before : inner < stop) :
    stop' < stop := by
  obtain ⟨n, rfl⟩ := Nat.exists_eq_add_of_le (Nat.succ_le_of_lt behind)
  rw [closing?, opens.scan] at found
  rw [closing?, opens'.scan] at found'
  -- The scan from the outer bracket comes to the inner one with at least one bracket open.
  obtain ⟨depth, opened, there⟩ := closingFrom_drop n found (Nat.le_of_lt before) (Int.le_refl 1)
  have in_code : skipBehind n (code.drop (offset + 1)) 0 = 0 := by
    obtain ⟨c, byte, opening⟩ := opens.bracket
    have next : skipBehind (offset + 1) code 0 = 0 :=
      opens.placed.succ byte (plain_of_isOpening opening).1
    have here : skipBehind (offset + 1 + n) code 0 = 0 := opens'.placed
    rwa [skipBehind_add, next] at here
  rw [in_code, List.drop_drop] at there
  rw [opens'.scan] at there
  obtain ⟨stop'', earlier, same⟩ :=
    closingFrom_lt there (Int.le_refl 1) (show (1 : Int) < depth + 1 by omega)
  rw [show (0 : Int) + 1 = 1 from rfl, same] at found'
  exact Option.some.inj found' ▸ earlier

/-- **The partner of a bracket in code** is a closing bracket in code. -/
theorem Opens.partner (opens : Opens code offset) (found : closing? code offset = some stop) :
    ∃ c, code[stop]? = some c ∧ isClosing c = true ∧ isMark c = false ∧ InCode code stop := by
  obtain ⟨n, c, rfl, byte, closing, plain, there⟩ := closingFrom_end found
  rw [List.getElem?_drop] at byte
  refine ⟨c, byte, closing, plain, ?_⟩
  rw [InCode, skipBehind_add, show skipBehind offset code 0 = 0 from opens.placed]
  exact there

/-! ### Pairs are partners

The check of brackets knows the kind of each bracket that is open, and the scan for a partner only
counts brackets. In a source that passes the check they agree (`mem_pairs_iff`): the scan counts the
brackets that are open inside of the one that it began with, so it comes to an end where the check takes
this one from its stack. -/

/-- What follows **closes** a bracket inside of which `depth` more are open: the scan for its partner ends
at a bracket of its kind. -/
structure Closes (t : Text) (offset skip depth : Nat) (bracket : UInt8) (close : Nat) : Prop where
  /-- The scan ends there. -/
  found : closingFrom? t offset skip (depth + 1) = some close
  /-- The kinds of both brackets are the same. -/
  kind : ∃ n c, close = offset + n ∧ t[n]? = some c ∧ isClosing c = true ∧ bracket = Braced.partner c

variable {open_ : List (UInt8 × Nat)} {pairs : List (Nat × Nat)} {bracket : UInt8} {close : Nat}

/-- A bracket that is closed behind a byte is closed behind the byte in front of it too. -/
theorem Closes.behind {skip' depth' nesting : Nat} (c : UInt8)
    (closes : Closes t (offset + 1) skip' depth' bracket close)
    (step : closingFrom? (c :: t) offset skip (nesting + 1) =
      closingFrom? t (offset + 1) skip' (depth' + 1)) :
    Closes (c :: t) offset skip nesting bracket close := by
  obtain ⟨n, d, rfl, byte, closing, same⟩ := closes.kind
  exact ⟨step.trans closes.found, n + 1, d, by omega, byte, closing, same⟩

/-- What the pairing does at a byte, with `next` as the number of bytes that belong to a literal behind it.
The scan for a partner does the same, without the brackets. -/
inductive Pairing (c : UInt8) (t : Text) (offset skip next : Nat) (open_ : List (UInt8 × Nat))
    (pairs : List (Nat × Nat)) : Prop
  /-- It passes the byte over. -/
  | passed : pairsFrom? t (offset + 1) next open_ = some pairs →
    (∀ depth, closingFrom? (c :: t) offset skip depth = closingFrom? t (offset + 1) next depth) →
    Pairing c t offset skip next open_ pairs
  /-- It opens a bracket. -/
  | opened : skip = 0 → next = 0 → isOpening c = true →
    pairsFrom? t (offset + 1) 0 ((c, offset) :: open_) = some pairs →
    (∀ depth, closingFrom? (c :: t) offset 0 depth = closingFrom? t (offset + 1) 0 (depth + 1)) →
    Pairing c t offset skip next open_ pairs
  /-- It closes the innermost bracket. -/
  | closed {opening : Nat} {outer : List (UInt8 × Nat)} {later : List (Nat × Nat)} :
    skip = 0 → next = 0 → isClosing c = true → open_ = (Braced.partner c, opening) :: outer →
    pairs = (opening, offset) :: later → pairsFrom? t (offset + 1) 0 outer = some later →
    (∀ depth, closingFrom? (c :: t) offset 0 depth =
      if depth == 1 then some offset else closingFrom? t (offset + 1) 0 (depth - 1)) →
    Pairing c t offset skip next open_ pairs

/-- The pairs of a text are those behind its first byte, and one more if that closes a bracket. -/
theorem pairing (all : pairsFrom? (c :: t) offset skip open_ = some pairs) :
    Pairing c t offset skip (skipBehind 1 (c :: t) skip) open_ pairs := by
  cases skip with
  | succ skip =>
    rw [pairsFrom_skip] at all
    exact .passed all fun _ => rfl
  | zero =>
    rw [skipBehind, skipBehind]
    rw [pairsFrom_cons] at all
    split_ifs at all ⊢ with mark opens shuts
    · exact .passed all fun depth => by rw [closingFrom?, if_pos mark]
    · exact .opened rfl rfl opens all fun depth => by rw [closingFrom?, if_neg mark, if_pos opens]
    · cases open_ with
      | nil => cases all
      | cons innermost outer =>
        obtain ⟨bracket, opening⟩ := innermost
        simp only at all
        split at all
        · rename_i belongs
          obtain ⟨later, rest, same⟩ := Option.map_eq_some_iff.1 all
          exact .closed rfl rfl shuts (by rw [beq_iff_eq.1 belongs]) same.symm rest fun depth => by
            rw [closingFrom?, if_neg mark, if_neg opens, if_pos shuts]
        · cases all
    · exact .passed all fun depth => by rw [closingFrom?, if_neg mark, if_neg opens, if_neg shuts]

/-- **Every open bracket is closed**, if the brackets of a text can be paired. -/
theorem exists_closes (all : pairsFrom? t offset skip open_ = some pairs) {opening nesting : Nat}
    (is_open : open_[nesting]? = some (bracket, opening)) :
    ∃ close, (opening, close) ∈ pairs ∧ Closes t offset skip nesting bracket close := by
  induction t generalizing offset skip open_ pairs nesting with
  | nil =>
    cases open_ with
    | nil => cases is_open
    | cons _ _ => cases all
  | cons c t ih =>
    cases pairing all with
    | passed rest scan =>
      obtain ⟨close, member, closes⟩ := ih rest is_open
      exact ⟨close, member, closes.behind c (scan _)⟩
    | opened is_code _ _ rest scan =>
      subst is_code
      have inside : ((c, offset) :: open_)[nesting + 1]? = some (bracket, opening) := is_open
      obtain ⟨close, member, closes⟩ := ih rest inside
      exact ⟨close, member, closes.behind c (scan _)⟩
    | closed is_code _ shuts stack all_pairs rest scan =>
      subst is_code stack all_pairs
      cases nesting with
      | zero =>
        obtain ⟨rfl, rfl⟩ := Prod.mk.inj (Option.some.inj is_open)
        exact ⟨offset, List.mem_cons_self, scan 1, 0, c, rfl, rfl, shuts, rfl⟩
      | succ nesting =>
        obtain ⟨close, member, closes⟩ := ih rest is_open
        refine ⟨close, List.mem_cons_of_mem _ member, closes.behind c ?_⟩
        rw [scan, if_neg (by rw [beq_iff_eq]; omega), Int.add_sub_cancel, Int.natCast_succ]

/-- A pair is closed by what follows its opening bracket, whether this is open already or not. -/
theorem closes_of_mem {opening : Nat} (all : pairsFrom? t offset skip open_ = some pairs)
    (member : (opening, close) ∈ pairs) :
    (∃ nesting bracket, open_[nesting]? = some (bracket, opening) ∧
      Closes t offset skip nesting bracket close) ∨
    ∃ n bracket, opening = offset + n ∧ skipBehind n t skip = 0 ∧ t[n]? = some bracket ∧
      isOpening bracket = true ∧ Closes (t.drop (n + 1)) (opening + 1) 0 0 bracket close := by
  induction t generalizing offset skip open_ pairs with
  | nil =>
    cases open_ with
    | nil => cases all; cases member
    | cons _ _ => cases all
  | cons c t ih =>
    -- A bracket that is opened later is opened behind the byte.
    have later {n skip' : Nat} {bracket : UInt8} (next : skipBehind 1 (c :: t) skip = skip')
        (place : opening = offset + 1 + n) (code : skipBehind n t skip' = 0)
        (rest : t[n]? = some bracket ∧ isOpening bracket = true ∧
          Closes (t.drop (n + 1)) (opening + 1) 0 0 bracket close) :
        ∃ n bracket, opening = offset + n ∧ skipBehind n (c :: t) skip = 0 ∧
          (c :: t)[n]? = some bracket ∧ isOpening bracket = true ∧
          Closes ((c :: t).drop (n + 1)) (opening + 1) 0 0 bracket close := by
      refine ⟨n + 1, bracket, by omega, ?_, rest⟩
      rw [Nat.add_comm n 1, skipBehind_add, next]
      exact code
    cases pairing all with
    | passed rest scan =>
      rcases ih rest member with ⟨nesting, b, is_open, closes⟩ | ⟨n, b, place, code, byte⟩
      · exact .inl ⟨nesting, b, is_open, closes.behind c (scan _)⟩
      · exact .inr (later rfl place code byte)
    | opened is_code next opens rest scan =>
      subst is_code
      rcases ih rest member with ⟨nesting, b, is_open, closes⟩ | ⟨n, b, place, code, byte⟩
      · cases nesting with
        | zero =>
          obtain ⟨rfl, rfl⟩ := Prod.mk.inj (Option.some.inj is_open)
          exact .inr ⟨0, c, rfl, rfl, rfl, opens, closes⟩
        | succ nesting => exact .inl ⟨nesting, b, is_open, closes.behind c (scan _)⟩
      · exact .inr (later next place code byte)
    | closed is_code next shuts stack all_pairs rest scan =>
      subst is_code stack all_pairs
      rcases List.mem_cons.1 member with same | member
      · obtain ⟨rfl, rfl⟩ := Prod.mk.inj same
        exact .inl ⟨0, _, rfl, scan 1, 0, c, rfl, rfl, shuts, rfl⟩
      rcases ih rest member with ⟨nesting, b, is_open, closes⟩ | ⟨n, b, place, code, byte⟩
      · refine .inl ⟨nesting + 1, b, is_open, closes.behind c ?_⟩
        rw [scan, if_neg (by rw [beq_iff_eq]; omega), Int.add_sub_cancel, Int.natCast_succ]
      · exact .inr (later next place code byte)

/-- The brackets of the rest of a source are paired as well, among those that are open in front of it. -/
theorem pairsFrom_drop (n : Nat) (all : pairsFrom? t offset skip open_ = some pairs) :
    ∃ open' later, pairsFrom? (t.drop n) (offset + n) (skipBehind n t skip) open' = some later ∧
      later ⊆ pairs := by
  induction n generalizing t offset skip open_ pairs with
  | zero => exact ⟨open_, pairs, by rwa [List.drop_zero, skipBehind], fun _ => id⟩
  | succ n ih =>
    cases t with
    | nil =>
      cases open_ with
      | nil => exact ⟨[], pairs, by cases all; rfl, fun _ => id⟩
      | cons _ _ => cases all
    | cons c t =>
      obtain ⟨open'', pairs', rest, among⟩ : ∃ open'' pairs',
          pairsFrom? t (offset + 1) (skipBehind 1 (c :: t) skip) open'' = some pairs' ∧
            pairs' ⊆ pairs := by
        cases pairing all with
        | passed rest _ => exact ⟨_, _, rest, List.Subset.refl _⟩
        | opened _ next _ rest _ => exact ⟨_, _, next ▸ rest, List.Subset.refl _⟩
        | closed _ next _ _ all_pairs rest _ =>
          exact ⟨_, _, next ▸ rest, all_pairs ▸ List.subset_cons_self _ _⟩
      obtain ⟨open', later, there, fewer⟩ := ih rest
      refine ⟨open', later, ?_, List.Subset.trans fewer among⟩
      rw [List.drop_succ_cons, Nat.add_comm n 1, skipBehind_add, ← Nat.add_assoc]
      exact there

/-- A bracket has a **partner** of its kind. -/
structure IsPair (code : Text) (opening close : Nat) : Prop where
  /-- The bracket stands in code. -/
  opens : Opens code opening
  /-- Its partner is found. -/
  found : closing? code opening = some close
  /-- The partner is of the same kind. -/
  kind : ∃ c, code[close]? = some c ∧ isClosing c = true ∧ code[opening]? = some (Braced.partner c)

/-- What closes an opening bracket in code is its partner. -/
theorem Opens.isPair {opening : Nat} (opens : Opens code opening) (byte : code[opening]? = some bracket)
    (closes : Closes (code.drop (opening + 1)) (opening + 1) 0 0 bracket close) :
    IsPair code opening close := by
  refine ⟨opens, ?_, ?_⟩
  · rw [closing?, opens.scan]
    exact closes.found
  · obtain ⟨n, d, rfl, byte', closing, rfl⟩ := closes.kind
    exact ⟨d, by rwa [List.getElem?_drop] at byte', closing, byte⟩

/-- **Every opening bracket in code** has a partner, if all brackets of the source can be paired. -/
theorem Opens.exists_pair (all : pairs? code = some pairs) (opens : Opens code offset) :
    ∃ close, (offset, close) ∈ pairs ∧ IsPair code offset close := by
  obtain ⟨open', later, there, among⟩ := pairsFrom_drop offset all
  obtain ⟨c, byte, opening⟩ := opens.bracket
  obtain ⟨bound, rfl⟩ := List.getElem?_eq_some_iff.1 byte
  rw [show skipBehind offset code 0 = 0 from opens.placed, Nat.zero_add,
    List.drop_eq_getElem_cons bound, pairsFrom_cons, (plain_of_isOpening opening).1, opening] at there
  simp only [Bool.false_eq_true, if_false, if_true] at there
  obtain ⟨close, member, closes⟩ :=
    @exists_closes _ (offset + 1) 0 _ _ code[offset] there offset 0 rfl
  exact ⟨close, among member, opens.isPair byte closes⟩

/-- **The pairs of a source** are its opening brackets in code, with their partners. -/
theorem mem_pairs_iff (all : pairs? code = some pairs) {opening : Nat} :
    (opening, close) ∈ pairs ↔ IsPair code opening close := by
  constructor
  · intro member
    rcases closes_of_mem all member with ⟨_, _, is_open, -⟩ | ⟨n, b, place, in_code, byte, opens, closes⟩
    · cases is_open
    · obtain rfl : opening = n := place.trans (Nat.zero_add n)
      exact Opens.isPair ⟨in_code, b, byte, opens⟩ byte closes
  · intro pair
    obtain ⟨close', member, pair'⟩ := pair.opens.exists_pair all
    obtain rfl := Option.some.inj (pair.found.symm.trans pair'.found)
    exact member

end Braced

end FlowTrace
