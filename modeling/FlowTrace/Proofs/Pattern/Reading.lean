import FlowTrace.Pattern.Reader
import FlowTrace.Proofs.Attempt
import FlowTrace.Proofs.Pattern.Extent
import FlowTrace.Proofs.Text.Repair

/-! # Expressions that are read as rows

The reader puts literals together and counts sizes and heights as it goes on, so that its atoms do
not look like the expression any more. What they stand for is a row of patterns one after the other
(`Reader.State.HasRead`), up to what the matcher can tell (`Same`). A row is read as a pattern as
long as it is small (`exists_read`); this is carried out for the elements that expressions for
calls are made of: the edge of a word, a name, blanks, and an argument list. -/

namespace FlowTrace.Pattern

/-! ## Expressions made of names

A name is built into an expression by writing a backslash in front of every byte that has a meaning
of its own (`quoteMeta`). -/

section Names

/-- Whether a byte has a meaning of its own in an expression. -/
def isSpecial (c : UInt8) : Bool := Text.isOneOf "\\.+*?()|[]\x7b\x7d^$" c

/-- An expression for a fixed text: a backslash stands in front of each byte with a meaning of its
own. -/
def quoteMeta (t : Text) : Text :=
  t.flatMap fun c => if isSpecial c then [Text.backslash, c] else [c]

/-! ### Special bytes -/

variable {c : UInt8} {t name tail whole : Text}

/-- The special bytes. -/
theorem isSpecial_iff (c : UInt8) : isSpecial c = true ↔
    c ∈ (['\\', '.', '+', '*', '?', '(', ')', '|', '[', ']', '\x7b', '\x7d', '^', '$'] : Text) :=
  List.contains_iff_mem

/-- Special bytes are ASCII. -/
theorem lt_of_isSpecial (special : isSpecial c = true) : c < 0x80 := by
  have low : List.all (Text.of "\\.+*?()|[]\x7b\x7d^$") (fun d => decide (d < 0x80)) = true := by
    decide
  exact of_decide_eq_true (List.all_eq_true.1 low c (List.contains_iff_mem.1 special))

/-- No byte inside of a code point is special. -/
theorem isSpecial_of_isContinuation (continues : Text.isContinuation c = true) :
    isSpecial c = false := by
  refine Bool.eq_false_iff.2 fun special => ?_
  have high := (Text.toNat_of_isContinuation continues).1
  have low := UInt8.lt_iff_toNat_lt.1 (lt_of_isSpecial special)
  exact absurd high (Nat.not_le.2 low)

/-- A special byte is quoted with a backslash. -/
theorem quoteMeta_special (special : isSpecial c = true) :
    quoteMeta (c :: t) = Text.backslash :: c :: quoteMeta t := by
  simp [quoteMeta, special]

/-- Any other byte is quoted as itself. -/
theorem quoteMeta_plain (plain : isSpecial c = false) : quoteMeta (c :: t) = c :: quoteMeta t := by
  simp [quoteMeta, plain]

/-- The continuation bytes at the head of a text are not changed. -/
theorem takeWhile_quoteMeta (apart : tail.takeWhile Text.isContinuation = []) (t : Text) :
    (quoteMeta t ++ tail).takeWhile Text.isContinuation = t.takeWhile Text.isContinuation := by
  induction t with
  | nil => exact apart
  | cons c t ih =>
    cases special : isSpecial c with
    | true =>
      have ends : Text.isContinuation c = false := by
        refine Bool.eq_false_iff.2 fun continues => ?_
        rw [isSpecial_of_isContinuation continues] at special
        cases special
      rw [quoteMeta_special special, List.cons_append, List.takeWhile_cons, List.takeWhile_cons,
        if_neg (by decide), if_neg (by simp [ends])]
    | false =>
      rw [quoteMeta_plain special, List.cons_append, List.takeWhile_cons, List.takeWhile_cons, ih]

/-- A code point is read from a quoted text as from the text itself. -/
theorem decodeHead_quoteMeta (apart : tail.takeWhile Text.isContinuation = []) (c : UInt8)
    (t : Text) : Text.decodeHead c (quoteMeta t ++ tail) = Text.decodeHead c t := by
  rw [← Text.decodeHead_takeWhile, takeWhile_quoteMeta apart, Text.decodeHead_takeWhile]

namespace Reader

variable {s s' : State}

/-! ### Steps -/

/-- A special byte behind a backslash stands for itself. -/
theorem step_quoted (special : isSpecial c = true) :
    s.step whole Text.backslash (c :: t) = .ok (2, s.addRune c.toNat) := by
  have two : t.length + 1 + 1 - t.length = 2 := by omega
  rw [isSpecial_iff] at special
  simp only [List.mem_cons, List.not_mem_nil, or_false] at special
  rcases special with rfl | rfl | rfl | rfl | rfl | rfl | rfl | rfl | rfl | rfl | rfl | rfl | rfl |
    rfl
  all_goals exact congrArg (fun read => Except.ok (read, _)) two

/-- Any other byte begins a code point that stands for itself, if it is well-formed. -/
theorem step_plain (whole : Text) (s : State) (plain : isSpecial c = false) (t : Text) :
    s.step whole c t = if isStray c t then .error ⟨.invalidUtf8, c :: t⟩
    else .ok ((Text.decodeHead c t).2 + 1, s.addRune (Text.decodeHead c t).1) := by
  have apart := mt (isSpecial_iff c).2 (by simp [plain])
  simp only [List.mem_cons, List.not_mem_nil, or_false, not_or] at apart
  simp only [State.step, beq_iff_eq, apart, if_false]
  exact if_neg apart.1

/-- Bytes that belong to what was read are passed over. -/
theorem run_skip (t : Text) (n : Nat) : run whole t n s = run whole (t.drop n) 0 s := by
  induction t generalizing n with
  | nil => cases n <;> rfl
  | cons c t ih =>
    cases n with
    | zero => rfl
    | succ n => exact ih n

/-- The reader goes on behind an element that it has read, unless something has grown too large. -/
theorem run_step {read : Nat} (step : s.step whole c t = .ok (read + 1, s'))
    (fits : s'.fault? = none) : run whole (c :: t) 0 s = run whole t read s' := by
  rw [run, step]
  simp only [bind, Except.bind, fits]
  rfl

/-! ### Names -/

/-- No ASCII byte is stray. -/
theorem isStray_ascii (ascii : c < 0x80) (t : Text) : isStray c t = false := by
  rw [isStray, Bool.and_eq_false_iff]
  exact Or.inl (decide_eq_false (UInt8.not_le.2 ascii))

/-- A glyph is well-formed when its first byte is not stray. -/
theorem sound_glyph (c : UInt8) (t : Text) :
    ((c :: t.take (Text.decodeHead c t).2).length != 1 || (Text.decodeHead c t).1 < 0x80) =
      !isStray c t := by
  by_cases ascii : c < 0x80
  · have low : c.toNat < 0x80 := UInt8.lt_iff_toNat_lt.1 ascii
    simp [Text.decodeHead_one (UInt8.lt_iff_toNat_lt.1 ascii), isStray_ascii ascii, low]
  · have high : 0x80 ≤ c := UInt8.not_lt.1 ascii
    by_cases alone : (Text.decodeHead c t).2 = 0
    · have outside : ¬ (Text.decodeHead c t).1 < 0x80 := by
        intro low
        exact ascii (ascii_of_decodeHead low c List.mem_cons_self)
      simp [isStray, high, alone, outside]
    · have inside : (Text.decodeHead c t).2 ≤ t.length :=
        Nat.le_trans (Text.decodeHead_le c t) (List.takeWhile_sublist _).length_le
      simp [isStray, high, bne, beq_eq_false_iff_ne.2 alone, Nat.min_eq_left inside]

/-- A single code point is no fault while there is room for intervals. -/
theorem fault_addRune (single : s.alternatives = []) (room : s.ends < intervalLimit) (r : Rune) :
    (s.addRune r).fault? = none := by
  have fits : ¬ intervalLimit < s.ends + 1 := by omega
  simp only [State.addRune, State.fault?, if_neg fits, State.push, single]
  rfl

/-- **A quoted name** is read code point by code point, and refused if it is not well-formed. -/
theorem run_quoteMeta (whole : Text) (apart : tail.takeWhile Text.isContinuation = [])
    (name : Text) (skip : Nat) (s : State)
    (within : skip ≤ (name.takeWhile Text.isContinuation).length)
    (single : s.alternatives = [])
    (room : s.ends + (Text.glyphs.go name skip).length ≤ intervalLimit) :
    if (Text.glyphs.go name skip).all fun g => g.bytes.length != 1 || g.rune < 0x80 then
      run whole (quoteMeta name ++ tail) skip s =
        run whole tail 0 (((Text.glyphs.go name skip).map (·.rune)).foldl State.addRune s)
    else ∃ part, run whole (quoteMeta name ++ tail) skip s = .error ⟨.invalidUtf8, part⟩ := by
  induction name generalizing skip s with
  | nil =>
    obtain rfl : skip = 0 := Nat.le_zero.1 within
    rfl
  | cons c name ih =>
    cases skip with
    | succ skip =>
      -- The byte was read along with the first byte of its code point, so it is no special one.
      cases continues : Text.isContinuation c with
      | false => simp [continues] at within
      | true =>
        rw [List.takeWhile_cons, if_pos continues, List.length_cons] at within
        rw [quoteMeta_plain (isSpecial_of_isContinuation continues)]
        exact ih skip s (Nat.le_of_succ_le_succ within) single room
    | zero =>
      rw [Text.glyphs_go_cons] at room ⊢
      rw [List.length_cons, ← Nat.add_assoc, Nat.add_right_comm] at room
      rw [List.all_cons, sound_glyph]
      have fits := fault_addRune single (s := s) (by omega) (Text.decodeHead c name).1
      have later := ih (Text.decodeHead c name).2 (s.addRune (Text.decodeHead c name).1)
        (Text.decodeHead_le c name) single room
      cases special : isSpecial c with
      | true =>
        have ascii := lt_of_isSpecial special
        rw [Text.decodeHead_one (UInt8.lt_iff_toNat_lt.1 ascii)] at fits later ⊢
        rw [quoteMeta_special special, isStray_ascii ascii]
        have went_on : run whole (Text.backslash :: c :: (quoteMeta name ++ tail)) 0 s =
            run whole (quoteMeta name ++ tail) 0 (s.addRune c.toNat) :=
          run_step (step_quoted special) fits
        simpa only [List.cons_append, went_on, Bool.not_false, Bool.true_and, List.map_cons,
          List.foldl_cons] using later
      | false =>
        have read := step_plain whole s special (quoteMeta name ++ tail)
        rw [isStray, decodeHead_quoteMeta apart, ← isStray] at read
        rw [quoteMeta_plain special]
        cases stray : isStray c name with
        | true =>
          rw [if_pos stray] at read
          refine ⟨c :: (quoteMeta name ++ tail), ?_⟩
          rw [List.cons_append, run, read]
          rfl
        | false =>
          rw [if_neg (by simp [stray])] at read
          have went_on := run_step read fits
          simpa only [List.cons_append, went_on, Bool.not_false, Bool.true_and, List.map_cons,
            List.foldl_cons] using later

end Reader

end Names

/-! ## Rows of patterns -/

/-- Two patterns are the **same to the matcher**: the ways to match are the same, in the same
order. -/
def Same (p q : Pattern) : Prop :=
  ∀ {β : Type} (a : Place) (captures : Captures) (accept : Place → Captures → Option β),
    p.run a captures accept = q.run a captures accept

section Rows

variable {β : Type} {a : Place} {captures : Captures} {accept : Place → Captures → Option β}

/-- A row of patterns runs its first one, and the others behind it. -/
theorem run_inOrder_cons (p : Pattern) (ps : List Pattern) :
    (inOrder (p :: ps)).run a captures accept =
      p.run a captures fun b captures' => (inOrder ps).run b captures' accept := by
  cases ps <;> rfl

/-- A row of patterns runs its parts one after the other. -/
theorem run_inOrder_append (ps qs : List Pattern) : (inOrder (ps ++ qs)).run a captures accept =
    (inOrder ps).run a captures fun b captures' => (inOrder qs).run b captures' accept := by
  induction ps generalizing a captures with
  | nil => rfl
  | cons p ps ih =>
    rw [List.cons_append, run_inOrder_cons, run_inOrder_cons]
    exact congrArg (p.run a captures) (funext fun b => funext fun captures' => ih)

end Rows

namespace Reader

variable {s s' : State} {n k : Nat} {atom joined first second : Atom} {atoms : List Atom}
  {ps : List Pattern} {t whole : Text}

/-! ## Atoms in a row -/

/-- The size of a row of atoms is the sum of their sizes. -/
theorem sizeOver_cons (atom : Atom) (atoms : List Atom) :
    sizeOver (atom :: atoms) = atom.size + sizeOver atoms := by
  have moved : ∀ (atoms : List Atom) (total : Nat),
      atoms.foldl (fun total atom => total + atom.size) total = total + sizeOver atoms := by
    intro atoms
    induction atoms with
    | nil => exact fun _ => rfl
    | cons atom atoms ih =>
      intro total
      rw [sizeOver, List.foldl_cons, List.foldl_cons, ih, ih, Nat.zero_add, Nat.add_assoc]
  rw [sizeOver, List.foldl_cons, moved, Nat.zero_add]

/-- A row is higher than its atoms by one. -/
theorem heightOver_le (shape : Shape) {h : Nat} (low : ∀ atom ∈ atoms, atom.height ≤ h) :
    heightOver shape atoms ≤ h + 1 := by
  have bounded : ∀ (heights : List Nat) (most : Nat), most ≤ h + 1 →
      (∀ height ∈ heights, height ≤ h + 1) → heights.foldl max most ≤ h + 1 := by
    intro heights
    induction heights with
    | nil => exact fun _ most _ => most
    | cons height heights ih =>
      intro most small all
      rw [List.forall_mem_cons] at all
      exact ih _ (Nat.max_le.2 ⟨small, all.1⟩) all.2
  refine bounded _ 1 (Nat.le_add_left 1 h) (List.forall_mem_map.2 fun atom member => ?_)
  have := low atom member
  split <;> omega

/-- Two literals that become one. -/
theorem append_cases (is_joined : first.append? second = some joined) :
    joined = { first with
      pattern := seq first.pattern second.pattern, size := first.size + second.size } := by
  unfold Atom.append? at is_joined
  split at is_joined
  · split at is_joined
    · exact (Option.some.inj is_joined).symm
    · cases is_joined
  · cases is_joined

/-- The patterns of atoms, first one first. -/
def rowOf (atoms : List Atom) : List Pattern := (atoms.map (·.pattern)).reverse

/-- What becomes of the last two atoms. -/
theorem joinLast_cases (atoms : List Atom) : joinLast atoms = atoms ∨
    ∃ second first rest, atoms = second :: first :: rest ∧
      joinLast atoms = { first with
        pattern := seq first.pattern second.pattern
        size := first.size + second.size } :: rest := by
  unfold joinLast
  split
  · rename_i second first rest
    split
    · rename_i joined is_joined
      exact Or.inr ⟨second, first, rest, rfl, by rw [append_cases is_joined]⟩
    · exact Or.inl rfl
  · exact Or.inl rfl

/-- Joining the last two atoms does not change the size of a row. -/
theorem sizeOver_joinLast (atoms : List Atom) : sizeOver (joinLast atoms) = sizeOver atoms := by
  rcases joinLast_cases atoms with same | ⟨second, first, rest, rfl, same⟩
  · rw [same]
  · rw [same]
    simp only [sizeOver_cons]
    omega

/-- Joining the last two atoms does not make a row higher. -/
theorem height_joinLast {h : Nat} (low : ∀ atom ∈ atoms, atom.height ≤ h) :
    ∀ atom ∈ joinLast atoms, atom.height ≤ h := by
  rcases joinLast_cases atoms with same | ⟨second, first, rest, rfl, same⟩
  · rwa [same]
  · rw [same]
    rw [List.forall_mem_cons, List.forall_mem_cons] at low
    exact List.forall_mem_cons.2 ⟨low.2.1, low.2.2⟩

/-- Joining the last two atoms does not change what a row means. -/
theorem same_joinLast (atoms : List Atom) :
    Same (inOrder (rowOf (joinLast atoms))) (inOrder (rowOf atoms)) := by
  rcases joinLast_cases atoms with same | ⟨second, first, rest, rfl, same⟩
  · rw [same]
    exact fun _ _ _ => rfl
  · intro β a captures accept
    rw [same]
    simp only [rowOf, List.map_cons, List.reverse_cons, List.append_assoc, run_inOrder_append]
    rfl

/-! ## What has been read -/

/-- The patterns `ps` **have been read**, in a single alternative outside all groups, with at most
`n` steps in all. -/
structure State.HasRead (s : State) (ps : List Pattern) (n : Nat) : Prop where
  /-- No flag has been set. -/
  flags : s.flags = {}
  /-- There is no other alternative. -/
  single : s.alternatives = []
  /-- No group is open. -/
  outside : s.frames = []
  /-- The sets are small. -/
  ends : s.ends ≤ 10 * n
  /-- The atoms are small. -/
  size : sizeOver s.atoms ≤ n
  /-- The atoms are low. -/
  height : ∀ atom ∈ s.atoms, atom.height ≤ 3
  /-- The atoms stand for the patterns. -/
  same : Same (inOrder (rowOf s.atoms)) (inOrder ps)

/-- A small and low atom is no fault. -/
theorem atom_fault (small : atom.size ≤ sizeLimit) (low : atom.height ≤ 4) :
    atom.fault? = none := by
  have low' : ¬ heightLimit < atom.height := by
    simp only [heightLimit]
    omega
  rw [Atom.fault?, if_neg (Nat.not_lt.2 small), if_neg low']

/-- There is no fault while there is one alternative, few intervals and only small atoms. -/
theorem fault_none (single : s.alternatives = []) (few : s.ends ≤ intervalLimit)
    (small : ∀ atom, s.atoms.head? = some atom → atom.fault? = none) : s.fault? = none := by
  rw [State.fault?, if_neg (Nat.not_lt.2 few), single]
  cases is_head : s.atoms.head? with
  | none => rfl
  | some atom => rw [Option.bind_some, small atom is_head]; rfl

namespace State.HasRead

/-- At the beginning nothing was read. -/
theorem start : State.HasRead {} [] 0 :=
  ⟨rfl, rfl, rfl, Nat.le_refl _, Nat.le_refl _, fun _ => nofun, fun _ _ _ => rfl⟩

/-- One more atom is read. -/
theorem add (read : s.HasRead ps n) (atom : Atom) {p : Pattern} (means : Same atom.pattern p)
    (k : Nat) (is_added : s'.atoms = atom :: joinLast s.atoms) (flags : s'.flags = s.flags)
    (single : s'.alternatives = s.alternatives) (outside : s'.frames = s.frames)
    (ends : s'.ends ≤ s.ends + 10 * k) (size : atom.size ≤ k) (height : atom.height ≤ 3) :
    s'.HasRead (ps ++ [p]) (n + k) := by
  refine ⟨flags.trans read.flags, single.trans read.single, outside.trans read.outside, ?_, ?_, ?_,
    ?_⟩
  · have := read.ends
    omega
  · rw [is_added, sizeOver_cons, sizeOver_joinLast]
    have := read.size
    omega
  · rw [is_added]
    exact List.forall_mem_cons.2 ⟨height, height_joinLast read.height⟩
  · rw [is_added]
    intro β a captures accept
    rw [rowOf, List.map_cons, List.reverse_cons, run_inOrder_append, run_inOrder_append,
      ← rowOf, same_joinLast, read.same]
    exact congrArg _ (funext fun b => funext fun captures' => means b captures' accept)

/-- A code point is read behind the patterns before it. -/
theorem addRune (read : s.HasRead ps n) (r : Rune) :
    (s.addRune r).HasRead (ps ++ [one ⟨false, [(r, r)]⟩]) (n + 1) := by
  have means : Same (among (s.flags.widen [(r, r)])) (one ⟨false, [(r, r)]⟩) := by
    rw [read.flags]
    exact fun _ _ _ => rfl
  exact read.add ⟨among (s.flags.widen [(r, r)]), 1, 1, 1, .literal s.flags.foldCase⟩ means 1
    rfl rfl rfl rfl (Nat.add_le_add_left (by decide) _) (Nat.le_refl 1) (Nat.le_add_left 1 2)

/-- Code points are read one after the other. -/
theorem addRunes (read : s.HasRead ps n) (rs : List Rune) :
    (rs.foldl State.addRune s).HasRead (ps ++ rs.map fun r => one ⟨false, [(r, r)]⟩)
      (n + rs.length) := by
  induction rs generalizing s ps n with
  | nil => simpa using read
  | cons r rs ih =>
    have later := ih (read.addRune r)
    rwa [List.append_assoc, Nat.add_assoc, Nat.add_comm 1] at later

/-- There is room for more intervals while there is room for more atoms. -/
theorem few (read : s.HasRead ps n) (room : n + 1 ≤ sizeLimit) : s.ends + 6 ≤ intervalLimit := by
  have := read.ends
  simp only [sizeLimit, intervalLimit] at *
  omega

/-- Nothing has grown too large as long as the number of steps is small. -/
theorem fault (read : s.HasRead ps n) (room : n ≤ sizeLimit) : s.fault? = none := by
  have few : s.ends ≤ intervalLimit := by
    have := read.ends
    simp only [sizeLimit, intervalLimit] at *
    omega
  refine fault_none read.single few fun atom is_head => ?_
  obtain ⟨atoms, is_atoms⟩ := List.head?_eq_some_iff.1 is_head
  have size := read.size
  have height := read.height atom (is_atoms ▸ List.mem_cons_self)
  rw [is_atoms, sizeOver_cons] at size
  exact atom_fault (by omega) (by omega)

/-- **The expression is a pattern** that the matcher cannot tell from the patterns read. -/
theorem closed (read : s.HasRead ps n) (some_read : 1 ≤ n) (room : n ≤ sizeLimit) :
    s.closed.fault? = none ∧ Same s.closed.pattern (inOrder ps) := by
  -- No parenthesis is open, so that closing the state puts its atoms in a row.
  have is_closed : s.closed = sequenced s.atoms := by
    rw [State.closed, read.single]
  have size : (sequenced s.atoms).size ≤ n := by
    have := read.size
    rw [← sizeOver_joinLast] at this
    unfold sequenced
    split
    · exact some_read
    · simpa [*, sizeOver] using this
    · assumption
  have height : (sequenced s.atoms).height ≤ 4 := by
    have low := height_joinLast read.height
    unfold sequenced
    split
    · exact Nat.le_add_left 1 3
    · rename_i atom is_atom
      rw [is_atom] at low
      exact Nat.le_succ_of_le (low atom (List.mem_singleton_self _))
    · exact heightOver_le _ low
  have pattern : (sequenced s.atoms).pattern = inOrder (rowOf (joinLast s.atoms)) := by
    unfold sequenced
    split
    · rename_i none
      rw [none]
      rfl
    · rename_i atom is_atom
      rw [is_atom]
      rfl
    · rw [rowOf, List.map_reverse]
  refine ⟨?_, ?_⟩
  · rw [is_closed]
    exact atom_fault (Nat.le_trans size room) height
  · intro β a captures accept
    rw [is_closed, pattern, same_joinLast, read.same]

end State.HasRead

/-! ## Elements of expressions -/

/-- The blanks of an expression. -/
theorem step_blank (flags : s.flags = {}) : s.step whole Text.backslash ('s' :: t) =
    .ok (2, s.addSet ⟨false, blankRanges⟩) := by
  have two : t.length + 1 + 1 - t.length = 2 := by omega
  obtain ⟨_, alternatives, atoms, frames, groups, ends, last⟩ := s
  subst flags
  exact congrArg (fun read => Except.ok (read, _)) two

/-- A greedy repetition of the last atom. -/
theorem step_star (whole : Text) {atoms : List Atom} (flags : s.flags = {})
    (is_last : s.atoms = atom :: atoms) (fresh : s.lastRepetition = none)
    (greedy : t.head? ≠ some ('?' : UInt8))
    (fits : (atom.repeated true 0 none false).fault? = none) :
    s.step whole '*' t = .ok (1, { s with
      atoms := atom.repeated true 0 none false :: atoms
      lastRepetition := some (('*' : UInt8) :: t) }) := by
  have reluctant : (t.head? == some ('?' : UInt8)) = false := by simpa using greedy
  have one : t.length + 1 - t.length = 1 := by omega
  show s.repetition whole 0 none false ('*' :: t) t = _
  rw [State.repetition]
  simp only [reluctant, Bool.false_eq_true, if_false, fresh, is_last, flags, List.length_cons, one]
  have same : (false == ({} : Flags).reluctant) = true := rfl
  rw [same, fits]
  rfl

/-- The atom of one code point of a set. -/
def setAtom (set : RuneSet) : Atom := { pattern := one ⟨set.negated, set.ranges.merged⟩ }

/-- The state behind a set and the star behind it; `t` is what follows. -/
def State.addMany (s : State) (set : RuneSet) (t : Text) : State :=
  { s.addSet set with
    atoms := (setAtom set).repeated true 0 none false :: joinLast s.atoms
    lastRepetition := some (('*' : UInt8) :: t) }

/-- A set and the star behind it are read as any number of code points of the set. -/
theorem run_many (whole bytes : Text) (set : RuneSet) (c : UInt8) (flags : s.flags = {})
    (single : s.alternatives = []) (few : s.ends + 2 * set.ranges.merged.length ≤ intervalLimit)
    (step : s.step whole c (bytes ++ ('*' : UInt8) :: t) = .ok (bytes.length + 1, s.addSet set))
    (greedy : t.head? ≠ some ('?' : UInt8)) :
    run whole (c :: (bytes ++ ('*' : UInt8) :: t)) 0 s = run whole t 0 (s.addMany set t) := by
  have fits : (s.addSet set).fault? = none :=
    fault_none single few fun atom is_head => by cases is_head; rfl
  have fits' : (s.addMany set t).fault? = none :=
    fault_none single few fun atom is_head => by cases is_head; rfl
  have starred : (s.addSet set).step whole '*' t = .ok (1, s.addMany set t) :=
    step_star whole flags rfl rfl greedy rfl
  rw [run_step step fits, run_skip, List.drop_left, run_step starred fits']

/-- Any number of code points of a small set. -/
theorem State.HasRead.addMany (read : s.HasRead ps n) (set : RuneSet)
    (merged : set.ranges.merged = set.ranges) (small : set.ranges.length ≤ 15) (t : Text) :
    (s.addMany set t).HasRead (ps ++ [many (one set)]) (n + 3) := by
  have means : Same ((setAtom set).repeated true 0 none false).pattern (many (one set)) := by
    intro β a captures accept
    show (many (one ⟨set.negated, set.ranges.merged⟩)).run a captures accept = _
    rw [merged]
  have ends : s.ends + 2 * set.ranges.merged.length ≤ s.ends + 10 * 3 := by
    rw [merged]
    omega
  exact read.add _ means 3 rfl rfl rfl rfl ends (Nat.le_refl 3) (Nat.le_add_left 2 1)

/-- The blanks are a merged set. -/
theorem merged_blankRanges : blankRanges.merged = blankRanges := by
  rw [Intervals.merged, List.mergeSort_of_pairwise (by decide)]
  rfl

/-- Blanks are read as the pattern of any number of blanks. -/
theorem run_blanks (whole : Text) (read : s.HasRead ps n) (room : n + 1 ≤ sizeLimit)
    (greedy : t.head? ≠ some ('?' : UInt8)) : run whole (Text.of "\\s*" ++ t) 0 s =
      run whole t 0 (s.addMany ⟨false, blankRanges⟩ t) := by
  refine run_many whole ['s'] ⟨false, blankRanges⟩ Text.backslash read.flags read.single ?_
    (step_blank read.flags) greedy
  rw [merged_blankRanges]
  exact read.few room

/-- The code points that an argument list can hold: it does not reach into another statement. -/
def argumentSet : RuneSet := ⟨true, charRanges ";\x7b\x7d"⟩

/-- The bytes of arguments are a merged set. -/
theorem merged_argumentSet : argumentSet.ranges.merged = argumentSet.ranges := by
  rw [Intervals.merged, List.mergeSort_of_pairwise (by decide)]
  rfl

/-- The set of the bytes of arguments is read in one step. -/
theorem step_argumentSet (whole t : Text) (flags : s.flags = {}) :
    s.step whole '[' (Text.of "^;\x7b\x7d]" ++ ('*' : UInt8) :: t) =
      .ok (6, s.addSet argumentSet) := by
  have six : t.length + 1 + 6 - (t.length + 1) = 6 := by omega
  obtain ⟨_, alternatives, atoms, frames, groups, ends, last⟩ := s
  subst flags
  exact congrArg (fun read => Except.ok (read, _)) six

/-- The atom of an argument list in parentheses, the group with the given index. -/
def argumentsAtom (index : Nat) : Atom :=
  let inside := (setAtom argumentSet).repeated true 0 none false
  { inside with
    pattern := group index inside.pattern, size := inside.size + 2, height := inside.height + 1
    shape := .single }

/-- The state behind an argument list in parentheses. -/
def State.addArguments (s : State) : State :=
  { s.push (argumentsAtom (s.groups + 1)) with
    groups := s.groups + 1
    ends := s.ends + 2 * argumentSet.ranges.merged.length }

/-- The group of the arguments is read behind the patterns before it. -/
theorem State.HasRead.addArguments (read : s.HasRead ps n) :
    s.addArguments.HasRead (ps ++ [group (s.groups + 1) (many (noneOf ";\x7b\x7d"))]) (n + 5) := by
  have means : Same (argumentsAtom (s.groups + 1)).pattern
      (group (s.groups + 1) (many (noneOf ";\x7b\x7d"))) := by
    intro β a captures accept
    show (group (s.groups + 1) (many (one ⟨true, argumentSet.ranges.merged⟩))).run a captures
      accept = _
    rw [merged_argumentSet]
    rfl
  have ends : s.ends + 2 * argumentSet.ranges.merged.length ≤ s.ends + 10 * 5 := by
    rw [merged_argumentSet]
    exact Nat.add_le_add_left (by decide) _
  exact read.add _ means 5 rfl rfl rfl rfl ends (Nat.le_refl 5) (Nat.le_refl 3)

/-- An argument list in parentheses is read as a group. -/
theorem run_arguments (whole t : Text) (read : s.HasRead ps n) (room : n + 5 ≤ sizeLimit) :
    run whole (Text.of "([^;\x7b\x7d]*)" ++ t) 0 s = run whole t 0 s.addArguments := by
  have few := read.few (by omega)
  have few' : s.ends + 2 * argumentSet.ranges.merged.length ≤ intervalLimit := by
    rw [merged_argumentSet]
    exact few
  let inside := s.openGroup true s.flags
  have opens : s.step whole '(' (Text.of "[^;\x7b\x7d]*)" ++ t) = .ok (1, inside) := rfl
  have fits : inside.fault? = none :=
    fault_none rfl (Nat.le_of_add_right_le few) fun _ => nofun
  have closes : (inside.addMany argumentSet ((')' : UInt8) :: t)).step whole ')' t =
      .ok (1, s.addArguments) := rfl
  calc run whole (Text.of "([^;\x7b\x7d]*)" ++ t) 0 s
    _ = run whole (Text.of "[^;\x7b\x7d]*)" ++ t) 0 inside := run_step opens fits
    _ = run whole ((')' : UInt8) :: t) 0 (inside.addMany argumentSet ((')' : UInt8) :: t)) :=
      run_many whole (Text.of "^;\x7b\x7d]") argumentSet '[' read.flags rfl few'
        (step_argumentSet whole _ read.flags)
        (show some (')' : UInt8) ≠ some ('?' : UInt8) by decide)
    _ = run whole t 0 s.addArguments := run_step closes (read.addArguments.fault room)

/-- A special byte behind a backslash is read as that byte. -/
theorem run_quoted (whole t : Text) {c : UInt8} (special : isSpecial c = true)
    (read : s.HasRead ps n) (room : n + 1 ≤ sizeLimit) :
    run whole (Text.backslash :: c :: t) 0 s = run whole t 0 (s.addRune c.toNat) :=
  run_step (step_quoted special) ((read.addRune c.toNat).fault room)

end Reader

/-! ## Whole expressions -/

open Reader

/-- An expression that is read to its end is a pattern. -/
theorem exists_read {t : Text} {s : State} {ps : List Pattern} {n : Nat}
    (ran : Reader.run t t 0 {} = .ok s) (has_read : s.HasRead ps n) (some_read : 1 ≤ n)
    (room : n ≤ sizeLimit) : ∃ p, read t = .ok p ∧ Same p (inOrder ps) := by
  obtain ⟨fits, same⟩ := has_read.closed some_read room
  refine ⟨s.closed.pattern, ?_, same⟩
  simp [read, ran, bind, Except.bind, fits, has_read.outside, pure, Except.pure]

/-- The patterns of a name: one for each code point. -/
def namePatterns (name : Text) : List Pattern := name.runes.map fun r => one ⟨false, [(r, r)]⟩

/-- Code points open no groups. -/
theorem groups_addRunes (s : State) (rs : List Rune) :
    (rs.foldl State.addRune s).groups = s.groups := by
  induction rs generalizing s with
  | nil => rfl
  | cons r rs ih => exact ih (s.addRune r)

/-- The beginning of an expression for calls: the edge of a word, and a name. -/
theorem run_name (whole name tail : Text) (apart : tail.takeWhile Text.isContinuation = [])
    (room : name.runeCount + 1 ≤ sizeLimit) :
    if name.isValid then
      ∃ s : State, s.HasRead (edge :: namePatterns name) (1 + name.runeCount) ∧ s.groups = 0 ∧
        Reader.run whole (Text.of "\\b" ++ (quoteMeta name ++ tail)) 0 {} =
          Reader.run whole tail 0 s
    else ∃ part, Reader.run whole (Text.of "\\b" ++ (quoteMeta name ++ tail)) 0 {} =
      .error ⟨.invalidUtf8, part⟩ := by
  let atEdge : State := State.addAssertion {} .wordEdge
  have read : atEdge.HasRead [edge] 1 :=
    State.HasRead.start.add { pattern := edge } (fun _ _ _ => rfl) 1 rfl rfl rfl rfl
      (Nat.zero_le _) (Nat.le_refl 1) (Nat.le_add_left 1 2)
  have stepped : State.step whole {} Text.backslash ('b' :: (quoteMeta name ++ tail)) =
      .ok (2, atEdge) := rfl
  have edged : Reader.run whole (Text.of "\\b" ++ (quoteMeta name ++ tail)) 0 {} =
      Reader.run whole (quoteMeta name ++ tail) 0 atEdge :=
    run_step stepped (read.fault (Nat.le_add_left 1 _))
  -- The state has no atoms yet, so that all of the name fits in.
  have few : atEdge.ends + name.glyphs.length ≤ intervalLimit := by
    have none : atEdge.ends = 0 := rfl
    have small : name.glyphs.length + 1 ≤ sizeLimit := room
    simp only [sizeLimit, intervalLimit] at *
    omega
  have named := run_quoteMeta whole apart name 0 atEdge (Nat.zero_le _) rfl few
  rw [edged]
  cases valid : name.isValid with
  | true =>
    rw [if_pos rfl]
    refine ⟨name.runes.foldl State.addRune atEdge, ?_, groups_addRunes atEdge name.runes, ?_⟩
    · have has_read := read.addRunes name.runes
      rwa [Text.runes, List.length_map] at has_read
    · exact (if_pos valid).mp named
  | false =>
    rw [if_neg Bool.false_ne_true]
    exact (if_neg (Bool.eq_false_iff.1 valid)).mp named

end FlowTrace.Pattern
