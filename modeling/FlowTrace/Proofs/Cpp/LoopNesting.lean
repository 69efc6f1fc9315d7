import FlowTrace.Proofs.Braced.Extent
import FlowTrace.Proofs.Cpp.Extent
import FlowTrace.Proofs.Pattern.Groups

/-! # C++ loops inside loops

A loop reaches from its word to the closing brace of its body. Loops are picked out by a pattern,
which may find one in a literal; the body that it then gets can begin in one loop and end behind it.
Two loops that stand in code do not cross (`Program.nested_of_inCode`): the brackets of the one that
begins later stand between the same brackets of the other. -/

namespace FlowTrace.Cpp

open Pattern

variable {code : Text} {m m' : Match} {opening start stop : Nat}

/-! ## Heads of loops -/

/-- The byte between two offsets of what stands between them. -/
theorem mem_slice {lo hi i : Nat} {c : UInt8} (low : lo ≤ i) (high : i < hi)
    (byte : code[i]? = some c) : c ∈ code.slice lo hi := by
  refine List.mem_of_getElem? (i := i - lo) ?_
  rw [Text.slice, List.getElem?_take_of_lt (by omega), List.getElem?_drop, Nat.add_sub_cancel' low]
  exact byte

/-- The **head** of a loop: behind its word, and perhaps blanks, a parenthesis opens. -/
structure Head (code : Text) (m : Match) : Prop where
  /-- The parenthesis is the last byte. -/
  opening : code[m.stop - 1]? = some ('(' : UInt8)
  /-- It stands behind the word. -/
  behind : m.start < m.stop - 1
  /-- There is neither a mark nor a bracket in front of it. -/
  plain : ∀ i, m.start ≤ i → i < m.stop - 1 → ∀ c, code[i]? = some c →
    Braced.isMark c = false ∧ Braced.isClosing c = false

/-- What a loop pattern takes in in front of the parenthesis. -/
def loopWord : Pattern := seq edge (seq (group 1 (alt "for" "while")) blanks)

/-- The bytes that open literals and close brackets. -/
def strangers : Text := "\"')]\x7d"

/-- Bytes that are no strangers are neither marks nor closing brackets. -/
theorem plain_of_not_mem {c : UInt8} (other : c ∉ strangers) :
    Braced.isMark c = false ∧ Braced.isClosing c = false := by
  rw [Bool.eq_false_iff, Bool.eq_false_iff]
  constructor
  · intro mark
    rw [Braced.isMark, Bool.or_eq_true, beq_iff_eq, beq_iff_eq] at mark
    rcases mark with rfl | rfl <;> exact other (by decide)
  · intro closing
    rw [Braced.isClosing, Bool.or_eq_true, Bool.or_eq_true, beq_iff_eq, beq_iff_eq,
      beq_iff_eq] at closing
    rcases closing with (rfl | rfl) | rfl <;> exact other (by decide)

/-- The loops that are found begin with a head. -/
theorem head_of_mem_findAll (found : m ∈ loopPattern.findAll code) : Head code m := by
  obtain ⟨read, a, b, reads, taken, start, stop⟩ := isMatch_of_mem_findAll found
  obtain ⟨_, _, _, at_edge, taken⟩ := takes_inOrder_cons taken
  obtain ⟨_, _, _, word, taken⟩ := takes_inOrder_cons taken
  obtain ⟨behind, _, _, blank, taken⟩ := takes_inOrder_cons taken
  have parenthesis : behind.Reads "(" b := takes_literal (by decide +kernel) taken
  have in_front : loopWord.Takes a behind _ := .seq at_edge (.seq word blank)
  have ends : b.offset = behind.offset + 1 := parenthesis.offset
  have strange : ∀ c ∈ strangers, c < 0x80 ∧ loopWord.leavesOut c = true := by decide +kernel
  obtain ⟨read', reads', -⟩ := in_front.exists_reads
  have filled := in_front.least_le
  have least : loopWord.least = 3 := rfl
  rw [least] at filled
  refine ⟨?_, by omega, ?_⟩
  · have before := reads.trans reads'
    have here : behind.offset = (read ++ read').length := by simpa [Place.start] using before.offset
    rw [stop, ends, Nat.add_sub_cancel, here, show code = _ from before.rest,
      List.getElem?_append_right (Nat.le_refl _), Nat.sub_self, parenthesis.rest]
    rfl
  · intro i low high c byte
    refine plain_of_not_mem fun known => ?_
    obtain ⟨ascii, left_out⟩ := strange c known
    obtain ⟨read'', reads'', absent⟩ := in_front.exists_reads_without ascii left_out
    have member := mem_slice low high byte
    rw [start, stop, ends, Nat.add_sub_cancel, reads.slice reads''] at member
    exact absent member

/-- A loop whose word stands in code has its parenthesis there. -/
theorem Head.opens (head : Head code m) (in_code : Braced.InCode code m.start) :
    Braced.Opens code (m.stop - 1) := by
  have bound := (List.getElem?_eq_some_iff.1 head.opening).1
  have reached := in_code.reach (Nat.le_of_lt head.behind) (Nat.le_of_lt bound)
    fun i low high c byte => (head.plain i low high c byte).1
  exact ⟨reached, _, head.opening, by decide⟩

/-! ## Bodies of loops -/

/-- A body **follows** the bracket that its parentheses end with: nothing but blanks stand in front
of its brace. -/
structure Follows (code : Text) (last start stop : Nat) : Prop where
  /-- It stands behind the bracket. -/
  behind : last < start
  /-- It begins in code. -/
  in_code : Braced.InCode code start
  /-- It begins with a brace. -/
  brace : code[start]? = some ('\x7b' : UInt8)
  /-- It ends with its partner. -/
  closing : Braced.closing? code start = some stop
  /-- There are only blanks in between. -/
  blanks : ∀ i, last < i → i < start → ∀ c, code[i]? = some c →
    Text.isOneOf " \t\r\n" c = true

/-- A blank is neither a mark nor an opening bracket. -/
theorem isMark_of_isOneOf {c : UInt8} (blank : Text.isOneOf " \t\r\n" c = true) :
    Braced.isMark c = false ∧ Braced.isOpening c = false ∧ Braced.isClosing c = false := by
  have all : (" \t\r\n" : Text).all (fun c => !Braced.isMark c && !Braced.isOpening c &&
      !Braced.isClosing c) = true := by decide
  simpa [and_assoc] using List.all_eq_true.1 all c (List.contains_iff_mem.1 blank)

/-- The brace of a body stands in code if the parenthesis in front of it does. -/
theorem follows_of_bodyAfter (opens : Braced.Opens code opening)
    (found : bodyAfter? code opening = some (start, stop)) :
    ∃ last, Braced.closing? code opening = some last ∧ Follows code last start stop := by
  obtain ⟨last, is_last, behind, blanks, brace, closing⟩ := exists_of_bodyAfter found
  obtain ⟨_, partner, -, plain, in_code⟩ := opens.partner is_last
  have inside := (List.getElem?_eq_some_iff.1 brace).1
  have reached := (in_code.succ partner plain).reach behind (Nat.le_of_lt inside)
    fun i low high c byte => (isMark_of_isOneOf (blanks i low high c byte)).1
  exact ⟨last, is_last, behind, reached, brace, closing, blanks⟩

/-! ## Nesting -/

/-- What follows a head begins where a bracket opens. -/
theorem Follows.opens {last : Nat} (follows : Follows code last start stop) :
    Braced.Opens code start := ⟨follows.in_code, _, follows.brace, by decide⟩

/-- What encloses the parenthesis of a loop encloses its body. -/
theorem Follows.inside {outer close last : Nat} (follows : Follows code last start stop)
    (around : Braced.Opens code outer) (closed : Braced.closing? code outer = some close)
    (behind : outer < last) (before : last < close) : stop < close := by
  obtain ⟨c, byte, closing, -⟩ := around.partner closed
  have between := follows.behind
  refine Braced.closing_nested around closed follows.opens follows.closing (by omega) ?_
  -- The closing bracket is neither a blank nor the brace.
  by_contra late
  rcases Nat.lt_or_eq_of_le (Nat.le_of_not_lt late) with early | rfl
  · have blank := follows.blanks close before early c byte
    rw [(isMark_of_isOneOf blank).2.2] at closing
    cases closing
  · exact follows.opens.ne_closing byte closing rfl

/-- **Two loops in code do not cross**: one that begins in another one ends inside of it. -/
theorem stop_lt_of_heads {start' stop' : Nat} (head : Head code m) (head' : Head code m')
    (in_code : Braced.InCode code m.start) (in_code' : Braced.InCode code m'.start)
    (apart : m.stop ≤ m'.start) (body : bodyAfter? code (m.stop - 1) = some (start, stop))
    (body' : bodyAfter? code (m'.stop - 1) = some (start', stop')) (within : m'.start ≤ stop) :
    stop' < stop := by
  have opens := head.opens in_code
  have opens' := head'.opens in_code'
  obtain ⟨last, is_last, follows⟩ := follows_of_bodyAfter opens body
  obtain ⟨last', is_last', follows'⟩ := follows_of_bodyAfter opens' body'
  have word := head.behind
  have word' := head'.behind
  have opened := (Braced.closing_between is_last').1
  obtain ⟨c, byte, closing, -⟩ := opens.partner is_last
  obtain ⟨d, byte', closing', -⟩ := follows.opens.partner follows.closing
  -- The parenthesis of the inner loop stands in front of the end of the outer one.
  have before : m'.stop - 1 < stop := by
    by_contra late
    rcases Nat.lt_or_eq_of_le (Nat.le_of_not_lt late) with early | same
    · rw [(head'.plain stop within early d byte').2] at closing'
      cases closing'
    · exact opens'.ne_closing byte' closing' same.symm
  rcases Nat.lt_trichotomy (m'.stop - 1) last with enclosed | same | behind
  · -- It stands between the parentheses of the outer loop.
    have inner := Braced.closing_nested opens is_last opens' is_last' (by omega) enclosed
    have ends := follows'.inside opens is_last (by omega) inner
    have between := follows.behind
    have body_filled := (Braced.closing_between follows.closing).1
    omega
  · exact absurd same (opens'.ne_closing byte closing)
  · -- It stands in the body of the outer loop.
    have in_body : start < m'.stop - 1 := by
      by_contra early
      rcases Nat.lt_or_eq_of_le (Nat.le_of_not_lt early) with gap | same
      · have blank := follows.blanks _ behind gap _ head'.opening
        exact absurd blank (by decide)
      · have byte := head'.opening
        rw [same, follows.brace] at byte
        exact absurd (Option.some.inj byte) (by decide)
    have inner := Braced.closing_nested follows.opens follows.closing opens' is_last' in_body before
    exact follows'.inside follows.opens follows.closing (by omega) inner

/-- **Loops in code are nested.** -/
theorem Program.nested_of_inCode {source : Text} {p : Program}
    (parsed : Program.parse source = .ok p) {loop loop' : Loop} (member : loop ∈ p.loops)
    (member' : loop' ∈ p.loops) (in_code : Braced.InCode p.code loop.offset)
    (in_code' : Braced.InCode p.code loop'.offset) (order : loop.offset ≤ loop'.offset)
    {body body' : Nat × Nat} (is_body : loop.body = some body) (is_body' : loop'.body = some body')
    (within : loop'.offset ≤ body.2) : body'.2 ≤ body.2 := by
  obtain ⟨code, -, -, rfl⟩ := Program.parse_eq_ok.1 parsed
  obtain ⟨m, found, rfl⟩ := List.mem_map.1 member
  obtain ⟨m', found', rfl⟩ := List.mem_map.1 member'
  have head := head_of_mem_findAll found
  have head' := head_of_mem_findAll found'
  have nonempty : 1 ≤ loopPattern.least := by decide
  have apart : m = m' ∨ m.stop ≤ m'.start ∨ m'.stop ≤ m.start := by
    have ordered := pairwise_findAll nonempty (t := code)
    exact List.Pairwise.forall_of_forall_of_flip
      (R := fun m m' : Match => m = m' ∨ m.stop ≤ m'.start ∨ m'.stop ≤ m.start)
      (fun _ _ => .inl rfl) (ordered.imp fun le => .inr (.inl le))
      (ordered.imp fun le => .inr (.inr le)) found found'
  have start_lt := head'.behind
  simp only at *
  rcases apart with rfl | apart | apart
  · rw [is_body] at is_body'
    rw [Option.some.inj is_body']
  · exact Nat.le_of_lt (stop_lt_of_heads head head' in_code in_code' apart is_body is_body' within)
  · omega

end FlowTrace.Cpp
