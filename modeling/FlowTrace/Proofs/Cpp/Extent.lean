import FlowTrace.Cpp.Estimate
import FlowTrace.Proofs.Attempt
import FlowTrace.Proofs.Braced.Extent
import FlowTrace.Proofs.Pattern.Extent
import FlowTrace.Proofs.Text.Glyphs

/-! # What is cut out of C++ sources

A program is picked out of its source by offsets: those of matches and their groups, and those of
brackets. Every one of them stands inside the source, and a part never ends before it begins. -/

namespace FlowTrace.Cpp

open Pattern

/-- The patterns that pick out statements, each with the groups that are cut out of the source
whenever the pattern matches. -/
def cutGroups : List (Pattern × List Nat) :=
  [(functionPattern, [1, 2, 3]), (declarationPattern, [1, 2]), (arrayPattern, [1, 2, 3]),
    (conditionPattern, [1]), (elsePattern, []), (loopPattern, [1]), (loopVariablePattern, [1, 2]),
    (callPattern, [1, 2]), (returnPattern, [1]), (printPattern, [1]), (assignPattern, [1, 2]),
    (appendPattern, [1])]

/-- A match stands **inside** the source, is not empty, and none of its groups is missing or stands
outside of it. -/
structure CutOut (m : Match) (groups : List Nat) (code : Text) : Prop where
  /-- There is a byte in it. -/
  filled : m.start < m.stop
  /-- It ends inside the source. -/
  inside : m.stop ≤ code.length
  /-- Its groups are inside the match. -/
  groups : ∀ index ∈ groups, ∃ extent, m.extent? index = some extent ∧ m.start ≤ extent.1 ∧
    extent.1 ≤ extent.2 ∧ extent.2 ≤ m.stop

/-- **Every match is cut out of the source.** -/
theorem cutOut_of_mem_findAll {p : Pattern} {groups : List Nat} (cut : (p, groups) ∈ cutGroups)
    {code : Text} {m : Match} (member : m ∈ p.findAll code) : CutOut m groups code := by
  have all : ∀ entry ∈ cutGroups, 1 ≤ entry.1.least ∧ ∀ index ∈ entry.2,
      entry.1.passes index = true := by decide
  obtain ⟨filled, passed⟩ := all _ cut
  have found := isMatch_of_mem_findAll member
  obtain ⟨ordered, inside⟩ := found.inside
  refine ⟨Nat.lt_of_lt_of_le (Nat.lt_add_of_pos_right filled) ordered, inside,
    fun index among => ?_⟩
  obtain ⟨extent, is_extent⟩ := found.exists_extent (passed index among)
  exact ⟨extent, is_extent, found.extent_inside is_extent⟩

/-- Behind an offset, up to what is left when bytes of some kind are dropped, there are only such
bytes. -/
theorem dropWhile_gap {code : Text} {offset : Nat} (inside : offset ≤ code.length)
    (p : UInt8 → Bool) : ∃ start, code.length - ((code.drop offset).dropWhile p).length = start ∧
      offset ≤ start ∧ code.drop start = (code.drop offset).dropWhile p ∧
      ∀ i, offset ≤ i → i < start → ∀ c, code[i]? = some c → p c = true := by
  have parts := List.takeWhile_append_dropWhile (p := p) (l := code.drop offset)
  have taken : ∀ c ∈ (code.drop offset).takeWhile p, p c = true :=
    List.all_eq_true.1 List.all_takeWhile
  generalize (code.drop offset).takeWhile p = gap at parts taken
  generalize (code.drop offset).dropWhile p = rest at parts
  have lengths := congrArg List.length parts
  rw [List.length_drop, List.length_append] at lengths
  have start : code.length - rest.length = offset + gap.length := by omega
  refine ⟨offset + gap.length, start, Nat.le_add_right _ _, ?_, fun i low high c byte => ?_⟩
  · rw [← List.drop_drop, ← parts, List.drop_left]
  · obtain ⟨j, rfl⟩ := Nat.exists_eq_add_of_le low
    rw [← List.getElem?_drop, ← parts, List.getElem?_append_left (by omega)] at byte
    exact taken c (List.mem_of_getElem? byte)

/-- **A body is found** where only blanks stand between the closing parenthesis and its brace. -/
theorem exists_of_bodyAfter {code : Text} {opening start stop : Nat}
    (found : bodyAfter? code opening = some (start, stop)) :
    ∃ last, Braced.closing? code opening = some last ∧ last < start ∧
      (∀ i, last < i → i < start → ∀ c, code[i]? = some c → Text.isOneOf " \t\r\n" c = true) ∧
      code[start]? = some ('\x7b' : UInt8) ∧ Braced.closing? code start = some stop := by
  unfold bodyAfter? at found
  obtain ⟨last, is_last, found⟩ := Option.bind_eq_some_iff.1 found
  have inside := (Braced.closing_between is_last).2
  obtain ⟨begins, is_start, behind, rest, blanks⟩ :=
    dropWhile_gap (Nat.succ_le_of_lt inside) (Text.isOneOf " \t\r\n")
  rw [← rest] at is_start
  simp only [← rest, is_start] at found
  split at found
  case isFalse => cases found
  rename_i brace
  obtain ⟨closing, is_closing, same⟩ := Option.bind_eq_some_iff.1 found
  obtain ⟨rfl, rfl⟩ := Prod.mk.inj (Option.some.inj same)
  rw [List.head?_drop] at brace
  exact ⟨last, is_last, behind, blanks, beq_iff_eq.1 brace, is_closing⟩

/-- The body behind a parenthesis stands inside the source. -/
theorem bodyAfter_between {code : Text} {opening start stop : Nat}
    (found : bodyAfter? code opening = some (start, stop)) : start < stop ∧ stop < code.length := by
  obtain ⟨_, -, -, -, -, closing⟩ := exists_of_bodyAfter found
  exact Braced.closing_between closing

/-- A body begins behind the parentheses in front of it. -/
theorem bodyAfter_behind {code : Text} {opening start stop : Nat}
    (found : bodyAfter? code opening = some (start, stop)) : opening < start := by
  obtain ⟨_, is_last, behind, -⟩ := exists_of_bodyAfter found
  exact Nat.lt_trans (Braced.closing_between is_last).1 behind

/-- What is picked out of a source whose comments are blanked. -/
def Program.of (source code : Text) : Program where
  source := source
  code := code
  functions := findFunctions code
  declarations := findDeclarations code
  arrays := findArrays code
  conditions := findConditions code
  loops := findLoops code
  loopVariables := findLoopVariables code
  calls := findCalls code
  returns := findPhrases returnPattern code
  prints := findPhrases printPattern code
  numbers := findNumbers code

/-- A program is picked out of code without comments whose brackets have partners. -/
theorem Program.parse_eq_ok {source : Text} {p : Program} :
    Program.parse source = .ok p ↔ ∃ code, Braced.blankComments source = .ok code ∧
      Braced.checkBrackets code = .ok () ∧ p = Program.of source code := by
  constructor
  · intro parsed
    obtain ⟨code, blanked, parsed⟩ := bind_eq_ok.1 parsed
    obtain ⟨_, checked, parsed⟩ := bind_eq_ok.1 parsed
    exact ⟨code, blanked, checked, (Except.ok.inj parsed).symm⟩
  · rintro ⟨code, blanked, checked, rfl⟩
    exact bind_eq_ok.2 ⟨code, blanked, bind_eq_ok.2 ⟨(), checked, rfl⟩⟩

/-- **The body of a loop** stands inside the source. -/
theorem Program.body_between {source : Text} {p : Program} (parsed : Program.parse source = .ok p)
    {loop : Loop} (member : loop ∈ p.loops) {start stop : Nat}
    (is_body : loop.body = some (start, stop)) : start < stop ∧ stop < p.code.length := by
  obtain ⟨code, -, -, rfl⟩ := Program.parse_eq_ok.1 parsed
  obtain ⟨m, -, rfl⟩ := List.mem_map.1 member
  exact bodyAfter_between is_body

/-- The body of a loop stands behind where the loop begins. -/
theorem Program.body_behind {source : Text} {p : Program} (parsed : Program.parse source = .ok p)
    {loop : Loop} (member : loop ∈ p.loops) {start stop : Nat}
    (is_body : loop.body = some (start, stop)) : loop.offset < start := by
  obtain ⟨code, -, -, rfl⟩ := Program.parse_eq_ok.1 parsed
  obtain ⟨m, found, rfl⟩ := List.mem_map.1 member
  have listed : (loopPattern, [1]) ∈ cutGroups := by decide
  have filled := (cutOut_of_mem_findAll listed found).filled
  have behind := bodyAfter_behind is_body
  show m.start < start
  omega

/-- **The name of a size parameter** stands behind its type. -/
theorem one_lt_length_words_size {f : Function} {other : Text} (member : other ∈ f.paramList)
    (is_int : other.startsWith "int " = true) : 1 < other.words.length := by
  obtain ⟨part, -, rfl⟩ := List.mem_map.1 member
  obtain ⟨rest, whole⟩ := List.isPrefixOf_iff_prefix.1 is_int
  have divided : part.trim = Text.of "int" ++ 0x20 :: rest := whole.symm
  rw [divided]
  exact Text.one_lt_length_words (by decide) (by decide) (by decide)
    (Text.isBlank_behind (by decide) (by decide) divided)

end FlowTrace.Cpp
