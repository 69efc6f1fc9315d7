import FlowTrace.Text.Basic

/-! # Lines of a text, and literals

A line is numbered by the newlines in front of it. So the numbers of lines depend on the places of
newlines only (`lineAt_congr`, `lineCount_congr`), and go up by one behind each of them
(`lineAt_succ`).

What stands between the marks of a literal, or up to the end of a comment, can be told without a
scanner: between two marks a backslash takes the next byte with it (`Contents`), and a part that ends
something is the first of its kind (`FirstBehind`), which is what a search finds
(`indexOf_eq_some_iff`). -/

namespace FlowTrace.Text

variable {t u : Text} {c : UInt8} {i : Nat}

/-- The newlines of texts put together. -/
theorem newlines_append (t u : Text) : (t ++ u).newlines = t.newlines + u.newlines :=
  List.count_append

/-- The line behind a text. -/
theorem lineAt_length (t u : Text) : (t ++ u).lineAt t.length = t.newlines + 1 := by
  rw [lineAt, List.take_left]

/-- The line behind a byte. -/
theorem lineAt_succ (here : t.drop i = c :: u) :
    t.lineAt (i + 1) = if c == newline then t.lineAt i + 1 else t.lineAt i := by
  have byte : t[i]? = some c := by
    rw [← List.head?_drop, here]
    rfl
  have longer : t.take (i + 1) = t.take i ++ [c] := by
    rw [List.take_add_one, byte]
    rfl
  rw [lineAt, lineAt, longer, newlines_append]
  by_cases ends : (c == newline) = true
  · rw [if_pos ends, beq_iff_eq.1 ends]
    rfl
  · rw [if_neg ends]
    have none : newlines [c] = 0 := List.count_eq_zero.2 (by simpa using fun same => ends (by simp [same]))
    rw [none]

/-- A line ends at its first newline, or with the text. -/
theorem span_line {rest : Text} (single : newline ∉ t) (ends : ∀ c ∈ rest.head?, c = newline) :
    (t ++ rest).takeWhile (· != newline) = t ∧ (t ++ rest).dropWhile (· != newline) = rest := by
  have inside : ∀ c ∈ t, (c != newline) = true := fun c member => by
    simpa using fun same : c = newline => single (same ▸ member)
  have stops : rest.takeWhile (· != newline) = [] ∧ rest.dropWhile (· != newline) = rest := by
    cases rest with
    | nil => exact ⟨rfl, rfl⟩
    | cons c rest =>
      have newline : ¬ (c != newline) = true := by simpa using ends c rfl
      exact ⟨List.takeWhile_cons_of_neg newline, List.dropWhile_cons_of_neg newline⟩
  rw [List.takeWhile_append_of_pos inside, List.dropWhile_append_of_pos inside, stops.1, stops.2,
    List.append_nil]
  exact ⟨rfl, rfl⟩

/-- What is left when bytes are dropped from the front begins with one that is not dropped. -/
theorem head_dropWhile {p : UInt8 → Bool} (first : c ∈ (t.dropWhile p).head?) : p c = false := by
  have stops := List.head?_dropWhile_not p t
  rw [Option.mem_def.1 first] at stops
  simpa using stops

/-- **The rest of a line**, and what follows it. -/
theorem exists_line (t : Text) : ∃ line rest, t = line ++ rest ∧ newline ∉ line ∧
    (∀ c ∈ rest.head?, c = newline) ∧ rest = t.dropWhile (· != newline) := by
  refine ⟨t.takeWhile (· != newline), _, List.takeWhile_append_dropWhile.symm, fun member => ?_,
    fun c first => ?_, rfl⟩
  · simpa using List.all_eq_true.1 List.all_takeWhile _ member
  · simpa using head_dropWhile first

/-! ## Newlines at the same places -/

/-- Newlines are counted by the bytes that are one. -/
theorem newlines_eq_count (t : Text) : t.newlines = (t.map (· == newline)).count true := by
  rw [newlines, List.count_eq_countP, List.count_eq_countP, List.countP_map]
  congr 1
  funext c
  simp

/-- Where a byte is a newline. -/
theorem getElem?_newline_iff (t : Text) (i : Nat) :
    t[i]? = some newline ↔ (t.map (· == newline))[i]? = some true := by
  rw [List.getElem?_map, Option.map_eq_some_iff]
  exact ⟨fun byte => ⟨_, byte, BEq.rfl⟩, fun ⟨c, byte, same⟩ => beq_iff_eq.1 same ▸ byte⟩

/-- Texts with newlines at the same places have the same lines. -/
theorem lineAt_congr (same : t.map (· == newline) = u.map (· == newline)) (offset : Nat) :
    t.lineAt offset = u.lineAt offset := by
  rw [lineAt, lineAt, newlines_eq_count, newlines_eq_count, List.map_take, List.map_take, same]

/-- The number of lines. A newline at the end begins no further line. -/
def lineCount (t : Text) : Nat := t.newlines + if t.getLast?.all (· == newline) then 0 else 1

/-- A byte that is no newline stands in one of the lines. -/
theorem le_lineCount {front back : Text} {c : UInt8} (plain : c ≠ newline) :
    front.newlines + 1 ≤ (front ++ c :: back).lineCount := by
  have counted : (front ++ c :: back).newlines = front.newlines + back.newlines := by
    rw [newlines_append, newlines, newlines, newlines, List.count_cons_of_ne plain]
  rw [lineCount, counted]
  rcases List.eq_nil_or_concat back with rfl | ⟨back, d, rfl⟩
  · simp [plain]
  · by_cases ends : d = newline
    · -- the newline at the end is counted
      have some_newline : 0 < Text.newlines (back.concat d) :=
        List.count_pos_iff.2 (by simp [ends])
      omega
    · have last : (front ++ c :: back.concat d).getLast? = some d := by
        rw [List.concat_eq_append, ← List.cons_append, ← List.append_assoc,
          List.getLast?_concat]
      rw [last, if_neg (by simpa using ends)]
      omega

/-- Texts with newlines at the same places have as many lines. -/
theorem lineCount_congr (same : t.map (· == newline) = u.map (· == newline)) :
    t.lineCount = u.lineCount := by
  have last (t : Text) : t.getLast?.all (· == newline) = (t.map (· == newline)).getLast?.all id := by
    rw [List.getLast?_map]
    cases t.getLast? <;> rfl
  rw [lineCount, lineCount, newlines_eq_count t, newlines_eq_count u, last t, last u, same]

/-! ## Contents of literals -/

/-- The **contents** of a literal between two marks: a backslash takes the next byte with it, and no
other byte is a newline or the mark. -/
inductive Contents (mark : UInt8) : Text → Prop
  /-- There are none. -/
  | nil : Contents mark []
  /-- A backslash and the byte that it takes with it. -/
  | escape {c : UInt8} {t : Text} : Contents mark t → Contents mark (backslash :: c :: t)
  /-- Any other byte. -/
  | byte {c : UInt8} {t : Text} : c ≠ backslash → c ≠ newline → c ≠ mark → Contents mark t →
    Contents mark (c :: t)

/-- A mark is not the first byte of what it encloses. -/
theorem Contents.head?_ne {mark : UInt8} (contents : Contents mark t)
    (unescaped : mark ≠ backslash) : t.head? ≠ some mark := by
  cases contents with
  | nil => exact nofun
  | escape _ => exact fun same => unescaped (Option.some.inj same).symm
  | byte _ _ other _ => exact fun same => other (Option.some.inj same)

/-- A part that stands behind a body is the **first** of its kind: none begins in the body. -/
def FirstBehind (part body : Text) : Prop :=
  ∀ i < body.length, ¬ part <+: (body ++ part).drop i

variable {part body : Text}

/-- A part stands right behind nothing. -/
theorem FirstBehind.nil : FirstBehind part [] := fun _ => nofun

/-- A part is first behind a text when it does not begin earlier. -/
theorem firstBehind_cons :
    FirstBehind part (c :: body) ↔ ¬ part <+: c :: (body ++ part) ∧ FirstBehind part body := by
  constructor
  · intro first
    exact ⟨first 0 (Nat.zero_lt_succ _), fun i inside => first (i + 1) (Nat.succ_lt_succ inside)⟩
  · rintro ⟨other, first⟩ i inside
    cases i with
    | zero => exact other
    | succ i => exact first i (Nat.lt_of_succ_lt_succ inside)

/-- A part that is not first behind a body begins in it, whatever follows. -/
theorem prefix_append_iff {rest : Text} : part <+: body ++ (part ++ rest) ↔ part <+: body ++ part := by
  constructor
  · intro begins
    refine List.prefix_of_prefix_length_le begins ?_ (by simp)
    rw [← List.append_assoc]
    exact List.prefix_append _ _
  · intro begins
    rw [← List.append_assoc]
    exact begins.trans (List.prefix_append _ _)

/-- A part is found where it is first behind what is in front. -/
theorem indexOf_go_eq_some_iff (some_part : part ≠ []) {n : Nat} : indexOf?.go part t n = some i ↔
    ∃ body rest, t = body ++ (part ++ rest) ∧ n + body.length = i ∧ FirstBehind part body := by
  induction t generalizing n with
  | nil =>
    rw [indexOf?.go, if_neg (by simpa using some_part)]
    constructor
    · exact nofun
    · rintro ⟨body, rest, empty, -, -⟩
      simp [some_part] at empty
  | cons c t ih =>
    rw [indexOf?.go]
    by_cases here : part <+: c :: t
    -- Where the part begins at once, nothing can stand in front of it; else this byte does.
    · rw [if_pos (List.isPrefixOf_iff_prefix.2 here)]
      constructor
      · rintro ⟨⟩
        obtain ⟨rest, same⟩ := here
        exact ⟨[], rest, same.symm, rfl, .nil⟩
      · rintro ⟨body, rest, same, rfl, first⟩
        cases body with
        | nil => rfl
        | cons d body =>
          rw [same] at here
          exact absurd (prefix_append_iff.1 here) (firstBehind_cons.1 first).1
    · rw [if_neg (mt List.isPrefixOf_iff_prefix.1 here), ih]
      constructor
      · rintro ⟨body, rest, rfl, rfl, first⟩
        refine ⟨c :: body, rest, rfl, by rw [List.length_cons]; omega, firstBehind_cons.2 ⟨?_, first⟩⟩
        intro begins
        have begins : part <+: (c :: body) ++ part := begins
        exact here (prefix_append_iff.2 begins)
      · rintro ⟨body, rest, same, rfl, first⟩
        cases body with
        | nil => exact absurd ⟨rest, same.symm⟩ here
        | cons d body =>
          obtain ⟨rfl, rfl⟩ := List.cons.inj same
          exact ⟨body, rest, rfl, by rw [List.length_cons]; omega, (firstBehind_cons.1 first).2⟩

/-- **A search** finds the first place of a part. -/
theorem indexOf_eq_some_iff (some_part : part ≠ []) : t.indexOf? part = some i ↔
    ∃ body rest, t = body ++ (part ++ rest) ∧ body.length = i ∧ FirstBehind part body := by
  rw [indexOf?, indexOf_go_eq_some_iff some_part]
  simp only [Nat.zero_add]

end FlowTrace.Text
