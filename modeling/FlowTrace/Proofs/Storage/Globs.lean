import FlowTrace.Proofs.Storage.Trees
import FlowTrace.Proofs.Text.Utf8

/-! # Globs, directory by directory

A glob is read name by name: what stands behind a separator is a glob of its own
(`Glob.parse?_append`). The names in a directory are those of the locations in use right below it,
each once and in order, so that they depend on nothing else (`FileTree.names_filter_congr`). -/

namespace FlowTrace

open FlowTrace.Path (separator isRooted up here)

/-! ## Reading globs -/

namespace Glob

variable {t rest : Text} {rune : Rune} {ranges more : List (Rune × Rune)} {items : List Item}

/-- A separator belongs to no code point in front of it. -/
theorem decodeHead_separator (c : UInt8) (rest tail : Text) :
    Text.decodeHead c (rest ++ separator :: tail) = Text.decodeHead c rest := by
  have stops : ¬ Text.isContinuation separator = true := by decide
  rw [← Text.decodeHead_takeWhile c (rest ++ separator :: tail), List.takeWhile_append,
    List.takeWhile_cons_of_neg stops, List.append_nil]
  split
  · rfl
  · exact Text.decodeHead_takeWhile c rest

/-- A separator is no head that a reader asks for. -/
theorem head?_append {c : UInt8} (other : c ≠ separator) (t tail : Text) :
    ((t ++ separator :: tail).head? == some c) = (t.head? == some c) := by
  cases t <;> simp [Ne.symm other]

/-- The code point that a byte begins, and what follows in a class, if there is more. -/
def codePoint? (c : UInt8) (t : Text) : Option (Rune × Text) :=
  let (rune, more) := Text.decodeHead c t
  if rune == Rune.replacement && more == 0 then none
  else
    let rest := t.drop more
    if rest.isEmpty then none else some (rune, rest)

/-- A code point in front of a separator is read as if there were none. -/
theorem codePoint?_append {c : UInt8} (read : codePoint? c t = some (rune, rest)) (tail : Text) :
    codePoint? c (t ++ separator :: tail) = some (rune, rest ++ separator :: tail) := by
  rw [codePoint?] at read ⊢
  rw [decodeHead_separator]
  dsimp only at read ⊢
  split at read
  · cases read
  rw [if_neg ‹_›]
  split at read
  · cases read
  rename_i filled
  cases read
  have within : (Text.decodeHead c t).2 ≤ t.length := by
    refine Nat.le_of_lt ?_
    simpa [List.drop_eq_nil_iff] using filled
  rw [List.drop_append_of_le_length within]
  simp

/-- The end of a range is no hyphen and no bracket, unless it is escaped. -/
theorem rangeEnd?_cons (c : UInt8) (t : Text) :
    rangeEnd? (c :: t) =
      if c == '-' || c == ']' then none
      else if c == Text.backslash then t.head?.bind fun d => codePoint? d t.tail
      else codePoint? c t := by
  rw [rangeEnd?]
  split
  · rfl
  split
  · cases t <;> rfl
  · rfl

/-- The end of a range stays what it is when more follows behind a separator. -/
theorem rangeEnd?_append (read : rangeEnd? t = some (rune, rest)) (tail : Text) :
    rangeEnd? (t ++ separator :: tail) = some (rune, rest ++ separator :: tail) := by
  cases t with
  | nil => cases read
  | cons c t =>
    rw [List.cons_append]
    rw [rangeEnd?_cons] at read ⊢
    split at read
    · cases read
    rw [if_neg ‹_›]
    split at read
    · rw [if_pos ‹_›]
      cases t with
      | nil => cases read
      | cons d t => exact codePoint?_append read tail
    · rw [if_neg ‹_›]
      exact codePoint?_append read tail

/-- The ranges of a class stay what they are when more follows behind a separator. -/
theorem readRanges?_append {bound enough : Nat} (le : bound ≤ enough)
    (read : readRanges? bound t ranges = some (more, rest)) (tail : Text) :
    readRanges? enough (t ++ separator :: tail) ranges = some (more, rest ++ separator :: tail) := by
  induction bound generalizing enough t ranges with
  | zero => cases read
  | succ bound ih =>
    obtain ⟨enough, rfl⟩ : ∃ n, enough = n + 1 := ⟨enough - 1, by omega⟩
    have le : bound ≤ enough := by omega
    -- No reader looks past a separator, so each sees what it saw without the tail.
    rw [readRanges?] at read ⊢
    rw [head?_append (by decide)]
    split at read
    · rename_i closes
      rw [if_pos closes]
      cases read
      cases t with
      | nil => cases closes
      | cons c t => rfl
    · rw [if_neg ‹_›]
      cases first : rangeEnd? t with
      | none =>
        rw [first] at read
        cases read
      | some low =>
        obtain ⟨low, u⟩ := low
        rw [first] at read
        rw [rangeEnd?_append first]
        dsimp only at read ⊢
        rw [head?_append (by decide)]
        split at read
        · rename_i dash
          rw [if_pos dash]
          cases u with
          | nil => cases dash
          | cons c u =>
            rw [List.cons_append, List.drop_succ_cons, List.drop_zero]
            rw [List.drop_succ_cons, List.drop_zero] at read
            cases second : rangeEnd? u with
            | none =>
              rw [second] at read
              cases read
            | some high =>
              obtain ⟨high, v⟩ := high
              rw [second] at read
              rw [rangeEnd?_append second]
              exact ih le read
        · rw [if_neg ‹_›]
          exact ih le read

/-- What stands in a class behind its caret stays what it is, too. -/
theorem classBody_append (t tail : Text) :
    (if t.head? == some ('^' : UInt8) then (t ++ separator :: tail).drop 1
      else t ++ separator :: tail) =
      (if t.head? == some ('^' : UInt8) then t.drop 1 else t) ++ separator :: tail := by
  cases t with
  | nil => rfl
  | cons d t => split <;> rfl

/-- An item in front grows with the items behind it. -/
theorem map_push {item : Item} {first second last : Option (List Item)}
    (read : first.map (item :: ·) = some items)
    (grows : ∀ rest, first = some rest → second = last.map (rest ++ .byte separator :: ·)) :
    second.map (item :: ·) = last.map (items ++ .byte separator :: ·) := by
  obtain ⟨rest, found, rfl⟩ := Option.map_eq_some_iff.1 read
  rw [grows rest found, Option.map_map]
  rfl

/-- **What stands behind a separator is a glob of its own.** -/
theorem parse?_append {skip : Nat} (inside : skip ≤ t.length) (read : parse? t skip = some items)
    (tail : Text) :
    parse? (t ++ separator :: tail) skip =
      (parse? tail 0).map (items ++ .byte separator :: ·) := by
  induction t generalizing skip items with
  | nil =>
    obtain rfl : skip = 0 := by simpa using inside
    cases read
    rfl
  | cons c t ih =>
    cases skip with
    | succ skip =>
      -- This byte belongs to an item that was read.
      exact ih (Nat.le_of_succ_le_succ inside) read
    | zero =>
      rw [List.cons_append]
      rw [parse?.eq_def] at read ⊢
      dsimp only at read ⊢
      split at read
      · rw [if_pos ‹_›]
        exact map_push read fun rest => ih (Nat.zero_le _)
      rw [if_neg ‹_›]
      split at read
      · rw [if_pos ‹_›]
        exact map_push read fun rest => ih (Nat.zero_le _)
      rw [if_neg ‹_›]
      split at read
      · rw [if_pos ‹_›]
        cases t with
        | nil => cases read
        | cons d t => exact map_push read fun rest => ih (Nat.le_add_left 1 t.length)
      rw [if_neg ‹_›]
      split at read
      · rw [if_pos ‹_›]
        rw [head?_append (by decide), classBody_append]
        cases body : readRanges? ((if t.head? == some ('^' : UInt8) then t.drop 1 else t).length + 1)
            (if t.head? == some ('^' : UInt8) then t.drop 1 else t) [] with
        | none =>
          rw [body] at read
          cases read
        | some found =>
          obtain ⟨ranges, rest⟩ := found
          rw [body] at read
          rw [readRanges?_append (by simp) body]
          have same_skip : (t ++ separator :: tail).length - (rest ++ separator :: tail).length =
              t.length - rest.length := by
            rw [List.length_append, List.length_append]
            omega
          dsimp only at read ⊢
          rw [same_skip]
          exact map_push read fun rest => ih (Nat.sub_le _ _)
      · rw [if_neg ‹_›]
        exact map_push read fun rest => ih (Nat.zero_le _)

end Glob

namespace FileTree

variable {tree other : FileTree} {l : Location} {p q : Path} {name last : Text}

/-! ## The last part of a glob -/

/-- A pattern is split into the part up to its last separator and the last name. -/
theorem splitGlob_append {front : Text} (clean_last : separator ∉ last)
    (ended : ∀ c ∈ front.getLast?, c = separator) :
    splitGlob (front ++ last) =
      (if front.isEmpty then here else if front == "/" then front else front.dropLast, last) := by
  have kept : ((front ++ last).reverse.takeWhile fun c => c != separator) = last.reverse := by
    have all_kept : ∀ c ∈ last.reverse, (c != separator) = true := by
      intro c member
      refine bne_iff_ne.2 ?_
      rintro rfl
      exact clean_last (List.mem_reverse.1 member)
    rw [List.reverse_append, List.takeWhile_append_of_pos all_kept]
    rcases List.eq_nil_or_concat' front with rfl | ⟨start, c, rfl⟩
    · simp
    · obtain rfl := ended c (by simp)
      simp
  rw [splitGlob]
  simp only [kept, List.reverse_reverse, List.length_append, Nat.add_sub_cancel, List.take_left']

/-- **The directory part of a glob** is what its path leads down from. -/
theorem splitGlob_toText {rooted : Bool} {front : List Text}
    (normal : (Path.mk rooted (front ++ [last])).Normal) :
    splitGlob (Path.toText ⟨rooted, front ++ [last]⟩) = (Path.toText ⟨rooted, front⟩, last) := by
  have clean_last : separator ∉ last := (normal.isWritten last (by simp)).separator_notMem
  by_cases single : front = []
  · subst single
    cases rooted with
    | true =>
      have text : Path.toText ⟨true, [] ++ [last]⟩ = [separator] ++ last := by
        simp [Path.toText, Text.joinWith_singleton]
      rw [text, splitGlob_append clean_last (by simp)]
      rfl
    | false =>
      have text : Path.toText ⟨false, [] ++ [last]⟩ = [] ++ last := by
        simp [Path.toText, Text.joinWith_singleton]
      rw [text, splitGlob_append clean_last (by simp)]
      rfl
  · have above : (Path.mk rooted front).Normal :=
      Path.IsNormal.of_prefix normal (List.prefix_append front [last])
    have filled := Path.toText_ne_nil above
    have longer : (Path.toText ⟨rooted, front⟩ ++ [separator] == Text.of "/") = false := by
      refine beq_eq_false_iff_ne.2 fun same => filled ?_
      replace same : Path.toText ⟨rooted, front⟩ ++ [separator] = [] ++ [separator] := same
      exact List.append_cancel_right same
    rw [Path.toText_concat rooted single, List.append_cons,
      splitGlob_append clean_last (by simp), longer]
    simp

/-- If a glob can be read, and its directory part too, then so can its last part. -/
theorem parse?_last {rooted : Bool} {front : List Text}
    (read : (Glob.parse? (Path.toText ⟨rooted, front ++ [last]⟩) 0).isSome = true)
    (above : (Glob.parse? (Path.toText ⟨rooted, front⟩) 0).isSome = true) :
    (Glob.parse? last 0).isSome = true := by
  have behind : ∀ {start : Text}, (Glob.parse? start 0).isSome = true →
      (Glob.parse? (start ++ separator :: last) 0).isSome = true →
        (Glob.parse? last 0).isSome = true := by
    intro start first whole
    obtain ⟨items, first⟩ := Option.isSome_iff_exists.1 first
    rwa [Glob.parse?_append (Nat.zero_le _) first, Option.isSome_map] at whole
  by_cases single : front = []
  · subst single
    cases rooted with
    | true =>
      have whole : (Glob.parse? ([] ++ separator :: last) 0).isSome = true := by
        simpa [Path.toText, Text.joinWith_singleton] using read
      exact behind rfl whole
    | false => simpa [Path.toText, Text.joinWith_singleton] using read
  · rw [Path.toText_concat rooted single] at read
    exact behind above read

/-! ## Names in a directory -/

/-- **The names in a directory** are those of the locations in use right below it. -/
theorem mem_names : name ∈ tree.names l ↔ (tree.entry? (l ++ [name])).isSome = true := by
  rw [entry?_eq (by simp), Option.isSome_map, List.find?_isSome, names, List.mem_mergeSort,
    List.mem_filterMap]
  refine exists_congr fun entry => and_congr_right fun _ => ?_
  rcases List.eq_nil_or_concat' entry.1 with empty | ⟨front, last, place⟩
  · simp [empty]
  · rw [place]
    simp only [List.dropLast_concat, List.getLast?_concat, beq_iff_eq, Bool.and_eq_true,
      List.append_singleton_inj]
    by_cases here : front = l <;> simp [here]

/-- A tree is **well-formed** when it lists every location once, and the parts of locations are
names. -/
structure WellFormed (tree : FileTree) : Prop where
  /-- Every location once. -/
  nodup : (tree.entries.map (·.1)).Nodup
  /-- Locations lead down from the root. -/
  names : ∀ entry ∈ tree.entries, ∀ name ∈ entry.1, Path.IsName name

/-- No name is there twice in a directory. -/
theorem nodup_names (wellFormed : tree.WellFormed) (l : Location) : (tree.names l).Nodup := by
  rw [names, (List.mergeSort_perm _ _).nodup_iff, List.Nodup, List.pairwise_filterMap]
  refine (List.pairwise_map.1 wellFormed.nodup).imp fun {a b} apart name here name' there same => ?_
  subst same
  have place : ∀ {place : Location}, (if !place.isEmpty && place.dropLast == l then place.getLast?
      else none) = some name → place = l ++ [name] := by
    intro place found
    split at found
    · rename_i inside
      obtain ⟨front, rfl⟩ := List.getLast?_eq_some_iff.1 found
      simpa using inside
    · cases found
  exact apart ((place here).trans (place there).symm)

/-- The names in a directory are names. -/
theorem isName_of_mem_names (wellFormed : tree.WellFormed) (member : name ∈ tree.names l) :
    Path.IsName name := by
  rw [mem_names, entry?_eq (by simp), Option.isSome_map, List.find?_isSome] at member
  obtain ⟨entry, listed, place⟩ := member
  rw [beq_iff_eq] at place
  exact wellFormed.names entry listed name (by simp [place])

/-- **Names in a directory, of which only some matter**, depend on what is at these. -/
theorem names_filter_congr (wellFormed : tree.WellFormed) (wellFormed' : other.WellFormed)
    {matters : Text → Bool} (agree : ∀ name, Path.IsName name → matters name = true →
      tree.entry? (l ++ [name]) = other.entry? (l ++ [name])) :
    (tree.names l).filter matters = (other.names l).filter matters := by
  have same_members : ∀ name,
      name ∈ (tree.names l).filter matters ↔ name ∈ (other.names l).filter matters := by
    intro name
    rw [List.mem_filter, List.mem_filter]
    constructor
    · rintro ⟨member, holds⟩
      have is_name := isName_of_mem_names wellFormed member
      rw [mem_names, agree name is_name holds, ← mem_names] at member
      exact ⟨member, holds⟩
    · rintro ⟨member, holds⟩
      have is_name := isName_of_mem_names wellFormed' member
      rw [mem_names, ← agree name is_name holds, ← mem_names] at member
      exact ⟨member, holds⟩
  have perm : ((tree.names l).filter matters).Perm ((other.names l).filter matters) :=
    (List.perm_ext_iff_of_nodup ((nodup_names wellFormed l).filter _)
      ((nodup_names wellFormed' l).filter _)).2 same_members
  exact perm.eq_of_pairwise (fun a b _ _ => Text.le_antisymm)
    ((Text.pairwise_mergeSort _).filter _) ((Text.pairwise_mergeSort _).filter _)

/-! ## One directory -/

/-- The paths right **under** a path that fit a glob. -/
def under (tree : FileTree) (items : List Glob.Item) (q : Path) : List Path :=
  match tree.locate q.toText with
  | .ok l =>
    if tree.entry? l = some .directory then
      ((tree.names l).filter (Glob.fits items)).map fun name => ⟨q.rooted, q.parts ++ [name]⟩
    else []
  | .error _ => []

/-- What is found under a directory is its path with one more name. -/
theorem mem_under (wellFormed : tree.WellFormed) {items : List Glob.Item}
    (member : p ∈ tree.under items q) :
    ∃ name, Path.IsName name ∧ p = ⟨q.rooted, q.parts ++ [name]⟩ := by
  rw [under] at member
  split at member
  · split at member
    · obtain ⟨name, found, rfl⟩ := List.mem_map.1 member
      exact ⟨name, isName_of_mem_names wellFormed (List.mem_of_mem_filter found), rfl⟩
    · cases member
  · cases member

/-- **One directory of a glob.** -/
theorem globIn_toText (wellFormed : tree.WellFormed) (normal : q.Normal)
    {items : List Glob.Item} (read : Glob.parse? last 0 = some items) :
    tree.globIn q.toText last = .ok ((tree.under items q).map Path.toText) := by
  rw [globIn, under]
  cases tree.locate q.toText with
  | error e => rfl
  | ok l =>
    dsimp only
    cases found : tree.entry? l with
    | none => rfl
    | some entry =>
      cases entry with
      | file data => rfl
      | directory =>
        rw [read]
        simp only [if_true, List.map_map, Except.ok.injEq]
        refine List.map_congr_left fun name member => ?_
        have is_name := isName_of_mem_names wellFormed (List.mem_of_mem_filter member)
        rw [Path.join_pair normal is_name.ne_nil, Path.append,
          Path.components_of_isWritten is_name.toIsWritten,
          Path.extend_name is_name.ne_here is_name.ne_up]
        rfl

/-! ## All directories -/

/-- The paths in directories that were found, of which the last name fits a glob. -/
def descend (tree : FileTree) (found : Except Failure (List Text)) (last : Text) :
    Except Failure (List Text) := do
  let directories ← found
  return (← directories.mapM fun directory => tree.globIn directory last).flatten

/-- What is found in one directory. -/
theorem descend_singleton (tree : FileTree) (directory last : Text) :
    tree.descend (.ok [directory]) last = tree.globIn directory last := by
  show (do return (← [directory].mapM fun directory => tree.globIn directory last).flatten) = _
  rw [List.mapM_cons]
  cases tree.globIn directory last with
  | error failure => rfl
  | ok texts => exact congrArg Except.ok (List.append_nil texts)

/-- Directory by directory, a search goes on in those that were found. -/
theorem descend_ok (wellFormed : tree.WellFormed) {items : List Glob.Item}
    (read : Glob.parse? last 0 = some items) {ps : List Path} (normal : ∀ p ∈ ps, p.Normal) :
    tree.descend (.ok (ps.map Path.toText)) last =
      .ok ((ps.flatMap (tree.under items)).map Path.toText) := by
  have each : (ps.map Path.toText).mapM (fun directory => tree.globIn directory last) =
      .ok (ps.map fun p => (tree.under items p).map Path.toText) := by
    induction ps with
    | nil => rfl
    | cons p ps ih =>
      obtain ⟨first, rest⟩ := List.forall_mem_cons.1 normal
      rw [List.map_cons, List.mapM_cons, globIn_toText wellFormed first read, ih rest]
      rfl
  show (do return (← (ps.map Path.toText).mapM fun directory =>
    tree.globIn directory last).flatten) = _
  rw [each, List.map_flatMap]
  rfl

/-- A pattern that cannot be read finds nothing but an error. -/
theorem globUpTo_of_malformed {pattern : Text} (malformed : Glob.parse? pattern 0 = none)
    (tree : FileTree) (bound : Nat) : tree.globUpTo bound pattern = .error malformedGlob := by
  cases bound with
  | zero => rfl
  | succ bound =>
    rw [globUpTo, malformed]
    rfl

/-- **A glob with wildcards** is searched for in the directories that fit what is in front of its
last name. -/
theorem globUpTo_concat (tree : FileTree) (bound : Nat) {rooted : Bool} {front : List Text}
    (normal : (Path.mk rooted (front ++ [last])).Normal)
    (read : (Glob.parse? (Path.toText ⟨rooted, front ++ [last]⟩) 0).isSome = true)
    (magic : Glob.isMagic (Path.toText ⟨rooted, front ++ [last]⟩) = true) :
    tree.globUpTo (bound + 1) (Path.toText ⟨rooted, front ++ [last]⟩) =
      if Glob.isMagic (Path.toText ⟨rooted, front⟩) = true ∧
          Path.toText ⟨rooted, front⟩ = Path.toText ⟨rooted, front ++ [last]⟩ then
        .error malformedGlob
      else
        tree.descend (if Glob.isMagic (Path.toText ⟨rooted, front⟩) = true then
          tree.globUpTo bound (Path.toText ⟨rooted, front⟩)
          else .ok [Path.toText ⟨rooted, front⟩]) last := by
  have well : (Glob.parse? (Path.toText ⟨rooted, front ++ [last]⟩) 0).isNone = false := by
    simpa using read
  rw [globUpTo, well, magic, splitGlob_toText normal]
  dsimp only
  cases Glob.isMagic (Path.toText ⟨rooted, front⟩) with
  | false => simp [descend_singleton]
  | true =>
    simp only [Bool.false_eq_true, Bool.not_true, if_false, if_true, true_and, beq_iff_eq]
    rfl

end FileTree

end FlowTrace
