import FlowTrace.Proofs.Storage.Paths
import FlowTrace.Storage.FileTree

/-! # Ways through a file tree

Components lead from a location to another one (`FileTree.reach`) if the way is clear: all that is
passed is a directory (`FileTree.walk_eq_ok_iff`). What a path leads to depends on nothing else than
the entries on its way (`FileTree.walk_congr`). Making directories changes nothing that is there: it
only adds directories on the way (`FileTree.makesOnly_makeDirectories`). -/

namespace FlowTrace

open FlowTrace.Path (IsNormal IsWritten here up separator)

namespace FileTree

variable {tree made other : FileTree} {location start : Location} {entry : Entry} {p : Path}
  {parts : List Text} {P : Location → Prop}

/-! ## Entries -/

/-- The root is a directory. -/
@[simp] theorem entry?_nil (tree : FileTree) : tree.entry? [] = some .directory := rfl

/-- A new entry does not move the working directory. -/
@[simp] theorem working_put (tree : FileTree) (location : Location) (entry : Entry) :
    (tree.put location entry).working = tree.working := rfl

/-- The entry at a location below the root is the one that is listed. -/
theorem entry?_eq (below : location ≠ []) :
    tree.entry? location = (tree.entries.find? fun old => old.1 == location).map (·.2) := by
  rw [FileTree.entry?, if_neg (by simpa using below)]

/-- Elsewhere everything stays as it is. -/
theorem entry?_put_of_ne {elsewhere : Location} (apart : elsewhere ≠ location) :
    FileTree.entry? (tree.put location entry) elsewhere = tree.entry? elsewhere := by
  by_cases root : elsewhere = []
  · rw [root, entry?_nil, entry?_nil]
  rw [entry?_eq root, entry?_eq root, put]
  have not_new : (location == elsewhere) = false := by simpa using Ne.symm apart
  by_cases present : (tree.entries.any fun old => old.1 == location) = true
  · simp only [if_pos present, List.find?_map, Option.map_map]
    have same_test : ((fun old : Location × Entry => old.1 == elsewhere) ∘ fun old =>
        if old.1 == location then (location, entry) else old) =
          fun old => old.1 == elsewhere := by
      funext old
      by_cases hit : old.1 = location
      · simp [hit, not_new]
      · simp [hit]
    rw [same_test]
    cases found : tree.entries.find? fun old => old.1 == elsewhere with
    | none => rfl
    | some old =>
      have there : old.1 = elsewhere := by simpa using List.find?_some found
      simp [there, apart]
  · simp only [if_neg present, List.find?_append]
    simp [not_new]

/-- What was put at a location is there. -/
theorem entry?_put_self (below : location ≠ []) :
    FileTree.entry? (tree.put location entry) location = some entry := by
  rw [entry?_eq below, put]
  by_cases present : (tree.entries.any fun old => old.1 == location) = true
  · obtain ⟨old, member, hit⟩ := List.any_eq_true.1 present
    have hit : old.1 = location := by simpa using hit
    simp only [if_pos present, List.find?_map, Option.map_map]
    have found : (tree.entries.find? ((fun old : Location × Entry => old.1 == location) ∘ fun old =>
        if old.1 == location then (location, entry) else old)).isSome = true :=
      List.find?_isSome.2 ⟨old, member, by simp [hit]⟩
    obtain ⟨first, found⟩ := Option.isSome_iff_exists.1 found
    have there : first.1 = location := by
      by_contra apart
      simpa [apart] using List.find?_some found
    rw [found]
    simp [there]
  · have absent : (tree.entries.find? fun old => old.1 == location) = none := by
      refine List.find?_eq_none.2 fun old member hit => present ?_
      exact List.any_eq_true.2 ⟨old, member, hit⟩
    simp [if_neg present, List.find?_append, absent]

/-! ## Ways -/

/-- Where paths begin. -/
def origin (tree : FileTree) (rooted : Bool) : Location := if rooted then [] else tree.working

/-- Where components **lead** from a location, if nothing stands in the way. -/
def reach (start : Location) (parts : List Text) : Location :=
  parts.foldl (fun location part =>
    if part = here then location else if part = up then location.dropLast
    else location ++ [part]) start

/-- No steps lead nowhere else. -/
@[simp] theorem reach_nil (start : Location) : reach start [] = start := rfl

/-- The first step is taken first. -/
theorem reach_cons (start : Location) (part : Text) (parts : List Text) :
    reach start (part :: parts) = reach (reach start [part]) parts := rfl

/-- Steps are taken one after the other. -/
theorem reach_append (start : Location) (front back : List Text) :
    reach start (front ++ back) = reach (reach start front) back := List.foldl_append

/-- A step to where one is leads nowhere else. -/
theorem reach_here (start : Location) : reach start [here] = start := rfl

/-- Names lead down. -/
theorem reach_names (names : ∀ name ∈ parts, Path.IsName name) :
    reach start parts = start ++ parts := by
  induction parts generalizing start with
  | nil => simp
  | cons name parts ih =>
    obtain ⟨first, rest⟩ := List.forall_mem_cons.1 names
    rw [reach_cons, ih rest]
    simp [reach, first.ne_here, first.ne_up]

/-- A way is **clear** when everything that is passed is a directory, and no name is too long. -/
def Clear (tree : FileTree) : Location → List Text → Prop
  | _, [] => True
  | start, part :: parts =>
    tree.entry? start = some .directory ∧ part.length ≤ 255 ∧ tree.Clear (reach start [part]) parts

/-- **Names are resolved along clear ways.** -/
theorem walk_eq_ok_iff :
    tree.walk start parts = .ok location ↔ location = reach start parts ∧ tree.Clear start parts := by
  induction parts generalizing start with
  | nil => simp [walk, Clear, eq_comm]
  | cons part parts ih =>
    rw [walk, Clear, reach_cons]
    cases found : tree.entry? start with
    | none => simp
    | some entry =>
      cases entry with
      | file data => simp
      | directory =>
        by_cases leads : part = here
        · simp only [leads, if_true, ih, reach_here]
          simp
        by_cases climbs : part = up
        · subst climbs
          have step : reach start [up] = start.dropLast := rfl
          simp [leads, ih, step]
        · have step : reach start [part] = start ++ [part] := by simp [reach, leads, climbs]
          by_cases long : 255 < part.length
          · simp [leads, climbs, long, Nat.not_le.2 long]
          · simp [leads, climbs, long, ih, step, Nat.not_lt.1 long]

/-- A way stays clear as long as the directories stay. -/
theorem Clear.mono (clear : tree.Clear start parts)
    (stay : ∀ l, tree.entry? l = some .directory → made.entry? l = some .directory) :
    made.Clear start parts := by
  induction parts generalizing start with
  | nil => trivial
  | cons part parts ih =>
    obtain ⟨here, short, rest⟩ := clear
    exact ⟨stay start here, short, ih rest⟩

/-- **Only the entries on the way matter.** -/
theorem walk_congr (agree : ∀ front, front <+: parts →
    tree.entry? (reach start front) = other.entry? (reach start front)) :
    tree.walk start parts = other.walk start parts := by
  induction parts generalizing start with
  | nil => rfl
  | cons part parts ih =>
    have rest : tree.walk (reach start [part]) parts = other.walk (reach start [part]) parts :=
      ih fun front early => agree (part :: front) ((List.prefix_cons_inj part).2 early)
    have first := agree [] List.nil_prefix
    rw [reach_nil] at first
    rw [walk, walk, first]
    cases other.entry? start with
    | none => rfl
    | some entry =>
      cases entry with
      | file data => rfl
      | directory =>
        by_cases leads : part = here
        · subst leads
          simpa only [if_true, reach_here] using rest
        by_cases climbs : part = up
        · subst climbs
          have step : reach start [up] = start.dropLast := rfl
          rw [step] at rest
          simp [leads, rest]
        · have step : reach start [part] = start ++ [part] := by simp [reach, leads, climbs]
          rw [step] at rest
          simp [leads, climbs, rest]

/-! ## Paths -/

/-- A path as text leads where its parts do. -/
theorem reach_toText (normal : p.Normal) (start : Location) :
    reach start (Path.components p.toText) = reach start p.parts := by
  rcases Path.components_toText normal with read | rfl
  · rw [read]
  · rw [Path.components_nowhere, reach_here, reach_nil]

/-- **The location of a path.** -/
theorem locate_toText (tree : FileTree) (normal : p.Normal) :
    tree.locate p.toText =
      if p.toText.contains 0 then .error .invalid
      else if 4095 < p.toText.length then .error .nameTooLong
      else tree.walk (tree.origin p.rooted) (Path.components p.toText) := by
  have filled : p.toText.isEmpty = false := by simpa using Path.toText_ne_nil normal
  rw [locate, filled, Path.isRooted_toText normal]
  simp only [Bool.false_eq_true, if_false]
  by_cases zero : p.toText.contains 0 = true
  · rw [if_pos zero, if_pos zero]
  by_cases long : 4095 < p.toText.length
  · rw [if_neg zero, if_neg zero, if_pos long, if_pos long]
  rw [if_neg zero, if_neg zero, if_neg long, if_neg long]
  show tree.walk (tree.origin p.rooted) (Path.components p.toText) >>= _ = _
  cases walked : tree.walk (tree.origin p.rooted) (Path.components p.toText) with
  | error e => rfl
  | ok location =>
    by_cases ended : (p.toText.getLast? == some separator) = true
    · -- Only the text of the root ends in a separator, and the root is a directory.
      have root := Path.eq_root_of_getLast normal (by simpa using ended)
      subst root
      obtain ⟨rfl, -⟩ := walk_eq_ok_iff.1 walked
      rfl
    · simp only [bind, Except.bind, ended]
      split <;> rfl

/-! ## Single paths

What the operations on one path come to, once its location is known. -/

section

variable {path : Text} {l : Location}

/-- The state of what is there is shown. -/
theorem stat_of_entry {entry : Entry} (located : tree.locate path = .ok l)
    (found : tree.entry? l = some entry) : tree.stat path = .ok entry := by
  rw [stat, located]
  simp only [bind, Except.bind, found]
  rfl

/-- The state of what is not there is an error. -/
theorem stat_of_free (located : tree.locate path = .ok l) (free : tree.entry? l = none) :
    tree.stat path = .error .notFound := by
  rw [stat, located]
  simp only [bind, Except.bind, free]
  rfl

/-- No directory is made where something is. -/
theorem makeDirectory_of_entry {entry : Entry} (located : tree.locate path = .ok l)
    (found : tree.entry? l = some entry) : tree.makeDirectory path = .error .taken := by
  rw [makeDirectory, located]
  simp only [bind, Except.bind, found]
  rfl

/-- A directory is made where nothing is. -/
theorem makeDirectory_of_free (located : tree.locate path = .ok l) (free : tree.entry? l = none) :
    tree.makeDirectory path = .ok (tree.put l .directory) := by
  rw [makeDirectory, located]
  simp only [bind, Except.bind, free]
  rfl

/-- No directory is made where the path leads nowhere. -/
theorem makeDirectory_of_error {error : FileError} (failed : tree.locate path = .error error) :
    tree.makeDirectory path = .error error := by
  rw [makeDirectory, failed]
  rfl

end

/-- A path in normal form is located where its parts lead. -/
theorem reach_of_locate (normal : p.Normal) (located : tree.locate p.toText = .ok location) :
    location = reach (tree.origin p.rooted) p.parts := by
  rw [locate_toText tree normal] at located
  split at located
  · cases located
  split at located
  · cases located
  rw [← reach_toText normal]
  exact (walk_eq_ok_iff.1 located).1

/-- A path that led to a location leads there as long as the directories stay. -/
theorem locate_mono (normal : p.Normal) (located : tree.locate p.toText = .ok location)
    (same_working : made.working = tree.working)
    (stay : ∀ l, tree.entry? l = some .directory → made.entry? l = some .directory) :
    made.locate p.toText = .ok location := by
  rw [locate_toText _ normal] at located ⊢
  split at located
  · cases located
  split at located
  · cases located
  have same_origin : made.origin p.rooted = tree.origin p.rooted := by
    rw [origin, origin, same_working]
  obtain ⟨reached, clear⟩ := walk_eq_ok_iff.1 located
  rw [if_neg ‹_›, if_neg ‹_›, same_origin]
  exact walk_eq_ok_iff.2 ⟨reached, clear.mono stay⟩

/-- Where a path leads depends on the entries on its way only. -/
theorem locate_congr (normal : p.Normal) (same_working : tree.working = other.working)
    (agree : ∀ front, front <+: p.parts → tree.entry? (reach (tree.origin p.rooted) front) =
      other.entry? (reach (tree.origin p.rooted) front)) :
    tree.locate p.toText = other.locate p.toText := by
  have same_origin : other.origin p.rooted = tree.origin p.rooted := by
    rw [origin, origin, same_working]
  have same_walk : tree.walk (tree.origin p.rooted) (Path.components p.toText) =
      other.walk (tree.origin p.rooted) (Path.components p.toText) := by
    refine walk_congr fun front early => ?_
    rcases Path.components_toText normal with read | rfl
    · exact agree front (read ▸ early)
    · have here_only : reach (tree.origin false) front = tree.origin false := by
        rw [Path.components_nowhere] at early
        rcases List.prefix_cons_iff.1 early with rfl | ⟨rest, rfl, nothing⟩
        · rfl
        · rw [List.prefix_nil.1 nothing]
          rfl
      rw [here_only]
      exact agree [] List.nil_prefix
  rw [locate_toText _ normal, locate_toText _ normal, same_origin, same_walk]

/-! ## Making directories -/

/-- One tree is another one with new directories at locations for which `P` holds, and the rest
**as before**. -/
structure MakesOnly (P : Location → Prop) (tree made : FileTree) : Prop where
  /-- Paths begin where they did. -/
  working : made.working = tree.working
  /-- Nothing else has changed. -/
  entry? : ∀ l, made.entry? l = tree.entry? l ∨
    P l ∧ tree.entry? l = none ∧ made.entry? l = some .directory

namespace MakesOnly

/-- A tree makes nothing to become itself. -/
theorem refl (tree : FileTree) : MakesOnly P tree tree := ⟨rfl, fun _ => Or.inl rfl⟩

/-- Trees make their directories one after the other. -/
theorem trans {made last : FileTree} (first : MakesOnly P tree made)
    (second : MakesOnly P made last) : MakesOnly P tree last := by
  refine ⟨second.working.trans first.working, fun l => ?_⟩
  rcases second.entry? l with same | ⟨holds, free, new⟩
  · rw [same]
    exact first.entry? l
  · rcases first.entry? l with same | ⟨-, -, taken⟩
    · exact Or.inr ⟨holds, same ▸ free, new⟩
    · rw [taken] at free
      cases free

/-- Making directories does not move the places where paths begin. -/
theorem origin (makes : MakesOnly P tree made) (rooted : Bool) :
    made.origin rooted = tree.origin rooted := by
  rw [FileTree.origin, FileTree.origin, makes.working]

/-- Directories stay. -/
theorem stay (makes : MakesOnly P tree made) {l : Location}
    (there : tree.entry? l = some .directory) : made.entry? l = some .directory := by
  rcases makes.entry? l with same | ⟨-, -, new⟩
  · rw [same, there]
  · exact new

/-- One directory is made at a free place. -/
theorem put (free : tree.entry? location = none) (holds : P location) :
    MakesOnly P tree (tree.put location .directory) := by
  refine ⟨rfl, fun l => ?_⟩
  by_cases same : l = location
  · subst same
    have below : l ≠ [] := by
      rintro rfl
      cases free
    exact Or.inr ⟨holds, free, entry?_put_self below⟩
  · exact Or.inl (entry?_put_of_ne same)

end MakesOnly

/-- Making a directory makes nothing else. -/
theorem makesOnly_makeDirectory {path : Text} (made_one : tree.makeDirectory path = .ok made)
    (holds : ∀ l, tree.locate path = .ok l → P l) : MakesOnly P tree made := by
  cases located : tree.locate path with
  | error e =>
    rw [makeDirectory_of_error located] at made_one
    cases made_one
  | ok l =>
    cases found : tree.entry? l with
    | some entry =>
      rw [makeDirectory_of_entry located found] at made_one
      cases made_one
    | none =>
      rw [makeDirectory_of_free located found] at made_one
      cases made_one
      exact .put found (holds l located)

/-- The directories above a path, and the path itself, are the paths to the beginnings of its
components. -/
theorem mem_ancestors (normal : p.Normal) {text : Text} (member : text ∈ ancestors p.toText) :
    ∃ front, front <+: p.parts ∧ text = (Path.mk p.rooted front).toText := by
  obtain ⟨n, inside, rfl⟩ := List.mem_map.1 member
  rw [List.mem_range] at inside
  rw [Path.isRooted_toText normal]
  rcases Path.components_toText normal with read | rfl
  · refine ⟨p.parts.take (n + 1), List.take_prefix _ _, ?_⟩
    rw [read] at inside ⊢
    have some_part : p.parts.take (n + 1) ≠ [] := by
      intro none
      have length := congrArg List.length none
      simp only [List.length_take, List.length_nil] at length
      omega
    cases root : p.rooted with
    | true => rfl
    | false => simp [Path.toText, some_part]
  · rw [Path.components_nowhere] at inside ⊢
    have first : n = 0 := by simpa using inside
    rw [first]
    exact ⟨[], List.nil_prefix, by decide⟩

/-- **Making directories** changes nothing that is there: it adds directories on the way. -/
theorem makesOnly_makeDirectories (tree : FileTree) (normal : p.Normal) :
    MakesOnly (fun l => ∃ front, front <+: p.parts ∧ l = reach (tree.origin p.rooted) front) tree
      (tree.makeDirectories p.toText).1 := by
  rw [makeDirectories]
  split
  · exact .refl tree
  -- The invariant of the fold: so far only directories on the way were added.
  refine List.foldlRecOn (ancestors p.toText) _
    (motive := fun (state : FileTree × Option Failure) => MakesOnly _ tree state.1) (.refl tree) ?_
  rintro ⟨made, failure?⟩ so_far text member
  obtain ⟨front, early, rfl⟩ := mem_ancestors normal member
  have front_normal : (Path.mk p.rooted front).Normal := IsNormal.of_prefix normal early
  dsimp only at so_far ⊢
  split
  · exact so_far
  split
  · exact so_far
  · exact so_far
  · split
    · rename_i next made_one
      refine so_far.trans (makesOnly_makeDirectory made_one fun l located => ⟨front, early, ?_⟩)
      rw [reach_of_locate front_normal located, so_far.origin]
    · exact so_far

end FileTree

end FlowTrace
