import FlowTrace.Proofs.Storage.Listing

/-! # A store is confined to its base

Whatever the base is, and whatever a path is: what a store answers and changes is a matter of its
base alone, with one exception. A file is saved by way of a temporary one in the directory that it
is in, and the directory that the base itself is in lies outside. So a store is confined on a path
unless this path leads to the base, and the base to a directory by its name
(`Store.confined_iff`). -/

namespace FlowTrace

open FileTree (reach)
open FlowTrace.Path (IsNormal Within isRooted up)

namespace Store

variable {store : Store} {path : Text} {full : Path} {tree : FileTree}

/-- The directory where a store **works** when it saves to a path: the file is written there under
a temporary name first. -/
def workplace (full : Path) : Path := Path.ofText (Path.directory full.toText)

/-- The temporary files are made in the parent of the path. -/
theorem workplace_eq (normal : full.Normal) : workplace full = full.parent := by
  rw [workplace, Path.directory_toText normal, Path.ofText_toText normal.parent]

/-- **A store works inside its base**, unless it saves to the base, and this has a name. -/
theorem inside_workplace_iff (normal : store.base.Normal) (resolved : store.resolve path = .ok full)
    (tree : FileTree) :
    store.Inside tree (reach (tree.origin full.rooted) (workplace full).parts) ↔
      (full = store.base → ∀ last ∈ store.base.parts.getLast?, last = up) := by
  rw [workplace_eq (normal_of_resolve normal resolved), Path.parent]
  -- The place of work is the parent. The base has its parent outside, unless it ends in a step up.
  by_cases same : full = store.base
  · subst same
    rcases List.eq_nil_or_concat' store.base.parts with none | ⟨front, last, parts⟩
    · simp [none, Inside, root]
    · have led : store.root tree = reach (reach (tree.origin store.base.rooted) front) [last] := by
        rw [root, parts, FileTree.reach_append]
      simp only [parts, List.dropLast_concat, List.getLast?_concat, Option.mem_some_iff, forall_eq',
        forall_const]
      rw [Inside, led]
      constructor
      · intro inside
        by_contra down
        have is_name : Path.IsName last := normal.isName (by simp [parts]) down
        rw [FileTree.reach_names (by simpa using is_name)] at inside
        have shorter := inside.length_le
        rw [List.length_append, List.length_singleton] at shorter
        omega
      · rintro rfl
        exact List.dropLast_prefix _
  · refine iff_of_true ?_ fun equal => absurd equal same
    have full_normal := normal_of_resolve normal resolved
    have within := within_of_resolve normal resolved
    have other : full.parts ≠ store.base.parts := by
      intro equal
      obtain ⟨same_root, -⟩ := within
      obtain ⟨rooted, parts⟩ := full
      exact same (by rw [show rooted = store.base.rooted from same_root, show parts = _ from equal])
    obtain ⟨same_root, below, parts, down⟩ := within.parent other
    have reached := reach_below tree full_normal.parent same_root parts down
    exact ⟨below, reached.symm⟩

/-- A store is **confined** on a path in a tree, when nothing outside of its base matters to what it
does there. -/
structure Confined (store : Store) (tree : FileTree) (path : Text) : Prop where
  /-- A save changes only the inside, and makes missing directories that lead there. -/
  changes : ∀ context data l,
    FileTree.entry? (store.save tree context path data).1 l = tree.entry? l ∨ store.Inside tree l ∨
      store.OnWay tree l ∧ tree.entry? l = none ∧
        FileTree.entry? (store.save tree context path data).1 l = some .directory
  /-- It works inside. -/
  works : ∀ full, store.resolve path = .ok full →
    store.Inside tree (reach (tree.origin full.rooted) (workplace full).parts)
  /-- What it leaves inside and what it answers depend on the inside only. -/
  saves : ∀ other, store.Agree tree other → ∀ context data,
    store.Agree (store.save tree context path data).1 (store.save other context path data).1 ∧
      (store.save tree context path data).2 = (store.save other context path data).2
  /-- So does what is loaded. -/
  loads : ∀ other, store.Agree tree other → ∀ context,
    store.load tree context path = store.load other context path
  /-- So does whether there is something at the path. -/
  has : ∀ other, store.Agree tree other → store.has tree path = store.has other path
  /-- So does what is listed. -/
  lists : ∀ other, tree.WellFormed → other.WellFormed → store.Agree tree other → ∀ context,
    store.list tree context path = store.list other context path
  /-- What is listed is inside. -/
  listed : ∀ context names, store.list tree context path = .ok names → ∀ name ∈ names,
    ∃ parts, name = Path.relativeText parts ∧
      Within store.base ⟨store.base.rooted, store.base.parts ++ parts⟩

/-- What a store **accepts**, and the path that it takes it for. -/
theorem map_resolve_eq_ok_iff (directory path text : Text) :
    ((below directory).resolve path).map Path.toText = .ok text ↔
      path ≠ [] ∧ isRooted path = false ∧ text = Path.join [Path.clean directory, path] ∧
        Within (Path.ofText directory) (Path.ofText text) := by
  have normal := normal_base directory
  have joined : path ≠ [] → Path.join [Path.clean directory, path] =
      ((Path.ofText directory).append path).toText := fun filled => Path.join_pair normal filled
  constructor
  · intro accepted
    obtain ⟨full, resolved, rfl⟩ : ∃ full, (below directory).resolve path = .ok full ∧
        full.toText = text := by
      cases resolved : (below directory).resolve path with
      | error failure =>
        rw [resolved] at accepted
        cases accepted
      | ok full =>
        rw [resolved] at accepted
        exact ⟨full, rfl, Except.ok.inj accepted⟩
    obtain ⟨filled, relative, rfl, within⟩ := (resolve_eq_ok_iff normal).1 resolved
    refine ⟨filled, relative, (joined filled).symm, ?_⟩
    rwa [Path.ofText_toText (normal_of_resolve normal resolved)]
  · rintro ⟨filled, relative, rfl, within⟩
    have full_normal : ((Path.ofText directory).append path).Normal := normal.append path
    rw [joined filled, Path.ofText_toText full_normal] at within
    rw [(resolve_eq_ok_iff normal).2 ⟨filled, relative, rfl, within⟩, joined filled]
    rfl

/-- **The base of a store is a jail**, sound and complete: the store accepts the relative paths
that lead from the clean base to somewhere within it, and no others; it accepts all relative paths
that do not lead up by themselves; and it is confined on a path exactly when this does not lead to
a base with a name. -/
theorem confined_iff (directory path : Text) (tree : FileTree) :
    (∀ text, ((below directory).resolve path).map Path.toText = .ok text ↔
      path ≠ [] ∧ isRooted path = false ∧ text = Path.join [Path.clean directory, path] ∧
        Within (Path.ofText directory) (Path.ofText text)) ∧
    (path ≠ [] → isRooted path = false → (Path.ofText path).parts.head? ≠ some up →
      ∃ full, (below directory).resolve path = .ok full) ∧
    ((below directory).Confined tree path ↔
      ((below directory).resolve path = .ok (Path.ofText directory) →
        ∀ last ∈ (Path.ofText directory).parts.getLast?, last = up)) := by
  have normal := normal_base directory
  refine ⟨map_resolve_eq_ok_iff directory path, exists_resolve normal, ?_⟩
  constructor
  · intro confined resolved
    exact (inside_workplace_iff normal resolved tree).1 (confined.works _ resolved) rfl
  · intro named
    exact
      { changes := fun context data l => entry?_save normal tree context path data l
        works := fun full resolved => (inside_workplace_iff normal resolved tree).2
          fun same => named (resolved.trans (congrArg Except.ok same))
        saves := fun other agree context data => agree.save normal context path data
        loads := fun other agree context => load_congr normal agree context path
        has := fun other agree => has_congr normal agree path
        lists := fun other wellFormed wellFormed' agree context =>
          list_congr normal wellFormed wellFormed' agree context path
        listed := fun context names listed => list_within listed }

/-- **A save of the base works outside of it**: under a base that is there, it puts a temporary
file beside the base. -/
theorem save_works_outside :
    (below "/w/base").resolve "a/.." = .ok (below "/w/base").base ∧
      ((below "/w/base").save ⟨[([Text.of "w"], .directory), ([Text.of "w", "base"], .directory)], []⟩
        .live "a/.." "1").2 = some (.wrapped "renaming file"
          (.plain "rename /w/.export-0 /w/base: file exists")) ∧
      ¬ (below "/w/base").Confined
        ⟨[([Text.of "w"], .directory), ([Text.of "w", "base"], .directory)], []⟩ "a/.." := by
  have resolved : (below "/w/base").resolve "a/.." = .ok (below "/w/base").base := rfl
  refine ⟨resolved, rfl, fun confined => ?_⟩
  have inside : [Text.of "w", "base"] <+: [Text.of "w"] := confined.works _ resolved
  exact absurd inside.length_le (by decide)

end Store

end FlowTrace
