import FlowTrace.Proofs.Storage.Trees
import FlowTrace.Storage.Store

/-! # The base of a store is a jail

A store accepts exactly the relative paths that lead to somewhere within its base
(`Store.resolve_eq_ok_iff`), and with them all that do not lead up by themselves
(`Store.exists_resolve`).

So its operations see and change nothing outside of the base. Saving changes only what is inside,
and makes the directories that lead to the base if they are missing (`Store.entry?_save`); what it
answers, and what the others answer, is the same in all trees that agree inside the base and on the
way to it (`Store.Agree.save`, `Store.load_congr`, `Store.has_congr`); what is listed is inside
(`Store.list_within`). -/

namespace FlowTrace

open FileTree (reach)
open FlowTrace.Path (Within isRooted here up)

/-! ## Relative paths -/

namespace Path

variable {base p : Path} {below parts : List Text}

/-- What two paths share at the beginning is dropped. -/
theorem dropShared_append (shared as bs : List Text) :
    dropShared (shared ++ as) (shared ++ bs) = dropShared as bs := by
  induction shared with
  | nil => rfl
  | cons first shared ih => rw [List.cons_append, List.cons_append, dropShared, if_pos rfl, ih]

/-- Two paths are what they share and the rests of both. -/
theorem exists_shared (as bs : List Text) :
    ∃ shared, as = shared ++ (dropShared as bs).1 ∧ bs = shared ++ (dropShared as bs).2 := by
  induction as generalizing bs with
  | nil => exact ⟨[], by simp, by simp⟩
  | cons a as ih =>
    cases bs with
    | nil => exact ⟨[], rfl, rfl⟩
    | cons b bs =>
      by_cases same : a = b
      · obtain ⟨shared, left, right⟩ := ih bs
        refine ⟨a :: shared, ?_, ?_⟩
        · rw [dropShared, if_pos same, List.cons_append, ← left]
        · rw [dropShared, if_pos same, List.cons_append, ← right, same]
      · exact ⟨[], by rw [dropShared, if_neg same]; rfl, by rw [dropShared, if_neg same]; rfl⟩

/-- What leads down from a path leads to where it is appended. -/
theorem relative?_of_parts (same_root : p.rooted = base.rooted)
    (parts : p.parts = base.parts ++ below) : relative? base p = some below := by
  have shared : dropShared base.parts p.parts = ([], below) := by
    have dropped := dropShared_append base.parts [] below
    rwa [List.append_nil, dropShared_nil, ← parts] at dropped
  simp [relative?, same_root, shared]

/-- What does not lead up from a path leads down from it. -/
theorem parts_of_relative? (relative : relative? base p = some parts)
    (down : Store.leadsUp parts = false) :
    p.rooted = base.rooted ∧ p.parts = base.parts ++ parts := by
  by_cases same_root : p.rooted = base.rooted
  · refine ⟨same_root, ?_⟩
    obtain ⟨shared, above, target⟩ := exists_shared base.parts p.parts
    have other_root : ¬ (base.rooted != p.rooted) = true := by simp [same_root]
    rw [relative?, if_neg other_root] at relative
    dsimp only at relative
    split at relative
    · cases relative
    · have led := Option.some.inj relative
      cases left : (dropShared base.parts p.parts).1 with
      | nil =>
        have same : shared = base.parts := by simpa [left] using above.symm
        have behind : (dropShared base.parts p.parts).2 = parts := by simpa [left] using led
        rw [target, same, behind]
      | cons first rest =>
        rw [left] at led
        rw [← led] at down
        cases down
  · have other_root : (base.rooted != p.rooted) = true := by simpa using Ne.symm same_root
    rw [relative?, if_pos other_root] at relative
    cases relative

end Path

namespace Store

variable {store : Store} {directory path data : Text} {full : Path} {tree other made : FileTree}
  {context : Context} {l : Location} {failure : Failure}

/-- The base of a store is in normal form. -/
theorem normal_base (directory : Text) : (below directory).base.Normal :=
  Path.normal_ofText directory

/-! ## Accepted paths -/

/-- **A store accepts exactly the relative paths that lead to somewhere within its base.** -/
theorem resolve_eq_ok_iff (normal : store.base.Normal) : store.resolve path = .ok full ↔
    path ≠ [] ∧ isRooted path = false ∧ full = store.base.append path ∧
      Within store.base full := by
  rw [resolve]
  by_cases empty : path = []
  · simp [empty]
  by_cases absolute : isRooted path = true
  · simp [empty, absolute]
  have relative : isRooted path = false := by simpa using absolute
  have filled : path.isEmpty = false := by simpa using empty
  simp only [filled, relative, Bool.false_eq_true, if_false]
  have full_normal : (store.base.append path).Normal := normal.append path
  -- A way from the base that is in normal form climbs only at its beginning.
  constructor
  · intro accepted
    cases led : Path.relative? store.base (store.base.append path) with
    | none =>
      rw [led] at accepted
      cases accepted
    | some parts =>
      cases down : leadsUp parts with
      | true => simp [led, down] at accepted
      | false =>
        simp only [led, down, Bool.false_eq_true, if_false, Except.ok.injEq] at accepted
        subst accepted
        obtain ⟨same_root, behind⟩ := Path.parts_of_relative? led down
        refine ⟨empty, trivial, rfl, same_root, parts, behind, fun climbs => ?_⟩
        rw [Path.Normal, behind] at full_normal
        rw [leadsUp, full_normal.head_eq_up_iff.2 climbs] at down
        cases down
  · rintro ⟨-, -, rfl, same_root, parts, behind, down⟩
    have led := Path.relative?_of_parts same_root behind
    have stays : leadsUp parts = false := by
      cases climbs : leadsUp parts with
      | false => rfl
      | true => exact absurd (List.mem_of_mem_head? (beq_iff_eq.1 climbs)) down
    simp [led, stays]

/-- A path that is resolved is in normal form. -/
theorem normal_of_resolve (normal : store.base.Normal) (resolved : store.resolve path = .ok full) :
    full.Normal := by
  obtain ⟨-, -, rfl, -⟩ := (resolve_eq_ok_iff normal).1 resolved
  exact normal.append path

/-- A path that is resolved stays within the base. -/
theorem within_of_resolve (normal : store.base.Normal) (resolved : store.resolve path = .ok full) :
    Within store.base full :=
  ((resolve_eq_ok_iff normal).1 resolved).2.2.2

/-- **No relative path is refused that does not lead up by itself.** -/
theorem exists_resolve (normal : store.base.Normal) (filled : path ≠ [])
    (relative : isRooted path = false) (stays : (Path.ofText path).parts.head? ≠ some up) :
    ∃ full, store.resolve path = .ok full :=
  ⟨_, (resolve_eq_ok_iff normal).2
    ⟨filled, relative, rfl, Path.within_append relative stays store.base⟩⟩

/-! ## Inside and outside -/

/-- The location of the base. -/
def root (store : Store) (tree : FileTree) : Location :=
  reach (tree.origin store.base.rooted) store.base.parts

/-- Locations **inside** the base: the base itself and all below it. -/
def Inside (store : Store) (tree : FileTree) (l : Location) : Prop :=
  store.root tree <+: l

/-- Locations **on the way** to the base. -/
def OnWay (store : Store) (tree : FileTree) (l : Location) : Prop :=
  ∃ front, front <+: store.base.parts ∧ l = reach (tree.origin store.base.rooted) front

/-- Two trees **agree** for a store when they hold the same inside its base and on the way to it. -/
structure Agree (store : Store) (tree other : FileTree) : Prop where
  /-- Paths begin at the same location. -/
  working : tree.working = other.working
  /-- What is inside is the same. -/
  inside : ∀ l, store.Inside tree l → tree.entry? l = other.entry? l
  /-- What leads there is the same. -/
  onWay : ∀ l, store.OnWay tree l → tree.entry? l = other.entry? l

/-- Trees that agree have the same origin. -/
theorem Agree.origin (agree : store.Agree tree other) (rooted : Bool) :
    other.origin rooted = tree.origin rooted := by
  rw [FileTree.origin, FileTree.origin, agree.working]

/-- Whatever is put into both trees, they go on agreeing. -/
theorem Agree.put (agree : store.Agree tree other) (l : Location) (entry : Entry) :
    store.Agree (tree.put l entry) (other.put l entry) := by
  have same : ∀ l', tree.entry? l' = other.entry? l' →
      FileTree.entry? (tree.put l entry) l' = FileTree.entry? (other.put l entry) l' := by
    intro l' before
    by_cases here : l' = l
    · subst here
      by_cases root : l' = []
      · rw [root]
        rfl
      · rw [FileTree.entry?_put_self root, FileTree.entry?_put_self root]
    · rw [FileTree.entry?_put_of_ne here, FileTree.entry?_put_of_ne here, before]
  exact ⟨agree.working, fun l' inside => same l' (agree.inside l' inside),
    fun l' onWay => same l' (agree.onWay l' onWay)⟩

/-- What leads down from the base, and does not lead up, leads to the inside. -/
theorem reach_below (tree : FileTree) (normal : full.Normal) (same_root : full.rooted = store.base.rooted)
    {mid : List Text} (parts : full.parts = store.base.parts ++ mid) (down : up ∉ mid) :
    reach (tree.origin full.rooted) full.parts = store.root tree ++ mid := by
  have names : ∀ name ∈ mid, Path.IsName name := by
    intro name member
    rw [Path.Normal, parts] at normal
    exact normal.isName (List.mem_append_right _ member) fun same => down (same ▸ member)
  rw [parts, FileTree.reach_append, FileTree.reach_names names, same_root, root]

/-- **All that is passed on the way to a path within the base** is on the way to the base or
inside. -/
theorem onWay_or_inside (tree : FileTree) (normal : full.Normal) (within : Within store.base full)
    {front : List Text} (early : front <+: full.parts) :
    store.OnWay tree (reach (tree.origin full.rooted) front) ∨
      store.Inside tree (reach (tree.origin full.rooted) front) := by
  obtain ⟨same_root, below, parts, down⟩ := within
  rw [parts] at early
  rcases List.prefix_or_prefix_of_prefix early (List.prefix_append _ _) with short | ⟨mid, rfl⟩
  · rw [same_root]
    exact Or.inl ⟨front, short, rfl⟩
  · have behind : mid <+: below := (List.prefix_append_right_inj _).1 early
    have part : (Path.mk full.rooted (store.base.parts ++ mid)).Normal :=
      Path.IsNormal.of_prefix normal (parts ▸ early)
    have reached := reach_below tree part same_root rfl
      fun member => down (behind.subset member)
    exact Or.inr ⟨mid, reached.symm⟩

/-- Trees that agree have the same entries on the way to what is within the base. -/
theorem Agree.entry?_reach (agree : store.Agree tree other) (normal : full.Normal)
    (within : Within store.base full) {front : List Text} (early : front <+: full.parts) :
    tree.entry? (reach (tree.origin full.rooted) front) =
      other.entry? (reach (tree.origin full.rooted) front) :=
  (onWay_or_inside tree normal within early).elim (agree.onWay _) (agree.inside _)

/-- Trees that agree locate the same things on the way to what is within the base. -/
theorem Agree.locate (agree : store.Agree tree other) (normal : full.Normal)
    (within : Within store.base full) {front : List Text} (early : front <+: full.parts) :
    tree.locate (Path.mk full.rooted front).toText =
      other.locate (Path.mk full.rooted front).toText :=
  FileTree.locate_congr (normal.of_prefix early) agree.working fun _ earlier =>
    agree.entry?_reach normal within (earlier.trans early)

/-- Where the beginning of a path within the base leads, the trees agree. -/
theorem Agree.entry?_locate (agree : store.Agree tree other) (normal : full.Normal)
    (within : Within store.base full) {front : List Text} (early : front <+: full.parts)
    (located : tree.locate (Path.mk full.rooted front).toText = .ok l) :
    tree.entry? l = other.entry? l := by
  have front_normal : (Path.mk full.rooted front).Normal := Path.IsNormal.of_prefix normal early
  rw [FileTree.reach_of_locate front_normal located]
  exact agree.entry?_reach normal within early

/-- **The beginnings of a path within the base lead to the same in trees that agree.** -/
theorem Agree.stat (agree : store.Agree tree other) (normal : full.Normal)
    (within : Within store.base full) {front : List Text} (early : front <+: full.parts) :
    tree.stat (Path.mk full.rooted front).toText =
      other.stat (Path.mk full.rooted front).toText := by
  have same_place := agree.locate normal within early
  cases located : tree.locate (Path.mk full.rooted front).toText with
  | error e =>
    rw [FileTree.stat, FileTree.stat, ← same_place, located]
    rfl
  | ok l =>
    have same := agree.entry?_locate normal within early located
    rw [located] at same_place
    cases found : tree.entry? l with
    | some entry => rw [FileTree.stat_of_entry located found,
        FileTree.stat_of_entry same_place.symm (same ▸ found)]
    | none => rw [FileTree.stat_of_free located found,
        FileTree.stat_of_free same_place.symm (same ▸ found)]

/-! ## Reading -/

/-- What stands at a path that is resolved depends on the inside only. -/
theorem Agree.stat_of_resolve (agree : store.Agree tree other) (normal : store.base.Normal)
    (resolved : store.resolve path = .ok full) :
    tree.stat full.toText = other.stat full.toText :=
  agree.stat (normal_of_resolve normal resolved) (within_of_resolve normal resolved)
    List.prefix_rfl

/-- What is loaded depends on the inside only. -/
theorem load_congr (normal : store.base.Normal) (agree : store.Agree tree other)
    (context : Context) (path : Text) :
    store.load tree context path = store.load other context path := by
  rw [load, load]
  cases context.failure? with
  | some failure => rfl
  | none =>
    cases resolved : store.resolve path with
    | error failure => rfl
    | ok full =>
      show (tree.read full.toText).mapError _ = (other.read full.toText).mapError _
      rw [FileTree.read, FileTree.read, agree.stat_of_resolve normal resolved]

/-- What is there depends on the inside only. -/
theorem has_congr (normal : store.base.Normal) (agree : store.Agree tree other) (path : Text) :
    store.has tree path = store.has other path := by
  rw [has, has]
  cases resolved : store.resolve path with
  | error failure => rfl
  | ok full =>
    simp only [agree.stat_of_resolve normal resolved]

/-- Nothing is listed when the context has ended. -/
theorem list_of_over {context : Context} {failure : Failure}
    (past : context.failure? = some failure) (tree : FileTree) (path : Text) :
    store.list tree context path = .error failure := by
  rw [list, past]
  rfl

/-- Nothing is listed for a path that is refused. -/
theorem list_of_refused {failure : Failure} (refused : store.resolve path = .error failure)
    (tree : FileTree) : store.list tree .live path = .error failure := by
  rw [list, refused]
  rfl

/-- What is listed is found in the tree, and the temporary files are left out. -/
theorem list_eq (resolved : store.resolve path = .ok full) (tree : FileTree) :
    store.list tree .live path =
      ((tree.glob full.toText).mapError (.wrapped "listing files")).map
        (·.filterMap store.listed?) := by
  rw [list, resolved]
  show (tree.glob full.toText).mapError _ >>= _ = _
  cases (tree.glob full.toText).mapError (Failure.wrapped "listing files") <;> rfl

/-- What is listed of the paths that were found. -/
theorem listed?_eq_some {found text : Text} (listed : store.listed? found = some text) :
    ∃ parts, text = Path.relativeText parts ∧ up ∉ parts ∧
      Path.ofText found = ⟨store.base.rooted, store.base.parts ++ parts⟩ := by
  rw [listed?] at listed
  cases led : Path.relative? store.base (Path.ofText found) with
  | none =>
    rw [led] at listed
    cases listed
  | some parts =>
    rw [led] at listed
    dsimp only at listed
    split at listed
    · cases listed
    · rename_i kept
      have climbs_not : leadsUp parts = false := by
        cases climbs : leadsUp parts with
        | false => rfl
        | true =>
          obtain ⟨rest, rfl⟩ : ∃ rest, parts = up :: rest :=
            List.head?_eq_some_iff.1 (beq_iff_eq.1 climbs)
          exact absurd (Path.relativeText_startsWith_up rest) kept
      obtain ⟨same_root, behind⟩ := Path.parts_of_relative? led climbs_not
      refine ⟨parts, (Option.some.inj listed).symm, fun member => ?_, ?_⟩
      · have normal := Path.normal_ofText found
        rw [Path.Normal, behind] at normal
        rw [leadsUp, normal.head_eq_up_iff.2 member] at climbs_not
        cases climbs_not
      · rw [← same_root, ← behind]

/-- **Only what is inside is listed.** -/
theorem list_within {names : List Text} (listed : store.list tree context path = .ok names) :
    ∀ name ∈ names, ∃ parts, name = Path.relativeText parts ∧
      Within store.base ⟨store.base.rooted, store.base.parts ++ parts⟩ := by
  intro name member
  cases context with
  | canceled => cases listed
  | expired => cases listed
  | live =>
    cases resolved : store.resolve path with
    | error failure =>
      rw [list_of_refused resolved] at listed
      cases listed
    | ok full =>
      rw [list_eq resolved] at listed
      cases found : (tree.glob full.toText).mapError (Failure.wrapped "listing files") with
      | error failure =>
        rw [found] at listed
        cases listed
      | ok matching =>
        rw [found] at listed
        cases listed
        obtain ⟨text, -, kept⟩ := List.mem_filterMap.1 member
        obtain ⟨parts, rfl, down, -⟩ := listed?_eq_some kept
        exact ⟨parts, rfl, rfl, parts, rfl, down⟩

/-! ## Saving -/

/-- The work of a save, once its path is accepted: first the directory of the file is made, then
the file is put there by way of a temporary one. -/
theorem save_eq (normal : store.base.Normal) (resolved : store.resolve path = .ok full)
    (tree : FileTree) (data : Text) :
    store.save tree .live path data =
      match tree.makeDirectories full.parent.toText with
      | (made, some failure) => (made, some (.wrapped "creating directory" failure))
      | (made, none) => rename made full.parent.toText full.toText data := by
  have directory := Path.directory_toText (normal_of_resolve normal resolved)
  rcases making : tree.makeDirectories full.parent.toText with ⟨made, _ | failure⟩
  · simp only [save, Context.failure?, resolved, directory, making]
  · simp only [save, Context.failure?, resolved, directory, making]

/-- Renaming fails and changes nothing, or puts the file where the path leads. -/
theorem rename_cases (tree : FileTree) (directory path data : Text) :
    (∃ failure, rename tree directory path data = (tree, some failure)) ∨
    ∃ l, tree.locate path = .ok l ∧ tree.entry? l ≠ some .directory ∧
      rename tree directory path data = (tree.put l (.file data), none) := by
  rw [rename]
  cases located : tree.locate path with
  | error e => exact Or.inl ⟨_, rfl⟩
  | ok l =>
    dsimp only
    split
    · exact Or.inl ⟨_, rfl⟩
    · rename_i free
      exact Or.inr ⟨l, rfl, free, rfl⟩

/-- **What a save does**: it makes directories on the way to the file, and if all goes well it
puts the file at its location. -/
theorem save_cases (normal : store.base.Normal) (tree : FileTree) (context : Context)
    (path data : Text) :
    (∃ failure, store.save tree context path data = (tree, some failure)) ∨
    ∃ full made, store.resolve path = .ok full ∧
      FileTree.MakesOnly (fun l => ∃ front, front <+: full.parts ∧
        l = reach (tree.origin full.rooted) front) tree made ∧
      ((∃ failure, store.save tree context path data = (made, some failure)) ∨
        ∃ l, context = .live ∧ made.locate full.toText = .ok l ∧
          made.entry? l ≠ some .directory ∧
          store.save tree context path data = (made.put l (.file data), none)) := by
  cases context with
  | canceled => exact Or.inl ⟨_, rfl⟩
  | expired => exact Or.inl ⟨_, rfl⟩
  | live =>
    cases resolved : store.resolve path with
    | error failure =>
      refine Or.inl ⟨failure, ?_⟩
      simp only [save, Context.failure?, resolved]
    | ok full =>
      have full_normal := normal_of_resolve normal resolved
      have makes := FileTree.makesOnly_makeDirectories tree full_normal.parent
      refine Or.inr ⟨full, (tree.makeDirectories full.parent.toText).1, rfl, ?_, ?_⟩
      · refine ⟨makes.working, fun l => (makes.entry? l).imp id ?_⟩
        rintro ⟨⟨front, early, rfl⟩, free, new⟩
        exact ⟨⟨front, early.trans (List.dropLast_prefix _), rfl⟩, free, new⟩
      · rw [save_eq normal resolved]
        obtain ⟨made, failure?⟩ := tree.makeDirectories full.parent.toText
        cases failure? with
        | some failure => exact Or.inl ⟨_, rfl⟩
        | none =>
          exact (rename_cases made full.parent.toText full.toText data).imp id
            fun ⟨l, located, free, done⟩ => ⟨l, rfl, located, free, done⟩

/-- **A save changes only the inside**, and makes missing directories that lead to the base. -/
theorem entry?_save (normal : store.base.Normal) (tree : FileTree) (context : Context)
    (path data : Text) (l : Location) :
    FileTree.entry? (store.save tree context path data).1 l = tree.entry? l ∨ store.Inside tree l ∨
      store.OnWay tree l ∧ tree.entry? l = none ∧
        FileTree.entry? (store.save tree context path data).1 l = some .directory := by
  rcases save_cases normal tree context path data with ⟨failure, saved⟩ | ⟨full, made, resolved,
    makes, work⟩
  · exact Or.inl (by rw [saved])
  have full_normal := normal_of_resolve normal resolved
  have within := within_of_resolve normal resolved
  have made_only : made.entry? l = tree.entry? l ∨ store.Inside tree l ∨
      store.OnWay tree l ∧ tree.entry? l = none ∧ made.entry? l = some .directory := by
    rcases makes.entry? l with same | ⟨⟨front, early, rfl⟩, free, new⟩
    · exact Or.inl same
    · rcases onWay_or_inside tree full_normal within early with onWay | inside
      · exact Or.inr (Or.inr ⟨onWay, free, new⟩)
      · exact Or.inr (Or.inl inside)
  rcases work with ⟨failure, saved⟩ | ⟨place, -, located, -, saved⟩
  · rw [saved]
    exact made_only
  · rw [saved]
    by_cases there : l = place
    · obtain ⟨same_root, below, parts, down⟩ := within
      have reached := FileTree.reach_of_locate full_normal located
      rw [makes.origin, reach_below tree full_normal same_root parts down] at reached
      exact Or.inr (Or.inl ⟨below, by rw [there, reached]⟩)
    · rwa [FileTree.entry?_put_of_ne there]

/-- Making one directory goes the same way in trees that agree. -/
theorem Agree.makeDirectory (agree : store.Agree tree other) (normal : full.Normal)
    (within : Within store.base full) {front : List Text} (early : front <+: full.parts) :
    (∃ e, tree.makeDirectory (Path.mk full.rooted front).toText = .error e ∧
      other.makeDirectory (Path.mk full.rooted front).toText = .error e) ∨
    ∃ made made', tree.makeDirectory (Path.mk full.rooted front).toText = .ok made ∧
      other.makeDirectory (Path.mk full.rooted front).toText = .ok made' ∧
      store.Agree made made' := by
  have same_place := agree.locate normal within early
  cases located : tree.locate (Path.mk full.rooted front).toText with
  | error e =>
    rw [located] at same_place
    exact Or.inl ⟨e, FileTree.makeDirectory_of_error located,
      FileTree.makeDirectory_of_error same_place.symm⟩
  | ok l =>
    have same := agree.entry?_locate normal within early located
    rw [located] at same_place
    cases found : tree.entry? l with
    | some entry =>
      exact Or.inl ⟨.taken, FileTree.makeDirectory_of_entry located found,
        FileTree.makeDirectory_of_entry same_place.symm (same ▸ found)⟩
    | none =>
      exact Or.inr ⟨_, _, FileTree.makeDirectory_of_free located found,
        FileTree.makeDirectory_of_free same_place.symm (same ▸ found), agree.put l .directory⟩

/-- Making directories goes the same way in trees that agree. -/
theorem Agree.makeDirectories (agree : store.Agree tree other) (normal : full.Normal)
    (within : Within store.base full) :
    store.Agree (tree.makeDirectories full.parent.toText).1
        (other.makeDirectories full.parent.toText).1 ∧
      (tree.makeDirectories full.parent.toText).2 =
        (other.makeDirectories full.parent.toText).2 := by
  have parent_early : full.parent.parts <+: full.parts := List.dropLast_prefix _
  have same_stat : tree.stat full.parent.toText = other.stat full.parent.toText :=
    agree.stat normal within parent_early
  rw [FileTree.makeDirectories, FileTree.makeDirectories, FileTree.isDirectory,
    FileTree.isDirectory, same_stat]
  split
  · exact ⟨agree, rfl⟩
  -- The invariant of the two folds: the trees agree and have failed alike.
  refine List.foldl_rel (r := fun (a b : FileTree × Option Failure) => store.Agree a.1 b.1 ∧
    a.2 = b.2) ⟨agree, rfl⟩ ?_
  rintro text member ⟨made, failure?⟩ ⟨made', failure?'⟩ ⟨so_far, alike⟩
  dsimp only at so_far alike ⊢
  subst alike
  obtain ⟨front, early, rfl⟩ := FileTree.mem_ancestors normal.parent member
  have early : front <+: full.parts := early.trans parent_early
  cases failed : failure?.isSome with
  | true => exact ⟨so_far, rfl⟩
  | false =>
    simp only [Bool.false_eq_true, if_false]
    have same_stat : made.stat (Path.mk full.rooted front).toText =
        made'.stat (Path.mk full.rooted front).toText := so_far.stat normal within early
    have same_root : full.parent.rooted = full.rooted := rfl
    rw [same_root, ← same_stat]
    cases made.stat (Path.mk full.rooted front).toText with
    | ok entry => cases entry <;> exact ⟨so_far, rfl⟩
    | error e =>
      rcases so_far.makeDirectory normal within early with ⟨e, left, right⟩ | ⟨next, next', left,
        right, agree⟩
      · rw [left, right]
        exact ⟨so_far, rfl⟩
      · rw [left, right]
        exact ⟨agree, rfl⟩

/-- **A save goes the same way in trees that agree**, and they go on agreeing. -/
theorem Agree.save (normal : store.base.Normal) (agree : store.Agree tree other)
    (context : Context) (path data : Text) :
    store.Agree (store.save tree context path data).1 (store.save other context path data).1 ∧
      (store.save tree context path data).2 = (store.save other context path data).2 := by
  cases context with
  | canceled => exact ⟨agree, rfl⟩
  | expired => exact ⟨agree, rfl⟩
  | live =>
    cases resolved : store.resolve path with
    | error failure =>
      simp only [Store.save, Context.failure?, resolved]
      exact ⟨agree, trivial⟩
    | ok full =>
      have full_normal := normal_of_resolve normal resolved
      have within := within_of_resolve normal resolved
      rw [save_eq normal resolved, save_eq normal resolved]
      -- Both trees go on with the directories on the way, which are made alike in them.
      have making := agree.makeDirectories full_normal within
      generalize tree.makeDirectories full.parent.toText = first at making ⊢
      generalize other.makeDirectories full.parent.toText = second at making ⊢
      obtain ⟨made, failure?⟩ := first
      obtain ⟨made', failure?'⟩ := second
      obtain ⟨made_agree, alike⟩ := making
      dsimp only at made_agree alike
      subst alike
      cases failure? with
      | some failure => exact ⟨made_agree, rfl⟩
      | none =>
        dsimp only
        -- What is at the target decides on the rest, and the target is inside.
        have same_place : made.locate full.toText = made'.locate full.toText :=
          made_agree.locate full_normal within List.prefix_rfl
        rw [rename, rename, ← same_place]
        cases located : made.locate full.toText with
        | error e => exact ⟨made_agree, rfl⟩
        | ok l =>
          have same : made.entry? l = made'.entry? l :=
            made_agree.entry?_locate full_normal within List.prefix_rfl located
          dsimp only
          rw [← same]
          cases made.entry? l with
          | none => exact ⟨made_agree.put l _, rfl⟩
          | some entry =>
            cases entry with
            | directory => exact ⟨made_agree, rfl⟩
            | file old => exact ⟨made_agree.put l _, rfl⟩

end Store

end FlowTrace
