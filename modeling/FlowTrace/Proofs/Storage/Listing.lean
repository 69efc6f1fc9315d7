import FlowTrace.Proofs.Storage.Globs
import FlowTrace.Proofs.Storage.Jail

/-! # What a store lists

What is listed is the same in all trees that agree inside the base and on the way to it
(`Store.list_congr`): wherever the base itself has wildcards, no other directory that fits them
matters.

A glob without wildcards describes the file of its name only (`FileTree.glob_of_plain`). A file
that was saved is there afterwards (`Store.stat_save`), so that its own path lists it, unless the
first name on its way from the base begins with two points: what a store takes for a path out of
its base when it lists is more than what it takes for one when it saves (`Store.list_save`). -/

namespace FlowTrace

open FileTree (reach)
open FlowTrace.Path (IsNormal Within components extend isRooted up here separator)

/-! ## Texts without wildcards -/

namespace Glob

variable {t : Text}

/-- A text without special bytes is not magic. -/
theorem isMagic_eq_false_iff : isMagic t = false ↔ ∀ c ∈ t, Text.isOneOf "*?[\\" c = false := by
  simp [isMagic]

/-- Without wildcards every byte stands for itself. -/
theorem parse?_of_plain (plain : isMagic t = false) : parse? t 0 = some (t.map .byte) := by
  induction t with
  | nil => rfl
  | cons c t ih =>
    obtain ⟨ordinary, rest⟩ := List.forall_mem_cons.1 (isMagic_eq_false_iff.1 plain)
    have other : ∀ wild : UInt8, Text.isOneOf "*?[\\" wild = true → (c == wild) = false := by
      intro wild special
      refine beq_eq_false_iff_ne.2 ?_
      rintro rfl
      rw [ordinary] at special
      cases special
    simp [parse?, other '*' (by decide), other '?' (by decide), other '[' (by decide),
      other Text.backslash (by decide), ih (isMagic_eq_false_iff.2 rest)]

end Glob

namespace Path

variable {rooted : Bool} {parts new : List Text} {part directory path : Text}

/-- Pushing components makes no new ones. -/
theorem mem_extend (member : part ∈ extend rooted parts new) :
    part ∈ parts ∨ part ∈ new ∨ part = up := by
  induction new generalizing parts with
  | nil => exact Or.inl (by rwa [extend_nil] at member)
  | cons first new ih =>
    rw [extend_cons] at member
    rcases ih member with early | late | climbs
    · rcases extend_cases rooted parts first with ⟨same, -⟩ | ⟨rfl, last, -, taken⟩ | ⟨added, -⟩
      · exact Or.inl (same ▸ early)
      · exact Or.inl (taken ▸ List.mem_append_left _ early)
      · rw [added] at early
        rcases List.mem_append.1 early with old | pushed
        · exact Or.inl old
        · rw [List.mem_singleton.1 pushed]
          exact Or.inr (Or.inl List.mem_cons_self)
    · exact Or.inr (Or.inl (List.mem_cons_of_mem first late))
    · exact Or.inr (Or.inr climbs)

/-- A byte of a joined text is a separator or in one of the parts. -/
theorem mem_joinWith {c : UInt8} (inside : c ∈ Text.joinWith "/" parts) :
    c = separator ∨ ∃ part ∈ parts, c ∈ part := by
  induction parts with
  | nil => cases inside
  | cons first rest ih =>
    by_cases last : rest = []
    · rw [last, Text.joinWith_singleton] at inside
      exact Or.inr ⟨first, List.mem_cons_self, inside⟩
    · rw [joinWith_slash first last, List.mem_append, List.mem_cons] at inside
      rcases inside with here | rfl | there
      · exact Or.inr ⟨first, List.mem_cons_self, here⟩
      · exact Or.inl rfl
      · exact (ih there).imp id fun ⟨part, member, inside⟩ =>
          ⟨part, List.mem_cons_of_mem first member, inside⟩

/-- The text of a path has no wildcards if its components have none. -/
theorem isMagic_toText {p : Path} (plain : ∀ part ∈ p.parts, Glob.isMagic part = false) :
    Glob.isMagic p.toText = false := by
  have joined : Glob.isMagic (Text.joinWith "/" p.parts) = false := by
    refine Glob.isMagic_eq_false_iff.2 fun c inside => ?_
    rcases mem_joinWith inside with rfl | ⟨part, member, inside⟩
    · decide
    · exact Glob.isMagic_eq_false_iff.1 (plain part member) c inside
  rw [toText]
  split
  · exact Glob.isMagic_eq_false_iff.2
      (List.forall_mem_cons.2 ⟨by decide, Glob.isMagic_eq_false_iff.1 joined⟩)
  · split
    · decide
    · exact joined

/-- A relative text begins with two points when the first name does. -/
theorem startsWith_relativeText (written : ∀ part ∈ parts, IsWritten part) :
    (relativeText parts).startsWith ".." = parts.head?.any (Text.startsWith · "..") := by
  cases parts with
  | nil => decide
  | cons first rest =>
    by_cases last : rest = []
    · subst last
      show Text.startsWith (Text.joinWith "/" [first]) ".." = _
      rw [Text.joinWith_singleton]
      rfl
    · obtain ⟨c, name, rfl⟩ := List.exists_cons_of_ne_nil (written first List.mem_cons_self).ne_nil
      have text : relativeText ((c :: name) :: rest) =
          c :: (name ++ separator :: Text.joinWith "/" rest) := joinWith_slash (c :: name) last
      have points : Text.of ".." = up := rfl
      -- Behind a first name of one byte there is a separator, which is no point.
      cases name <;> simp [text, points, separator, Text.startsWith, List.isPrefixOf]

/-- Paths that are made of texts without wildcards have none. -/
theorem isMagic_append (plain_directory : Glob.isMagic directory = false)
    (plain_path : Glob.isMagic path = false) :
    Glob.isMagic ((ofText directory).append path).toText = false := by
  have of_text : ∀ {t : Text}, Glob.isMagic t = false → ∀ part ∈ components t,
      Glob.isMagic part = false := fun plain part member =>
    Glob.isMagic_eq_false_iff.2 fun c inside =>
      Glob.isMagic_eq_false_iff.1 plain c (mem_of_mem_components member inside)
  refine isMagic_toText fun part member => ?_
  rcases mem_extend member with base | added | rfl
  · rcases mem_extend base with nothing | added | rfl
    · cases nothing
    · exact of_text plain_directory part added
    · decide
  · exact of_text plain_path part added
  · decide

end Path

namespace FileTree

/-- **A glob without wildcards describes the file of its name.** -/
theorem glob_of_plain (tree : FileTree) {path : Text} (plain : Glob.isMagic path = false) :
    tree.glob path = .ok (match tree.stat path with | .ok _ => [path] | .error _ => []) := by
  rw [glob, globUpTo, Glob.parse?_of_plain plain, plain]
  rfl

end FileTree

/-! ## Paths in sight of a store -/

namespace Store

variable {store : Store} {tree other : FileTree} {full p q : Path} {name last path : Text}
  {items : List Glob.Item} {l : Location}

/-- A path is **in sight** of a store when it leads to the base or is within it. -/
def InSight (store : Store) (p : Path) : Prop :=
  p.rooted = store.base.rooted ∧ p.parts <+: store.base.parts ∨ Within store.base p

/-- What is on the way to something in sight is in sight. -/
theorem InSight.of_prefix {rooted : Bool} {parts front : List Text}
    (sight : store.InSight ⟨rooted, parts⟩) (early : front <+: parts) :
    store.InSight ⟨rooted, front⟩ := by
  rcases sight with ⟨same_root, above⟩ | ⟨same_root, below, behind, down⟩
  · exact Or.inl ⟨same_root, early.trans above⟩
  · dsimp only at same_root behind
    rw [behind] at early
    rcases List.prefix_or_prefix_of_prefix early (List.prefix_append _ _) with short | ⟨mid, rfl⟩
    · exact Or.inl ⟨same_root, short⟩
    · have part : mid <+: below := (List.prefix_append_right_inj _).1 early
      exact Or.inr ⟨same_root, mid, rfl, fun member => down (part.subset member)⟩

/-- Where a path in sight leads, trees that agree hold the same. -/
theorem InSight.entry?_reach (sight : store.InSight p) (normal : p.Normal)
    (agree : store.Agree tree other) :
    tree.entry? (reach (tree.origin p.rooted) p.parts) =
      other.entry? (reach (tree.origin p.rooted) p.parts) := by
  rcases sight with ⟨same_root, above⟩ | within
  · exact agree.onWay _ ⟨p.parts, above, by rw [same_root]⟩
  · exact agree.entry?_reach normal within List.prefix_rfl

/-- What is in sight is located alike in trees that agree. -/
theorem InSight.locate (sight : store.InSight p) (normal : p.Normal)
    (agree : store.Agree tree other) : tree.locate p.toText = other.locate p.toText :=
  FileTree.locate_congr normal agree.working fun front early =>
    InSight.entry?_reach (p := ⟨p.rooted, front⟩) (sight.of_prefix early) (normal.of_prefix early)
      agree

open scoped Classical in
/-- **What is in sight under a path in sight** is the same in trees that agree. -/
theorem InSight.under (wellFormed : tree.WellFormed) (wellFormed' : other.WellFormed)
    (agree : store.Agree tree other) (normal : q.Normal) (sight : store.InSight q) :
    (tree.under items q).filter (store.InSight ·) =
      (other.under items q).filter (store.InSight ·) := by
  rw [FileTree.under, FileTree.under, ← sight.locate normal agree]
  cases located : tree.locate q.toText with
  | error e => rfl
  | ok l =>
    dsimp only
    have place := FileTree.reach_of_locate normal located
    have same_entry := sight.entry?_reach normal agree
    rw [← place] at same_entry
    rw [← same_entry]
    split
    · rw [List.filter_map, List.filter_map, List.filter_filter, List.filter_filter,
        FileTree.names_filter_congr wellFormed wellFormed']
      intro name is_name holds
      rw [Bool.and_eq_true] at holds
      have deeper : store.InSight ⟨q.rooted, q.parts ++ [name]⟩ := by simpa using holds.1
      have same := deeper.entry?_reach (IsNormal.concat_name normal is_name) agree
      have step : reach (tree.origin q.rooted) (q.parts ++ [name]) = l ++ [name] := by
        rw [FileTree.reach_append, ← place, FileTree.reach_names (by simpa using is_name)]
      rwa [step] at same
    · rfl

/-- Nothing is in sight under a path that is not. -/
theorem inSight_of_mem_under (wellFormed : tree.WellFormed) (member : p ∈ tree.under items q)
    (sight : store.InSight p) : store.InSight q := by
  obtain ⟨name, -, rfl⟩ := FileTree.mem_under wellFormed member
  exact sight.of_prefix (List.prefix_append _ _)

/-! ## Globs in trees that agree -/

open scoped Classical in
/-- Two searches for paths end **alike**: with the same failure, or with the same of what is in
sight. -/
def Alike (store : Store) (found found' : Except Failure (List Text)) : Prop :=
  (∃ failure, found = .error failure ∧ found' = .error failure) ∨
  ∃ ps ps' : List Path, found = .ok (ps.map Path.toText) ∧ found' = .ok (ps'.map Path.toText) ∧
    (∀ p ∈ ps ++ ps', p.Normal) ∧ ps.filter (store.InSight ·) = ps'.filter (store.InSight ·)

open scoped Classical in
/-- What is found under directories is in sight when the directory is, and it. -/
theorem filter_flatMap_under (wellFormed : tree.WellFormed) (ps : List Path) :
    (ps.flatMap (tree.under items)).filter (store.InSight ·) =
      (ps.filter (store.InSight ·)).flatMap fun p =>
        (tree.under items p).filter (store.InSight ·) := by
  induction ps with
  | nil => rfl
  | cons p ps ih =>
    rw [List.flatMap_cons, List.filter_append, ih]
    by_cases sight : store.InSight p
    · rw [List.filter_cons_of_pos (by simpa using sight), List.flatMap_cons]
    · have nothing : (tree.under items p).filter (store.InSight ·) = [] := by
        refine List.filter_eq_nil_iff.2 fun q member hit => sight ?_
        exact inSight_of_mem_under wellFormed member (by simpa using hit)
      rw [nothing, List.filter_cons_of_neg (by simpa using sight), List.nil_append]

/-- **Under directories that were found alike**, what is found is alike. -/
theorem Alike.descend (wellFormed : tree.WellFormed) (wellFormed' : other.WellFormed)
    (agree : store.Agree tree other) (read : Glob.parse? last 0 = some items)
    {found found' : Except Failure (List Text)} (alike : store.Alike found found') :
    store.Alike (tree.descend found last) (other.descend found' last) := by
  rcases alike with ⟨failure, rfl, rfl⟩ | ⟨ps, ps', rfl, rfl, normal, same⟩
  · exact Or.inl ⟨failure, rfl, rfl⟩
  obtain ⟨normal, normal'⟩ := List.forall_mem_append.1 normal
  have below : ∀ {tree : FileTree} {ps : List Path}, tree.WellFormed → (∀ p ∈ ps, p.Normal) →
      ∀ p ∈ ps.flatMap (tree.under items), p.Normal := by
    intro tree ps wellFormed normal p member
    obtain ⟨q, inside, found⟩ := List.mem_flatMap.1 member
    obtain ⟨name, is_name, rfl⟩ := FileTree.mem_under wellFormed found
    exact IsNormal.concat_name (normal q inside) is_name
  refine Or.inr ⟨_, _, FileTree.descend_ok wellFormed read normal,
    FileTree.descend_ok wellFormed' read normal',
    List.forall_mem_append.2 ⟨below wellFormed normal, below wellFormed' normal'⟩, ?_⟩
  rw [filter_flatMap_under wellFormed, filter_flatMap_under wellFormed', ← same]
  refine List.flatMap_congr fun q member => ?_
  have sight : store.InSight q := by simpa using List.of_mem_filter member
  exact sight.under wellFormed wellFormed' agree (normal q (List.mem_of_mem_filter member))

/-- One path is alike to itself. -/
theorem Alike.singleton (normal : p.Normal) :
    store.Alike (.ok [p.toText]) (.ok [p.toText]) :=
  Or.inr ⟨[p], [p], rfl, rfl, by simpa using normal, rfl⟩

/-- **A glob finds the same in sight** in trees that agree, whatever else it meets. -/
theorem Alike.globUpTo (wellFormed : tree.WellFormed) (wellFormed' : other.WellFormed)
    (agree : store.Agree tree other) (normal : full.Normal) (within : Within store.base full)
    (bound : Nat) {front : List Text} (early : front <+: full.parts) :
    store.Alike (tree.globUpTo bound (Path.toText ⟨full.rooted, front⟩))
      (other.globUpTo bound (Path.toText ⟨full.rooted, front⟩)) := by
  induction bound generalizing front with
  | zero => exact Or.inl ⟨_, rfl, rfl⟩
  | succ bound ih =>
    have front_normal : (Path.mk full.rooted front).Normal := normal.of_prefix early
    cases read : Glob.parse? (Path.toText ⟨full.rooted, front⟩) 0 with
    | none =>
      exact Or.inl ⟨_, FileTree.globUpTo_of_malformed read tree _,
        FileTree.globUpTo_of_malformed read other _⟩
    | some whole =>
      cases magic : Glob.isMagic (Path.toText ⟨full.rooted, front⟩) with
      | false =>
        rw [FileTree.globUpTo, FileTree.globUpTo, read, magic, ← agree.stat normal within early]
        cases tree.stat (Path.toText ⟨full.rooted, front⟩) with
        | error e => exact Or.inr ⟨[], [], rfl, rfl, List.forall_mem_nil _, rfl⟩
        | ok entry => exact Alike.singleton front_normal
      | true =>
        -- A path with wildcards has a last name.
        rcases List.eq_nil_or_concat' front with rfl | ⟨above, last, rfl⟩
        · have bare : Glob.isMagic (Path.toText ⟨full.rooted, []⟩) = false := by
            cases full.rooted <;> decide
          rw [bare] at magic
          cases magic
        have above_early : above <+: full.parts := (List.prefix_append _ _).trans early
        have readable := Option.isSome_iff_exists.2 ⟨whole, read⟩
        rw [FileTree.globUpTo_concat tree bound front_normal readable magic,
          FileTree.globUpTo_concat other bound front_normal readable magic]
        split
        · exact Or.inl ⟨_, rfl, rfl⟩
        cases above_magic : Glob.isMagic (Path.toText ⟨full.rooted, above⟩) with
        | false =>
          have above_read := Option.isSome_iff_exists.2 ⟨_, Glob.parse?_of_plain above_magic⟩
          obtain ⟨items, last_read⟩ :=
            Option.isSome_iff_exists.1 (FileTree.parse?_last readable above_read)
          have above_normal : (Path.mk full.rooted above).Normal := normal.of_prefix above_early
          have one : store.Alike _ _ := Alike.singleton above_normal
          exact one.descend wellFormed wellFormed' agree last_read
        | true =>
          simp only [if_true]
          cases above_read : Glob.parse? (Path.toText ⟨full.rooted, above⟩) 0 with
          | none =>
            rw [FileTree.globUpTo_of_malformed above_read, FileTree.globUpTo_of_malformed above_read]
            exact Or.inl ⟨_, rfl, rfl⟩
          | some above_items =>
            obtain ⟨items, last_read⟩ := Option.isSome_iff_exists.1
              (FileTree.parse?_last readable (Option.isSome_iff_exists.2 ⟨_, above_read⟩))
            exact (ih above_early).descend wellFormed wellFormed' agree last_read

/-- What is listed is in sight. -/
theorem inSight_of_listed (normal : p.Normal) {text : Text}
    (listed : store.listed? p.toText = some text) : store.InSight p := by
  obtain ⟨parts, -, down, behind⟩ := listed?_eq_some listed
  rw [Path.ofText_toText normal] at behind
  exact Or.inr ⟨by rw [behind], parts, by rw [behind], down⟩

open scoped Classical in
/-- What is listed are the paths in sight, relative to the base. -/
theorem filterMap_listed? {ps : List Path} (normal : ∀ p ∈ ps, p.Normal) :
    (ps.map Path.toText).filterMap store.listed? =
      (ps.filter (store.InSight ·)).filterMap fun p => store.listed? p.toText := by
  rw [List.filterMap_map, List.filterMap_filter]
  refine List.filterMap_congr fun p member => ?_
  by_cases sight : store.InSight p
  · simp [sight]
  · cases listed : store.listed? p.toText with
    | none => simp [sight, listed]
    | some text => exact absurd (inSight_of_listed (normal p member) listed) sight

/-- **What is listed depends on the inside only.** -/
theorem list_congr (normal : store.base.Normal) (wellFormed : tree.WellFormed)
    (wellFormed' : other.WellFormed) (agree : store.Agree tree other) (context : Context)
    (path : Text) : store.list tree context path = store.list other context path := by
  cases context with
  | canceled => rw [list_of_over rfl, list_of_over rfl]
  | expired => rw [list_of_over rfl, list_of_over rfl]
  | live =>
    cases resolved : store.resolve path with
    | error failure => rw [list_of_refused resolved, list_of_refused resolved]
    | ok full =>
      have found : store.Alike (tree.glob full.toText) (other.glob full.toText) :=
        Alike.globUpTo wellFormed wellFormed' agree (normal_of_resolve normal resolved)
          (within_of_resolve normal resolved) _ List.prefix_rfl
      rw [list_eq resolved, list_eq resolved]
      rcases found with ⟨failure, failed, failed'⟩ | ⟨ps, ps', found, found', normal, same⟩
      · rw [failed, failed']
      · rw [found, found']
        obtain ⟨normal, normal'⟩ := List.forall_mem_append.1 normal
        show Except.ok ((ps.map Path.toText).filterMap store.listed?) =
          Except.ok ((ps'.map Path.toText).filterMap store.listed?)
        rw [filterMap_listed? normal, filterMap_listed? normal', same]

end Store

namespace Store

variable {store : Store} {directory path data : Text} {full : Path} {parts : List Text}
  {tree : FileTree} {context : Context}

/-- The path of a file below the base is listed, unless it begins with two points. -/
theorem listed?_toText (normal : full.Normal) (same_root : full.rooted = store.base.rooted)
    (below : full.parts = store.base.parts ++ parts) :
    store.listed? full.toText =
      if (Path.relativeText parts).startsWith ".." then none
      else some (Path.relativeText parts) := by
  rw [listed?, Path.ofText_toText normal, Path.relative?_of_parts same_root below]

/-- **A file that was saved is there.** -/
theorem stat_save (normal : store.base.Normal)
    (saved : (store.save tree context path data).2 = none) :
    context = .live ∧ ∃ full, store.resolve path = .ok full ∧
      (store.save tree context path data).1.stat full.toText = .ok (.file data) := by
  rcases save_cases normal tree context path data with ⟨failure, failed⟩ | ⟨full, made, resolved, -,
    ⟨failure, failed⟩ | ⟨l, live, located, free, done⟩⟩
  · rw [failed] at saved
    cases saved
  · rw [failed] at saved
    cases saved
  refine ⟨live, full, resolved, ?_⟩
  have below : l ≠ [] := by
    rintro rfl
    exact free rfl
  have stays : ∀ l', made.entry? l' = some .directory →
      FileTree.entry? (made.put l (.file data)) l' = some .directory := by
    intro l' there
    rw [FileTree.entry?_put_of_ne, there]
    rintro rfl
    exact free there
  have again := FileTree.locate_mono (normal_of_resolve normal resolved) located
    (FileTree.working_put made l (.file data)) stays
  rw [done]
  exact FileTree.stat_of_entry again (FileTree.entry?_put_self below)

/-- **Saving and listing agree on what is inside the base, up to names that begin with two
points**: the path of a file that was saved lists this file, by its path from the base, and nothing
else. But it lists nothing if the first name of this path begins with two points, though a store
saves such files. -/
theorem list_save (plain_directory : Glob.isMagic directory = false)
    (plain_path : Glob.isMagic path = false)
    (saved : ((below directory).save tree context path data).2 = none) :
    ∃ full parts, (below directory).resolve path = .ok full ∧
      full.parts = (below directory).base.parts ++ parts ∧
      (below directory).list ((below directory).save tree context path data).1 .live path =
        .ok (if parts.head?.any (Text.startsWith · "..") then [] else [Path.relativeText parts]) := by
  have normal := normal_base directory
  obtain ⟨rfl, full, resolved, there⟩ := stat_save normal saved
  obtain ⟨-, -, appended, same_root, parts, behind, -⟩ := (resolve_eq_ok_iff normal).1 resolved
  have full_normal := normal_of_resolve normal resolved
  have plain : Glob.isMagic full.toText = false := by
    rw [appended]
    exact Path.isMagic_append plain_directory plain_path
  have written : ∀ part ∈ parts, Path.IsWritten part := fun part member =>
    full_normal.isWritten part (behind ▸ List.mem_append_right _ member)
  refine ⟨full, parts, resolved, behind, ?_⟩
  rw [list_eq resolved, FileTree.glob_of_plain _ plain, there]
  show Except.ok ([full.toText].filterMap (below directory).listed?) = _
  rw [List.filterMap_cons, listed?_toText full_normal same_root behind,
    Path.startsWith_relativeText written]
  cases parts.head?.any (Text.startsWith · "..") <;> rfl

/-- A file in a directory is listed by a pattern with a double slash. -/
theorem list_save_nested :
    ((below "/w/base").save ⟨[], []⟩ .live "runs//a" "1").2 = none ∧
      (below "/w/base").list ((below "/w/base").save ⟨[], []⟩ .live "runs//a" "1").1 .live "runs//a" =
        .ok [("runs/a" : Text)] := by
  have saved : ((below "/w/base").save ⟨[], []⟩ .live "runs//a" "1").2 = none := rfl
  have leads : (below "/w/base").resolve "runs//a" = .ok ⟨true, [Text.of "w", "base", "runs", "a"]⟩ :=
    rfl
  obtain ⟨full, parts, resolved, behind, listed⟩ := list_save (by decide) (by decide) saved
  rw [leads] at resolved
  cases resolved
  have behind : [Text.of "w", "base"] ++ [Text.of "runs", "a"] = [Text.of "w", "base"] ++ parts :=
    behind
  have led : parts = [Text.of "runs", "a"] := (List.append_cancel_left behind).symm
  rw [led] at listed
  exact ⟨saved, listed⟩

/-- **A file whose name begins with two points is saved and not listed.** -/
theorem saved_not_listed :
    ((below "/w/base").save ⟨[], []⟩ .live "..a" "1").2 = none ∧
      (below "/w/base").load ((below "/w/base").save ⟨[], []⟩ .live "..a" "1").1 .live "..a" =
        .ok "1" ∧
      (below "/w/base").list ((below "/w/base").save ⟨[], []⟩ .live "..a" "1").1 .live "..a" =
        .ok [] :=
  ⟨rfl, rfl, rfl⟩

end Store

end FlowTrace
