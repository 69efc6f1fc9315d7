import FlowTrace.Proofs.Export.Directories
import Mathlib.Data.List.Dedup
import Mathlib.Data.List.Pairwise
import Mathlib.Logic.Function.Basic

/-! # Histories of exports

Reports are exported one after the other into one storage, which is empty at first, and each time
saving may fail anywhere. All that is asked of the storage is that it keeps files under their paths
(`Storage.Lawful`). Each export then writes into a directory that was not there
(`Export.Turn.course`), so no file ever changes once it is written (`Export.kept_from_turn`), and
the directories with a manifest are those of the exports that succeeded
(`Export.manifest_at_end_iff`). So these are just the exports that are listed
(`Export.finished_are_succeeded`). -/

namespace FlowTrace

open FlowTrace.Path (IsName separator)

variable {σ : Type} {files : σ → Text → Option Text}

/-- A storage is **lawful** if it keeps files under their paths; `files s path` is what the file at
the path holds in the state `s`. -/
structure Storage.Lawful (storage : Storage σ) (files : σ → Text → Option Text) : Prop where
  /-- A file that is saved is kept, and the others are left alone. -/
  saved {s s' : σ} {path data : Text} : storage.save s path data = (s', none) →
    files s' = Function.update (files s) path (some data)
  /-- When saving fails, all files are left alone. -/
  refused {s s' : σ} {path data : Text} {failure : Failure} :
    storage.save s path data = (s', some failure) → files s' = files s
  /-- There is something at each file, and at each directory with a file. -/
  has {s : σ} {path at_ : Text} : files s path ≠ none → path = at_ ∨ at_ ++ Text.of "/" <+: path →
    storage.has s at_ = true
  /-- The files that fit a glob are listed, each one once. -/
  list {s : σ} {pattern : Text} {items : List Glob.Item} : Glob.parse? pattern 0 = some items →
    ∃ paths, storage.list s pattern = .ok paths ∧ paths.Nodup ∧
      ∀ path, path ∈ paths ↔ files s path ≠ none ∧ Glob.fits items path = true

namespace Export

/-! ## Paths right below a directory -/

/-- The files of an export are not in directories of their own. -/
theorem separator_notMem_leaves :
    ∀ leaf ∈ [flowchartFile, stepsFile, manifestFile], separator ∉ leaf := by decide

/-- A directory that is another one and a leaf is that other one. -/
theorem eq_nil_of_append_slash {a b more : Text} (clean : separator ∉ more)
    (same : b ++ "/" = a ++ "/" ++ more) : more = [] := by
  rcases List.eq_nil_or_concat' more with none | ⟨front, c, rfl⟩
  · exact none
  · rw [← List.append_assoc] at same
    obtain ⟨-, last⟩ := List.append_inj' same rfl
    obtain rfl : separator = c := List.singleton_inj.1 last
    exact absurd (List.mem_append_right _ List.mem_cons_self) clean

/-- The path of a file tells the directory that it is right below. -/
theorem append_slash_inj {a b leaf leaf' : Text} (clean : separator ∉ leaf)
    (clean' : separator ∉ leaf') (same : a ++ "/" ++ leaf = b ++ "/" ++ leaf') :
    a = b ∧ leaf = leaf' := by
  have cut : a ++ "/" = b ++ "/" ∧ leaf = leaf' := by
    rcases List.append_eq_append_iff.1 same with ⟨more, front, back⟩ | ⟨more, front, back⟩
    · have none : more = [] := eq_nil_of_append_slash
        (fun member => clean (back ▸ List.mem_append_left _ member)) front
      exact ⟨by rw [front, none, List.append_nil], by rw [back, none, List.nil_append]⟩
    · have none : more = [] := eq_nil_of_append_slash
        (fun member => clean' (back ▸ List.mem_append_left _ member)) front
      exact ⟨by rw [front, none, List.append_nil], by rw [back, none, List.nil_append]⟩
  exact ⟨List.append_cancel_right cut.1, cut.2⟩

/-! ## Saving -/

/-- Files with more files **written** into a directory, one after the other. -/
def written (directory : Text) (made : List (Text × Text)) (old : Text → Option Text) :
    Text → Option Text :=
  made.foldl (fun old file => Function.update old (directory ++ "/" ++ file.1) (some file.2)) old

variable {directory : Text} {made : List (Text × Text)} {old : Text → Option Text}

/-- What is not among the files made is as it was. -/
theorem written_of_ne {path : Text} (other : ∀ file ∈ made, path ≠ directory ++ "/" ++ file.1) :
    written directory made old path = old path := by
  induction made generalizing old with
  | nil => rfl
  | cons file made ih =>
    obtain ⟨here, below⟩ := List.forall_mem_cons.1 other
    rw [written, List.foldl_cons]
    exact (ih below).trans (Function.update_of_ne here _ _)

/-- A file in the directory is there if it was made or was there before. -/
theorem written_ne_none_iff (leaf : Text) :
    written directory made old (directory ++ "/" ++ leaf) ≠ none ↔
      leaf ∈ made.map (·.1) ∨ old (directory ++ "/" ++ leaf) ≠ none := by
  induction made generalizing old with
  | nil => simp [written]
  | cons file made ih =>
    rw [written, List.foldl_cons, ← written, ih, List.map_cons, List.mem_cons]
    by_cases same : leaf = file.1
    · simp [same]
    · rw [Function.update_of_ne fun equal => same (List.append_cancel_left equal)]
      simp [same]

/-- Files are written after others. -/
theorem written_append (made more : List (Text × Text)) :
    written directory (made ++ more) old = written directory more (written directory made old) :=
  List.foldl_append

/-- What is saved, up to the first failure. -/
theorem saveAll_cases {storage : Storage σ} (lawful : storage.Lawful files) (directory : Text)
    (made : List (Text × Text)) (s : σ) :
    ((saveAll storage directory made s).2 = none ∧
      files (saveAll storage directory made s).1 = written directory made (files s)) ∨
    ∃ done rest failure, made = done ++ rest ∧ rest ≠ [] ∧
      (saveAll storage directory made s).2 = some failure ∧
      files (saveAll storage directory made s).1 = written directory done (files s) := by
  induction made generalizing s with
  | nil => exact Or.inl ⟨rfl, rfl⟩
  | cons file made ih =>
    obtain ⟨name, data⟩ := file
    rw [saveAll]
    cases saving : storage.save s (directory ++ "/" ++ name) data with
    | mk s' problem =>
      cases problem with
      | some failure =>
        exact Or.inr ⟨[], (name, data) :: made, _, rfl, List.cons_ne_nil _ _, rfl,
          lawful.refused saving⟩
      | none =>
        have step := lawful.saved saving
        rcases ih s' with ⟨all, ends⟩ | ⟨done, rest, failure, rfl, more, fails, ends⟩
        · exact Or.inl ⟨all, by rw [ends, step]; rfl⟩
        · exact Or.inr ⟨(name, data) :: done, rest, failure, rfl, more, fails,
            by rw [ends, step]; rfl⟩

/-! ## Calls -/

/-- The id that is chosen is among those offered, and its directory is not taken. -/
theorem fresh?_eq_some {isTaken : Text → Bool} {directoryOf : Text → Text} {ids : List Text}
    {id directory : Text} (found : fresh? isTaken directoryOf ids = some (id, directory)) :
    id ∈ ids ∧ directory = directoryOf id ∧ isTaken directory = false := by
  induction ids with
  | nil => cases found
  | cons first ids ih =>
    rw [fresh?] at found
    split at found
    · obtain ⟨member, rest⟩ := ih found
      exact ⟨List.mem_cons_of_mem _ member, rest⟩
    · rename_i free
      cases found
      exact ⟨List.mem_cons_self, rfl, by simpa using free⟩

/-- A **call** for an export. -/
structure Call (σ : Type) where
  /-- The storage, as it behaves in this call. -/
  storage : Storage σ
  /-- How the directory is named. -/
  naming : Naming
  /-- What the clock shows. -/
  at_ : Moment
  /-- The ids to draw from. -/
  ids : List Text
  /-- The language of the code. -/
  language : Text
  /-- The report, if there is one. -/
  report? : Option Report
  /-- What writes its manifest down. -/
  write : Manifest.Writer := .yaml

/-- A call is **proper** if its storage is lawful, its ids can name directories, and its manifest
lists the files. -/
structure Call.Proper (files : σ → Text → Option Text) (call : Call σ) : Prop where
  /-- The storage keeps files under their paths. -/
  lawful : call.storage.Lawful files
  /-- An id is a name. -/
  named : ∀ id ∈ call.ids, IsName id
  /-- A manifest that is written down ends with the files. -/
  lists : call.write.ListsFiles

/-- A **turn** is a call in the state in which it is made. -/
structure Turn (σ : Type) where
  /-- The state before. -/
  before : σ
  /-- The call. -/
  call : Call σ

namespace Turn

/-- The outcome of the call. -/
def outcome (turn : Turn σ) : Outcome σ :=
  run turn.call.storage turn.call.naming turn.call.at_ turn.call.ids turn.call.language
    turn.call.report? turn.before turn.call.write

/-- The state afterwards. -/
def after (turn : Turn σ) : σ := turn.outcome.state

/-- The directory of the export, or why there is none. -/
def result (turn : Turn σ) : Except Failure Text := turn.outcome.result

/-- A turn **fills** a directory with some files, if it was not there, and they are all that is
written. -/
structure Fills (files : σ → Text → Option Text) (turn : Turn σ) (directory : Text)
    (made : List (Text × Text)) : Prop where
  /-- The directory lies right below `exports`. -/
  place : ∃ name, IsName name ∧ directory = "exports/" ++ name
  /-- It was not there. -/
  absent : turn.call.storage.has turn.before directory = false
  /-- The files lie right below it. -/
  names : ∀ file ∈ made, separator ∉ file.1
  /-- They are all that is written. -/
  files_after : files turn.after = written directory made (files turn.before)

/-- What comes of a call: an export that writes nothing, a part of the files before the manifest,
or all of them and the manifest. -/
inductive Course (files : σ → Text → Option Text) (turn : Turn σ) : Prop
  | idle {failure : Failure} (failed : turn.result = .error failure)
      (same : files turn.after = files turn.before)
  | partly {failure : Failure} {report : Report} {directory : Text} {made : List (Text × Text)}
      (failed : turn.result = .error failure) (front : made <+: contents report)
      (fills : turn.Fills files directory made)
  | wholly {report : Report} {id directory data : Text}
      (reported : turn.call.report? = some report) (done : turn.result = .ok directory)
      (written : turn.call.write (manifestOf id turn.call.language turn.call.at_ report
        ((contents report).map (·.1))) = .ok data)
      (fills : turn.Fills files directory (contents report ++ [(manifestFile, data)]))

variable {turn : Turn σ}

/-- **A call for an export** has one of three courses. -/
theorem course (proper : turn.call.Proper files) : turn.Course files := by
  have outcome_eq : turn.outcome = run turn.call.storage turn.call.naming turn.call.at_
    turn.call.ids turn.call.language turn.call.report? turn.before turn.call.write := rfl
  rw [run] at outcome_eq
  split at outcome_eq
  next => exact .idle (congrArg Outcome.result outcome_eq) (congrArg (files ·.state) outcome_eq)
  next report reported =>
  dsimp only at outcome_eq
  split at outcome_eq
  next => exact .idle (congrArg Outcome.result outcome_eq) (congrArg (files ·.state) outcome_eq)
  next id directory found =>
  obtain ⟨drawn, rfl, absent⟩ := fresh?_eq_some found
  have place := exportDirectory_eq (proper.named id (List.mem_of_mem_take drawn))
    turn.call.language turn.call.at_ turn.call.naming
  have names : ∀ file ∈ contents report, separator ∉ file.1 := by
    simpa [contents] using ⟨separator_notMem_leaves _ (by simp), separator_notMem_leaves _ (by simp)⟩
  -- What is saved of the files before the manifest fills the directory.
  have partly {failure : Failure} {made : List (Text × Text)} (failed : turn.result = .error failure)
      (front : made <+: contents report)
      (ends : files turn.after = written (exportDirectory id turn.call.language turn.call.at_
        turn.call.naming) made (files turn.before)) : turn.Course files :=
    .partly failed front
      ⟨place, absent, fun file member => names file (front.mem member), ends⟩
  have saving := saveAll_cases proper.lawful
    (exportDirectory id turn.call.language turn.call.at_ turn.call.naming)
    (contents report) turn.before
  split at outcome_eq
  next s failure saved =>
    rw [saved] at saving
    rcases saving with ⟨fine, -⟩ | ⟨made, rest, _, parts, -, -, ends⟩
    · cases fine
    · exact partly (congrArg Outcome.result outcome_eq) (parts ▸ List.prefix_append made rest)
        ((congrArg (files ·.state) outcome_eq).trans ends)
  next s saved =>
  rw [saved] at saving
  obtain ⟨-, ends⟩ | ⟨_, _, _, -, -, fails, -⟩ := saving
  case inr => cases fails
  split at outcome_eq
  next failure refused =>
    exact partly (congrArg Outcome.result outcome_eq) (List.prefix_refl _)
      ((congrArg (files ·.state) outcome_eq).trans ends)
  next data marshalled =>
  have saving := saveAll_cases proper.lawful
    (exportDirectory id turn.call.language turn.call.at_ turn.call.naming)
    [(manifestFile, data)] s
  split at outcome_eq
  next s' failure saved' =>
    rw [saved'] at saving
    rcases saving with ⟨fine, -⟩ | ⟨made, rest, _, parts, more, -, ends'⟩
    · cases fine
    · -- The manifest is the only file left, so that none was saved.
      rcases List.append_eq_singleton_iff.1 parts.symm with ⟨rfl, -⟩ | ⟨-, none⟩
      case inr => exact absurd none more
      exact partly (congrArg Outcome.result outcome_eq) (List.prefix_refl _)
        ((congrArg (files ·.state) outcome_eq).trans (ends'.trans ends))
  next s' saved' =>
    rw [saved'] at saving
    obtain ⟨-, ends'⟩ | ⟨_, _, _, -, -, fails, -⟩ := saving
    case inr => cases fails
    refine .wholly (Option.eq_some_of_filter_eq_some reported) (congrArg Outcome.result outcome_eq)
      marshalled ⟨place, absent, fun file member => ?_, ?_⟩
    · rcases List.mem_append.1 member with old | last
      · exact names file old
      · exact List.mem_singleton.1 last ▸ separator_notMem_leaves _ (by simp)
    · rw [written_append, ← ends]
      exact (congrArg (files ·.state) outcome_eq).trans ends'

namespace Fills

/-- Nothing was right below a directory that is filled. -/
theorem vacant (fills : turn.Fills files directory made) (lawful : turn.call.storage.Lawful files)
    (leaf : Text) : files turn.before (directory ++ "/" ++ leaf) = none := by
  by_contra there
  have found := lawful.has there (Or.inr (List.prefix_append _ _))
  rw [fills.absent] at found
  cases found

/-- An export changes nothing but the files that it makes. -/
theorem files_of_changed (fills : turn.Fills files directory made) {path : Text}
    (changed : files turn.after path ≠ files turn.before path) :
    ∃ file ∈ made, path = directory ++ "/" ++ file.1 := by
  by_contra none
  push Not at none
  exact changed (by rw [fills.files_after, written_of_ne none])

/-- A file that was there is kept. -/
theorem kept (fills : turn.Fills files directory made) (lawful : turn.call.storage.Lawful files)
    {path data : Text} (there : files turn.before path = some data) :
    files turn.after path = some data := by
  rw [← there]
  by_contra changed
  obtain ⟨file, -, rfl⟩ := fills.files_of_changed changed
  rw [fills.vacant lawful] at there
  cases there

end Fills

/-- A file that is there **stays as it is**. -/
theorem kept (proper : turn.call.Proper files) {path data : Text}
    (there : files turn.before path = some data) : files turn.after path = some data := by
  cases course proper with
  | idle failed same => rw [same, there]
  | partly failed front fills => exact fills.kept proper.lawful there
  | wholly reported done written fills => exact fills.kept proper.lawful there

/-- A turn **touches** a directory if it changes a file right below it. -/
def Touches (files : σ → Text → Option Text) (turn : Turn σ) (directory : Text) : Prop :=
  ∃ leaf, separator ∉ leaf ∧
    files turn.after (directory ++ "/" ++ leaf) ≠ files turn.before (directory ++ "/" ++ leaf)

/-- Turns are **apart** if there is no directory that both touch. -/
def Apart (files : σ → Text → Option Text) (turn other : Turn σ) : Prop :=
  ∀ directory, turn.Touches files directory → ¬ other.Touches files directory

instance : Std.Symm (Apart files) where
  symm _ _ apart directory touches touches' := apart directory touches' touches

/-- An export that fills a directory touches no other one. -/
theorem Fills.eq_of_touches (fills : turn.Fills files directory made) {other : Text}
    (touches : turn.Touches files other) : other = directory := by
  obtain ⟨leaf, clean, changed⟩ := touches
  obtain ⟨file, member, same⟩ := fills.files_of_changed changed
  exact (append_slash_inj clean (fills.names file member) same).1

/-- A file is there behind an export if it was there before or is one of those made. -/
theorem Fills.file_iff (fills : turn.Fills files directory made) (other : Text) {leaf : Text}
    (clean : separator ∉ leaf) : files turn.after (other ++ "/" ++ leaf) ≠ none ↔
      files turn.before (other ++ "/" ++ leaf) ≠ none ∨
        other = directory ∧ leaf ∈ made.map (·.1) := by
  by_cases same : other = directory
  · rw [same, fills.files_after, written_ne_none_iff, or_comm]
    simp
  · have unchanged : files turn.after (other ++ "/" ++ leaf) =
        files turn.before (other ++ "/" ++ leaf) := by
      by_contra changed
      exact same (fills.eq_of_touches ⟨leaf, clean, changed⟩)
    simp only [unchanged, same, false_and, or_false]

/-- A directory that is touched **was not there**. -/
theorem absent_of_touches (proper : turn.call.Proper files) (touches : turn.Touches files directory) :
    turn.call.storage.has turn.before directory = false := by
  cases course proper with
  | idle failed same =>
    obtain ⟨leaf, -, changed⟩ := touches
    exact absurd (congrFun same _) changed
  | partly failed front fills => exact fills.eq_of_touches touches ▸ fills.absent
  | wholly reported done written fills => exact fills.eq_of_touches touches ▸ fills.absent

/-- What an export that **succeeds** comes to: into a directory that was not there, the flowchart,
the steps and the manifest are written, and nothing else, anywhere. The manifest lists just the
files beside it. -/
structure Complete (files : σ → Text → Option Text) (turn : Turn σ) (directory : Text)
    (report : Report) (manifest : Manifest) (data : Text) : Prop where
  /-- The report is the one of the call. -/
  reported : turn.call.report? = some report
  /-- The manifest is written down. -/
  written : turn.call.write manifest = .ok data
  /-- The three files are written, and what they hold. -/
  fills : turn.Fills files directory
    [(flowchartFile, report.flowchart), (stepsFile, stepLines (report.steps.getD [])),
      (manifestFile, data)]
  /-- The manifest is for the flowchart and the steps. -/
  listed : manifest.files = [flowchartFile, stepsFile]
  /-- They are what its text ends with. -/
  ends : ∃ start, data = start ++ "files:\n    - flowchart.svg\n    - steps.txt\n"
  /-- They are all the files beside it. -/
  beside : ∀ leaf, leaf ∈ manifest.files ↔
    leaf ≠ manifestFile ∧ files turn.after (directory ++ "/" ++ leaf) ≠ none

/-- An export that succeeds is complete. -/
theorem complete (proper : turn.call.Proper files) (done : turn.result = .ok directory) :
    ∃ report manifest data, turn.Complete files directory report manifest data := by
  cases course proper with
  | idle failed same => exact absurd (done.symm.trans failed) nofun
  | partly failed front fills => exact absurd (done.symm.trans failed) nofun
  | @wholly report id filled data reported made written fills =>
    obtain rfl : directory = filled := Except.ok.inj (done.symm.trans made)
    refine ⟨report, _, data, reported, written, fills, rfl, proper.lists _ _ written rfl,
      fun leaf => ?_⟩
    rw [fills.files_after, written_ne_none_iff, fills.vacant proper.lawful]
    have flowchart : flowchartFile ≠ manifestFile := by decide
    have steps : stepsFile ≠ manifestFile := by decide
    simp only [manifestOf, contents, List.map_cons, List.map_nil, List.cons_append, List.nil_append,
      List.mem_cons, List.not_mem_nil, ne_eq, not_true_eq_false, or_false]
    constructor
    · rintro (rfl | rfl)
      · exact ⟨flowchart, Or.inl rfl⟩
      · exact ⟨steps, Or.inr (Or.inl rfl)⟩
    · rintro ⟨other, here | here | here⟩
      · exact Or.inl here
      · exact Or.inr here
      · exact absurd here other

/-- An export that succeeds touches its directory. -/
theorem touches_of_done (proper : turn.call.Proper files) (done : turn.result = .ok directory) :
    turn.Touches files directory := by
  obtain ⟨report, manifest, data, complete⟩ := complete proper done
  refine ⟨manifestFile, separator_notMem_leaves _ (by simp), ?_⟩
  rw [complete.fills.vacant proper.lawful, complete.fills.files_after, written_ne_none_iff]
  exact Or.inl (by simp)

/-- **A manifest** is written by an export that succeeds, and by no other. -/
theorem manifest_iff (proper : turn.call.Proper files) (directory : Text) :
    files turn.after (directory ++ "/" ++ manifestFile) ≠ none ↔
      files turn.before (directory ++ "/" ++ manifestFile) ≠ none ∨ turn.result = .ok directory := by
  have clean : separator ∉ manifestFile := separator_notMem_leaves _ (by simp)
  cases course proper with
  | idle failed same => simp [same, failed]
  | @partly failure report filled made failed front fills =>
    have apart : manifestFile ∉ (contents report).map (·.1) := by
      simp only [contents, List.map_cons, List.map_nil]
      decide
    have unwritten : manifestFile ∉ made.map (·.1) := fun member =>
      apart ((front.map _).subset member)
    rw [fills.file_iff directory clean]
    simp [unwritten, failed]
  | @wholly report id filled data reported done written fills =>
    rw [fills.file_iff directory clean, done, Except.ok.injEq]
    simp [eq_comm]

end Turn

/-! ## Histories -/

/-- The turns of several calls, one after the other. -/
def history : σ → List (Call σ) → List (Turn σ)
  | _, [] => []
  | s, call :: calls => ⟨s, call⟩ :: history (Turn.mk s call).after calls

/-- The state after several calls. -/
def final : σ → List (Call σ) → σ
  | s, [] => s
  | s, call :: calls => final (Turn.mk s call).after calls

variable {calls : List (Call σ)} {s : σ} {turn : Turn σ} {path data : Text}

/-- A file that was there at the beginning is there at every turn. -/
theorem kept_to_turn (proper : ∀ call ∈ calls, call.Proper files) (member : turn ∈ history s calls)
    (there : files s path = some data) : files turn.before path = some data := by
  induction calls generalizing s with
  | nil => cases member
  | cons call calls ih =>
    have now : (Turn.mk s call).call.Proper files := proper call List.mem_cons_self
    have later := (List.forall_mem_cons.1 proper).2
    rcases List.mem_cons.1 member with rfl | member
    · exact there
    · exact ih later member (Turn.kept now there)

/-- A file that was there at the beginning is there at the end. -/
theorem kept_to_end (proper : ∀ call ∈ calls, call.Proper files)
    (there : files s path = some data) : files (final s calls) path = some data := by
  induction calls generalizing s with
  | nil => exact there
  | cons call calls ih =>
    have now : (Turn.mk s call).call.Proper files := proper call List.mem_cons_self
    have later := (List.forall_mem_cons.1 proper).2
    exact ih later (Turn.kept now there)

/-- The calls of a history are proper when all calls are. -/
theorem proper_of_mem (proper : ∀ call ∈ calls, call.Proper files)
    (member : turn ∈ history s calls) : turn.call.Proper files := by
  induction calls generalizing s with
  | nil => cases member
  | cons call calls ih =>
    have now : (Turn.mk s call).call.Proper files := proper call List.mem_cons_self
    have later := (List.forall_mem_cons.1 proper).2
    rcases List.mem_cons.1 member with rfl | member
    · exact now
    · exact ih later member

/-- **No file ever changes** once it is written. -/
theorem kept_from_turn (proper : ∀ call ∈ calls, call.Proper files)
    (member : turn ∈ history s calls) (there : files turn.after path = some data) :
    files (final s calls) path = some data := by
  induction calls generalizing s with
  | nil => cases member
  | cons call calls ih =>
    have later := (List.forall_mem_cons.1 proper).2
    rw [final]
    rcases List.mem_cons.1 member with rfl | member
    · exact kept_to_end later there
    · exact ih later member

/-- **No two turns touch the same directory.** -/
theorem pairwise_apart (proper : ∀ call ∈ calls, call.Proper files) (s : σ) :
    (history s calls).Pairwise (Turn.Apart files) := by
  induction calls generalizing s with
  | nil => exact .nil
  | cons call calls ih =>
    have now : (Turn.mk s call).call.Proper files := proper call List.mem_cons_self
    have later := (List.forall_mem_cons.1 proper).2
    -- A file that this turn changed was not there before. It stays until a later turn begins, and
    -- shows to this one that the directory is taken.
    refine .cons (fun turn member directory ⟨leaf, clean, changed⟩ touches => ?_) (ih later _)
    have absent := Turn.absent_of_touches (proper_of_mem later member) touches
    have there : files (Turn.mk s call).after (directory ++ "/" ++ leaf) ≠ none := by
      intro none
      cases old : files s (directory ++ "/" ++ leaf) with
      | none => exact changed (none.trans old.symm)
      | some data =>
        have kept := Turn.kept now old
        rw [none] at kept
        cases kept
    obtain ⟨data, there⟩ := Option.ne_none_iff_exists'.1 there
    have still := kept_to_turn later member there
    have found := (proper_of_mem later member).lawful.has (still ▸ Option.some_ne_none data)
      (Or.inr (List.prefix_append _ _))
    rw [absent] at found
    cases found

/-- **The manifests at the end** are those of the exports that succeeded, besides those that were
there at first. -/
theorem manifest_at_end_iff (proper : ∀ call ∈ calls, call.Proper files) (s : σ)
    (directory : Text) : files (final s calls) (directory ++ "/" ++ manifestFile) ≠ none ↔
      files s (directory ++ "/" ++ manifestFile) ≠ none ∨
        ∃ turn ∈ history s calls, turn.result = .ok directory := by
  induction calls generalizing s with
  | nil => simp [final, history]
  | cons call calls ih =>
    have now : (Turn.mk s call).call.Proper files := proper call List.mem_cons_self
    have later := (List.forall_mem_cons.1 proper).2
    rw [final, ih later, Turn.manifest_iff now, history, or_assoc]
    simp only [List.mem_cons, exists_eq_or_imp]

/-! ## The list of exports -/

/-- **The finished exports** are the directories right below `exports` with a manifest, in order
and each one once. -/
theorem finished_eq {storage : Storage σ} (lawful : storage.Lawful files) (s : σ)
    (named : ∀ name, separator ∉ name →
      files s ("exports/" ++ name ++ "/" ++ manifestFile) ≠ none → IsName name) :
    ∃ directories, finished storage s = .ok directories ∧
      directories.Pairwise (fun a b => a.le b = true ∧ a ≠ b) ∧
      ∀ directory, directory ∈ directories ↔ ∃ name, IsName name ∧
        directory = "exports/" ++ name ∧ files s (directory ++ "/" ++ manifestFile) ≠ none := by
  obtain ⟨paths, listed, nodup, mem_paths⟩ := lawful.list (s := s) parse?_manifests
  have is_leaf : IsName manifestFile := ⟨⟨by decide, by decide⟩, by decide, by decide⟩
  -- The wildcard also stands for `.`, for `..` and for nothing; `named` excludes these.
  have below : ∀ path ∈ paths, ∃ name, IsName name ∧
      path = "exports/" ++ name ++ "/" ++ manifestFile ∧ Path.directory path = "exports/" ++ name := by
    intro path member
    obtain ⟨there, fits⟩ := (mem_paths path).1 member
    obtain ⟨name, clean, rfl⟩ := (fits_manifests_iff path).1 fits
    have is_name := named name clean there
    exact ⟨name, is_name, rfl, directory_file is_name is_leaf⟩
  have distinct : (paths.map Path.directory).Nodup := by
    refine nodup.map_on fun path member path' member' same => ?_
    obtain ⟨name, -, rfl, at_⟩ := below path member
    obtain ⟨name', -, rfl, at_'⟩ := below path' member'
    rw [at_, at_'] at same
    rw [same]
  refine ⟨(paths.map Path.directory).mergeSort Text.le, by rw [finished, listed]; rfl, ?_, ?_⟩
  · exact (Text.pairwise_mergeSort _).and
      ((List.mergeSort_perm _ _).nodup_iff.2 distinct)
  · intro directory
    rw [List.mem_mergeSort, List.mem_map]
    constructor
    · rintro ⟨path, member, rfl⟩
      obtain ⟨name, is_name, rfl, at_⟩ := below path member
      rw [at_]
      exact ⟨name, is_name, rfl, ((mem_paths _).1 member).1⟩
    · rintro ⟨name, is_name, rfl, there⟩
      exact ⟨_, (mem_paths _).2 ⟨there, (fits_manifests_iff _).2
        ⟨name, is_name.separator_notMem, rfl⟩⟩, directory_file is_name is_leaf⟩

/-- An export that failed and one that succeeded **touch different directories**. -/
theorem not_touches_of_failed (proper : ∀ call ∈ calls, call.Proper files)
    {failed done : Turn σ} (failed_mem : failed ∈ history s calls)
    (done_mem : done ∈ history s calls) {failure : Failure} {directory : Text}
    (fails : failed.result = .error failure) (succeeds : done.result = .ok directory) :
    ¬ failed.Touches files directory := by
  have other : failed ≠ done := by
    rintro rfl
    exact absurd (succeeds.symm.trans fails) nofun
  have apart := (pairwise_apart proper s).forall failed_mem done_mem other
  exact fun touches =>
    apart directory touches (Turn.touches_of_done (proper_of_mem proper done_mem) succeeds)

variable {start : σ} {later : Storage σ}

/-- **The finished exports are those that succeeded**: when reports are exported one after the
other into an empty storage, then whatever fails in between, no file changes once it is written,
and no two exports write into the same directory. An export that succeeds writes its three files
into a directory that was not there. At the end just the directories of these exports are listed,
in order and each one once, and none that a failed export wrote into. -/
theorem finished_are_succeeded (empty : ∀ path, files start path = none)
    (proper : ∀ call ∈ calls, call.Proper files) (lawful : later.Lawful files) :
    (∀ turn ∈ history start calls,
      (∀ path data, files turn.before path = some data → files turn.after path = some data) ∧
      (∀ path data, files turn.after path = some data →
        files (final start calls) path = some data) ∧
      ∀ directory, turn.result = .ok directory →
        ∃ report manifest data, turn.Complete files directory report manifest data) ∧
    (history start calls).Pairwise (Turn.Apart files) ∧
    ∃ directories, finished later (final start calls) = .ok directories ∧
      directories.Pairwise (fun a b => a.le b = true ∧ a ≠ b) ∧
      (∀ directory, directory ∈ directories ↔
        ∃ turn ∈ history start calls, turn.result = .ok directory) ∧
      ∀ turn ∈ history start calls, ∀ failure, turn.result = .error failure →
        ∀ directory, turn.Touches files directory → directory ∉ directories := by
  -- An export shows by its manifest: at the end there is one for each that succeeded.
  have manifests : ∀ directory, files (final start calls) (directory ++ "/" ++ manifestFile) ≠ none ↔
      ∃ turn ∈ history start calls, turn.result = .ok directory := by
    intro directory
    rw [manifest_at_end_iff proper, empty]
    simp
  have placed : ∀ directory, (∃ turn ∈ history start calls, turn.result = .ok directory) →
      ∃ name, IsName name ∧ directory = "exports/" ++ name := by
    rintro directory ⟨turn, member, done⟩
    obtain ⟨report, manifest, data, complete⟩ := Turn.complete (proper_of_mem proper member) done
    exact complete.fills.place
  -- So what the listing comes upon has the name of an export, which is all that it asks for.
  have named : ∀ name, separator ∉ name →
      files (final start calls) ("exports/" ++ name ++ "/" ++ manifestFile) ≠ none → IsName name := by
    intro name _ there
    obtain ⟨name', is_name, same⟩ := placed _ ((manifests _).1 there)
    exact List.append_cancel_left same ▸ is_name
  obtain ⟨directories, finishes, sorted, mem_directories⟩ := finished_eq lawful _ named
  have listed : ∀ directory, directory ∈ directories ↔
      ∃ turn ∈ history start calls, turn.result = .ok directory := by
    intro directory
    rw [mem_directories, ← manifests]
    constructor
    · rintro ⟨name, -, -, there⟩
      exact there
    · intro there
      obtain ⟨name, is_name, same⟩ := placed directory ((manifests directory).1 there)
      exact ⟨name, is_name, same, there⟩
  refine ⟨fun turn member => ⟨?_, ?_, ?_⟩, pairwise_apart proper start, directories, finishes,
    sorted, listed, ?_⟩
  · exact fun path data there => Turn.kept (proper_of_mem proper member) there
  · exact fun path data there => kept_from_turn proper member there
  · exact fun directory done => Turn.complete (proper_of_mem proper member) done
  · intro turn member failure fails directory touches inside
    obtain ⟨done, done_mem, succeeds⟩ := (listed directory).1 inside
    exact not_touches_of_failed proper member done_mem fails succeeds touches

/-! ### A shelf -/

/-- A **shelf** of files, with whether the next ones cannot be saved. -/
structure Shelf where
  /-- The files, the last one first. -/
  kept : List (Text × Text) := []
  /-- For each of the next files, whether it cannot be saved. -/
  faults : List Bool

/-- What a file on a shelf holds. -/
def Shelf.file (shelf : Shelf) (path : Text) : Option Text := shelf.kept.lookup path

/-- A shelf as a storage. -/
def Shelf.storage : Storage Shelf where
  save shelf path data :=
    if shelf.faults.headD false then
      (⟨shelf.kept, shelf.faults.tail⟩, some (.plain "no space left on device"))
    else (⟨(path, data) :: shelf.kept, shelf.faults.tail⟩, none)
  has shelf path := shelf.kept.any fun file => file.1 == path || (path ++ "/").isPrefixOf file.1
  list shelf pattern :=
    match Glob.parse? pattern 0 with
    | some items => .ok ((shelf.kept.map (·.1)).dedup.filter (Glob.fits items))
    | none => .error (.plain "syntax error in pattern")

/-- A shelf has the files that it keeps. -/
theorem Shelf.file_ne_none_iff (shelf : Shelf) (path : Text) :
    shelf.file path ≠ none ↔ path ∈ shelf.kept.map (·.1) := by
  simp [file, List.lookup_eq_none_iff]

/-- A shelf is a lawful storage. -/
theorem Shelf.lawful : Shelf.storage.Lawful Shelf.file where
  saved {s s' path data} saved := by
    simp only [storage] at saved
    split at saved
    · cases saved
    · cases saved
      funext other
      by_cases same : other = path
      · simp [file, same]
      · have apart : (other == path) = false := by simpa using same
        simp [file, List.lookup_cons, apart, Function.update_of_ne same]
  refused {s s' path data failure} refused := by
    simp only [storage] at refused
    split at refused
    · cases refused
      rfl
    · cases refused
  has {s path at_} there leads := by
    obtain ⟨file, member, rfl⟩ := List.mem_map.1 ((file_ne_none_iff s path).1 there)
    refine List.any_eq_true.2 ⟨file, member, ?_⟩
    simpa using leads
  list {s pattern items} parsed := by
    refine ⟨(s.kept.map (·.1)).dedup.filter (Glob.fits items), by simp only [storage, parsed],
      (List.nodup_dedup _).filter _, fun path => ?_⟩
    rw [List.mem_filter, List.mem_dedup, file_ne_none_iff]

/-- A call for an export, always in the same minute. -/
def Shelf.call (ids : List Text) : Call Shelf where
  storage := Shelf.storage
  naming := .byTime
  at_ := ⟨2024, 3, 5, 14, 7, 0, 0, 0⟩
  ids := ids
  language := "Python"
  report? := some { flowchart := "<svg/>" }

/-- The manifest of the first export cannot be saved. The second one is made in the same minute, and
its first id begins as that of the first one. -/
theorem shelf_lists_second :
    ∃ directories, finished Shelf.storage
        (final { faults := [false, false, true] }
          [Shelf.call ["3f2a9c10-4d"], Shelf.call ["3f2a9c10-7e", "77b0e4d2-1a"]]) =
        .ok directories ∧
      Text.of "exports/2024-03-05_1407_77b0e4d2" ∈ directories ∧
      Text.of "exports/2024-03-05_1407_3f2a9c10" ∉ directories := by
  have named : ∀ id ∈ [Text.of "3f2a9c10-4d", "3f2a9c10-7e", "77b0e4d2-1a"], IsName id := by decide
  have first : (Shelf.call ["3f2a9c10-4d"]).Proper Shelf.file :=
    ⟨Shelf.lawful, List.forall_mem_singleton.2 (named _ List.mem_cons_self),
      Manifest.Writer.listsFiles_yaml⟩
  have second : (Shelf.call ["3f2a9c10-7e", "77b0e4d2-1a"]).Proper Shelf.file :=
    ⟨Shelf.lawful, fun id member => named id (List.mem_cons_of_mem _ member),
      Manifest.Writer.listsFiles_yaml⟩
  have empty : ∀ path, Shelf.file { faults := [false, false, true] } path = none := fun _ => rfl
  obtain ⟨-, -, directories, finishes, -, listed, unlisted⟩ :=
    finished_are_succeeded empty
      (List.forall_mem_cons.2 ⟨first, List.forall_mem_singleton.2 second⟩) Shelf.lawful
  refine ⟨directories, finishes, ?_, ?_⟩
  · exact (listed _).2 ⟨_, List.mem_cons_of_mem _ List.mem_cons_self, rfl⟩
  · exact unlisted _ List.mem_cons_self _ rfl _ ⟨flowchartFile, by decide, by decide⟩

end Export

end FlowTrace
