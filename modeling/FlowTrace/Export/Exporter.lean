import FlowTrace.Moment
import FlowTrace.Report.Basic
import FlowTrace.Storage.Path
import FlowTrace.Storage.Store
import FlowTrace.Text.LetterCase
import FlowTrace.Yaml.Writer

/-! # Exporting results

An **export** is a directory with the flowchart, the steps and a manifest, in this order, which is
named in one of three ways (`exportDirectory`). Before anything is written, ids are drawn until the
directory named by one of them is not in use. -/

/-! ## Reports as lines of text

The plain forms in which steps and memory suggestions are printed, saved and copied. -/

namespace FlowTrace

/-- A remedy with its line number in front. -/
def Remedy.lineText (remedy : Remedy) : Text :=
  "Line " ++ Text.ofInt remedy.line ++ ": " ++ remedy.suggestion

/-- The remedies of an estimate, one on each line, with no newline at the end. -/
def MemoryUse.remedyLines (memory : MemoryUse) : Text :=
  Text.joinWith "\n" ((memory.remedies.getD []).map Remedy.lineText)

/-- A step with its number, its source line when there is one to name, and what it prints. -/
def Step.lineText (number : Nat) (step : Step) : Text :=
  Text.ofNat number ++ ". [" ++ step.nodeId ++ "] " ++ step.description ++
    (match step.line with
    | some line => if 0 < line then " (line " ++ Text.ofInt line ++ ")" else []
    | none => []) ++
    (match step.output with
    | some output => " -> " ++ output
    | none => []) ++ "\n"

/-- Steps as a numbered list, one on each line. -/
def stepLines (steps : List Step) : Text :=
  (steps.zipIdx 1).flatMap fun (step, number) => step.lineText number

end FlowTrace

namespace FlowTrace

/-! ## Manifests

A **manifest** tells what an export directory holds. It is the last file written, so an export
with a manifest is complete. -/

/-- A **manifest**. -/
structure Manifest where
  /-- The id of the export. -/
  id : Text
  /-- When the export was made. -/
  createdAt : Moment
  /-- The language of the code. -/
  language : Text
  /-- The number of steps. -/
  steps : Int
  /-- The order of the running time, left out when empty. -/
  time : Text
  /-- The memory used, left out when empty. -/
  memory : Text
  /-- The files beside the manifest. -/
  files : List Text
  deriving Repr

/-- A named text, left out when it is empty. -/
def Manifest.optional (name value : Text) : List (Text × Yaml.Document) :=
  if value.isEmpty then [] else [(name, .text value)]

/-- The entries of a manifest. -/
def Manifest.entries (m : Manifest) : List (Text × Yaml.Document) :=
  let first : List (Text × Yaml.Document) :=
    [("id", .text m.id), ("created_at", .fixed m.createdAt.text), ("language", .text m.language),
      ("steps", .fixed (Text.ofInt m.steps))]
  let last : List (Text × Yaml.Document) := [("files", .list m.files)]
  first ++ optional "time_complexity" m.time ++ optional "estimated_memory" m.memory ++ last

/-- The written form of a manifest. -/
def Manifest.write (m : Manifest) : Text := Yaml.write m.entries

/-- What **writes manifests** down, if it can. -/
abbrev Manifest.Writer := Manifest → Except Failure Text

/-- The writer that gives their written form. -/
def Manifest.Writer.yaml : Manifest.Writer := fun m => .ok m.write

/-! ## Export directories

Every export has a directory of its own below `exports`. How the directory is named is a matter of
choice; the label of a descriptive name is first made safe to stand in a path. -/

/-- How export directories are named. -/
inductive Naming where
  /-- By the whole id. -/
  | byId
  /-- By the time and the beginning of the id. -/
  | byTime
  /-- By the time, a label and the beginning of the id. -/
  | byLabel
  deriving DecidableEq, Repr

namespace Naming

/-- The way of naming with a name; an unknown one is taken as `byTime`. -/
def ofName (name : Text) : Naming :=
  if name.lower == "uuid" then .byId
  else if name.lower == "descriptive" then .byLabel
  else .byTime

end Naming

namespace Label

/-- What becomes of the characters that are not safe in a path: some turn into a hyphen, a plus
sign into a letter, the others vanish. -/
def replacements : List (Text × Text) :=
  [(" ", "-"), ("/", "-"), ("\\", "-"), (":", "-"), (".", "-"), ("+", "p"),
    ("*", ""), ("?", ""), ("\"", ""), ("<", ""), (">", ""), ("|", ""), (",", ""),
    ("'", ""), ("!", ""), ("@", ""), ("#", ""), ("$", ""), ("%", ""), ("^", ""),
    ("&", ""), ("(", ""), (")", ""), ("[", ""), ("]", ""), ("\x7b", ""), ("\x7d", ""),
    (";", ""), ("=", "")]

/-- Whether a byte is a hyphen. -/
def isHyphen (c : UInt8) : Bool := c == '-'

/-- The text with each run of hyphens drawn together into one. -/
def collapseHyphens : Text → Text
  | [] => []
  | c :: t =>
    if isHyphen c && t.head?.any isHyphen then collapseHyphens t else c :: collapseHyphens t

/-- A label made safe to stand in a path, of at most `limit` bytes. -/
def safe (label : Text) (limit : Nat) : Text :=
  let t := collapseHyphens (Text.substitute replacements label.lower)
  let t := Text.trimRight (Text.trimLeft t isHyphen) isHyphen
  let t := if limit < t.length then Text.trimRight (t.take limit) isHyphen else t
  if t.isEmpty then "export" else t

end Label

/-- The directory of an export, relative to the storage. -/
def exportDirectory (id label : Text) (at_ : Moment) (naming : Naming) : Text :=
  let short := id.take 8
  match naming with
  | .byId => Path.join ["exports", id]
  | .byTime => Path.join ["exports", at_.stamp ++ "_" ++ short]
  | .byLabel => Path.join ["exports", at_.stamp ++ "_" ++ Label.safe label 30 ++ "_" ++ short]

/-! ## Exports -/

/-- What an exporter needs of a storage with states `σ`. Saving returns the new state even when it
fails, because a failure may leave something behind. -/
structure Storage (σ : Type) where
  /-- Saves a file at a path. -/
  save : σ → Text → Text → σ × Option Failure
  /-- Whether there is something at a path. -/
  has : σ → Text → Bool
  /-- The paths that fit a glob. -/
  list : σ → Text → Except Failure (List Text)

/-- The storage of a store in a file tree, used in a context. -/
def Store.storage (store : Store) (context : Context) : Storage FileTree where
  save tree path data := store.save tree context path data
  has tree path := store.has tree path
  list tree pattern := store.list tree context pattern

namespace Export

/-- The name of the flowchart file. -/
def flowchartFile : Text := "flowchart.svg"

/-- The name of the file with the steps. -/
def stepsFile : Text := "steps.txt"

/-- The name of the manifest. -/
def manifestFile : Text := "manifest.yaml"

/-- The number of ids drawn before giving up. -/
def attempts : Nat := 3

/-- The first of several ids whose directory is not in use, with that directory. -/
def fresh? (isTaken : Text → Bool) (directoryOf : Text → Text) :
    List Text → Option (Text × Text)
  | [] => none
  | id :: ids =>
    if isTaken (directoryOf id) then fresh? isTaken directoryOf ids else some (id, directoryOf id)

/-- How many ids `fresh?` looks at. -/
def drawn (isTaken : Text → Bool) (directoryOf : Text → Text) : List Text → Nat
  | [] => 0
  | id :: ids =>
    if isTaken (directoryOf id) then drawn isTaken directoryOf ids + 1 else 1

/-- The manifest of an export. -/
def manifestOf (id language : Text) (at_ : Moment) (report : Report) (files : List Text) :
    Manifest where
  id := id
  createdAt := at_.toUtc
  language := language
  steps := (report.steps.getD []).length
  time := (report.complexity.map (·.time)).getD []
  memory := (report.memory.map (·.total)).getD []
  files := files

/-- The files of an export before its manifest. -/
def contents (report : Report) : List (Text × Text) :=
  [(flowchartFile, report.flowchart), (stepsFile, stepLines (report.steps.getD []))]

/-- Saves files into a directory, one after the other, up to the first failure. -/
def saveAll {σ : Type} (storage : Storage σ) (directory : Text) :
    List (Text × Text) → σ → σ × Option Failure
  | [], state => (state, none)
  | (name, data) :: files, state =>
    match storage.save state (directory ++ "/" ++ name) data with
    | (state, some failure) => (state, some (.wrapped ("saving " ++ name) failure))
    | (state, none) => saveAll storage directory files state

/-- The outcome of an export: the state of the storage, the number of ids drawn, and the directory
or the failure. -/
structure Outcome (σ : Type) where
  /-- The storage afterwards. -/
  state : σ
  /-- How many ids were drawn. -/
  drawn : Nat
  /-- The directory, or why there is none. -/
  result : Except Failure Text

/-- **Exports** a report. `ids` are the ids to draw from; at most `attempts` of them are used. The
manifest is written down when the other files are saved. -/
def run {σ : Type} (storage : Storage σ) (naming : Naming) (at_ : Moment) (ids : List Text)
    (language : Text) (report? : Option Report) (state : σ) (write : Manifest.Writer := .yaml) :
    Outcome σ :=
  match report?.filter fun report => !report.flowchart.isEmpty with
  | none => ⟨state, 0, .error (.wrapped "export" .generationFailed)⟩
  | some report =>
    let ids := ids.take attempts
    let directoryOf (id : Text) := exportDirectory id language at_ naming
    let count := drawn (storage.has state) directoryOf ids
    match fresh? (storage.has state) directoryOf ids with
    | none => ⟨state, count, .error (.wrapped "export" .exportExists)⟩
    | some (id, directory) =>
      let files := contents report
      let manifest := manifestOf id language at_ report (files.map (·.1))
      match saveAll storage directory files state with
      | (state, some failure) => ⟨state, count, .error failure⟩
      | (state, none) =>
        match write manifest with
        | .error failure => ⟨state, count, .error (.wrapped "encoding manifest" failure)⟩
        | .ok data =>
          match saveAll storage directory [(manifestFile, data)] state with
          | (state, some failure) => ⟨state, count, .error failure⟩
          | (state, none) => ⟨state, count, .ok directory⟩

/-- The directories of all complete exports, in order. -/
def finished {σ : Type} (storage : Storage σ) (state : σ) : Except Failure (List Text) := do
  let manifests ← (storage.list state (Path.join ["exports", "*", manifestFile])).mapError
    (.wrapped "listing exports")
  return (manifests.map Path.directory).mergeSort Text.le

end Export

end FlowTrace
