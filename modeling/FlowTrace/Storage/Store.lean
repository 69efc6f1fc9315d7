import FlowTrace.Storage.FileTree

/-! # Stores

A **store** keeps files below a base directory of a file tree. Paths given to it are relative, and
none of them may lead out of the base (`resolve`). A file is written under a temporary name and
then renamed, so that nobody sees half a file. -/

namespace FlowTrace

/-- A **store**: the directory below which it keeps its files. -/
structure Store where
  /-- The base directory. -/
  base : Path
  deriving Repr

namespace Store

/-- The store below a directory. -/
def below (directory : Text) : Store := ⟨Path.ofText directory⟩

/-- The text of the base directory. -/
def baseText (store : Store) : Text := store.base.toText

/-- Whether components lead up first. -/
def leadsUp (parts : List Text) : Bool := parts.head? == some Path.up

/-- The path below the base that a text names. -/
def resolve (store : Store) (path : Text) : Except Failure Path :=
  if path.isEmpty then .error (.noted .invalidPath "empty")
  else if Path.isRooted path then .error (.noted .invalidPath "absolute paths not allowed")
  else
    let full := store.base.append path
    match Path.relative? store.base full with
    | none => .error (.noted .invalidPath "outside base directory")
    | some parts =>
      if leadsUp parts then .error (.noted .invalidPath "outside base directory") else .ok full

/-- The name of the temporary file that a file is written to first, with a number that no other
file has. -/
def temporaryName : Text := ".export-0"

/-- Renames the temporary file of a directory to its final path. The file is in place unless the
path is a directory or no proper name. -/
def rename (tree : FileTree) (directory path data : Text) : FileTree × Option Failure :=
  let refused (error : FileError) : FileTree × Option Failure :=
    (tree, some (.wrapped "renaming file"
      (.plain ("rename " ++ Path.join [directory, temporaryName] ++ " " ++ path ++ ": " ++
        error.message))))
  match tree.locate path with
  | .error error => refused error
  | .ok location =>
    match tree.entry? location with
    | some .directory => refused .taken
    | _ => (tree.put location (.file data), none)

/-- Saves a file. The directories above it stay even when the file itself cannot be saved. -/
def save (store : Store) (tree : FileTree) (context : Context) (path data : Text) :
    FileTree × Option Failure :=
  match context.failure? with
  | some failure => (tree, some failure)
  | none =>
    match store.resolve path with
    | .error failure => (tree, some failure)
    | .ok full =>
      let directory := Path.directory full.toText
      match tree.makeDirectories directory with
      | (tree, some failure) => (tree, some (.wrapped "creating directory" failure))
      | (tree, none) => rename tree directory full.toText data

/-- Loads a file. -/
def load (store : Store) (tree : FileTree) (context : Context) (path : Text) :
    Except Failure Text := do
  if let some failure := context.failure? then throw failure
  let full ← store.resolve path
  (tree.read full.toText).mapError (.wrapped "reading file")

/-- The path of a listed file from the base; names that begin with two points are left out. -/
def listed? (store : Store) (path : Text) : Option Text :=
  match Path.relative? store.base (Path.ofText path) with
  | none => none
  | some parts =>
    let text := Path.relativeText parts
    if text.startsWith ".." then none else some text

/-- Lists the files whose paths fit a glob, relative to the base. -/
def list (store : Store) (tree : FileTree) (context : Context) (pattern : Text) :
    Except Failure (List Text) := do
  if let some failure := context.failure? then throw failure
  let full ← store.resolve pattern
  let found ← (tree.glob full.toText).mapError (.wrapped "listing files")
  return found.filterMap store.listed?

/-- Whether there is a file or directory at a path. -/
def has (store : Store) (tree : FileTree) (path : Text) : Bool :=
  match store.resolve path with
  | .error _ => false
  | .ok full =>
    match tree.stat full.toText with
    | .ok _ => true
    | .error _ => false

end Store

end FlowTrace
