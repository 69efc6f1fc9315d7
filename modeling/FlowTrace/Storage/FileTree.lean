import FlowTrace.Failure
import FlowTrace.Storage.Glob

/-! # File trees

A **file tree** maps locations to files and directories. A location is the list of names that
leads to it from the root. Texts are resolved to locations name by name, so that each name but the
last has to lead to a directory. The tree has no links and no permissions. -/

namespace FlowTrace

/-- What a location holds. -/
inductive Entry where
  /-- A directory. -/
  | directory
  /-- A file with its contents. -/
  | file (data : Text)
  deriving DecidableEq, Repr

/-- Why a file operation failed. -/
inductive FileError where
  /-- There is nothing at the location. -/
  | notFound
  /-- A name that should lead on is a file. -/
  | notDirectory
  /-- The location holds a directory. -/
  | isDirectory
  /-- The location is taken. -/
  | taken
  /-- A name holds a zero byte. -/
  | invalid
  /-- A name has more than 255 bytes, or a path more than 4095. -/
  | nameTooLong
  deriving DecidableEq, Repr

/-- The message of a file error. -/
def FileError.message : FileError → Text
  | notFound => "no such file or directory"
  | notDirectory => "not a directory"
  | isDirectory => "is a directory"
  | taken => "file exists"
  | invalid => "invalid argument"
  | nameTooLong => "file name too long"

/-- The failure of an operation on one location. -/
def FileError.failure (error : FileError) (operation path : Text) : Failure :=
  .plain (operation ++ " " ++ path ++ ": " ++ error.message)

/-- A **location**: the names that lead to it from the root. -/
abbrev Location := List Text

/-- A **file tree**: its entries, and the location where paths that do not start at the root
begin. -/
structure FileTree where
  /-- Every location in use, each once. The root is not listed. -/
  entries : List (Location × Entry)
  /-- Where relative paths begin. -/
  working : Location := []
  deriving Repr

namespace FileTree

/-- What a location holds. -/
def entry? (tree : FileTree) (location : Location) : Option Entry :=
  if location.isEmpty then some .directory
  else (tree.entries.find? fun entry => entry.1 == location).map (·.2)

/-- The tree with an entry put at a location. -/
def put (tree : FileTree) (location : Location) (entry : Entry) : FileTree :=
  { tree with
    entries :=
      if tree.entries.any fun old => old.1 == location then
        tree.entries.map fun old => if old.1 == location then (location, entry) else old
      else tree.entries ++ [(location, entry)] }

/-- A file with all directories above it. -/
def putFile (tree : FileTree) (location : Location) (data : Text) : FileTree :=
  let tree := (List.range location.length).foldl (fun tree n =>
    if n == 0 || (tree.entry? (location.take n)).isSome then tree
    else tree.put (location.take n) .directory) tree
  tree.put location (.file data)

/-- Resolves names one after the other, from a location. -/
def walk (tree : FileTree) : Location → List Text → Except FileError Location
  | location, [] => .ok location
  | location, name :: names =>
    match tree.entry? location with
    | none => .error .notFound
    | some (.file _) => .error .notDirectory
    | some .directory =>
      if name = Path.here then tree.walk location names
      else if name = Path.up then tree.walk location.dropLast names
      else if 255 < name.length then .error .nameTooLong
      else tree.walk (location ++ [name]) names

/-- The location that a path text names. It need not be in use, but everything above it is a
directory; a separator at the end asks for a directory. -/
def locate (tree : FileTree) (path : Text) : Except FileError Location :=
  if path.contains 0 then .error .invalid
  else if path.isEmpty then .error .notFound
  else if 4095 < path.length then .error .nameTooLong
  else do
    let location ← tree.walk (if Path.isRooted path then [] else tree.working)
      (Path.components path)
    match tree.entry? location with
    | some (.file _) =>
      if path.getLast? == some Path.separator then throw .notDirectory else return location
    | _ => return location

/-- What a path text leads to. -/
def stat (tree : FileTree) (path : Text) : Except FileError Entry := do
  match tree.entry? (← tree.locate path) with
  | some entry => return entry
  | none => throw .notFound

/-- Whether a path text leads to a directory. -/
def isDirectory (tree : FileTree) (path : Text) : Bool :=
  match tree.stat path with
  | .ok .directory => true
  | _ => false

/-- The contents of a file. -/
def read (tree : FileTree) (path : Text) : Except Failure Text :=
  match tree.stat path with
  | .ok (.file data) => .ok data
  | .ok .directory => .error (FileError.isDirectory.failure "read" path)
  | .error error => .error (error.failure "open" path)

/-- Puts a file at a path, replacing one that is there. -/
def write (tree : FileTree) (path data : Text) : Except Failure FileTree :=
  match tree.locate path with
  | .error error => .error (error.failure "open" path)
  | .ok location =>
    match tree.entry? location with
    | some .directory => .error (FileError.isDirectory.failure "open" path)
    | _ =>
      if path.getLast? == some Path.separator then
        .error (FileError.isDirectory.failure "open" path)
      else .ok (tree.put location (.file data))

/-- Makes one directory. -/
def makeDirectory (tree : FileTree) (path : Text) : Except FileError FileTree := do
  let location ← tree.locate path
  match tree.entry? location with
  | some _ => throw .taken
  | none => return tree.put location .directory

/-- The path texts of all directories above a path and of the path itself, the uppermost
first. -/
def ancestors (path : Text) : List Text :=
  let parts := Path.components path
  (List.range parts.length).map fun n =>
    (if Path.isRooted path then ("/" : Text) else []) ++ Text.joinWith "/" (parts.take (n + 1))

/-- Makes a directory and those above it that are missing. The directories made before a failure
stay. -/
def makeDirectories (tree : FileTree) (path : Text) : FileTree × Option Failure :=
  if tree.isDirectory path then (tree, none)
  else
    (ancestors path).foldl (fun (tree, failure?) path =>
      if failure?.isSome then (tree, failure?)
      else
        match tree.stat path with
        | .ok .directory => (tree, none)
        | .ok (.file _) => (tree, some (FileError.notDirectory.failure "mkdir" path))
        | .error _ =>
          match tree.makeDirectory path with
          | .ok tree => (tree, none)
          | .error error => (tree, some (error.failure "mkdir" path))) (tree, none)

/-- The names in a directory, in order. -/
def names (tree : FileTree) (location : Location) : List Text :=
  (tree.entries.filterMap fun entry =>
    if !entry.1.isEmpty && entry.1.dropLast == location then entry.1.getLast? else none).mergeSort
    Text.le

/-- The message about a malformed glob. -/
def malformedGlob : Failure := .plain "syntax error in pattern"

/-- The names in a directory that fit a glob, as paths. -/
def globIn (tree : FileTree) (directory pattern : Text) : Except Failure (List Text) :=
  match tree.locate directory with
  | .error _ => .ok []
  | .ok location =>
    match tree.entry? location with
    | some .directory =>
      let names := tree.names location
      match Glob.parse? pattern 0 with
      | none => if names.isEmpty then .ok [] else .error malformedGlob
      | some items =>
        .ok ((names.filter fun name => Glob.fits items name).map fun name =>
          Path.join [directory, name])
    | _ => .ok []

/-- The directory part of a glob, without the separator at its end, and its last part. -/
def splitGlob (pattern : Text) : Text × Text :=
  let last := (pattern.reverse.takeWhile fun c => c != Path.separator).reverse
  let directory := pattern.take (pattern.length - last.length)
  (if directory.isEmpty then Path.here
    else if directory == "/" then directory
    else directory.dropLast, last)

/-- The paths that fit a glob. At most `bound` of its parts may hold wildcards. -/
def globUpTo (tree : FileTree) : Nat → Text → Except Failure (List Text)
  | 0, _ => .error malformedGlob
  | bound + 1, pattern =>
    if (Glob.parse? pattern 0).isNone then .error malformedGlob
    else if !Glob.isMagic pattern then
      .ok (match tree.stat pattern with
        | .ok _ => [pattern]
        | .error _ => [])
    else
      let (directory, last) := splitGlob pattern
      if !Glob.isMagic directory then tree.globIn directory last
      else if directory == pattern then .error malformedGlob
      else do
        let directories ← tree.globUpTo bound directory
        return (← directories.mapM fun directory => tree.globIn directory last).flatten

/-- The paths that fit a glob, directory by directory in the order of the names. -/
def glob (tree : FileTree) (pattern : Text) : Except Failure (List Text) :=
  tree.globUpTo (pattern.length + 1) pattern

/-- The contents of all files below a location, by their path from there, in order. -/
def filesBelow (tree : FileTree) (location : Location) : List (Text × Text) :=
  (tree.entries.filterMap fun entry =>
    match entry.2 with
    | .file data =>
      if location.isPrefixOf entry.1 then
        some (Text.joinWith "/" (entry.1.drop location.length), data)
      else none
    | .directory => none).mergeSort fun a b => Text.le a.1 b.1

end FileTree

end FlowTrace
