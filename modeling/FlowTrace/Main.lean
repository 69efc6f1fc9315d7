import FlowTrace.Command.Dispatch

/-! # The program

Reads what a command may need from the system into a machine, runs the command, and writes what it
left behind. Everything a command does is decided by `FlowTrace.Command.run`. -/

namespace FlowTrace.Terminal

/-- The variables that commands use. -/
def variableNames : List String :=
  ["HOME", "PATH", "XDG_CONFIG_HOME", "XDG_DATA_HOME", "CODEVISOR_CONFIG",
    "CODEVISOR_SERVICE_URL", "CODEVISOR_ADDR", "CODEVISOR_CACHE_DIR", "CODEVISOR_EXPORT_DIR",
    "CODEVISOR_LOG_LEVEL"]

/-- The variables of the system. -/
def environment : IO Environment := do
  let mut bindings : List (Text × Text) := []
  for name in variableNames do
    if let some value ← IO.getEnv name then
      bindings := bindings ++ [(Text.of name, Text.of value)]
  return ⟨bindings⟩

/-- How deep directories are looked into. -/
def depth : Nat := 3

/-- The tree with what is found at a path, and below it up to a depth. -/
def load : Nat → FileTree → Text → IO FileTree
  | bound, tree, path => do
    let full := (← IO.currentDir) / path.toDisplay
    let location := (Path.ofText (Text.of full.toString)).parts
    if ← full.isDir then
      let tree := (tree.makeDirectories (Text.of full.toString)).1
      match bound with
      | 0 => return tree
      | bound + 1 =>
        let mut tree := tree
        for entry in ← full.readDir do
          tree ← load bound tree (Text.of entry.path.toString)
        return tree
    else if ← full.pathExists then
      try return tree.putFile location (← IO.FS.readBinFile full).data.toList
      catch _ => return tree
    else return tree

/-- An id drawn by chance. -/
def drawId : IO Text := do
  let bytes := (← IO.getRandomBytes 16).data.toList.map UInt8.toNat
  let group (start length : Nat) : Text :=
    ((bytes.drop start).take length).flatMap (Text.hexFixed 2)
  return Text.joinWith "-" [group 0 4, group 4 2, group 6 2, group 8 2, group 10 6]

/-- The time of the system, as the file system knows it. -/
def now : IO Moment := do
  let time := (← ((← IO.currentDir) / "/proc/self/stat").metadata).modified
  return .ofSeconds time.sec time.nsec.toNat

/-- What a command line runs on. The network cannot be used, and no programs are run. -/
def machine (arguments : List Text) : IO Machine := do
  let environment ← environment
  let working := Text.of (← IO.currentDir).toString
  let mut tree := ((FileTree.mk [] (Path.ofText working).parts).makeDirectories working).1
  for path in Command.pathsOf environment arguments do
    tree ← load depth tree path
  let ids ← (List.range Export.attempts).mapM fun _ => drawId
  return {
    environment := environment
    tree := tree
    clock := ← now
    ids := ids
    network := fun _ => .broken "network is unreachable"
    program? := fun _ => none
    serve := fun _ _ => some (.plain "network is unreachable")
    isSeen := ← (← IO.getStdout).isTty }

/-- Writes the entries of a tree that another one does not have. -/
def store (before after : FileTree) : IO Unit := do
  for (location, entry) in after.entries do
    if before.entry? location != some entry then
      let path := ("/" ++ Text.joinWith "/" location : Text).toDisplay
      match entry with
      | .directory => IO.FS.createDirAll path
      | .file data => IO.FS.writeBinFile path ⟨data.toArray⟩

/-- All that is left of a stream. -/
partial def readAll (stream : IO.FS.Stream) (read : ByteArray) : IO ByteArray := do
  let more ← stream.read 65536
  if more.isEmpty then return read else readAll stream (read ++ more)

/-- Shows what a run printed. -/
def report (run : Run) : IO Unit := do
  let output ← IO.getStdout
  let errors ← IO.getStderr
  output.write ⟨run.output.toArray⟩
  output.flush
  errors.write ⟨(run.errors ++ (run.failure.map Command.closingText).getD []).toArray⟩

/-- Runs a command line for each line of the input. -/
partial def converse (machine : Machine) (arguments : List Text) : IO Unit := do
  let line ← (← IO.getStdin).getLine
  if line.isEmpty then return
  report (Command.run machine .live arguments (Text.of line))
  converse machine arguments

end FlowTrace.Terminal

open FlowTrace in
/-- The program. -/
def main (args : List String) : IO UInt32 := do
  let arguments := args.map Text.of
  let machine ← Terminal.machine arguments
  let input ← if Command.readsInput arguments then
      Terminal.readAll (← IO.getStdin) .empty
    else pure .empty
  let run := Command.run machine .live arguments input.data.toList
  Terminal.report run
  Terminal.store machine.tree run.machine.tree
  if run.failure.isSome then return 1
  if arguments.head? == some "mcp" then Terminal.converse machine arguments
  return 0
