import FlowTrace.Config.Load
import FlowTrace.Failure
import FlowTrace.Moment
import FlowTrace.Service.Remote
import FlowTrace.Text.Blank

/-! # Machines

A **machine** is what a command runs on: variables, files, a clock, a source of ids, a network and
installed programs. Commands take a machine and give back the machine as they leave it, so a run is
a function of all it depends on. -/

/-! ## Clipboards

Text is copied by handing it to the first of several programs that is installed, or, when there is
none, by printing it. -/

namespace FlowTrace.Clipboard

/-- The programs that copy text, with their arguments, in the order in which they are tried. -/
def commands : List (Text × List Text) :=
  [("pbcopy", []), ("wl-copy", []), ("xclip", ["-selection", "clipboard"]),
    ("xsel", ["--clipboard", "--input"]), ("clip.exe", [])]

/-- The program to use and its arguments; `find` looks a program up by its name. -/
def command? (find : Text → Option Text) : Option (Text × List Text) :=
  commands.findSome? fun (name, arguments) => (find name).map fun path => (path, arguments)

/-- What is said when no program is installed. -/
def unavailable : Failure := .plain "no clipboard command available"

/-- The text as it is printed, with its last line ended. -/
def printed (t : Text) : Text := if t.endsWith "\n" then t else t ++ "\n"

/-- Copies by printing: the text to print. -/
def copy (context : Context) (t : Text) : Except Failure Text :=
  match context.failure? with
  | some failure => .error failure
  | none => .ok (printed t)

end FlowTrace.Clipboard

/-! ## Machines -/

namespace FlowTrace

/-- What became of a program that was run. -/
structure Execution where
  /-- The files afterwards. -/
  tree : FileTree
  /-- What the program printed. -/
  output : Text
  /-- Why it failed, if it did. -/
  complaint : Option Text := none

/-- An installed **program**, as a function of its arguments, its input and the files. -/
abbrev Program := List Text → Text → FileTree → Execution

/-- A **machine**. -/
structure Machine where
  /-- The variables. -/
  environment : Environment
  /-- The files. -/
  tree : FileTree
  /-- The time. -/
  clock : Moment
  /-- The ids to draw from. -/
  ids : List Text
  /-- What the network does with a request. -/
  network : Outgoing → Reply
  /-- The program at a path. -/
  program? : Text → Option Program
  /-- What comes of serving at an address until the context ends. -/
  serve : Text → Context → Option Failure
  /-- Whether what is printed is seen by a reader, and not kept in a file. -/
  isSeen : Bool := true

namespace Machine

/-- The directories in which programs are looked for. -/
def searchPath (machine : Machine) : List Text :=
  match machine.environment.get? "PATH" with
  | none => []
  | some path => path.splitAtByte ':'

/-- The path of an installed program. One that is found by way of the working directory does not
count. -/
def find? (machine : Machine) (name : Text) : Option Text :=
  let paths := machine.searchPath.map fun directory =>
    Path.join [if directory.isEmpty then Path.here else directory, name]
  (paths.find? fun path => (machine.program? path).isSome).filter Path.isRooted

/-- Runs an installed program. -/
def execute (machine : Machine) (path : Text) (arguments : List Text) (input : Text) :
    Execution :=
  match machine.program? path with
  | none => ⟨machine.tree, [], some "no such file or directory"⟩
  | some program => program arguments input machine.tree

/-- Copies a text to the clipboard of the machine. -/
def copy (machine : Machine) (t : Text) : Machine × Option Failure :=
  match Clipboard.command? machine.find? with
  | none => (machine, some Clipboard.unavailable)
  | some (path, arguments) =>
    let execution := machine.execute path arguments t
    ({ machine with tree := execution.tree },
      execution.complaint.map fun complaint =>
        .plain (path ++ ": " ++ complaint ++ ": " ++ execution.output.trim))

/-- Loads the configuration at a path, or at the usual one when the path is empty. -/
def loadConfig (machine : Machine) (path : Text) : Machine × Except Failure Config :=
  let path := if path.isEmpty then Config.path machine.environment else path
  let (environment, config) := Config.load machine.environment machine.tree path
  ({ machine with environment := environment }, config)

end Machine

/-- A **run** of a command: the machine as it was left, what was printed, what was shown as an
error, and the failure. -/
structure Run where
  /-- The machine afterwards. -/
  machine : Machine
  /-- What was printed. -/
  output : Text := []
  /-- What was shown as an error. -/
  errors : Text := []
  /-- Why the command failed, if it did. -/
  failure : Option Failure := none

namespace Run

/-- A run that prints more. -/
def print (run : Run) (t : Text) : Run := { run with output := run.output ++ t }

/-- A run that fails. -/
def fail (run : Run) (failure : Failure) : Run := { run with failure := some failure }

/-- A run that goes on unless it has failed. -/
def andThen (run : Run) (next : Run → Run) : Run := if run.failure.isSome then run else next run

/-- What has failed does not go on. -/
@[simp] theorem andThen_fail (run : Run) (failure : Failure) (next : Run → Run) :
    (run.fail failure).andThen next = run.fail failure := rfl

end Run

end FlowTrace
