import FlowTrace.Failure
import FlowTrace.Text.Quoted

/-! # Options of commands

A command has **options**, each with a name. An option either takes a text or is a switch. On the
command line an option is written with one hyphen or two; its value follows it or stands behind an
equals sign. Options end at the first argument that is none, or behind `--`.

* **`Options.read`** reads the options of a command line.
* **`Options.usage`** describes them. -/

namespace FlowTrace

/-- What an option takes. -/
inductive OptionKind where
  /-- A text, with the one that is used when the option is not given. -/
  | text (fallback : Text)
  /-- Nothing, or a truth value behind an equals sign. -/
  | switch
  deriving DecidableEq, Repr

/-- An **option** of a command. -/
structure CommandOption where
  /-- The name, without hyphens. -/
  name : Text
  /-- What it takes. -/
  kind : OptionKind
  /-- What it does. -/
  description : Text
  deriving DecidableEq, Repr

/-- The description of an option, on a line of its own unless its name is very short. -/
def CommandOption.usage (option : CommandOption) : Text :=
  let head : Text := "  -" ++ option.name ++
    (match option.kind with
    | .text _ => " string"
    | .switch => [])
  let default : Text := match option.kind with
    | .text fallback =>
      if fallback.isEmpty then [] else " (default " ++ fallback.quoted ++ ")"
    | .switch => []
  head ++ (if head.length ≤ 4 then ("\t" : Text) else "\n    \t") ++ option.description ++ default ++
    "\n"

/-- Why a command line was refused. -/
inductive Refusal where
  /-- Help was asked for. -/
  | help
  /-- An argument looks like an option, but has no name. -/
  | malformed (argument : Text)
  /-- There is no such option. -/
  | unknown (name : Text)
  /-- The value of an option is missing. -/
  | missingValue (name : Text)
  /-- The value of a switch is not a truth value. -/
  | badTruth (value name : Text)
  deriving DecidableEq, Repr

/-- The failure of a refused command line. -/
def Refusal.failure : Refusal → Failure
  | help => .helpRequested
  | malformed argument => .plain ("bad flag syntax: " ++ argument)
  | unknown name => .plain ("flag provided but not defined: -" ++ name)
  | missingValue name => .plain ("flag needs an argument: -" ++ name)
  | badTruth value name =>
    .plain ("invalid boolean value " ++ value.quoted ++ " for -" ++ name ++ ": parse error")

/-- The options and arguments that were given. -/
structure Given where
  /-- The values of options, the latest first. -/
  values : List (Text × Text) := []
  /-- The arguments behind the options. -/
  arguments : List Text := []
  deriving DecidableEq, Repr

namespace Options

/-- The words for truth. -/
def trueWords : List Text := ["1", "t", "T", "true", "TRUE", "True"]

/-- The words for falsehood. -/
def falseWords : List Text := ["0", "f", "F", "false", "FALSE", "False"]

/-- The name and the value of an option, which stands behind its first equals sign if it has one.
The sign is not the first byte. -/
def splitValue (t : Text) : Text × Option Text :=
  match t with
  | [] => ([], none)
  | c :: rest =>
    let name := rest.takeWhile fun (c : UInt8) => c != '='
    if name.length == rest.length then (t, none)
    else (c :: name, some (rest.drop (name.length + 1)))

/-- Reads the options at the head of a command line. -/
def readFrom (options : List CommandOption) (given : Given) :
    List Text → Except Refusal Given
  | [] => .ok given
  | argument :: rest =>
    if argument.length < 2 || argument.head? != some ('-' : UInt8) then
      .ok { given with arguments := argument :: rest }
    else if argument == "--" then .ok { given with arguments := rest }
    else
      let body : Text := argument.drop (if argument.startsWith "--" then 2 else 1)
      if body.head?.all fun (c : UInt8) => c == '-' || c == '=' then .error (.malformed argument)
      else
        let (name, value?) := splitValue body
        match options.find? (·.name == name) with
        | none => .error (if name == "help" || name == "h" then .help else .unknown name)
        | some option =>
          let put (value : Text) : Given := { given with values := (name, value) :: given.values }
          match option.kind, value? with
          | .switch, none => readFrom options (put "true") rest
          | .switch, some value =>
            if trueWords.contains value then readFrom options (put "true") rest
            else if falseWords.contains value then readFrom options (put "false") rest
            else .error (.badTruth value name)
          | .text _, some value => readFrom options (put value) rest
          | .text _, none =>
            match rest with
            | [] => .error (.missingValue name)
            | value :: rest => readFrom options (put value) rest

/-- **Reads** a command line. -/
def read (options : List CommandOption) (arguments : List Text) : Except Refusal Given :=
  readFrom options {} arguments

/-- **Describes** the options of a command. -/
def usage (command : Text) (options : List CommandOption) : Text :=
  "Usage of " ++ command ++ ":\n" ++ options.flatMap CommandOption.usage

/-- What is shown when a command line is refused. -/
def refusalText (command : Text) (options : List CommandOption) (refusal : Refusal) : Text :=
  (match refusal with
  | .help => []
  | _ => refusal.failure.message ++ "\n") ++ usage command options

end Options

/-- The value of an option that takes a text. -/
def Given.text (given : Given) (options : List CommandOption) (name : Text) : Text :=
  match given.values.find? (·.1 == name) with
  | some (_, value) => value
  | none =>
    match options.find? (·.name == name) with
    | some ⟨_, .text fallback, _⟩ => fallback
    | _ => []

/-- Whether a switch is on. -/
def Given.isOn (given : Given) (name : Text) : Bool :=
  ((given.values.find? (·.1 == name)).map (·.2)) == some "true"

/-- Without arguments nothing is given. -/
@[simp] theorem Options.read_nil (options : List CommandOption) :
    Options.read options [] = .ok {} := rfl

end FlowTrace
