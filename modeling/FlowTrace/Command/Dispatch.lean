import FlowTrace.Command.Analyze
import FlowTrace.Server.Handler
import FlowTrace.Tools

/-! # All commands

The first argument of a command line names a command, the others are its own. `Command.run` runs
any command line on a machine. -/

namespace FlowTrace.Command

/-- The version of the program. -/
def version : Text := "0.1.0"

/-- What the program can do. -/
def usage : Text :=
  "Usage: codevisor <command> [flags]

Commands:
  serve     run the analysis HTTP service
  analyze   analyze one snippet and print the result
  exports   list finished exports
  mcp       run an MCP server on stdio
  init      write a default config file
  version   print the version

Run \"codevisor <command> -h\" for command flags.
"

/-! ## The service -/

/-- The options of the command that runs the service. -/
def serveOptions : List CommandOption :=
  [⟨"addr", .text [], "listen address (overrides config)"⟩,
    ⟨"cache", .text [], "result cache directory (overrides config)"⟩,
    ⟨"config", .text [], "config file path"⟩,
    ⟨"v", .switch, "debug logging"⟩]

/-- The address to serve at: the option, or else the configuration. -/
def serveAddress (given : Given) (config : Config) : Text :=
  let address := given.text serveOptions "addr"
  if address.isEmpty then config.server.address else address

/-- The server of a configuration. -/
def serverOf (config : Config) : Server :=
  Server.ofOptions Analyzer.engine config.server.allowedOrigin config.limits.maxCodeSize

/-- The command that **serves** analyses. -/
def serve (machine : Machine) (context : Context) (given : Given) : Run :=
  let (machine, config) := machine.loadConfig (given.text serveOptions "config")
  match config with
  | .error failure => { machine := machine, failure := some failure }
  | .ok config =>
    let address := serveAddress given config
    { machine := machine
      failure := (machine.serve address context).map (.wrapped ("listening on " ++ address)) }

/-! ## Exports -/

/-- The options of the command that lists exports. -/
def exportsOptions : List CommandOption :=
  [⟨"config", .text [], "config file path"⟩,
    ⟨"dir", .text [], "export root (overrides config)"⟩]

/-- The list of exports below a directory. -/
def exportsText (directory : Text) (names : List Text) : Text :=
  if names.isEmpty then "No exports under " ++ directory ++ "\n"
  else names.flatMap fun name => Path.join [directory, name] ++ ("\n" : Text)

/-- The command that **lists** complete exports. -/
def exports (machine : Machine) (context : Context) (given : Given) : Run :=
  let (machine, config) := machine.loadConfig (given.text exportsOptions "config")
  let listed : Except Failure Text := do
    let config ← config
    let directory := given.text exportsOptions "dir"
    let directory := if directory.isEmpty then config.exports.directory else directory
    let names ← Export.finished ((Store.below directory).storage context) machine.tree
    return exportsText directory names
  match listed with
  | .error failure => { machine := machine, failure := some failure }
  | .ok text => { machine := machine, output := text }

/-! ## Tools -/

/-- The options of the command that offers tools. -/
def toolsOptions : List CommandOption :=
  [⟨"config", .text [], "config file path"⟩,
    ⟨"remote", .switch, "forward tool calls to the configured analysis service"⟩]

/-- The command that **offers tools**: each line of its input is a message, and each answer is a
line of its output. -/
def tools (machine : Machine) (context : Context) (given : Given) (input : Text) : Run :=
  let (machine, config) := machine.loadConfig (given.text toolsOptions "config")
  match config, context with
  | .error failure, _ => { machine := machine, failure := some failure }
  | .ok config, .live =>
    let service :=
      if given.isOn "remote" then remoteService machine config else Service.«local»
    { machine := machine
      output := (Tools.converse service version context input).flatMap fun answer =>
        answer.render ++ ("\n" : Text) }
  | .ok _, _ => { machine := machine }

/-! ## The configuration -/

/-- The options of the command that writes a configuration. -/
def initOptions (machine : Machine) : List CommandOption :=
  [⟨"config", .text (Config.path machine.environment), "where to write the config file"⟩,
    ⟨"force", .switch, "overwrite an existing file"⟩]

/-- The failure when there is a configuration already. -/
def configExists (path : Text) : Failure :=
  .plain ("config file " ++ path ++ " already exists (use -force to overwrite)")

/-- The command that **writes** the default configuration. -/
def init (machine : Machine) (given : Given) : Run :=
  let path := given.text (initOptions machine) "config"
  let isTaken : Bool := machine.tree.stat path matches .ok _
  if isTaken && !given.isOn "force" then { machine := machine, failure := configExists path }
  else
    match (Config.default machine.environment).save machine.tree path with
    | (tree, some failure) => { machine := { machine with tree := tree }, failure := failure }
    | (tree, none) =>
      { machine := { machine with tree := tree }, output := "Wrote " ++ path ++ "\n" }

/-! ## Command lines -/

/-- A **verb** of the command line: its name, its options, and what it does with those given. -/
structure Verb where
  /-- The name. -/
  name : Text
  /-- The options. -/
  options : List CommandOption
  /-- What it does. -/
  run : Given → Run

/-- Runs a verb with its arguments. -/
def Verb.runWith (verb : Verb) (machine : Machine) (arguments : List Text) : Run :=
  match Options.read verb.options arguments with
  | .ok given => verb.run given
  | .error refusal =>
    { machine := machine
      errors := Options.refusalText ("codevisor " ++ verb.name) verb.options refusal
      failure := refusal.failure }

/-- The verbs that have options. -/
def verbs (machine : Machine) (context : Context) (input : Text) : List Verb :=
  [⟨"serve", serveOptions, serve machine context⟩,
    ⟨"analyze", analyzeOptions, fun given => analyze machine context given input⟩,
    ⟨"exports", exportsOptions, exports machine context⟩,
    ⟨"mcp", toolsOptions, fun given => tools machine context given input⟩,
    ⟨"init", initOptions machine, init machine⟩]

/-- **Runs** a command line on a machine. -/
def run (machine : Machine) (context : Context) (arguments : List Text) (input : Text) : Run :=
  match arguments with
  | [] => { machine := machine, errors := usage, failure := some .usage }
  | name :: rest =>
    match (verbs machine context input).find? (·.name == name) with
    | some verb => verb.runWith machine rest
    | none =>
      if name == "version" then { machine := machine, output := version ++ ("\n" : Text) }
      else if [("help" : Text), "-h", "--help"].contains name then
        { machine := machine, output := usage }
      else
        { machine := machine, errors := "unknown command " ++ name.quoted ++ "\n\n" ++ usage
          failure := some .usage }

/-- What is shown at the very end of a failed run, unless the usage was shown before. -/
def closingText : Failure → Text
  | .usage => []
  | .helpRequested => []
  | failure => "codevisor: " ++ failure.message ++ "\n"

/-- Whether a command line asks for its input. -/
def readsInput (arguments : List Text) : Bool :=
  match arguments with
  | [] => false
  | name :: rest =>
    name == "analyze" &&
      match Options.read analyzeOptions rest with
      | .ok given => sourcePath given == "-"
      | .error _ => false

/-- The paths that a command line may be about: its arguments and what stands behind an equals sign
in them, the file of variables and the usual places. -/
def pathsOf (environment : Environment) (arguments : List Text) : List Text :=
  let behindSign (argument : Text) : Text :=
    (argument.dropWhile fun (c : UInt8) => c != '=').drop 1
  let usual := [Config.variablesFile, Config.path environment,
    (Config.default environment).exports.directory]
  (usual ++ arguments ++ arguments.map behindSign).filter fun path => !path.isEmpty

end FlowTrace.Command
