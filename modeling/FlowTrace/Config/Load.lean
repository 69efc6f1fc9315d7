import FlowTrace.Config.Reader
import FlowTrace.Config.Rule
import FlowTrace.Environment
import FlowTrace.Storage.FileTree

/-! # Loading and saving configurations

A configuration is put together from its defaults, a file, and variables of the environment, each
of which overrides what comes before. A file of variables in the working directory adds to the
environment first. -/

namespace FlowTrace.Config

/-- The name of the file of variables. -/
def variablesFile : Text := ".env"

/-- The environment with the variables of the file in the working directory. -/
def fullEnvironment (env : Environment) (tree : FileTree) : Environment :=
  match tree.read variablesFile with
  | .ok t => env.withFile t
  | .error _ => env

/-- The settings as variables override them. -/
def withVariables (c : Config) (env : Environment) : Config where
  service := { c.service with
    baseUrl := (env.get? "CODEVISOR_SERVICE_URL").getD c.service.baseUrl }
  playback := c.playback
  server := { c.server with
    address := (env.get? "CODEVISOR_ADDR").getD c.server.address
    cacheDirectory := (env.get? "CODEVISOR_CACHE_DIR").getD c.server.cacheDirectory }
  exports := { c.exports with
    directory := (env.get? "CODEVISOR_EXPORT_DIR").getD c.exports.directory }
  limits := c.limits
  logLevel := ((env.get? "CODEVISOR_LOG_LEVEL").map Text.lower).getD c.logLevel

/-- The settings with the home directory in the paths of directories. -/
def withHome (c : Config) (env : Environment) : Config :=
  { c with
    server := { c.server with cacheDirectory := env.expandHome c.server.cacheDirectory }
    exports := { c.exports with directory := env.expandHome c.exports.directory } }

/-- The configuration, if it breaks no rule. -/
def validated (c : Config) : Except Failure Config :=
  if c.faults.isEmpty then .ok c
  else
    .error (.wrapped "validating config" (.wrapped "config validation failed"
      (.plain (Text.joinWith "\n" (c.faults.map Fault.message)))))

/-- The configuration as its file changes it; a file that is not there changes nothing. -/
def withFile (c : Config) (tree : FileTree) (path : Text) : Except Failure Config :=
  match tree.stat path with
  | .error .notFound => .ok c
  | _ => do
    let t ← (tree.read path).mapError (.wrapped "reading config file")
    match c.read? t with
    | some c => return c
    | none => throw (.wrapped ("parsing config file " ++ path) (.plain "malformed document"))

/-- **Loads** the configuration at a path. Given are also the environment as the file of variables
completes it. -/
def load (env : Environment) (tree : FileTree) (path : Text) :
    Environment × Except Failure Config :=
  let env := fullEnvironment env tree
  (env, do
    let c ← (default env).withFile tree path
    ((c.withVariables env).withHome env).validated)

/-- **Saves** a configuration at a path, with the directories above it. -/
def save (c : Config) (tree : FileTree) (path : Text) : FileTree × Option Failure :=
  match tree.makeDirectories (Path.directory path) with
  | (tree, some failure) => (tree, some (.wrapped "creating config directory" failure))
  | (tree, none) =>
    match tree.write path c.write with
    | .error failure => (tree, some (.wrapped "writing config" failure))
    | .ok tree => (tree, none)

/-- A configuration that was loaded breaks no rule. -/
theorem faults_of_validated {c d : Config} (h : c.validated = .ok d) : d.faults = [] := by
  unfold validated at h
  split at h
  · rename_i empty
    cases h
    simpa using empty
  · cases h

end FlowTrace.Config
