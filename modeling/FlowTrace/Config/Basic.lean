import FlowTrace.Duration
import FlowTrace.Environment
import FlowTrace.Yaml.Writer

/-! # Configurations

A **configuration** holds the settings of all commands. `Config.default` gives them where nothing
else is said, and `Config.write` writes them as a document. -/

namespace FlowTrace

/-- Where the analysis service is. -/
structure ServiceSettings where
  /-- The URL of the service. -/
  baseUrl : Text := "http://localhost:5000"
  /-- How long an answer may take. -/
  timeout : Duration := .seconds 10
  deriving DecidableEq, Repr

/-- How a trace is played. -/
structure PlaybackSettings where
  /-- The time between two steps. -/
  tickInterval : Duration := .seconds 1
  /-- Whether a result is dropped as soon as new code is submitted. -/
  clearOnSubmit : Bool := true
  deriving DecidableEq, Repr

/-- How the service is run. -/
structure ServerSettings where
  /-- The address to listen on. -/
  address : Text := ":5000"
  /-- The origin whose pages may use the service. -/
  allowedOrigin : Text := "*"
  /-- Where results are kept; nowhere when empty. -/
  cacheDirectory : Text := []
  deriving DecidableEq, Repr

/-- How results are exported. -/
structure ExportSettings where
  /-- The directory of all exports. -/
  directory : Text
  /-- How export directories are named. -/
  naming : Text := "timestamp"
  deriving DecidableEq, Repr

/-- How often the service may be called. -/
structure RateSettings where
  /-- Calls in a minute. -/
  requestsPerMinute : Int := 120
  /-- Calls at once. -/
  burstSize : Int := 4
  deriving DecidableEq, Repr

/-- Limits on work. -/
structure LimitSettings where
  /-- The largest code that is analysed, in bytes. -/
  maxCodeSize : Int := 1048576
  /-- How long a request may take. -/
  requestTimeout : Duration := .seconds 30
  /-- How long requests may go on while the service shuts down. -/
  shutdownGrace : Duration := .seconds 10
  /-- How often the service may be called. -/
  rate : RateSettings := {}
  deriving DecidableEq, Repr

/-- A **configuration**. -/
structure Config where
  /-- Where the analysis service is. -/
  service : ServiceSettings := {}
  /-- How a trace is played. -/
  playback : PlaybackSettings := {}
  /-- How the service is run. -/
  server : ServerSettings := {}
  /-- How results are exported. -/
  exports : ExportSettings
  /-- Limits on work. -/
  limits : LimitSettings := {}
  /-- The least level of messages that are logged. -/
  logLevel : Text := "info"
  deriving DecidableEq, Repr

namespace Config

/-- The name of the directories of the program. -/
def programName : Text := "codevisor"

/-- The directory for the data of all programs. -/
def dataHome (env : Environment) : Text :=
  (env.get? "XDG_DATA_HOME").getD (Path.join [env.home, ".local", "share"])

/-- The configuration where nothing else is said. -/
def default (env : Environment) : Config where
  exports := { directory := Path.join [dataHome env, programName] }

/-- Where the configuration is kept: as a variable says, or in the directory for the settings of
all programs. -/
def path (env : Environment) : Text :=
  match env.get? "CODEVISOR_CONFIG" with
  | some path => env.expandHome path
  | none =>
    let settings := (env.get? "XDG_CONFIG_HOME").getD (Path.join [env.home, ".config"])
    Path.join [settings, programName, "config.yaml"]

/-! ## Writing -/

/-- A duration in a document. -/
def duration (d : Duration) : Yaml.Document := .text d.toText

/-- An integer in a document. -/
def integer (n : Int) : Yaml.Document := .fixed (Text.ofInt n)

/-- A truth value in a document. -/
def truth (b : Bool) : Yaml.Document := .fixed (if b then "true" else "false")

/-- The entries of a configuration. -/
def entries (c : Config) : List (Text × Yaml.Document) :=
  let service : List (Text × Yaml.Document) :=
    [("base_url", .text c.service.baseUrl), ("timeout", duration c.service.timeout)]
  let playback : List (Text × Yaml.Document) :=
    [("tick_interval", duration c.playback.tickInterval),
      ("clear_on_submit", truth c.playback.clearOnSubmit)]
  let server : List (Text × Yaml.Document) :=
    [("addr", .text c.server.address), ("allowed_origin", .text c.server.allowedOrigin),
      ("cache_dir", .text c.server.cacheDirectory)]
  let exports : List (Text × Yaml.Document) :=
    [("dir", .text c.exports.directory), ("naming", .text c.exports.naming)]
  let rate : List (Text × Yaml.Document) :=
    [("requests_per_minute", integer c.limits.rate.requestsPerMinute),
      ("burst_size", integer c.limits.rate.burstSize)]
  let limits : List (Text × Yaml.Document) :=
    [("max_code_size", integer c.limits.maxCodeSize),
      ("request_timeout", duration c.limits.requestTimeout),
      ("shutdown_grace", duration c.limits.shutdownGrace), ("rate_limit", .block rate)]
  [("service", .block service), ("playback", .block playback), ("server", .block server),
    ("export", .block exports), ("limits", .block limits), ("log_level", .text c.logLevel)]

/-- The written form of a configuration. -/
def write (c : Config) : Text := Yaml.write c.entries

end Config

end FlowTrace
