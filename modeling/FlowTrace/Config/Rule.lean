import FlowTrace.Config.Basic
import FlowTrace.Text.LetterCase
import FlowTrace.Url

/-! # Rules about configurations

Each setting has **rules** that its value has to keep, in order; the first one that is broken is
reported. -/

namespace FlowTrace

/-- A **rule** about a setting. -/
inductive Rule where
  /-- It is not empty or zero. -/
  | given
  /-- It is a URL. -/
  | url
  /-- It is not too small. -/
  | atLeast
  /-- It is not too large. -/
  | atMost
  /-- It is an address with a port, or begins with a colon. -/
  | address
  /-- It is one of several words. -/
  | oneOf
  deriving DecidableEq, Repr

/-- The name of a rule. -/
def Rule.name : Rule → Text
  | given => "required"
  | url => "url"
  | atLeast => "min"
  | atMost => "max"
  | address => "hostname_port|startswith=:"
  | oneOf => "oneof"

/-- Whether a text is a URL with something behind its scheme. -/
def Url.isUsable (t : Text) : Bool :=
  let t := t.lower
  let isLocal : Bool := t.startsWith "file:/" && (Url.readBody t matches .ok _)
  isLocal ||
    match Url.read t with
    | .error _ => false
    | .ok url =>
      !url.scheme.isEmpty && !(url.host.isEmpty && url.fragment.isEmpty && url.undivided.isEmpty)

namespace HostPort

/-- Takes an address apart at its last colon, into a host and a port. A host with a colon in it
stands in brackets. -/
def split? (t : Text) : Option (Text × Text) :=
  (t.lastIndexOf? ":").bind fun i =>
    let port : Text := t.drop (i + 1)
    if t.head? == some ('[' : UInt8) then
      (t.indexOf? "]").bind fun close =>
        let inner : Text := t.slice 1 close
        if close + 1 != i || inner.contains ('[' : UInt8) || port.contains ('[' : UInt8) ||
            port.contains (']' : UInt8) then none
        else some (inner, port)
    else
      let host : Text := t.take i
      if host.contains (':' : UInt8) || t.contains ('[' : UInt8) || t.contains (']' : UInt8) then
        none
      else some (host, port)

/-- Whether a text is the name of a host: labels of at most 63 letters, digits and hyphens, none of
which begins with a hyphen, with points between them. -/
def isHost (t : Text) : Bool :=
  (t.splitAtByte '.').all fun label =>
    label.length ≤ 63 && label.head?.any (fun c => Text.isLetter c || Text.isDigit c) &&
      label.all fun c => Text.isLetter c || Text.isDigit c || c == '-'

/-- Whether a text is a port from 1 to 65535, perhaps with a plus sign. -/
def isPort (t : Text) : Bool :=
  match (t.dropStart "+").toNat? with
  | some n => 1 ≤ n && n ≤ 65535
  | none => false

/-- Whether a text is an address with a port; the host may be missing. -/
def isValid (t : Text) : Bool :=
  match split? t with
  | some (host, port) => isPort port && (host.isEmpty || isHost host)
  | none => false

end HostPort

namespace Config

/-- A broken rule: the path of the setting, and the rule. -/
structure Fault where
  /-- The names that lead to the setting. -/
  path : List Text
  /-- The rule. -/
  rule : Rule
  deriving DecidableEq, Repr

/-- The message about a broken rule. -/
def Fault.message (fault : Fault) : Text :=
  "Key: '" ++ Text.joinWith "." ("Config" :: fault.path) ++ "' Error:Field validation for '" ++
    fault.path.getLast?.getD [] ++ "' failed on the '" ++ fault.rule.name ++ "' tag"

/-- The rules of a setting, each with whether it is kept. -/
abbrev Checks := List (Rule × Bool)

/-- The rules of a text that has to be given. -/
def given (t : Text) : Checks := [(.given, !t.isEmpty)]

/-- The rules of a number between two bounds. -/
def between (least most n : Int) : Checks :=
  [(.given, n != 0), (.atLeast, decide (least ≤ n)), (.atMost, decide (n ≤ most))]

/-- The rules of a duration between two bounds. -/
def within (least most d : Duration) : Checks :=
  between least.nanoseconds most.nanoseconds d.nanoseconds

/-- The rule of a word. -/
def oneOf (words : List Text) (t : Text) : Checks := [(.oneOf, words.contains t)]

/-- The ways to name export directories. -/
def namings : List Text := ["uuid", "timestamp", "descriptive"]

/-- The levels of messages. -/
def levels : List Text := ["debug", "info", "warn", "error"]

/-- The rules of all settings, in order. -/
def checks (c : Config) : List (List Text × Checks) :=
  [(["Service", "BaseURL"], given c.service.baseUrl ++ [(.url, Url.isUsable c.service.baseUrl)]),
    (["Service", "Timeout"], within (.milliseconds 100) (.minutes 10) c.service.timeout),
    (["Playback", "TickInterval"],
      within (.milliseconds 10) (.minutes 1) c.playback.tickInterval),
    (["Server", "Addr"], given c.server.address ++
      [(.address, HostPort.isValid c.server.address || c.server.address.startsWith ":")]),
    (["Server", "AllowedOrigin"], given c.server.allowedOrigin),
    (["Export", "Dir"], given c.exports.directory),
    (["Export", "Naming"], oneOf namings c.exports.naming),
    (["Limits", "MaxCodeSize"], between 1024 10485760 c.limits.maxCodeSize),
    (["Limits", "RequestTimeout"], within (.seconds 1) (.minutes 5) c.limits.requestTimeout),
    (["Limits", "ShutdownGrace"], within (.seconds 1) (.minutes 5) c.limits.shutdownGrace),
    (["Limits", "RateLimit", "RequestsPerMinute"],
      between 1 6000 c.limits.rate.requestsPerMinute),
    (["Limits", "RateLimit", "BurstSize"], between 1 100 c.limits.rate.burstSize),
    (["LogLevel"], oneOf levels c.logLevel)]

/-- The first broken rule of each setting. -/
def faults (c : Config) : List Fault :=
  c.checks.filterMap fun (path, rules) =>
    (rules.find? fun (_, kept) => !kept).map fun (rule, _) => ⟨path, rule⟩

end Config

end FlowTrace
