import FlowTrace.Config.Basic
import FlowTrace.Power
import FlowTrace.Yaml.Decoding

/-! # Reading configurations

A document changes the settings it names and leaves the others as they are. Names that are not
settings are passed over; a value of the wrong kind is a mistake. -/

namespace FlowTrace

/-- A **setting** of a record: its name, and how a node changes the record. Decoding fails when the
node is of the wrong kind. The number bounds the nesting of tables. -/
structure Setting (σ : Type) where
  /-- The name. -/
  name : Text
  /-- The change. -/
  change : Nat → Yaml.Place → Yaml.Node → σ → Yaml.Decoding σ

namespace Setting

variable {σ τ : Type}

/-- A record while a table changes it, with the names of the entries that were seen. -/
structure Progress (σ : Type) where
  /-- The record. -/
  value : σ
  /-- The names. -/
  seen : List Text

/-- Changes a record by one entry. When entries are `merged` into a table, a name that was seen is
passed over; otherwise no setting may be named twice. -/
def readEntry (settings : List (Setting σ)) (merged : Bool) (bound : Nat) (place : Yaml.Place)
    (p : Progress σ) (entry : Yaml.Node × Yaml.Node) : Yaml.Decoding (Progress σ) := do
  if entry.1.isMerge then return p
  else
    match ← place.name? entry.1 with
    | none => return p
    | some name =>
      match p.seen.contains name, settings.find? (·.name == name) with
      | true, some _ => if merged then return p else failure
      | true, none => return p
      | false, none => return { p with seen := name :: p.seen }
      | false, some setting => return ⟨← setting.change bound place entry.2 p.value, name :: p.seen⟩

/-- Changes a record by the entries of a table, and then by those of the tables it asks for, as far as
their names are new. At most `bound` tables may be nested this way. -/
def readEntries (settings : List (Setting σ)) : Nat → Bool → Yaml.Place → List (Yaml.Node × Yaml.Node) →
    Progress σ → Yaml.Decoding (Progress σ)
  | 0, _, _, _, _ => failure
  | bound + 1, merged, place, entries, p => do
    if Yaml.Node.repeatsKey entries then failure
    else
      let p ← entries.foldlM (readEntry settings merged bound place) p
      let readAsked (p : Progress σ) (node : Yaml.Node) : Yaml.Decoding (Progress σ) := do
        match ← place.follow node with
        | (inside, .table asked) => readEntries settings bound true inside asked p
        | _ => failure
      match entries.find? (·.1.isMerge) with
      | none => return p
      | some (_, asked) =>
        if !merged then entries.forM fun (key, _) => discard (place.follow key)
        match asked with
        | .list items => items.foldlM readAsked p
        | node => readAsked p node

/-- The settings of a record, changed by a table. -/
def readTable (settings : List (Setting σ)) (bound : Nat) (place : Yaml.Place) (node : Yaml.Node)
    (value : σ) : Yaml.Decoding σ := do
  match ← place.table? node with
  | none => return value
  | some (inside, entries) => return (← readEntries settings bound false inside entries ⟨value, []⟩).value

/-- A setting that is a record of its own. -/
def table (name : Text) (get : σ → τ) (set : σ → τ → σ) (settings : List (Setting τ)) :
    Setting σ where
  name := name
  change bound place node value := do
    return set value (← readTable settings bound place node (get value))

/-- A setting that is a scalar; a scalar that stands for nothing changes nothing. -/
def scalar (name : Text) (read? : Text → Yaml.Meaning → Option τ) (set : σ → τ → σ) : Setting σ where
  name := name
  change _ place node value := do
    match ← place.scalar node with
    | (_, .null) => return value
    | (text, meaning) =>
      match read? text meaning with
      | some t => return set value t
      | none => failure

/-- A setting that is a text: any scalar. -/
def text (name : Text) (set : σ → Text → σ) : Setting σ := scalar name (fun t _ => some t) set

/-- The whole number at the near side of a number of the binary64 format. Numbers outside of the
64-bit range are taken for its least one, unless they are above it. -/
def truncated? (negative : Bool) (magnitude : Binary64) : Option Int :=
  let (num, den) := Binary64.scaled magnitude.significand 1 magnitude.power
  let whole := num / den
  if negative then some (-(min whole wordLimit : Nat) : Int)
  else if whole < wordLimit then some whole
  else if num == wordLimit * den then some (-(wordLimit : Int))
  else none

/-- A setting that is an integer: an integer of 64 bits, or another number, cut. -/
def integer (name : Text) (set : σ → Int → σ) : Setting σ :=
  scalar name (fun _ meaning =>
    match meaning with
    | .integer n => if n < wordLimit then some n else none
    | .real negative magnitude => truncated? negative magnitude
    | .unreal true true => some (-(wordLimit : Int))
    | _ => none) set

/-- A setting that is a duration: a text with units. -/
def duration (name : Text) (set : σ → Duration → σ) : Setting σ :=
  scalar name (fun t meaning =>
    match meaning with
    | .text => Duration.read? t
    | _ => none) set

/-- Words of an older version of the format for truth values. -/
def truthWords : List (Text × Bool) :=
  [("y", true), ("Y", true), ("yes", true), ("on", true),
    ("n", false), ("N", false), ("no", false), ("off", false)]

/-- A setting that is a truth value, also in words of the older format. -/
def truth (name : Text) (set : σ → Bool → σ) : Setting σ :=
  scalar name (fun t meaning =>
    match meaning with
    | .truth b => some b
    | .text => truthWords.lookup t
    | _ => none) set

end Setting

namespace Config

/-- The settings about the analysis service. -/
def serviceSettings : List (Setting ServiceSettings) :=
  [.text "base_url" fun s t => { s with baseUrl := t },
    .duration "timeout" fun s d => { s with timeout := d }]

/-- The settings about the playback. -/
def playbackSettings : List (Setting PlaybackSettings) :=
  [.duration "tick_interval" fun s d => { s with tickInterval := d },
    .truth "clear_on_submit" fun s b => { s with clearOnSubmit := b }]

/-- The settings about the server. -/
def serverSettings : List (Setting ServerSettings) :=
  [.text "addr" fun s t => { s with address := t },
    .text "allowed_origin" fun s t => { s with allowedOrigin := t },
    .text "cache_dir" fun s t => { s with cacheDirectory := t }]

/-- The settings about exports. -/
def exportSettings : List (Setting ExportSettings) :=
  [.text "dir" fun s t => { s with directory := t }, .text "naming" fun s t => { s with naming := t }]

/-- The settings about the rate of calls. -/
def rateSettings : List (Setting RateSettings) :=
  [.integer "requests_per_minute" fun s n => { s with requestsPerMinute := n },
    .integer "burst_size" fun s n => { s with burstSize := n }]

/-- The settings about limits. -/
def limitSettings : List (Setting LimitSettings) :=
  [.integer "max_code_size" fun s n => { s with maxCodeSize := n },
    .duration "request_timeout" fun s d => { s with requestTimeout := d },
    .duration "shutdown_grace" fun s d => { s with shutdownGrace := d },
    .table "rate_limit" (·.rate) (fun s r => { s with rate := r }) rateSettings]

/-- All settings. -/
def settings : List (Setting Config) :=
  [.table "service" (·.service) (fun c s => { c with service := s }) serviceSettings,
    .table "playback" (·.playback) (fun c s => { c with playback := s }) playbackSettings,
    .table "server" (·.server) (fun c s => { c with server := s }) serverSettings,
    .table "export" (·.exports) (fun c s => { c with exports := s }) exportSettings,
    .table "limits" (·.limits) (fun c s => { c with limits := s }) limitSettings,
    .text "log_level" fun c t => { c with logLevel := t }]

/-- **Reads** a document: the configuration with the settings it names; `none` when the document
is not YAML or has a value of the wrong kind. -/
def read? (c : Config) (t : Text) : Option Config := do
  match ← Yaml.Tree.read t with
  | none => return c
  | some tree =>
    let place : Yaml.Place := { named := tree.named }
    let (changed, _) ← (Setting.readTable settings (t.length + 1) place tree.root c).run { total := 1 }
    return changed

end Config

end FlowTrace
