import FlowTrace.Command.Machine
import FlowTrace.Command.Options
import FlowTrace.Export.Exporter
import FlowTrace.Playback.Narration
import FlowTrace.Report.Merge
import FlowTrace.Report.Wire
import FlowTrace.Service.Local
import FlowTrace.Session.Submit

/-! # The command that analyses code

The code is submitted to a session; its result is printed, and then, as options ask for it, played,
exported and copied. -/

namespace FlowTrace.Command

/-! ## Printing results -/

/-- One item of a printed list. -/
def itemText (item : Text) : Text := "  - " ++ item ++ "\n"

/-- A list with a title; nothing when it is empty. -/
def titled (title : Text) (items : List Text) : Text :=
  if items.isEmpty then [] else title ++ (":\n" : Text) ++ items.flatMap itemText

/-- A text below a title; nothing when it is empty. -/
def captioned (title text : Text) : Text :=
  if text.isEmpty then [] else title ++ (":\n" : Text) ++ text ++ ("\n" : Text)

/-- A bottleneck with its line number in front. -/
def bottleneckText (bottleneck : Bottleneck) : Text :=
  "Line " ++ Text.ofInt bottleneck.line ++ ": " ++ bottleneck.description

/-- What is printed about the speed of the code. -/
def speedText (complexity : Complexity) (advice : Advice) : Text :=
  "\nTime complexity:  " ++ complexity.time ++ "\nSpace complexity: " ++ complexity.space ++ "\n" ++
    titled "Complexity details" (complexity.details.getD []) ++
    titled "Optimization suggestions" (advice.suggestions.getD []) ++
    captioned "Optimized code" advice.optimizedCode

/-- What is printed about the memory that the code uses. -/
def memoryText (memory : MemoryUse) : Text :=
  "\nEstimated memory: " ++ memory.total ++ "\n" ++
    titled "Memory bottlenecks" ((memory.bottlenecks.getD []).map bottleneckText) ++
    captioned "Memory suggestions" memory.remedyLines

/-- What is printed about a result. -/
def resultText (result : Result) : Text :=
  "Flowchart: " ++ Text.ofNat result.flowchart.length ++ " bytes of SVG\n\nExecution steps:\n" ++
    stepLines result.steps ++ speedText result.complexity result.advice ++
    memoryText result.memory

/-! ## Options -/

/-- The options of the command. -/
def analyzeOptions : List CommandOption :=
  [⟨"config", .text [], "config file path"⟩,
    ⟨"copy", .switch, "copy memory suggestions to the clipboard"⟩,
    ⟨"export", .text [], "write flowchart, steps and manifest under this directory"⟩,
    ⟨"file", .text "-", "source file, or \"-\" for stdin"⟩,
    ⟨"lang", .text "python", "language: python, cpp or java"⟩,
    ⟨"local", .switch, "analyze in-process instead of calling the service"⟩,
    ⟨"narrate", .text "auto",
      "where -play narrates steps: \"print\", \"log\" or \"auto\" (print on a terminal)"⟩,
    ⟨"play", .switch, "step through the execution trace"⟩,
    ⟨"v", .switch, "debug logging"⟩]

/-- Where steps are narrated. -/
inductive Voice where
  /-- They are printed. -/
  | prints
  /-- They are logged. -/
  | logs
  deriving DecidableEq, Repr

/-- The voice that an option names; by itself the program prints only where somebody reads. -/
def voiceOf (machine : Machine) (mode : Text) : Except Failure Voice :=
  if mode == "print" then .ok .prints
  else if mode == "log" then .ok .logs
  else if mode == "auto" then .ok (if machine.isSeen then .prints else .logs)
  else .error (.plain ("unknown -narrate mode " ++ mode.quoted))

/-- The name of the source file: the option, or else the first argument. -/
def sourcePath (given : Given) : Text :=
  let path := given.text analyzeOptions "file"
  if path == "-" then given.arguments.headD path else path

/-- The source code: a file, or the input of the command. -/
def sourceOf (machine : Machine) (path input : Text) : Except Failure Text :=
  if path == "-" then .ok input
  else (machine.tree.read path).mapError (.wrapped "reading source")

/-- All that an analysis needs. -/
structure Job where
  /-- The configuration. -/
  config : Config
  /-- The language. -/
  language : Language
  /-- The source code. -/
  code : Text
  /-- Where steps are narrated. -/
  voice : Voice

/-- Collects what an analysis needs, in the order in which it may fail. -/
def jobOf (machine : Machine) (config : Except Failure Config) (given : Given) (input : Text) :
    Except Failure Job := do
  let config ← config
  let name := given.text analyzeOptions "lang"
  let language ← match Language.ofName? (Language.normalizeName name) with
    | some language => pure language
    | none => throw (.validation "language" "must be one of python, cpp, java" (some name))
  let code ← sourceOf machine (sourcePath given) input
  let voice ← voiceOf machine (given.text analyzeOptions "narrate")
  return ⟨config, language, code, voice⟩

/-! ## The analysis -/

/-- The service that a configuration names. -/
def remoteService (machine : Machine) (config : Config) : Service :=
  let rate := config.limits.rate
  (Remote.at_ config.service.baseUrl
    (.ofRate rate.requestsPerMinute rate.burstSize)).service machine.network

/-- Submits code to a session and takes the answer. -/
def submit (service : Service) (config : Config) (context : Context) (code language : Text) :
    Stage × Except Failure Result :=
  let policy : ClearPolicy :=
    if config.playback.clearOnSubmit then .clearBeforeCall else .preserveOnFailure
  let stage : Stage := { session := { policy := policy } }
  match stage.submit code language context with
  | .error failure => (stage, .error failure)
  | .ok (stage, generation) =>
    let context := stage.contextOf generation
    stage.answer generation context (service.analyze context ⟨code, language, true⟩)

/-- Lets the playback run to its end, for at most a number of ticks. -/
def playOut : Nat → Stage → Stage
  | 0, stage => stage
  | ticks + 1, stage =>
    match stage.latestTicker? with
    | none => stage
    | some epoch => playOut ticks (stage.tick epoch)

/-- The texts that are narrated while a result is played. -/
def narration (stage : Stage) (result : Result) : List Text :=
  let played := playOut (result.steps.length + 1) (stage.perform .play).1
  played.log.reverse.filterMap fun
    | .narrated text => some text
    | _ => none

/-- Plays a result. -/
def play (voice : Voice) (stage : Stage) (result : Result) (run : Run) : Run :=
  match voice with
  | .prints => run.print ((narration stage result).flatMap (Narration.line "  > "))
  | .logs => run

/-- Exports a result below a directory. -/
def exportResult (job : Job) (context : Context) (directory : Text) (result : Result)
    (run : Run) : Run :=
  let machine := run.machine
  let outcome := Export.run ((Store.below directory).storage context)
    (.ofName job.config.exports.naming) machine.clock machine.ids job.language.name
    (some result.toReport) machine.tree
  let run := { run with machine :=
    { machine with tree := outcome.state, ids := machine.ids.drop outcome.drawn } }
  match outcome.result with
  | .error failure => run.fail failure
  | .ok name => run.print ("Exported to " ++ Path.join [directory, name] ++ "\n")

/-- Copies the memory suggestions of a result; without a clipboard they are printed. -/
def copyResult (context : Context) (result : Result) (run : Run) : Run :=
  let text := result.memory.remedyLines
  if text.isEmpty then run.print "No memory suggestions to copy.\n"
  else
    match Clipboard.command? run.machine.find? with
    | none =>
      match Clipboard.copy context text with
      | .ok text => run.print text
      | .error failure => run.fail failure
    | some _ =>
      let (machine, failure?) := run.machine.copy text
      let run := { run with machine := machine }
      match failure? with
      | some failure => run.fail failure
      | none => run.print "Memory suggestions copied to clipboard.\n"

/-- Does an analysis and all that options ask for. -/
def work (machine : Machine) (context : Context) (given : Given) (job : Job) : Run :=
  let service :=
    if given.isOn "local" then Service.«local» else remoteService machine job.config
  let (stage, answer) := submit service job.config context job.code job.language.name
  match answer with
  | .error failure =>
    { machine := machine, errors := failure.userMessage ++ "\n", failure := some failure }
  | .ok result =>
    let directory := given.text analyzeOptions "export"
    let run : Run := { machine := machine, output := resultText result }
    let run := if given.isOn "play" then play job.voice stage result run else run
    let run := if directory.isEmpty then run else exportResult job context directory result run
    run.andThen fun run => if given.isOn "copy" then copyResult context result run else run

/-- The command that **analyses** code. -/
def analyze (machine : Machine) (context : Context) (given : Given) (input : Text) : Run :=
  let (machine, config) := machine.loadConfig (given.text analyzeOptions "config")
  match jobOf machine config given input with
  | .error failure => { machine := machine, failure := some failure }
  | .ok job => work machine context given job

end FlowTrace.Command
