import FlowTrace.Json.Reader
import FlowTrace.Json.Writes
import FlowTrace.Language
import FlowTrace.Report.Merge
import FlowTrace.Report.Wire
import FlowTrace.Service.Basic
import FlowTrace.Text.Base64
import FlowTrace.Text.Quoted

/-! # Tools for assistants

The service as two tools that an assistant can call, and the messages in which it does so. -/

/-! ## The tools

The service as two **tools** that an assistant can call: one gives the whole report on some code,
the other the listing of Python code, both as indented JSON. What goes wrong is told to the
assistant in plain words, except that a call that was given up is a failure of the call itself. -/

namespace FlowTrace.Tools

/-- What a tool answers. -/
structure Outcome where
  /-- The text. -/
  text : Text
  /-- Whether the text tells of an error. -/
  isError : Bool := false
  deriving Repr

/-- A tool that can be called by its name. -/
inductive Tool where
  /-- Gives the report on code. -/
  | flowchart
  /-- Gives the listing of Python code. -/
  | listing
  deriving DecidableEq, Repr

/-- The name of a tool. -/
def Tool.name : Tool → Text
  | flowchart => "generate_flowchart"
  | listing => "parse_python"

/-- All tools, in the order of their names. -/
def Tool.all : List Tool := [.flowchart, .listing]

/-- The tool with a name. -/
def Tool.ofName? (name : Text) : Option Tool := Tool.all.find? fun tool => tool.name == name

/-- The text of an argument, empty when it is missing or not a text. -/
def argument (arguments : List (Text × Json)) (name : Text) : Text :=
  (Json.obj arguments |>.get name).toText

/-- What a failure of the service amounts to. -/
def failed (failure : Failure) : Except Failure Outcome :=
  if failure.chain.any (· matches .canceled) then .error failure
  else .ok ⟨failure.userMessage, true⟩

/-- The tool that gives the report on code. -/
def generateFlowchart (service : Service) (context : Context) (arguments : List (Text × Json)) :
    Except Failure Outcome :=
  let code := argument arguments "code"
  if code.isBlank then .ok ⟨"missing required argument: code", true⟩
  else
    let raw := argument arguments "language"
    match Language.ofName? (Language.normalizeName raw) with
    | none => .ok ⟨"unsupported language " ++ raw.quoted, true⟩
    | some language =>
      match service.analyze context ⟨code, language.name, true⟩ with
      | .error failure => failed failure
      | .ok report? =>
        match report?.bind Report.merge? with
        | none => failed .generationFailed
        | some result => .ok ⟨result.toJson.renderIndented, false⟩

/-- The tool that gives the listing of Python code. -/
def parsePython (service : Service) (context : Context) (arguments : List (Text × Json)) :
    Except Failure Outcome :=
  let code := argument arguments "code"
  if code.isBlank then .ok ⟨"missing required argument: code", true⟩
  else
    match service.parsePython context code with
    | .error failure => failed failure
    | .ok listing => .ok ⟨listing.toJson.renderIndented, false⟩

/-- Calls a tool. -/
def Tool.call (tool : Tool) (service : Service) (context : Context)
    (arguments : List (Text × Json)) : Except Failure Outcome :=
  match tool with
  | .flowchart => generateFlowchart service context arguments
  | .listing => parsePython service context arguments

end FlowTrace.Tools

/-! ## Calling tools by messages

An assistant sends **messages** in JSON: it introduces itself, asks for the list of tools and calls
them. A message with an id is answered by one message with the same id; a message without one is a
notification and has no answer. -/

namespace FlowTrace.Tools

/-- Why a message is not answered with a result. -/
inductive MessageFault where
  /-- The message is not readable. -/
  | unreadable (what : Text)
  /-- The message is not of this protocol. -/
  | invalid (what : Text)
  /-- There is no such method. -/
  | unknownMethod (what : Text)
  /-- The parameters name nothing. -/
  | badParameters (what : Text)
  /-- The tool itself failed. -/
  | internal (what : Text)
  deriving Repr

/-- The number of a fault. -/
def MessageFault.code : MessageFault → Int
  | unreadable _ => -32700
  | invalid _ => -32600
  | unknownMethod _ => -32601
  | badParameters _ => -32602
  | internal _ => -32603

/-- The wording of a fault. -/
def MessageFault.message : MessageFault → Text
  | unreadable what => what
  | invalid what => what
  | unknownMethod what => what
  | badParameters what => what
  | internal what => what

/-- The answer that carries a result. -/
def resultMessage (id result : Json) : Json :=
  .obj [("jsonrpc", "2.0"), ("id", id), ("result", result)]

/-- The answer that carries a fault. -/
def faultMessage (id : Json) (fault : MessageFault) : Json :=
  .obj [("jsonrpc", "2.0"), ("id", id),
    ("error", .obj [("code", .ofInt fault.code), ("message", .str fault.message)])]

/-- What a tool expects, as a schema. -/
def schema (properties : List (Text × Json)) (required : List Text) : Json :=
  .obj [("type", "object"), ("properties", .obj properties), ("required", .texts required)]

/-- A property that is a text. -/
def textProperty (description : Text) (choices : List Text) : Json :=
  let allowed : List (Text × Json) := if choices.isEmpty then [] else [("enum", .texts choices)]
  .obj (("description", .str description) :: ("type", "string") :: allowed)

/-- The description of a tool. -/
def Tool.toJson (tool : Tool) : Json :=
  let described (description : Text) (inputs : Json) : Json :=
    .obj [("name", .str tool.name), ("description", .str description), ("inputSchema", inputs)]
  match tool with
  | .flowchart =>
    described
      ("Analyze a code snippet and return its SVG flowchart, simulated execution steps, " ++
        "complexity, optimization and memory analysis as JSON.")
      (schema [("code", textProperty "Source code to analyze." []),
        ("language", textProperty "Language of the snippet." (Language.all.map Language.name))]
        ["code", "language"])
  | .listing =>
    described
      ("Parse a Python snippet into a flat list of execution steps plus complexity and " ++
        "optimization hints, as JSON.")
      (schema [("code", textProperty "Python source code." [])] ["code"])

/-- What is said to an assistant that introduces itself. -/
def introduction (version : Text) : Json :=
  .obj [("protocolVersion", "2024-11-05"),
    ("capabilities", .obj [("logging", .obj []), ("tools", .obj [])]),
    ("serverInfo", .obj [("name", "CodeVisor"), ("version", .str version)])]

/-- The outcome of a tool as the result of a call. -/
def Outcome.toJson (outcome : Outcome) : Json :=
  let error : List (Text × Json) := if outcome.isError then [("isError", .bool true)] else []
  .obj (("content", .arr [.obj [("type", "text"), ("text", .str outcome.text)]]) :: error)

/-! ## Parameters -/

/-- A **parameter** of a method. -/
structure Parameter where
  /-- Its name. -/
  name : Text
  /-- What it has to be, as a type. -/
  type : Text
  /-- Whether it is a text and not an object. -/
  isText : Bool

/-- The **signature** of a method. -/
structure Signature where
  /-- What a message has to be, as a type. -/
  owner : Text
  /-- Where the parameters stand in it. -/
  path : Text
  /-- What the parameters have to be, as a type. -/
  type : Text
  /-- The parameters. -/
  parameters : List Parameter

/-- What a value is, as it is called in messages. -/
def kindName : Json → Text
  | .null => "null"
  | .bool _ => "bool"
  | .num _ => "number"
  | .str _ => "string"
  | .arr _ => "array"
  | .obj _ => "object"

/-- The message about a value of the wrong kind. -/
def mismatch (value : Json) (owner path type : Text) : Text :=
  "json: cannot unmarshal " ++ kindName value ++ " into Go struct field " ++ owner ++ "." ++ path ++
    " of type " ++ type

/-- Whether a value can be taken for a parameter. -/
def Parameter.accepts (parameter : Parameter) : Json → Bool
  | .null => true
  | .str _ => parameter.isText
  | .obj _ => !parameter.isText
  | _ => false

/-- What is wrong with the parameters of a message, the first fault if there are several. -/
def Signature.fault? (signature : Signature) (members : List (Text × Json)) : Option Text :=
  (Json.writesTo members "params").findSome? fun parameters =>
    match parameters with
    | .null => none
    | .obj values =>
      values.findSome? fun (name, value) =>
        match signature.parameters.find? fun p => Json.namesField name p.name with
        | some parameter =>
          if parameter.accepts value then none
          else some (mismatch value [] (signature.path ++ "." ++ parameter.name) parameter.type)
        | none => none
    | value => some (mismatch value signature.owner signature.path signature.type)

/-- The signature of an introduction. -/
def introductionSignature : Signature where
  owner := "InitializeRequest"
  path := "params"
  type := "struct \x7b ProtocolVersion string \"json:\\\"protocolVersion\\\"\"; " ++
    "Capabilities mcp.ClientCapabilities \"json:\\\"capabilities\\\"\"; " ++
    "ClientInfo mcp.Implementation \"json:\\\"clientInfo\\\"\" \x7d"
  parameters := [⟨"protocolVersion", "string", true⟩,
    ⟨"capabilities", "mcp.ClientCapabilities", false⟩, ⟨"clientInfo", "mcp.Implementation", false⟩]

/-- The type of what goes with every request. -/
def metaType : Text :=
  "*struct \x7b ProgressToken mcp.ProgressToken \"json:\\\"progressToken,omitempty\\\"\" \x7d"

/-- The type of what goes with a request, without the star of a reference. -/
def metaParameter : Parameter := ⟨"_meta", metaType.drop 1, false⟩

/-- The signature of a request for a sign of life. -/
def pingSignature : Signature where
  owner := "PingRequest"
  path := "Request.params"
  type := "struct \x7b Meta " ++ metaType ++ " \"json:\\\"_meta,omitempty\\\"\" \x7d"
  parameters := [metaParameter]

/-- The signature of a request for the list of tools. -/
def listSignature : Signature where
  owner := "ListToolsRequest"
  path := "PaginatedRequest.params"
  type := "struct \x7b Cursor mcp.Cursor \"json:\\\"cursor,omitempty\\\"\" \x7d"
  parameters := [⟨"cursor", "mcp.Cursor", true⟩]

/-- The signature of a call. -/
def callSignature : Signature where
  owner := "CallToolRequest"
  path := "params"
  type := "struct \x7b Name string \"json:\\\"name\\\"\"; " ++
    "Arguments map[string]interface \x7b\x7d \"json:\\\"arguments,omitempty\\\"\"; " ++
    "Meta " ++ metaType ++ " \"json:\\\"_meta,omitempty\\\"\" \x7d"
  parameters := [⟨"name", "string", true⟩, ⟨"arguments", "map[string]interface \x7b\x7d", false⟩,
    metaParameter]

/-- Refuses a message whose parameters do not fit the signature of its method. -/
def Signature.check (signature : Signature) (method : Text) (members : List (Text × Json)) :
    Except MessageFault Unit :=
  match signature.fault? members with
  | some fault => .error (.invalid ("unparseable " ++ method ++ " request: " ++ fault))
  | none => .ok ()

/-- The members that an optional object place holds; `none` for a value of another kind. -/
def membersAt (members : List (Text × Json)) (name : Text) : Option (List (Text × Json)) :=
  (Json.writesTo members name).members?

/-! ## Methods -/

/-- Calls the tool that the parameters of a message name. -/
def callTool (service : Service) (context : Context) (members : List (Text × Json)) :
    Except MessageFault Json :=
  let parsed : Option (Text × List (Text × Json)) := do
    let parameters ← membersAt members "params"
    let name ← (Json.writesTo parameters "name").text?
    let arguments ← (Json.writesTo parameters "arguments").table?
    return (name, arguments)
  match parsed with
  | none => .error (.invalid "unparseable tools/call request")
  | some (name, arguments) =>
    match Tool.ofName? name with
    | none => .error (.badParameters ("tool '" ++ name ++ "' not found: tool not found"))
    | some tool =>
      match tool.call service context arguments with
      | .error failure => .error (.internal failure.message)
      | .ok outcome => .ok outcome.toJson

/-- The tools behind a place in the list. The place is the name of the last tool that is known
already, in base 64; all tools are listed when there is none. -/
def toolsBehind (cursor : Text) : Except MessageFault (List Tool) :=
  match Text.Base64.decode cursor with
  | .error offset =>
    .error (.badParameters ("illegal base64 data at input byte " ++ Text.ofNat offset))
  | .ok name => .ok (Tool.all.filter fun tool => cursor.isEmpty || !Text.le tool.name name)

/-- Lists the tools. -/
def listTools (members : List (Text × Json)) : Except MessageFault Json := do
  let cursor := do
    let parameters ← membersAt members "params"
    (Json.writesTo parameters "cursor").text?
  let tools ← toolsBehind (cursor.getD [])
  return .obj [("tools", .arr (tools.map Tool.toJson))]

/-- Answers a request by its method. -/
def dispatch (service : Service) (version : Text) (context : Context) (method : Text)
    (members : List (Text × Json)) : Except MessageFault Json :=
  if method == "initialize" then do
    introductionSignature.check method members
    return introduction version
  else if method == "ping" then do
    pingSignature.check method members
    return .obj []
  else if method == "tools/list" then do
    listSignature.check method members
    listTools members
  else if method == "tools/call" then do
    callSignature.check method members
    callTool service context members
  else if [("resources/list" : Text), "resources/templates/list", "resources/read"].contains
      method then
    .error (.unknownMethod "resources not supported")
  else if [("prompts/list" : Text), "prompts/get"].contains method then
    .error (.unknownMethod "prompts not supported")
  else .error (.unknownMethod ("Method " ++ method ++ " not found"))

/-- **Answers** a message; a notification has no answer. -/
def answer? (service : Service) (version : Text) (context : Context) (message : Json) :
    Option Json :=
  let parsed : Option (Text × Text × Json × List (Text × Json)) := do
    let members ← Json.Writes.members? [message]
    let protocol ← (Json.writesTo members "jsonrpc").text?
    let method ← (Json.writesTo members "method").text?
    let id ← (((Json.writesTo members "id").getLast?).getD .null).canonical?
    return (protocol, method, id, members)
  match parsed with
  | none => some (faultMessage .null (.unreadable "Failed to parse message"))
  | some (protocol, method, id, members) =>
    if protocol != "2.0" then some (faultMessage id (.invalid "Invalid JSON-RPC version"))
    else if id.isNull then
      match membersAt members "params" with
      | some _ => none
      | none => some (faultMessage .null (.unreadable "Failed to parse notification"))
    else
      match dispatch service version context method members with
      | .ok result => some (resultMessage id result)
      | .error fault => some (faultMessage id fault)

/-- The answers to the lines of a conversation. What follows the last newline is not a line. -/
def converse (service : Service) (version : Text) (context : Context) (input : Text) : List Json :=
  input.lines.dropLast.filterMap fun line =>
    match Json.read? line with
    | none => some (faultMessage .null (.unreadable "Parse error"))
    | some message => answer? service version context message

end FlowTrace.Tools
