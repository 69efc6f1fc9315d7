import FlowTrace.Engine
import FlowTrace.Server.Memory
import FlowTrace.Storage.Path
import FlowTrace.Url

/-! # The analysis server

The server answers posted code with reports and listings in JSON, tells that it is well, and shows
its tally. A server is a pure function from its state and an incoming request to the new state and
the response (`Server.handle`); every request to an analysis endpoint is counted once, under the
status it is answered with. -/

namespace FlowTrace

/-- A request that reaches the server. -/
structure Incoming where
  /-- The method, such as `GET`. -/
  method : Text
  /-- The path, with a query behind it if there is one. -/
  target : Text
  /-- The body. -/
  body : Text := []
  /-- The state of the context in which the request is served. -/
  context : Context := .live

/-- What the server answers. -/
structure Response where
  /-- The status. -/
  status : Nat
  /-- The headers. -/
  headers : List (Text × Text)
  /-- The body. -/
  body : Text

/-- What does the analyses of a server. It may answer without a report or a listing. -/
structure Analyzer where
  /-- Analyses code in a language. -/
  analyze : Context → Text → Text → Except Failure (Option Report)
  /-- Lists the statements of Python code. -/
  parsePython : Context → Text → Except Failure (Option Listing)

/-- The analyzer that is the engine. -/
def Analyzer.engine : Analyzer where
  analyze context language code := (Engine.analyze context language code).map some
  parsePython context code := (Engine.parsePython context code).map some

/-- The analyzer that always fails. -/
def Analyzer.failing (failure : Failure) : Analyzer :=
  ⟨fun _ _ _ => .error failure, fun _ _ => .error failure⟩

/-- What a clock shows to a server. -/
structure Health where
  /-- The time. -/
  timestamp : Text
  /-- How long the server has been running. -/
  uptime : Text

/-- A **server**: how it is set up. -/
structure Server where
  /-- What does the analyses. -/
  analyzer : Analyzer := .engine
  /-- The web pages that may use the server. -/
  allowedOrigin : Text := "*"
  /-- The largest body, in bytes. -/
  maxBody : Nat := 1048576

namespace Server

/-- A server with a limit for bodies; without a positive one it has the usual limit. -/
def ofOptions (analyzer : Analyzer) (allowedOrigin : Text) (maxBody : Int) : Server where
  analyzer := analyzer
  allowedOrigin := if allowedOrigin.isEmpty then "*" else allowedOrigin
  maxBody := if maxBody ≤ 0 then 1048576 else maxBody.toNat

/-- A **call** of the analyzer. -/
inductive Call where
  /-- Code in a language is analysed. -/
  | report (language code : Text)
  /-- The statements of Python code are listed. -/
  | listing (code : Text)
  deriving DecidableEq, Repr

/-- The state of a server. -/
structure State where
  /-- The cache. -/
  cache : Cache := .absent
  /-- The tally. -/
  tally : Tally := {}
  /-- The calls of the analyzer so far, the latest last. No response depends on them. -/
  calls : List Call := []

/-! ## Responses -/

/-- A JSON response. -/
def jsonResponse (status : Nat) (value : Json) : Response :=
  ⟨status, [("Content-Type", "application/json")], value.render ++ "\n"⟩

/-- A response that names an error. -/
def errorResponse (status : Nat) (message : Text) : Response :=
  jsonResponse status (.obj [("error", .str message)])

/-- The response to a method that is not allowed. -/
def methodNotAllowed (allowed : Text) : Response :=
  let response := errorResponse 405 "Method not allowed"
  { response with headers := ("Allow", allowed) :: response.headers }

/-- The response to a path that leads nowhere. -/
def notFound : Response :=
  ⟨404, [("Content-Type", "text/plain; charset=utf-8")], "404 page not found\n"⟩

/-- The response that points to the proper form of a path. -/
def moved (method location : Text) : Response :=
  let html : List (Text × Text) :=
    if method == "GET" || method == "HEAD" then [("Content-Type", "text/html; charset=utf-8")]
    else []
  let body : Text :=
    if method == "GET" then
      "<a href=\"" ++ location.escapeMarkup ++ "\">Temporary Redirect</a>.\n\n"
    else []
  ⟨307, ("Location", location) :: html, body⟩

/-- The response when a body is not acceptable. -/
inductive Rejection where
  /-- It is too large. -/
  | tooLarge (limit : Nat)
  /-- It holds no usable value. -/
  | unusable
  /-- It lacks code. -/
  | noCode
  /-- It names an unknown language. -/
  | unknownLanguage
  deriving DecidableEq, Repr

/-- The status of a rejection. -/
def Rejection.status : Rejection → Nat
  | tooLarge _ => 413
  | _ => 400

/-- The message of a rejection. -/
def Rejection.message : Rejection → Text
  | tooLarge limit => "Request body exceeds " ++ Text.ofNat limit ++ " bytes"
  | unusable => "No data received"
  | noCode => "No code provided"
  | unknownLanguage => "Unsupported language"

/-! ## Bodies -/

/-- Whether a value shows its end by a closing bracket. -/
def isBracketed : Json → Bool
  | .arr _ => true
  | .obj _ => true
  | _ => false

/-- The first value of a body of which at most `limit` bytes are read. What follows the value does
not matter; but a value without a closing bracket ends only where something else is read. -/
def firstValue (limit : Nat) (body : Text) : Except Rejection Json :=
  let cut := limit < body.length
  match Json.readFirst (body.take limit) with
  | .ok (value, rest) =>
    if cut && rest.isEmpty && !isBracketed value then .error (.tooLarge limit) else .ok value
  | .error .malformed => .error .unusable
  | .error .incomplete => .error (if cut then .tooLarge limit else .unusable)

/-- The code of a request for a listing. -/
def listingCode (limit : Nat) (body : Text) : Except Rejection Text := do
  let value ← firstValue limit body
  let code? := (Json.Writes.members? [value]).bind fun members =>
    (Json.writesTo members "code").text?
  match code? with
  | none => throw .unusable
  | some code => return code.trim

/-- A request for a report, its code without blanks around it and its language in lower case. -/
def reportRequest (limit : Nat) (body : Text) : Except Rejection Request := do
  let value ← firstValue limit body
  match Request.ofJson? value with
  | none => throw .unusable
  | some request =>
    return { request with code := request.code.trim, language := request.language.lower }

/-- What is wrong with a request for a report. -/
def objection? (request : Request) : Option Rejection :=
  if request.code.isEmpty then some .noCode
  else if (Language.ofName? request.language).isNone then some .unknownLanguage
  else none

/-! ## Endpoints -/

/-- The name of the endpoint for reports. -/
def reportEndpoint : Text := "generate_flowchart"

/-- The name of the endpoint for listings. -/
def listingEndpoint : Text := "parse_python"

/-- Counts a request and answers it. -/
def finish (state : State) (endpoint language : Text) (response : Response) : State × Response :=
  ({ state with tally := state.tally.countRequest endpoint language response.status }, response)

/-- The response to a failed analysis. One that breaks off has no response at all; but the code of a
request is well-formed, and then the engine does not break off. -/
def failureResponse (failure : Failure) : Response :=
  if failure.isValidation then errorResponse 400 "Unsupported language"
  else errorResponse 500 "Analysis failed"

/-- The response to a rejected body. -/
def Rejection.response (rejection : Rejection) : Response :=
  errorResponse rejection.status rejection.message

/-- The response that gives what the analyzer answered. -/
def reportResponse (answer : Option Report) : Response :=
  jsonResponse 200 (Json.ofOption Report.toJson answer)

/-- The state when the analyzer has been called at an endpoint. -/
def consult (state : State) (endpoint language : Text) (call : Call) : State :=
  { state with
    tally := state.tally.countAnalysis endpoint language
    calls := state.calls ++ [call] }

/-- Answers a valid request for a report, from the cache if it is there. -/
def serveReport (server : Server) (state : State) (context : Context) (request : Request) :
    State × Response :=
  let key := Cache.key request.language request.code
  match state.cache.get? key with
  | some report =>
    finish { state with tally := state.tally.countHit } reportEndpoint request.language
      (reportResponse (some report))
  | none =>
    let state := consult { state with tally := state.tally.countMiss } reportEndpoint
      request.language (.report request.language request.code)
    match server.analyzer.analyze context request.language request.code with
    | .error failure => finish state reportEndpoint request.language (failureResponse failure)
    | .ok answer =>
      finish { state with cache := (state.cache.put key answer).1 } reportEndpoint
        request.language (reportResponse answer)

/-- The endpoint for reports. -/
def handleReport (server : Server) (state : State) (incoming : Incoming) : State × Response :=
  if incoming.method != "POST" then finish state reportEndpoint [] (methodNotAllowed "POST")
  else
    match reportRequest server.maxBody incoming.body with
    | .error rejection => finish state reportEndpoint [] rejection.response
    | .ok request =>
      match objection? request with
      | some rejection => finish state reportEndpoint request.language rejection.response
      | none => server.serveReport state incoming.context request

/-- The endpoint for listings. -/
def handleListing (server : Server) (state : State) (incoming : Incoming) : State × Response :=
  let language := Language.python.name
  if incoming.method != "POST" then finish state listingEndpoint language (methodNotAllowed "POST")
  else
    match listingCode server.maxBody incoming.body with
    | .error rejection => finish state listingEndpoint language rejection.response
    | .ok code =>
      if code.isEmpty then finish state listingEndpoint language Rejection.noCode.response
      else
        let state := consult state listingEndpoint language (.listing code)
        finish state listingEndpoint language <|
          match server.analyzer.parsePython incoming.context code with
          | .error failure => failureResponse failure
          | .ok answer => jsonResponse 200 (Json.ofOption Listing.toJson answer)

/-- The endpoint that tells how the server is. -/
def handleHealth (health : Health) (incoming : Incoming) : Response :=
  if incoming.method != "GET" then methodNotAllowed "GET"
  else
    jsonResponse 200 (.obj [("status", "ok"), ("timestamp", .str health.timestamp),
      ("uptime", .str health.uptime)])

/-- The endpoint that shows the tally. -/
def handleMetrics (state : State) : Response :=
  ⟨200, [("Content-Type", "text/plain; version=0.0.4; charset=utf-8")],
    state.tally.lines.flatMap (· ++ "\n")⟩

/-! ## Routing -/

/-- The proper form of a path: rooted, without empty parts and points, but with a slash at its end
if there is one. -/
def cleanPath (path : Text) : Text :=
  let rooted : Text := if path.startsWith "/" then path else "/" ++ path
  let clean := Path.clean rooted
  if rooted.endsWith "/" && clean != "/" then clean ++ "/" else clean

/-- The only segment of a path, its escapes undone; `none` if there are more. -/
def onlySegment? (path : Text) : Option Text :=
  match path with
  | slash :: segment =>
    if slash == '/' && !segment.contains ('/' : UInt8) then
      some ((UrlPart.path.unescape segment).toOption.getD segment)
    else none
  | [] => none

/-- Routes a request to its endpoint. Except for requests to connect, a path that is not in its
proper form is answered with the proper one. -/
def route (server : Server) (state : State) (health : Health) (incoming : Incoming) :
    State × Response :=
  let (path, query?) := Url.cut incoming.target '?'
  let path := Url.written .path path
  let proper := if incoming.method == "CONNECT" then path else cleanPath path
  if proper != path then
    let query : Text := match query? with
      | some query => if query.isEmpty then [] else "?" ++ query
      | none => []
    (state, moved incoming.method (proper ++ query))
  else
    let segment? := onlySegment? path
    if segment? == some "generate-flowchart" then server.handleReport state incoming
    else if segment? == some "parse-python" then server.handleListing state incoming
    else if segment? == some "health" then (state, handleHealth health incoming)
    else if segment? == some "metrics" then (state, handleMetrics state)
    else (state, notFound)

/-- The headers that tell web pages which of them may use the server. -/
def accessHeaders (server : Server) : List (Text × Text) :=
  let access : List (Text × Text) :=
    [("Access-Control-Allow-Origin", server.allowedOrigin),
      ("Access-Control-Allow-Methods", "GET, POST, OPTIONS"),
      ("Access-Control-Allow-Headers", "Content-Type, X-Request-ID")]
  let varying : List (Text × Text) := [("Vary", "Origin")]
  if server.allowedOrigin == "*" then access else access ++ varying

/-- **Handles** a request. A question about what is allowed is answered for every path alike. -/
def handle (server : Server) (state : State) (health : Health) (incoming : Incoming) :
    State × Response :=
  let (state, response) :=
    if incoming.method == "OPTIONS" then (state, ⟨204, [], []⟩)
    else server.route state health incoming
  (state, { response with headers := server.accessHeaders ++ response.headers })

end Server

end FlowTrace
