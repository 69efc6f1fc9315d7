import FlowTrace.Proofs.Server.Honesty

/-! # Where requests go

A request is answered at one of four endpoints, or at once (`Server.endpoint`); where it goes does
not depend on the state of the server (`Server.handle_eq`). Only a valid request for a report
(`Server.asked?`) touches the cache. The response to any other request is the same in every state
of the server (`Server.agrees_of_not_asked`), the tally aside. So a server that asks the engine stays
honest about a source for as long as no twin of it is sent (`Server.honest_after`). -/

namespace FlowTrace

/-! ## Responses that agree -/

namespace Response

/-- Whether a response is in JSON. -/
def IsJson (response : Response) : Prop :=
  (Text.of "Content-Type", Text.of "application/json") ∈ response.headers

/-- The value that the body of a response holds, in normal form. -/
def value? (response : Response) : Option Json := (Json.read? response.body).map Json.normal

/-- Two responses **agree**: they have the same status and the same headers, and if they are in
JSON, their bodies are the same or hold the same value. -/
structure Agrees (response other : Response) : Prop where
  /-- The status is the same. -/
  status : response.status = other.status
  /-- The headers are the same. -/
  headers : response.headers = other.headers
  /-- The JSON bodies tell the same. -/
  json : response.IsJson → response.body = other.body ∨
    ∃ value, response.value? = some value ∧ other.value? = some value

/-- A response agrees with itself. -/
theorem Agrees.refl (response : Response) : response.Agrees response :=
  ⟨rfl, rfl, fun _ => Or.inl rfl⟩

/-- A response with headers put in front. -/
def behind (headers : List (Text × Text)) (response : Response) : Response :=
  { response with headers := headers ++ response.headers }

/-- Headers that say nothing of the kind of the body do not matter. -/
theorem Agrees.behind {response other : Response} (agrees : response.Agrees other)
    {headers : List (Text × Text)} (silent : ∀ header ∈ headers, header.1 ≠ "Content-Type") :
    (response.behind headers).Agrees (other.behind headers) where
  status := agrees.status
  headers := congrArg (headers ++ ·) agrees.headers
  json is_json := by
    rcases (List.mem_append.1 is_json :) with in_front | own
    · exact absurd rfl (silent _ in_front)
    · exact agrees.json own

/-- Responses with the same headers in front agree exactly when they agree without them. -/
theorem agrees_behind {response other : Response} {headers : List (Text × Text)}
    (silent : ∀ header ∈ headers, header.1 ≠ "Content-Type") :
    (response.behind headers).Agrees (other.behind headers) ↔ response.Agrees other := by
  refine ⟨fun agrees => ⟨agrees.status, List.append_cancel_left agrees.headers, fun is_json => ?_⟩,
    fun agrees => agrees.behind silent⟩
  exact agrees.json (List.mem_append_right _ is_json)

end Response

namespace Server

variable {server : Server} {state : State} {incoming : Incoming} {request : Request}

/-! ## Endpoints -/

/-- Where a request goes. -/
inductive Endpoint where
  /-- Nowhere: it is answered at once. -/
  | nowhere (response : Response)
  /-- To the endpoint for reports. -/
  | reports
  /-- To the endpoint for listings. -/
  | listings
  /-- To the endpoint that tells how the server is. -/
  | health
  /-- To the endpoint that shows the tally. -/
  | metrics

/-- The endpoint of a request. -/
def endpoint (incoming : Incoming) : Endpoint :=
  if incoming.method == "OPTIONS" then .nowhere ⟨204, [], []⟩
  else
    let (path, query?) := Url.cut incoming.target '?'
    let path := Url.written .path path
    let proper := if incoming.method == "CONNECT" then path else cleanPath path
    if proper != path then
      let query : Text := match query? with
        | some query => if query.isEmpty then [] else "?" ++ query
        | none => []
      .nowhere (moved incoming.method (proper ++ query))
    else
      let segment? := onlySegment? path
      if segment? == some "generate-flowchart" then .reports
      else if segment? == some "parse-python" then .listings
      else if segment? == some "health" then .health
      else if segment? == some "metrics" then .metrics
      else .nowhere notFound

/-- What an endpoint makes of a request. -/
def answer (server : Server) (state : State) (health : Health) (incoming : Incoming) :
    Endpoint → State × Response
  | .nowhere response => (state, response)
  | .reports => server.handleReport state incoming
  | .listings => server.handleListing state incoming
  | .health => (state, handleHealth health incoming)
  | .metrics => (state, handleMetrics state)

/-- **A request is answered by its endpoint**, with the access headers in front. -/
theorem handle_eq (server : Server) (state : State) (health : Health) (incoming : Incoming) :
    server.handle state health incoming =
      ((server.answer state health incoming (endpoint incoming)).1,
        (server.answer state health incoming (endpoint incoming)).2.behind
          server.accessHeaders) := by
  have routed : (if incoming.method == "OPTIONS" then (state, ⟨204, [], []⟩)
      else server.route state health incoming) =
      server.answer state health incoming (endpoint incoming) := by
    -- The answer of an endpoint that is chosen by conditions is chosen by the same conditions.
    simp only [endpoint, route, apply_ite (server.answer state health incoming)]
    rfl
  rw [← routed]
  rfl

/-- The access headers do not tell the type of the content. -/
theorem accessHeaders_silent (server : Server) :
    ∀ header ∈ server.accessHeaders, header.1 ≠ "Content-Type" := by
  unfold accessHeaders
  split <;> simp <;> decide

/-! ## Requests for a report -/

/-- The valid request for a report that a request makes, if it makes one. -/
def asked? (server : Server) (incoming : Incoming) : Option Request :=
  match endpoint incoming with
  | .reports =>
    if incoming.method != "POST" then none
    else
      match reportRequest server.maxBody incoming.body with
      | .error _ => none
      | .ok request => if (objection? request).isSome then none else some request
  | _ => none

/-- What a valid request for a report is made of. -/
theorem asked_iff : server.asked? incoming = some request ↔
    endpoint incoming = .reports ∧ (incoming.method != "POST") = false ∧
      reportRequest server.maxBody incoming.body = .ok request ∧ objection? request = none := by
  unfold asked?
  cases endpoint incoming with
  | reports =>
    cases (incoming.method != "POST") with
    | true => simp
    | false =>
      cases reportRequest server.maxBody incoming.body with
      | error rejection => simp
      | ok read =>
        cases refused : objection? read with
        | some rejection =>
          simp only [refused]
          refine ⟨nofun, ?_⟩
          rintro ⟨-, -, same, none⟩
          cases same
          rw [refused] at none
          cases none
        | none =>
          simp only [refused]
          refine ⟨fun same => ?_, fun ⟨_, _, same, _⟩ => by cases same; rfl⟩
          cases same
          exact ⟨trivial, trivial, rfl, refused⟩
  | _ => simp

/-- **A valid request for a report is served.** -/
theorem handle_of_asked (asked : server.asked? incoming = some request) (state : State)
    (health : Health) :
    server.handle state health incoming =
      ((server.serveReport state incoming.context request).1,
        (server.serveReport state incoming.context request).2.behind server.accessHeaders) := by
  obtain ⟨reports, post, read, sound⟩ := asked_iff.1 asked
  have served : server.handleReport state incoming =
      server.serveReport state incoming.context request := by
    simp only [handleReport, post, Bool.false_eq_true, if_false, read, sound]
  rw [handle_eq, reports]
  simp only [answer, served]

/-- The language of a valid request is one of those that are known. -/
theorem exists_language_of_asked (asked : server.asked? incoming = some request) :
    ∃ language : Language, request.language = language.name := by
  obtain ⟨-, -, -, sound⟩ := asked_iff.1 asked
  unfold objection? at sound
  split at sound
  · cases sound
  · cases found : Language.ofName? request.language with
    | none => simp [found] at sound
    | some language =>
      have named : (language.name == request.language) = true :=
        @List.find?_some _ (fun language : Language => language.name == request.language) _ _ found
      exact ⟨language, (eq_of_beq named).symm⟩

/-- The endpoint for listings answers alike in every state. -/
theorem handleListing_response (server : Server) (state other : State) (incoming : Incoming) :
    (server.handleListing state incoming).2 = (server.handleListing other incoming).2 := by
  obtain ⟨response, answered | ⟨code, answered⟩⟩ := handleListing_cases server incoming
  · rw [answered, answered]
    rfl
  · rw [answered, answered]
    rfl

/-- **A request for a report that is not valid is turned down**. Neither the state nor the analyzer
has a part in that. -/
theorem handleReport_of_not_asked (reports : endpoint incoming = .reports)
    (not_asked : server.asked? incoming = none) :
    ∃ language response, ∀ other : Server, other.maxBody = server.maxBody → ∀ state,
      other.handleReport state incoming = finish state reportEndpoint language response := by
  cases post : incoming.method != "POST" with
  | true => exact ⟨[], methodNotAllowed "POST", fun other same state => if_pos post⟩
  | false =>
    cases read : reportRequest server.maxBody incoming.body with
    | error rejection =>
      refine ⟨[], rejection.response, fun other same state => ?_⟩
      simp [handleReport, post, same, read]
    | ok request =>
      cases refused : objection? request with
      | some rejection =>
        refine ⟨request.language, rejection.response, fun other same state => ?_⟩
        simp [handleReport, post, same, read, refused]
      | none => cases not_asked.symm.trans (asked_iff.2 ⟨reports, post, read, refused⟩)

/-- **What is no valid request for a report leaves the cache as it was.** -/
theorem cache_of_not_asked (not_asked : server.asked? incoming = none) (state : State)
    (health : Health) : (server.handle state health incoming).1.cache = state.cache := by
  rw [handle_eq]
  cases goes : endpoint incoming with
  | nowhere response => rfl
  | reports =>
    obtain ⟨language, response, refused⟩ := handleReport_of_not_asked goes not_asked
    simp only [answer, refused server rfl]
    rfl
  | listings => exact cache_handleListing incoming
  | health => rfl
  | metrics => rfl

/-- **What is no valid request for a report is answered alike in every state.** -/
theorem agrees_of_not_asked (not_asked : server.asked? incoming = none) (state other : State)
    (health : Health) :
    (server.handle state health incoming).2.Agrees (server.handle other health incoming).2 := by
  rw [handle_eq, handle_eq]
  refine Response.Agrees.behind ?_ server.accessHeaders_silent
  cases goes : endpoint incoming with
  | nowhere response => exact Response.Agrees.refl response
  | reports =>
    obtain ⟨language, response, refused⟩ := handleReport_of_not_asked goes not_asked
    simp only [answer, refused server rfl]
    exact Response.Agrees.refl response
  | listings =>
    simp only [answer, handleListing_response server state other]
    exact Response.Agrees.refl _
  | health => exact Response.Agrees.refl _
  | metrics =>
    refine ⟨rfl, rfl, fun is_json => ?_⟩
    exact absurd is_json (by simp [answer, handleMetrics, Response.IsJson]; decide)

/-- **A server that asks the engine stays honest** about a source, for as long as no twin of it is
sent. -/
theorem honest_after {language : Language} {code : Text} (engine : server.analyzer = .engine)
    (sendable : ∀ report, Engine.analyze .live language.name code = .ok report →
      report.isSendable = true)
    (honest : state.cache.Honest language code) (run : List (Health × Incoming))
    (no_twin : ∀ sent ∈ run, ∀ request,
      reportRequest server.maxBody sent.2.body = .ok request → ¬ IsTwin request language code) :
    (server.after state run).cache.Honest language code := by
  induction run generalizing state with
  | nil => exact honest
  | cons sent run ih =>
    refine ih ?_ fun other member => no_twin other (List.mem_cons_of_mem _ member)
    show (server.handle state sent.1 sent.2).1.cache.Honest language code
    cases asked : server.asked? sent.2 with
    | none =>
      rw [cache_of_not_asked asked]
      exact honest
    | some request =>
      obtain ⟨-, -, read, -⟩ := asked_iff.1 asked
      rw [handle_of_asked asked]
      exact honest_serveReport engine sendable honest _
        (no_twin sent List.mem_cons_self request read)

end Server

end FlowTrace
