import FlowTrace.Proofs.Engine.Drawing
import FlowTrace.Proofs.Server.Honesty
import FlowTrace.Service.Local
import FlowTrace.Service.Remote

/-! # The remote and the local service

A client that asks a server and the local service both end up at the engine. They hand it different
sources, though: the server takes the blanks off both ends of the code before it is analysed
(`Server.reportRequest`), while the local service analyses the code as it is.

The request is followed on its way through the network and back: the answer is that of the engine
on the code without the blanks (`answer_eq_engine`). So the services agree as far as the engine does
not mind these blanks (`services_agree_iff`); but it counts the lines among them
(`services_disagree`). -/

namespace FlowTrace

open Service (analyzeLocally)

variable {L : Type} [Limits L] {server : Server} {state : Server.State} {health : Health}
  {remote : Remote L} {allowance : Allowance} {language : Language} {code : Text} {advanced : Bool}

/-! ## The way to the server -/

/-- The path that reports are asked for at. -/
def reportPath : Text := "/generate-flowchart"

/-- The **network** between a client and a server: what is posted reaches the server as it was
written, and the response comes back whole. -/
def Server.network (server : Server) (state : Server.State) (health : Health)
    (outgoing : Outgoing) : Reply :=
  let response := (server.handle state health
    { method := "POST", target := outgoing.url.path, body := outgoing.body.render }).2
  .response response.status response.body none

/-- The calls of a client **reach** the server: there is a token for them, and the address of the
client leads to the path for reports. -/
def Remote.Reaches (remote : Remote L) (allowance : Allowance) : Prop :=
  ∃ limiter passed url, Limits.wait remote.limiter allowance = (limiter, .granted passed) ∧
    Url.read (remote.base ++ reportPath) = .ok url ∧ url.path = reportPath

/-- A body that is posted to the path for reports. -/
def posted (body : Text) : Incoming := { method := "POST", target := reportPath, body := body }

/-- The path for reports leads to their endpoint. -/
theorem route_posted (health : Health) (body : Text) :
    server.route state health (posted body) = server.handleReport state (posted body) := by
  have cut : Url.cut reportPath '?' = (reportPath, none) := by decide +kernel
  have written : Url.written .path reportPath = reportPath := by decide +kernel
  have clean : Server.cleanPath reportPath = reportPath := by decide +kernel
  have segment : Server.onlySegment? reportPath = some "generate-flowchart" := by decide +kernel
  simp only [posted, Server.route, cut, written, clean, segment]
  rfl

/-- A report that is posted is handled by its endpoint. -/
theorem handle_posted (server : Server) (state : Server.State) (health : Health) (body : Text) :
    (server.handle state health (posted body)).2.status =
      (server.handleReport state (posted body)).2.status ∧
    (server.handle state health (posted body)).2.body =
      (server.handleReport state (posted body)).2.body := by
  have method : ¬ ((posted body).method == Text.of "OPTIONS") = true := by
    show ¬ (Text.of "POST" == Text.of "OPTIONS") = true
    decide
  simp only [Server.handle, if_neg method, route_posted, and_self]

/-! ## The request -/

/-- A valid source can be asked for. -/
theorem isSendable_request (valid : code.isValid = true) :
    (Request.toJson ⟨code, language.name, advanced⟩).isSendable Json.maxDepth = true := by
  have named : language.name.isValid = true := by cases language <;> decide
  show Json.sendableMembers 9999 [("code", .str code), ("language", .str language.name),
    ("advanced", .bool advanced)] = true
  simp only [Json.sendableMembers, Json.isSendable, valid, named, Bool.and_true]
  decide

/-- A body that is not too large is read to its end. -/
theorem firstValue_render {value : Json} {limit : Nat}
    (sendable : value.isSendable Json.maxDepth = true) (fits : value.render.length ≤ limit) :
    Server.firstValue limit value.render = .ok value := by
  have read : Json.readFirst value.render = .ok (value, []) := by
    have whole : Json.readFirst (value.render ++ []) = .ok (value, []) :=
      Json.readFirst_render sendable rfl
    rwa [List.append_nil] at whole
  rw [Server.firstValue, List.take_of_length_le fits, read]
  simp [Nat.not_lt.2 fits]

/-- What the server makes of a request: the code without blanks around it. -/
theorem reportRequest_render (limit : Nat) (valid : code.isValid = true)
    (fits : (Request.toJson ⟨code, language.name, advanced⟩).render.length ≤ limit) :
    Server.reportRequest limit (Request.toJson ⟨code, language.name, advanced⟩).render =
      .ok ⟨code.trim, language.name, advanced⟩ := by
  have lower : language.name.lower = language.name := by cases language <;> decide
  rw [Server.reportRequest, firstValue_render (isSendable_request valid) fits]
  simp [Request.ofJson_toJson, lower, bind, Except.bind, pure, Except.pure]

/-- What is not dropped stays. -/
theorem exists_mem_dropWhile {α : Type} {p : α → Bool} {items : List α}
    (h : ∃ a ∈ items, p a = false) : ∃ a ∈ items.dropWhile p, p a = false := by
  induction items with
  | nil => exact h
  | cons first items ih =>
    obtain ⟨a, member, kept⟩ := h
    cases dropped : p first with
    | false => exact ⟨first, by simp [dropped], dropped⟩
    | true =>
      rw [List.dropWhile_cons_of_pos dropped]
      rcases List.mem_cons.1 member with rfl | later
      · rw [dropped] at kept
        cases kept
      · exact ih ⟨a, later, kept⟩

/-- A text that is not blank does not become empty when it is trimmed. -/
theorem trim_ne_nil (filled : code.isBlank = false) : code.trim ≠ [] := by
  have visible : ∃ g ∈ code.glyphs, g.isBlank = false := by
    simpa [Text.isBlank, List.all_eq_false] using filled
  -- A visible glyph stops the trimming at either end, so that one is left, and it has bytes.
  obtain ⟨g, left, shown⟩ := exists_mem_dropWhile visible
  obtain ⟨g, both, -⟩ := exists_mem_dropWhile ⟨g, List.mem_reverse.2 left, shown⟩
  have original : g ∈ code.glyphs := by
    have inside := List.mem_reverse.1 ((List.dropWhile_sublist _).subset both)
    exact (List.dropWhile_sublist _).subset inside
  have some_byte : g.bytes ≠ [] := (Text.Glyph.read_of_mem original).bytes_ne_nil
  intro empty
  exact some_byte (List.flatMap_eq_nil_iff.1 empty g (List.mem_reverse.2 both))

/-- There is no objection to code that is not blank. -/
theorem objection_none (filled : code.isBlank = false) :
    Server.objection? ⟨code.trim, language.name, advanced⟩ = none := by
  have some_code : code.trim.isEmpty = false := by simpa using trim_ne_nil filled
  rw [Server.objection?, if_neg (by simp [some_code])]
  simp

/-! ## The answer -/

/-- The endpoint for reports serves the code without blanks around it. -/
theorem handleReport_render (state : Server.State) (filled : code.isBlank = false)
    (valid : code.isValid = true)
    (fits : (Request.toJson ⟨code, language.name, advanced⟩).render.length ≤ server.maxBody) :
    server.handleReport state (posted (Request.toJson ⟨code, language.name, advanced⟩).render) =
      server.serveReport state .live ⟨code.trim, language.name, advanced⟩ := by
  have method : ¬ (Text.of "POST" != Text.of "POST") = true := by decide
  have request := reportRequest_render server.maxBody valid fits
  simp only [Server.handleReport, posted, if_neg method, request, objection_none filled]

/-- What an honest server serves is the report of the engine, or else a response without success. -/
theorem served_cases (advanced : Bool) (engine : server.analyzer = .engine)
    (honest : state.cache.Honest language code) :
    (∃ report, Engine.analyze .live language.name code = .ok report ∧
      (server.serveReport state .live ⟨code, language.name, advanced⟩).2 =
        Server.jsonResponse 200 report.toJson) ∨
    (∃ failure, Engine.analyze .live language.name code = .error failure ∧
      (server.serveReport state .live ⟨code, language.name, advanced⟩).2 =
        Server.failureResponse failure) := by
  rcases Server.serveReport_cases server state .live ⟨code, language.name, advanced⟩ with
    ⟨held, found, -, served⟩ | ⟨answer, -, given, -, served⟩ | ⟨failure, -, given, -, served⟩
  · exact Or.inl ⟨held, honest held found, served⟩
  · rw [engine] at given
    obtain ⟨report, rfl, analysed⟩ := Analyzer.engine_eq_ok.1 given
    exact Or.inl ⟨report, analysed, served⟩
  · rw [engine] at given
    exact Or.inr ⟨failure, Analyzer.engine_eq_error.1 given, served⟩

/-- A failed analysis is no success. -/
theorem status_failureResponse (failure : Failure) :
    Failure.isSuccessStatus (Server.failureResponse failure).status = false := by
  unfold Server.failureResponse
  split
  · show Failure.isSuccessStatus 400 = false
    decide
  · show Failure.isSuccessStatus 500 = false
    decide

/-- What the network answers to a request is what the server serves. -/
theorem network_eq (state : Server.State) (health : Health) (filled : code.isBlank = false)
    (valid : code.isValid = true)
    (fits : (Request.toJson ⟨code, language.name, advanced⟩).render.length ≤ server.maxBody)
    {url : Url} (path : url.path = reportPath) :
    let served := (server.serveReport state .live ⟨code.trim, language.name, advanced⟩).2
    server.network state health ⟨url, Request.toJson ⟨code, language.name, advanced⟩⟩ =
      .response served.status served.body none := by
  intro served
  have seen := handle_posted server state health
    (Request.toJson ⟨code, language.name, advanced⟩).render
  rw [handleReport_render state filled valid fits] at seen
  simp only [Server.network, path]
  exact congrArg₂ (fun (status : Nat) body => Reply.response status body none) seen.1 seen.2

/-- A client reads what comes back through the network. -/
theorem analyze_of_response {network : Outgoing → Reply} {request : Request} {limiter : L}
    {passed : Nat} {url : Url} {status : Int} {body : Text}
    (granted : Limits.wait remote.limiter allowance = (limiter, .granted passed))
    (address : Url.read (remote.base ++ reportPath) = .ok url)
    (replied : network ⟨url.dropEmptyPort, request.toJson⟩ = .response status body none) :
    (remote.analyze network allowance request).answer =
      Remote.receive Report.ofJson? url.dropEmptyPort (allowance.after passed).context
        (.response status body none) := by
  have address : Url.read (remote.base ++ Text.of "/generate-flowchart") = .ok url := address
  simp only [Remote.analyze, Remote.post, Remote.conclude, granted, address, replied]

/-- A report that JSON carries is received as it was served. -/
theorem receive_report {report : Report} (carried : report.carried? = some report) (url : Url)
    (context : Context) :
    Remote.receive Report.ofJson? url context
      (.response (Server.jsonResponse 200 report.toJson).status
        (Server.jsonResponse 200 report.toJson).body none) = .ok report := by
  have success : Failure.isSuccessStatus (Server.jsonResponse 200 report.toJson).status = true := by
    show Failure.isSuccessStatus 200 = true
    decide
  have read : (Json.read? (Server.jsonResponse 200 report.toJson).body).bind Report.ofJson? =
      some report := carried
  simp only [Remote.receive, success, Bool.not_true, Bool.false_eq_true, if_false, read]

/-- A failed analysis is received as a failure. -/
theorem receive_failure (failure : Failure) (url : Url) (context : Context) :
    (Remote.receive Report.ofJson? url context
      (.response (Server.failureResponse failure).status
        (Server.failureResponse failure).body none)).toOption = none := by
  simp only [Remote.receive, status_failureResponse, Bool.not_false, if_true]
  rfl

/-- An exchange that is **faithful**: the source of a client gets to the engine of a server, and its
report gets back. -/
structure Faithful (server : Server) (state : Server.State) (remote : Remote L)
    (allowance : Allowance) (language : Language) (code : Text) (advanced : Bool) : Prop where
  /-- The server asks the engine. -/
  engine : server.analyzer = .engine
  /-- Its cache is honest about what it is asked. -/
  honest : state.cache.Honest language code.trim
  /-- The call reaches the server. -/
  reaches : remote.Reaches allowance
  /-- The source is not blank. -/
  filled : code.isBlank = false
  /-- The source is valid UTF-8. -/
  valid : code.isValid = true
  /-- The request is not too large for the server. -/
  fits : (Request.toJson ⟨code, language.name, advanced⟩).render.length ≤ server.maxBody
  /-- JSON carries the report. -/
  carried : ∀ report, Engine.analyze .live language.name code.trim = .ok report →
    report.carried? = some report

/-- **The answer of the server is that of the engine on the code without blanks around it.** -/
theorem answer_eq_engine
    (exchange : Faithful server state remote allowance language code advanced) (health : Health) :
    (remote.analyze (server.network state health) allowance
      ⟨code, language.name, advanced⟩).answer.toOption =
      (Engine.analyze .live language.name code.trim).toOption := by
  obtain ⟨limiter, passed, url, granted, address, path⟩ := exchange.reaches
  -- An empty port is dropped on the way, which leaves the path as it is.
  have path : url.dropEmptyPort.path = reportPath := path
  have replied := network_eq state health exchange.filled exchange.valid exchange.fits path
  rw [analyze_of_response granted address replied]
  rcases served_cases advanced exchange.engine exchange.honest with
    ⟨report, analysed, served⟩ | ⟨failure, analysed, served⟩
  · rw [analysed, served, receive_report (exchange.carried report analysed)]
  · rw [analysed, served, receive_failure]
    rfl

/-! ## What is shown -/

/-- What an answer **shows**: the flowchart and the steps of the report, if it is one. -/
def shown? (answer : Except Failure Report) : Option (Text × Option (List Step)) :=
  answer.toOption.map fun report => (report.flowchart, report.steps)

/-- A server shows what the engine makes of the code without blanks around it. -/
theorem shown_remote
    (exchange : Faithful server state remote allowance language code advanced) (health : Health) :
    shown? (remote.analyze (server.network state health) allowance
      ⟨code, language.name, advanced⟩).answer =
      shown? (Engine.analyze .live language.name code.trim) := by
  rw [shown?, answer_eq_engine exchange health, shown?]

/-- The local service shows what the engine makes of the code as it is. -/
theorem shown_local (advanced : Bool) (filled : code.isBlank = false) :
    shown? (analyzeLocally .live ⟨code, language.name, advanced⟩) =
      shown? (Engine.analyze .live language.name code) := by
  rw [analyzeLocally, if_neg (by simp [filled])]
  cases Engine.analyze .live language.name code <;> rfl

/-- There is something to show unless the analysis breaks off. -/
theorem isSome_shown (whole : Engine.breakOff? language code = none) :
    (shown? (Engine.analyze .live language.name code)).isSome = true := by
  obtain ⟨report, analysed⟩ := Engine.exists_report whole
  rw [analysed]
  rfl

/-! ## A client and a server on one machine -/

/-- A client of a server on the same machine, without a limit on its calls. -/
def neighbour : Remote := Remote.at_ [] (Limiter.ofRate 0 0)

/-- A service in the neighbourhood reaches its server. -/
theorem neighbour_reaches : neighbour.Reaches {} := by
  have read : (Url.read (neighbour.base ++ reportPath)).toOption.map (·.path) =
      some reportPath := by
    decide +kernel
  cases address : Url.read (neighbour.base ++ reportPath) with
  | error e =>
    rw [address] at read
    cases read
  | ok url =>
    rw [address] at read
    exact ⟨_, _, url, rfl, address, Option.some.inj read⟩

/-- A server without a cache is honest. -/
theorem honest_absent (language : Language) (code : Text) : Cache.absent.Honest language code :=
  nofun

/-- A Python source with one statement. -/
def assignment : Text := "x = 1"

/-- The report on an assignment is carried over the wire. -/
theorem assignment_carried (report : Report)
    (analysed : Engine.analyze .live "python" assignment = .ok report) :
    report.carried? = some report := by
  have sendable : (Engine.analyze .live "python" assignment).toOption.all Report.isSendable =
      true := by
    decide +kernel
  rw [analysed] at sendable
  exact Report.carried_of_isSendable sendable

/-- A neighbour exchanges an assignment with its server, whatever blanks are around it. -/
theorem faithful_of_trim {code : Text} (trimmed : code.trim = assignment)
    (filled : code.isBlank = false) (valid : code.isValid = true)
    (fits : (Request.toJson ⟨code, "python", true⟩).render.length ≤ 1048576) :
    Faithful {} {} neighbour {} .python code true where
  engine := rfl
  honest := honest_absent _ _
  reaches := neighbour_reaches
  filled := filled
  valid := valid
  fits := fits
  carried := by
    rw [trimmed]
    exact assignment_carried

/-! ## Agreement -/

/-- **The remote and the local service show the same** for a source exactly when the engine shows
the same for it with and without the blanks around it; so they do if there are none. Both show
something unless the analysis breaks off. -/
theorem services_agree_iff
    (exchange : Faithful server state remote allowance language code advanced) (health : Health) :
    let remotely := shown? (remote.analyze (server.network state health) allowance
      ⟨code, language.name, advanced⟩).answer
    let locally := shown? (analyzeLocally .live ⟨code, language.name, advanced⟩)
    (remotely = locally ↔ shown? (Engine.analyze .live language.name code.trim) =
      shown? (Engine.analyze .live language.name code)) ∧
    (code.trim = code → remotely = locally) ∧
    (Engine.breakOff? language code.trim = none → remotely.isSome = true) ∧
    (Engine.breakOff? language code = none → locally.isSome = true) := by
  intro remotely locally
  have is_remote : remotely = shown? (Engine.analyze .live language.name code.trim) :=
    shown_remote exchange health
  have is_local : locally = shown? (Engine.analyze .live language.name code) :=
    shown_local advanced exchange.filled
  rw [is_remote, is_local]
  refine ⟨Iff.rfl, ?_, isSome_shown, isSome_shown⟩
  intro same
  rw [same]

/-- The services agree on an assignment. -/
theorem assignment_agrees :
    shown? (neighbour.analyze (Server.network {} {} ⟨[], []⟩) {}
        ⟨assignment, "python", true⟩).answer =
      shown? (analyzeLocally .live ⟨assignment, "python", true⟩) := by
  have trimmed : assignment.trim = assignment := by decide +kernel
  have exchange := faithful_of_trim trimmed (by decide +kernel) (by decide +kernel)
    (by decide +kernel)
  exact (services_agree_iff exchange ⟨[], []⟩).2.1 trimmed

/-- The lines of the steps that an answer shows. -/
def shownLines? (answer : Except Failure Report) : Option (List (Option Int)) :=
  (shown? answer).bind fun shown => shown.2.map fun steps => steps.map (·.line)

/-- **The services disagree** on an assignment in the second line: the server takes the first line
away, so that it shows the step in another line than the local service. -/
theorem services_disagree :
    shown? (neighbour.analyze (Server.network {} {} ⟨[], []⟩) {}
        ⟨"\n" ++ assignment, "python", true⟩).answer ≠
      shown? (analyzeLocally .live ⟨"\n" ++ assignment, "python", true⟩) := by
  have trimmed : Text.trim ("\n" ++ assignment) = assignment := by decide +kernel
  have exchange := faithful_of_trim trimmed (by decide +kernel) (by decide +kernel)
    (by decide +kernel)
  have is_remote := shown_remote exchange ⟨[], []⟩
  rw [trimmed] at is_remote
  have first : shownLines? (Engine.analyze .live "python" assignment) = some [some 1] := by
    decide +kernel
  have second : shownLines? (analyzeLocally .live ⟨"\n" ++ assignment, "python", true⟩) =
      some [some 2] := by
    decide +kernel
  intro same
  have same := is_remote.symm.trans same
  have lines : shownLines? (Engine.analyze .live "python" assignment) =
      shownLines? (analyzeLocally .live ⟨"\n" ++ assignment, "python", true⟩) := by
    exact congrArg (·.bind fun shown => shown.2.map fun steps => steps.map (·.line)) same
  rw [first, second] at lines
  cases lines

end FlowTrace
