import FlowTrace.Proofs.Engine.Safety
import FlowTrace.Proofs.Json.Normal
import FlowTrace.Proofs.Server.Routing

/-! # What the analyzer is called for

A request makes a server call its analyzer for a report in one case: it is a valid request for a
report, and the cache does not have that report (`Server.consulted?`). The calls that a server has
made are in its state; each request adds the one that it needs, if any (`Server.reportCalls_handle`).
The cache changes by such calls alone: what the analyzer answered is put into it, unless the analysis
failed (`Server.cache_handle_cases`).

With the engine as its analyzer a server has an answer to each of these calls, unless the context of
the request has ended (`Server.engine_answers`). -/

namespace FlowTrace

/-! ## Caches that keep and caches that forget -/

namespace Cache

variable {cache : Cache}

/-- The entries of a cache. -/
def entries : Cache → List (Text × CacheEntry)
  | kept entries => entries
  | _ => []

/-- Whether a cache keeps what is put into it. -/
def keeps : Cache → Bool
  | kept _ => true
  | _ => false

/-- A cache that forgets has nothing. -/
theorem get?_of_forgets (forgets : cache.keeps = false) (name : Text) : cache.get? name = none := by
  cases cache with
  | kept => cases forgets
  | _ => rfl

/-- A cache goes on keeping, or forgetting. -/
theorem keeps_put (cache : Cache) (name : Text) (answer : Option Report) :
    (cache.put name answer).1.keeps = cache.keeps := by
  cases cache <;> rfl

/-- After an answer was put into a cache, an entry is the one of the answer or was there before. -/
theorem mem_entries_put {name : Text} {answer : Option Report} {entry : Text × CacheEntry}
    (member : entry ∈ (cache.put name answer).1.entries) :
    entry = (name, .written (Json.ofOption Report.toJson answer).render) ∨
      entry ∈ cache.entries := by
  cases cache with
  | kept entries =>
    rcases List.mem_cons.1 member with new | old
    · exact Or.inl new
    · exact Or.inr (List.mem_of_mem_filter old)
  | _ => cases member

/-- What is **read back** of an answer that was written into a cache, if anything is. -/
def readBack? (answer : Option Report) : Option Report :=
  CacheEntry.report? (.written (Json.ofOption Report.toJson answer).render)

/-- A cache that keeps what is put into it has what is read back of it. -/
theorem get?_put_of_keeps (keeps : cache.keeps = true) (name : Text) (answer : Option Report) :
    (cache.put name answer).1.get? name = readBack? answer := by
  cases cache with
  | kept entries => simp [put, putEntry, get?, readBack?]
  | _ => cases keeps

end Cache

/-- The **source** that a request asks for: a language and code. -/
def Request.source (request : Request) : Text × Text := (request.language, request.code)

/-- What the key of a request is the digest of: its language and its code. -/
def Request.keyed (request : Request) : Text := request.language ++ 0 :: request.code

/-- The key of a request. -/
def Request.key (request : Request) : Text := Cache.key request.language request.code

namespace Server

variable {server : Server} {state : State} {incoming : Incoming} {request : Request}

/-! ## One request -/

/-- The request for a report on which the analyzer is called, if it is: the cache does not have the
report. -/
def consulted? (server : Server) (state : State) (incoming : Incoming) : Option Request :=
  (server.asked? incoming).filter fun request => (state.cache.get? request.key).isNone

/-- Only a valid request for a report makes the server call its analyzer for one. -/
theorem asked_of_consulted (consulted : server.consulted? state incoming = some request) :
    server.asked? incoming = some request :=
  (Option.filter_eq_some_iff.1 consulted).1

/-- The analyzer is called when the cache does not have the report. -/
theorem consulted_of_missing (asked : server.asked? incoming = some request)
    (missing : state.cache.get? request.key = none) :
    server.consulted? state incoming = some request := by
  simp [consulted?, asked, Option.filter, missing]

/-- The analyzer is not called when the cache has the report. -/
theorem consulted_of_found {held : Report} (asked : server.asked? incoming = some request)
    (found : state.cache.get? request.key = some held) :
    server.consulted? state incoming = none := by
  simp [consulted?, asked, Option.filter, found]

/-- The analyzer is not called for what is no valid request for a report. -/
theorem consulted_of_not_asked (not_asked : server.asked? incoming = none) :
    server.consulted? state incoming = none := by
  simp [consulted?, not_asked]

/-- **What a request does to the cache**: it puts the answer into it that the analyzer gives when it
is called, or it leaves the cache as it was. -/
theorem cache_handle_cases (server : Server) (state : State) (health : Health)
    (incoming : Incoming) :
    let after := (server.handle state health incoming).1.cache
    (after = state.cache ∧
      ∀ request, server.consulted? state incoming = some request →
        (server.analyzer.analyze incoming.context request.language request.code).isOk = false) ∨
    ∃ request answer, server.consulted? state incoming = some request ∧
      server.analyzer.analyze incoming.context request.language request.code = .ok answer ∧
      after = (state.cache.put request.key answer).1 := by
  intro after
  cases asked : server.asked? incoming with
  | none =>
    refine Or.inl ⟨cache_of_not_asked asked state health, fun request consulted => ?_⟩
    cases asked.symm.trans (asked_of_consulted consulted)
  | some request =>
    have stored : after = (server.serveReport state incoming.context request).1.cache := by
      simp only [after, handle_of_asked asked]
    rcases serveReport_cases server state incoming.context request with
      ⟨held, found, same, -⟩ | ⟨answer, missing, given, put, -⟩ | ⟨failure, missing, failed, same, -⟩
    · refine Or.inl ⟨stored.trans same, fun other consulted => ?_⟩
      cases consulted.symm.trans (consulted_of_found asked found)
    · exact Or.inr ⟨request, answer, consulted_of_missing asked missing, given, stored.trans put⟩
    · refine Or.inl ⟨stored.trans same, fun other consulted => ?_⟩
      obtain rfl := Option.some.inj (consulted.symm.trans (consulted_of_missing asked missing))
      rw [failed]
      rfl

/-- A cache goes on keeping, or forgetting, whatever is sent. -/
theorem keeps_handle (state : State) (health : Health) (incoming : Incoming) :
    (server.handle state health incoming).1.cache.keeps = state.cache.keeps := by
  rcases cache_handle_cases server state health incoming with ⟨same, -⟩ | ⟨_, _, -, -, put⟩
  · rw [same]
  · rw [put, Cache.keeps_put]

/-- A request changes nothing under the keys of others. -/
theorem get?_handle_of_ne (asked : server.asked? incoming = some request) {name : Text}
    (apart : request.key ≠ name) (state : State) (health : Health) :
    (server.handle state health incoming).1.cache.get? name = state.cache.get? name := by
  rcases cache_handle_cases server state health incoming with
    ⟨same, -⟩ | ⟨other, _, consulted, -, put⟩
  · rw [same]
  · obtain rfl := Option.some.inj (asked.symm.trans (asked_of_consulted consulted))
    rw [put]
    exact Cache.get?_put_of_ne apart _ _

/-- **A failed analysis leaves the cache as it was.** -/
theorem cache_handle_of_failed {failure : Failure} (asked : server.asked? incoming = some request)
    (failed : server.analyzer.analyze incoming.context request.language request.code =
      .error failure) (state : State) (health : Health) :
    (server.handle state health incoming).1.cache = state.cache := by
  rcases cache_handle_cases server state health incoming with
    ⟨same, -⟩ | ⟨other, answer, consulted, given, -⟩
  · exact same
  · obtain rfl := Option.some.inj (asked.symm.trans (asked_of_consulted consulted))
    cases given.symm.trans failed

/-! ## The calls of a server -/

/-- The source that a call asks for a report on, if it does. -/
def Call.source? : Call → Option (Text × Text)
  | .report language code => some (language, code)
  | .listing _ => none

/-- The sources that the analyzer was called for to report on, in order. -/
def reportCalls (calls : List Call) : List (Text × Text) := calls.filterMap Call.source?

/-- The calls for reports are told in their order. -/
theorem reportCalls_append (calls later : List Call) :
    reportCalls (calls ++ later) = reportCalls calls ++ reportCalls later :=
  List.filterMap_append

/-- Serving a request for a report adds the call on its source, when the cache does not have the
report. -/
theorem calls_serveReport (server : Server) (state : State) (context : Context)
    (request : Request) :
    (server.serveReport state context request).1.calls = state.calls ++
      (if (state.cache.get? request.key).isNone then [.report request.language request.code]
      else []) := by
  cases found : state.cache.get? (Cache.key request.language request.code) with
  | some held => simp [serveReport, finish, found, Request.key]
  | none =>
    cases answered : server.analyzer.analyze context request.language request.code <;>
      simp [serveReport, finish, consult, found, answered, Request.key]

/-- A request for a listing adds no call for a report. -/
theorem reportCalls_handleListing (server : Server) (state : State) (incoming : Incoming) :
    reportCalls (server.handleListing state incoming).1.calls = reportCalls state.calls := by
  obtain ⟨response, answered | ⟨code, answered⟩⟩ := handleListing_cases server incoming
  · rw [answered]
    rfl
  · rw [answered]
    show reportCalls (state.calls ++ [.listing code]) = _
    rw [reportCalls_append]
    exact List.append_nil _

/-- **A request adds one call for a report, or none**: that of the source on which the analyzer is
consulted. -/
theorem reportCalls_handle (server : Server) (state : State) (health : Health)
    (incoming : Incoming) :
    reportCalls (server.handle state health incoming).1.calls =
      reportCalls state.calls ++ ((server.consulted? state incoming).map Request.source).toList := by
  cases asked : server.asked? incoming with
  | some request =>
    rw [handle_of_asked asked]
    dsimp only
    rw [calls_serveReport, reportCalls_append]
    cases found : state.cache.get? request.key with
    | some held => simp [consulted_of_found asked found, reportCalls]
    | none => simp [consulted_of_missing asked found, reportCalls, Call.source?, Request.source]
  | none =>
    rw [handle_eq, consulted_of_not_asked asked]
    refine Eq.trans ?_ (List.append_nil _).symm
    cases goes : endpoint incoming with
    | reports =>
      obtain ⟨language, response, refused⟩ := handleReport_of_not_asked goes asked
      simp only [answer, refused server rfl]
      rfl
    | listings => exact reportCalls_handleListing server state incoming
    | nowhere | health | metrics => rfl

/-- A state without its calls. -/
def State.uncalled (state : State) : State := { state with calls := [] }

/-- Serving a request for a report does not depend on the calls so far. -/
theorem serveReport_uncalled (server : Server) (state : State) (context : Context)
    (request : Request) :
    (server.serveReport state.uncalled context request).1.uncalled =
        (server.serveReport state context request).1.uncalled ∧
      (server.serveReport state.uncalled context request).2 =
        (server.serveReport state context request).2 := by
  cases found : state.cache.get? (Cache.key request.language request.code) with
  | some held => simp [serveReport, State.uncalled, finish, found]
  | none =>
    cases given : server.analyzer.analyze context request.language request.code <;>
      simp [serveReport, State.uncalled, finish, consult, found, given]

/-- **Nothing depends on the calls so far**: they tell of the analyzer, and the server does not read
them. -/
theorem handle_uncalled (server : Server) (state : State) (health : Health) (incoming : Incoming) :
    (server.handle state.uncalled health incoming).1.uncalled =
        (server.handle state health incoming).1.uncalled ∧
      (server.handle state.uncalled health incoming).2 =
        (server.handle state health incoming).2 := by
  cases asked : server.asked? incoming with
  | some request =>
    obtain ⟨states, responses⟩ := serveReport_uncalled server state incoming.context request
    rw [handle_of_asked asked, handle_of_asked asked]
    exact ⟨states, congrArg (Response.behind server.accessHeaders) responses⟩
  | none =>
    rw [handle_eq, handle_eq]
    cases goes : endpoint incoming with
    | reports =>
      obtain ⟨language, response, refused⟩ := handleReport_of_not_asked goes asked
      simp only [answer, refused server rfl]
      exact ⟨rfl, rfl⟩
    | listings =>
      simp only [answer]
      obtain ⟨response, answered | ⟨code, answered⟩⟩ := handleListing_cases server incoming
      · rw [answered, answered]
        exact ⟨rfl, rfl⟩
      · rw [answered, answered]
        exact ⟨rfl, rfl⟩
    | nowhere | health | metrics => exact ⟨rfl, rfl⟩

/-- **The analyzer is asked nothing else**: how a request is handled depends only on what it gives
on the source on which it is consulted. -/
theorem handle_congr {analyze : Context → Text → Text → Except Failure (Option Report)}
    (same : ∀ request, server.consulted? state incoming = some request →
      analyze incoming.context request.language request.code =
        server.analyzer.analyze incoming.context request.language request.code)
    (health : Health) :
    Server.handle ⟨⟨analyze, server.analyzer.parsePython⟩, server.allowedOrigin, server.maxBody⟩
      state health incoming = server.handle state health incoming := by
  let changed : Server :=
    ⟨⟨analyze, server.analyzer.parsePython⟩, server.allowedOrigin, server.maxBody⟩
  show changed.handle state health incoming = _
  cases asked : server.asked? incoming with
  | some request =>
    have asked' : changed.asked? incoming = some request := asked
    -- A report that is found in the cache is given without asking the analyzer.
    have served : changed.serveReport state incoming.context request =
        server.serveReport state incoming.context request := by
      cases found : state.cache.get? (Cache.key request.language request.code) with
      | some held => simp only [serveReport, found]
      | none =>
        have given := same request (consulted_of_missing asked found)
        simp only [serveReport, found, changed, given]
    rw [handle_of_asked asked, handle_of_asked asked', served]
    rfl
  | none =>
    have answered : changed.answer state health incoming (endpoint incoming) =
        server.answer state health incoming (endpoint incoming) := by
      cases goes : endpoint incoming with
      | reports =>
        obtain ⟨language, response, refused⟩ := handleReport_of_not_asked goes asked
        simp only [answer, refused server rfl, refused changed rfl]
      | _ => rfl
    rw [handle_eq, handle_eq, answered]
    rfl

/-! ## The engine as the analyzer

The analysis of code that is not valid UTF-8 may break off, and then there is no response at all. But
the code of a request comes out of a value that was read, so it is valid. -/

/-- The code that a request for a report holds is valid. -/
theorem isValid_of_reportRequest {limit : Nat} {body : Text}
    (read : reportRequest limit body = .ok request) : request.code.isValid = true := by
  obtain ⟨value, first, read⟩ := bind_eq_ok.1 read
  have repaired : value.repaired = value := by
    rw [firstValue] at first
    split at first
    · rename_i found
      split at first
      · cases first
      · cases first
        exact Json.repaired_of_readFirst found
    · cases first
    · cases first
  split at read
  · cases read
  · rename_i described is_request
    cases read
    obtain ⟨members, is_object, described⟩ := Option.bind_eq_some_iff.1 is_request
    obtain ⟨code, held, described⟩ := Option.bind_eq_some_iff.1 described
    obtain ⟨language, -, described⟩ := Option.bind_eq_some_iff.1 described
    obtain ⟨advanced, -, described⟩ := Option.bind_eq_some_iff.1 described
    cases described
    exact Text.isValid_trim (Json.isValid_of_text repaired is_object held)

/-- **No analysis that a request asks for breaks off**: the engine gives a report with a flowchart and
a step, unless the context of the request has ended. -/
theorem engine_answers (asked : server.asked? incoming = some request) :
    (∃ failure, incoming.context.failure? = some failure ∧
      Engine.analyze incoming.context request.language request.code = .error failure) ∨
    (incoming.context.failure? = none ∧ ∃ report,
      Engine.analyze incoming.context request.language request.code = .ok report ∧
        Engine.Answers report) := by
  obtain ⟨-, -, read, -⟩ := asked_iff.1 asked
  obtain ⟨language, is_language⟩ := exists_language_of_asked asked
  cases ended : incoming.context.failure? with
  | some failure =>
    refine .inl ⟨failure, rfl, ?_⟩
    rw [is_language, Engine.analyze, Language.ofName?_name, ended]
  | none =>
    have live : incoming.context = .live := by
      cases context : incoming.context <;> rw [context] at ended <;> first | rfl | cases ended
    have whole : Engine.breakOff? language request.code = none :=
      Engine.breakOff_of_isValid (isValid_of_reportRequest read)
    obtain ⟨report, answer, answers⟩ := Engine.exists_answer (.inr whole)
    refine .inr ⟨rfl, report, ?_, answers⟩
    rw [live, is_language]
    exact answer

end Server

end FlowTrace
