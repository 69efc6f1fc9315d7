import FlowTrace.Proofs.Report.RoundTrip
import FlowTrace.Server.Handler

/-! # Honest caches

A server answers from its cache what it was asked before. The cache is **honest** about a source if
it holds no other report on it than the engine gives (`Cache.Honest`). Keys are digests, so a second
source with the key of the first can spoil it; but a server that asks the engine stays honest about
a source when it serves a request that is no such twin of it (`Server.honest_serveReport`). -/

namespace FlowTrace

variable {language : Language} {code : Text}

/-! ## Keeping a report -/

namespace Cache

/-- A cache is **honest** about a source if it holds no other report on it than the engine gives. -/
def Honest (cache : Cache) (language : Language) (code : Text) : Prop :=
  ∀ report, cache.get? (key language.name code) = some report →
    Engine.analyze .live language.name code = .ok report

/-- What is under a key does not depend on what is kept under another. -/
theorem get?_put_of_ne {name other : Text} (apart : other ≠ name) (cache : Cache)
    (report : Option Report) : (cache.put other report).1.get? name = cache.get? name := by
  cases cache with
  | absent => rfl
  | broken => rfl
  | kept entries =>
    have found : (entries.filter (·.1 != other)).find? (·.1 == name) =
        entries.find? (·.1 == name) := by
      rw [List.find?_filter]
      congr 1
      funext entry
      by_cases same : entry.1 = name
      · simp [same, Ne.symm apart]
      · simp [same]
    simp [put, putEntry, get?, apart, found]

/-- A sendable report is kept as it is, if the cache keeps anything. -/
theorem get?_put_self {report : Report} (sendable : report.isSendable = true) (cache : Cache)
    (name : Text) :
    (cache.put name (some report)).1.get? name = none ∨
      (cache.put name (some report)).1.get? name = some report := by
  cases cache with
  | absent => exact Or.inl rfl
  | broken => exact Or.inl rfl
  | kept entries =>
    have read : CacheEntry.report? (.written report.toJson.render) = some report :=
      Report.kept_of_isSendable sendable
    refine Or.inr ?_
    simp [put, putEntry, get?, Json.ofOption, read]

end Cache

/-! ## Serving a request -/

/-- The engine as an analyzer never answers without a report. -/
theorem Analyzer.engine_eq_ok {context : Context} {name : Text} {answer : Option Report} :
    Analyzer.engine.analyze context name code = .ok answer ↔
      ∃ report, answer = some report ∧ Engine.analyze context name code = .ok report := by
  show (Engine.analyze context name code).map some = .ok answer ↔ _
  cases Engine.analyze context name code with
  | error failure => simp [Except.map]
  | ok report => simp [Except.map, eq_comm]

/-- The engine as an analyzer fails when the engine does. -/
theorem Analyzer.engine_eq_error {context : Context} {name : Text} {failure : Failure} :
    Analyzer.engine.analyze context name code = .error failure ↔
      Engine.analyze context name code = .error failure := by
  show (Engine.analyze context name code).map some = .error failure ↔ _
  cases Engine.analyze context name code <;> simp [Except.map]

namespace Server

variable {server : Server} {state : State}

/-- A report that is given in any context is the one of a live context. -/
theorem analyze_live_of_ok {context : Context} {name : Text} {report : Report}
    (analysed : Engine.analyze context name code = .ok report) :
    Engine.analyze .live name code = .ok report := by
  cases context with
  | live => exact analysed
  | _ =>
    unfold Engine.analyze at analysed
    split at analysed <;> cases analysed

/-- Whether a request is a **twin** of a source: another source with the same key. -/
def IsTwin (request : Request) (language : Language) (code : Text) : Prop :=
  Cache.key request.language request.code = Cache.key language.name code ∧
    ¬ (request.language = language.name ∧ request.code = code)

/-- **How a request for a report is served**: with what the cache holds, or else with what the
analyzer gives, which is kept unless it is a failure. -/
theorem serveReport_cases (server : Server) (state : State) (context : Context)
    (request : Request) :
    let name := Cache.key request.language request.code
    let given := server.analyzer.analyze context request.language request.code
    let served := server.serveReport state context request
    (∃ held, state.cache.get? name = some held ∧ served.1.cache = state.cache ∧
      served.2 = reportResponse (some held)) ∨
    (∃ answer, state.cache.get? name = none ∧ given = .ok answer ∧
      served.1.cache = (state.cache.put name answer).1 ∧
      served.2 = reportResponse answer) ∨
    (∃ failure, state.cache.get? name = none ∧ given = .error failure ∧
      served.1.cache = state.cache ∧ served.2 = failureResponse failure) := by
  intro name given served
  cases found : state.cache.get? (Cache.key request.language request.code) with
  | some held =>
    refine Or.inl ⟨held, rfl, ?_⟩
    simp only [served, serveReport, found]
    exact ⟨rfl, rfl⟩
  | none =>
    cases answered : server.analyzer.analyze context request.language request.code with
    | ok answer =>
      refine Or.inr (Or.inl ⟨answer, rfl, answered, ?_⟩)
      simp only [served, serveReport, found, answered]
      exact ⟨rfl, rfl⟩
    | error failure =>
      refine Or.inr (Or.inr ⟨failure, rfl, answered, ?_⟩)
      simp only [served, serveReport, found, answered]
      exact ⟨rfl, rfl⟩

/-- **A served request leaves the cache honest** about a source that it is no twin of. -/
theorem honest_serveReport (engine : server.analyzer = .engine)
    (sendable : ∀ report, Engine.analyze .live language.name code = .ok report →
      report.isSendable = true)
    (honest : state.cache.Honest language code) (context : Context) {request : Request}
    (no_twin : ¬ IsTwin request language code) :
    (server.serveReport state context request).1.cache.Honest language code := by
  rcases serveReport_cases server state context request with
    ⟨-, -, same, -⟩ | ⟨answer, -, given, kept, -⟩ | ⟨-, -, -, same, -⟩
  · rwa [same]
  · rw [engine] at given
    obtain ⟨report, rfl, analysed⟩ := Analyzer.engine_eq_ok.1 given
    rw [kept]
    intro found is_found
    by_cases same_key : Cache.key request.language request.code = Cache.key language.name code
    · -- Under this key the new report was kept, and no twin was asked for: it is on this source.
      obtain ⟨same_language, rfl⟩ := not_not.1 fun apart => no_twin ⟨same_key, apart⟩
      rw [same_language] at analysed is_found
      have live := analyze_live_of_ok analysed
      rcases Cache.get?_put_self (sendable report live) state.cache _ with lost | held
      · rw [lost] at is_found
        cases is_found
      · rw [held] at is_found
        rwa [← Option.some.inj is_found]
    · rw [Cache.get?_put_of_ne same_key] at is_found
      exact honest found is_found
  · rwa [same]

/-! ## Serving many requests -/

/-- **How a request for a listing is answered**: at once, or by the analyzer, which is called for the
listing. The state has no part in the response. -/
theorem handleListing_cases (server : Server) (incoming : Incoming) :
    ∃ response,
      (∀ state, server.handleListing state incoming =
        finish state listingEndpoint Language.python.name response) ∨
      ∃ code, ∀ state, server.handleListing state incoming =
        finish (consult state listingEndpoint Language.python.name (.listing code)) listingEndpoint
          Language.python.name response := by
  cases post : incoming.method != "POST" with
  | true => exact ⟨_, .inl fun state => if_pos post⟩
  | false =>
    cases read : listingCode server.maxBody incoming.body with
    | error rejection =>
      exact ⟨rejection.response, .inl fun state => by simp [handleListing, post, read]⟩
    | ok code =>
      cases empty : code.isEmpty with
      | true =>
        exact ⟨Rejection.noCode.response, .inl fun state => by simp [handleListing, post, read, empty]⟩
      | false => exact ⟨_, .inr ⟨code, fun state => by simp [handleListing, post, read, empty]; rfl⟩⟩

/-- The endpoint for listings leaves the cache alone. -/
theorem cache_handleListing (incoming : Incoming) :
    (server.handleListing state incoming).1.cache = state.cache := by
  obtain ⟨response, answered | ⟨code, answered⟩⟩ := handleListing_cases server incoming
  · rw [answered]
    rfl
  · rw [answered]
    rfl

/-- The state of a server after a run of requests, one after the other. -/
def after (server : Server) (state : State) (run : List (Health × Incoming)) : State :=
  run.foldl (fun state (health, incoming) => (server.handle state health incoming).1) state

end Server

end FlowTrace
