import FlowTrace.Proofs.Engine.Variables
import FlowTrace.Proofs.Server.Calls
import Mathlib.Data.List.Duplicate

/-! # Transparent caches

A cache is **transparent**: nobody who sends requests can tell from the responses whether the server
keeps reports or not. A report that is served from the cache has been written and read back, so it
may be written differently, but it should tell the same. Whether it does is up to the report: an
answer is **durable** (`Server.Durable`) if what is read back of it tells the same, and a cache is
transparent exactly when the answers that it is asked for again are durable
(`Server.cache_transparent_iff`). Lasting reports are (`Server.durable_of_isLasting`), and so are
those of the engine; an answer without a report is not, nor is a report with an integer that is no
binary64 number (`Server.not_transparent`).

The invariant behind it is what a cache remembers (`Server.Remembers`): of each source that was sent
just what is read back of the answer on it. -/

namespace FlowTrace

namespace Cache

/-- Of a lasting report the report is read back that is kept of it. -/
theorem readBack_of_isLasting {report : Report} (lasting : report.isLasting = true) :
    readBack? (some report) = some report.kept :=
  Report.read_written lasting

end Cache

namespace Server

variable {server : Server} {state other : State} {incoming : Incoming} {request : Request}
  {report : Report} {run whole : List (Health × Incoming)} {seen : List (Text × Text)}
  {source : Text × Text} {answer : Option Report}

/-! ## Runs of requests -/

/-- The responses to a run of requests, one after the other. -/
def responses (server : Server) : State → List (Health × Incoming) → List Response
  | _, [] => []
  | state, (health, incoming) :: run =>
    (server.handle state health incoming).2 ::
      responses server (server.handle state health incoming).1 run

/-- Whether a run asks for a report. -/
def Asks (server : Server) (run : List (Health × Incoming)) (request : Request) : Prop :=
  ∃ sent ∈ run, server.asked? sent.2 = some request

/-- The sources that a run asks for, in order. -/
def sources (server : Server) (run : List (Health × Incoming)) : List (Text × Text) :=
  run.filterMap fun sent => (server.asked? sent.2).map Request.source

/-- What the analyzer gives on a source in a live context. -/
def analysis (server : Server) (source : Text × Text) : Except Failure (Option Report) :=
  server.analyzer.analyze .live source.1 source.2

/-- What is assumed of a **fair** run: its contexts are live, and no two different sources that it
asks for have the same digest. -/
structure Fair (server : Server) (run : List (Health × Incoming)) : Prop where
  /-- The contexts are live. -/
  live : ∀ sent ∈ run, sent.2.context = .live
  /-- The digests are different. -/
  apart : ∀ request other, server.Asks run request → server.Asks run other →
    Sha256.hex request.keyed = Sha256.hex other.keyed → request.keyed = other.keyed

/-- What stands before the first zero byte, and what stands behind it. -/
theorem eq_of_append_zero : ∀ {l l' c c' : Text}, (0 : UInt8) ∉ l → (0 : UInt8) ∉ l' →
    l ++ 0 :: c = l' ++ 0 :: c' → l = l' ∧ c = c'
  | [], [], _, _, _, _, same => ⟨rfl, (List.cons.inj same).2⟩
  | [], _ :: _, _, _, _, no_zero, same =>
    absurd ((List.cons.inj same).1 ▸ List.mem_cons_self) no_zero
  | _ :: _, [], _, _, no_zero, _, same =>
    absurd ((List.cons.inj same).1 ▸ List.mem_cons_self) no_zero
  | b :: l, b' :: l', _, _, no_zero, no_zero', same => by
    obtain ⟨first, rest⟩ := List.cons.inj same
    obtain ⟨rfl, rfl⟩ := eq_of_append_zero (fun member => no_zero (List.mem_cons_of_mem _ member))
      (fun member => no_zero' (List.mem_cons_of_mem _ member)) rest
    exact ⟨by rw [first], rfl⟩

/-- The names of languages hold no zero byte. -/
theorem zero_not_mem_name (language : Language) : (0 : UInt8) ∉ language.name := by
  cases language <;> decide

/-- **In a fair run, requests with the same key ask for the same source.** -/
theorem Fair.same_source (fair : server.Fair run) {twin : Request} (asks : server.Asks run request)
    (asks' : server.Asks run twin) (same : request.key = twin.key) :
    request.source = twin.source := by
  have digests : Sha256.hex request.keyed = Sha256.hex twin.keyed := List.append_cancel_left same
  have keyed := fair.apart request twin asks asks' digests
  obtain ⟨_, -, asked⟩ := asks
  obtain ⟨_, -, asked'⟩ := asks'
  obtain ⟨language, is_language⟩ := exists_language_of_asked asked
  obtain ⟨language', is_language'⟩ := exists_language_of_asked asked'
  have no_zero : (0 : UInt8) ∉ request.language := is_language ▸ zero_not_mem_name language
  have no_zero' : (0 : UInt8) ∉ twin.language := is_language' ▸ zero_not_mem_name language'
  obtain ⟨languages, codes⟩ := eq_of_append_zero no_zero no_zero' keyed
  exact Prod.ext languages codes

/-! ## Earned entries -/

/-- An entry is **earned** in a run if it is the answer that the analyzer gives on a source that the
run asks for, under the key of the source. -/
def Earned (server : Server) (run : List (Health × Incoming)) (entry : Text × CacheEntry) : Prop :=
  ∃ request answer, server.Asks run request ∧ server.analysis request.source = .ok answer ∧
    entry = (request.key, .written (Json.ofOption Report.toJson answer).render)

/-- What is earned in a part of a run is earned in the run. -/
theorem Earned.mono {part : List (Health × Incoming)} (sub : ∀ sent ∈ part, sent ∈ run)
    {entry : Text × CacheEntry} : server.Earned part entry → server.Earned run entry := by
  rintro ⟨request, answer, ⟨sent, member, asked⟩, given, same⟩
  exact ⟨request, answer, ⟨sent, sub sent member, asked⟩, given, same⟩

/-- **A request adds no entry that is not earned.** -/
theorem entries_handle {health : Health} (live : incoming.context = .live)
    {entry : Text × CacheEntry}
    (member : entry ∈ (server.handle state health incoming).1.cache.entries) :
    entry ∈ state.cache.entries ∨ server.Earned [(health, incoming)] entry := by
  rcases cache_handle_cases server state health incoming with
    ⟨same, -⟩ | ⟨request, answer, consulted, given, put⟩
  · rw [same] at member
    exact Or.inl member
  · rw [put] at member
    rcases Cache.mem_entries_put member with new | old
    · rw [live] at given
      have asks := asked_of_consulted consulted
      exact Or.inr ⟨request, answer, ⟨_, List.mem_singleton_self _, asks⟩, given, new⟩
    · exact Or.inl old

/-- **After a run, every entry that was not there before is earned.** -/
theorem entries_after (live : ∀ sent ∈ run, sent.2.context = .live) {entry : Text × CacheEntry}
    (member : entry ∈ (server.after state run).cache.entries) :
    entry ∈ state.cache.entries ∨ server.Earned run entry := by
  induction run generalizing state with
  | nil => exact Or.inl member
  | cons sent run ih =>
    rcases ih (fun other inside => live other (List.mem_cons_of_mem _ inside)) member with old | new
    · refine (entries_handle (live sent List.mem_cons_self) old).imp_right ?_
      exact Earned.mono fun other inside => List.mem_singleton.1 inside ▸ List.mem_cons_self
    · exact Or.inr (new.mono fun other inside => List.mem_cons_of_mem _ inside)

/-! ## What a cache remembers -/

/-- What a cache that keeps everything has on a source that was sent: what is read back of the answer
on it, unless the analysis failed. -/
def remembered (server : Server) (source : Text × Text) : Option Report :=
  (server.analysis source).toOption.bind Cache.readBack?

/-- What is remembered is read back of an answer. -/
theorem remembered_eq_some {held : Report} :
    server.remembered source = some held ↔
      ∃ answer, server.analysis source = .ok answer ∧ Cache.readBack? answer = some held := by
  rw [remembered]
  cases server.analysis source with
  | error failure => simp [Except.toOption]
  | ok answer => simp [Except.toOption]

/-- After an answer on it, a source is remembered by what is read back of the answer. -/
theorem remembered_of_ok (given : server.analysis source = .ok answer) :
    server.remembered source = Cache.readBack? answer := by
  rw [remembered, given]
  rfl

/-- A cache **remembers** what was `seen` of a run: of the sources in it what is remembered of them,
and nothing of the others. -/
structure Remembers (server : Server) (whole : List (Health × Incoming))
    (seen : List (Text × Text)) (cache : Cache) : Prop where
  /-- It keeps what is put into it. -/
  keeps : cache.keeps = true
  /-- It has what is remembered of the sources that were seen. -/
  found : ∀ request, server.Asks whole request →
    cache.get? request.key = if request.source ∈ seen then server.remembered request.source else none

/-- An empty cache remembers a run of which nothing was seen. -/
theorem remembers_nil (server : Server) (whole : List (Health × Incoming)) :
    server.Remembers whole [] (.kept []) :=
  ⟨rfl, fun _ _ => rfl⟩

/-- A cache that remembers a run **has** what is remembered of the sources that were seen. -/
theorem Remembers.get?_eq_some (remembers : server.Remembers whole seen state.cache)
    (asks : server.Asks whole request) {held : Report} :
    state.cache.get? request.key = some held ↔
      request.source ∈ seen ∧ server.remembered request.source = some held := by
  rw [remembers.found request asks]
  by_cases old : request.source ∈ seen
  · simp [old]
  · simp [old]

/-- **A request adds its source to what a cache remembers.** -/
theorem Remembers.handle (fair : server.Fair whole) {sent : Health × Incoming}
    (member : sent ∈ whole) (remembers : server.Remembers whole seen state.cache)
    (asked : server.asked? sent.2 = some request) :
    server.Remembers whole (seen ++ [request.source])
      (server.handle state sent.1 sent.2).1.cache where
  keeps := (keeps_handle state sent.1 sent.2).trans remembers.keeps
  found twin asks := by
    by_cases same : twin.source = request.source
    · rw [same, if_pos (List.mem_append_right _ (List.mem_singleton_self _))]
      obtain ⟨languages, codes⟩ := Prod.mk.inj same
      have key : twin.key = request.key := congrArg₂ Cache.key languages codes
      have before := remembers.found request ⟨sent, member, asked⟩
      rw [key]
      rcases cache_handle_cases server state sent.1 sent.2 with
        ⟨unchanged, failed⟩ | ⟨other, answer, consulted, given, put⟩
      · rw [unchanged, before]
        split
        · rfl
        · -- The source is new, so the analyzer was called for it, and its analysis failed.
          rename_i unseen
          rw [if_neg unseen] at before
          have failed := failed request (consulted_of_missing asked before)
          rw [fair.live sent member] at failed
          cases given : server.analysis request.source with
          | error failure => rw [remembered, given]; rfl
          | ok answer =>
            rw [show server.analyzer.analyze .live request.language request.code = .ok answer
              from given] at failed
            cases failed
      · obtain rfl := Option.some.inj (asked.symm.trans (asked_of_consulted consulted))
        rw [fair.live sent member] at given
        have given : server.analysis request.source = .ok answer := given
        rw [put, Cache.get?_put_of_keeps remembers.keeps, remembered_of_ok given]
    · have apart : request.key ≠ twin.key := fun keys =>
        same (fair.same_source asks ⟨sent, member, asked⟩ keys.symm)
      rw [get?_handle_of_ne asked apart, remembers.found twin asks]
      simp [same]

/-- What asks for no report adds nothing to what a cache remembers. -/
theorem Remembers.handle_of_not_asked (remembers : server.Remembers whole seen state.cache)
    (not_asked : server.asked? incoming = none) (health : Health) :
    server.Remembers whole seen (server.handle state health incoming).1.cache := by
  rwa [cache_of_not_asked not_asked]

/-! ## Durable answers -/

/-- An answer of the analyzer is **durable** if what is read back of it tells the same. -/
def Durable (answer : Option Report) : Prop :=
  ∀ held, Cache.readBack? answer = some held →
    (reportResponse (some held)).Agrees (reportResponse answer)

/-- **A lasting report is durable.** -/
theorem durable_of_isLasting (lasting : report.isLasting = true) : Durable (some report) := by
  intro held recalled
  obtain rfl := Option.some.inj ((Cache.readBack_of_isLasting lasting).symm.trans recalled)
  obtain ⟨value, sent, kept⟩ := Report.normal_kept lasting
  exact ⟨rfl, rfl, fun _ => Or.inr ⟨value, kept, sent⟩⟩

/-- What the engine answers is durable and can be read back if its line numbers are words. -/
theorem durable_of_engine (engine : server.analyzer = .engine)
    (given : server.analysis source = .ok answer)
    (words : ∀ report, answer = some report → report.wordLines = true) :
    Durable answer ∧ (Cache.readBack? answer).isSome = true := by
  rw [analysis, engine] at given
  obtain ⟨report, rfl, analysed⟩ := Analyzer.engine_eq_ok.1 given
  have lasting := Engine.isLasting_of_wordLines analysed (words report rfl)
  exact ⟨durable_of_isLasting lasting, by rw [Cache.readBack_of_isLasting lasting]; rfl⟩

/-- The response to a request for a report that does not come from the cache. -/
def fresh (server : Server) (context : Context) (request : Request) : Response :=
  match server.analyzer.analyze context request.language request.code with
  | .ok answer => reportResponse answer
  | .error failure => failureResponse failure

/-- A report that the cache does not have is served fresh. -/
theorem serveReport_of_missing {context : Context} (missing : state.cache.get? request.key = none) :
    (server.serveReport state context request).2 = server.fresh context request := by
  rcases serveReport_cases server state context request with
    ⟨held, found, -, -⟩ | ⟨answer, -, given, -, served⟩ | ⟨failure, -, given, -, served⟩
  · have none : some held = none := found.symm.trans missing
    cases none
  · rw [served, fresh, given]
  · rw [served, fresh, given]

/-- A report that the cache has is served from there. -/
theorem serveReport_of_found {context : Context} {held : Report}
    (found : state.cache.get? request.key = some held) :
    (server.serveReport state context request).2 = reportResponse (some held) := by
  rcases serveReport_cases server state context request with
    ⟨held', found', -, served⟩ | ⟨-, missing, -⟩ | ⟨-, missing, -⟩
  · rw [served, Option.some.inj (found'.symm.trans found)]
  · cases missing.symm.trans found
  · cases missing.symm.trans found

/-- **A request for a report is answered as without a cache** exactly when its source was not seen
before, or the answer on it is durable. -/
theorem agrees_handle_iff (fair : server.Fair whole) {sent : Health × Incoming}
    (member : sent ∈ whole) (remembers : server.Remembers whole seen state.cache)
    (forgets : other.cache.keeps = false) (asked : server.asked? sent.2 = some request) :
    (server.handle state sent.1 sent.2).2.Agrees (server.handle other sent.1 sent.2).2 ↔
      (request.source ∈ seen → ∀ answer, server.analysis request.source = .ok answer →
        Durable answer) := by
  have missing : other.cache.get? request.key = none := Cache.get?_of_forgets forgets _
  have asks : server.Asks whole request := ⟨sent, member, asked⟩
  rw [handle_of_asked asked, handle_of_asked asked, fair.live sent member,
    serveReport_of_missing missing, Response.agrees_behind server.accessHeaders_silent]
  cases held : state.cache.get? request.key with
  | none =>
    rw [serveReport_of_missing held]
    refine iff_of_true (Response.Agrees.refl _) fun again answer given held' recalled => ?_
    cases held.symm.trans
      ((remembers.get?_eq_some asks).2 ⟨again, (remembered_of_ok given).trans recalled⟩)
  | some held' =>
    rw [serveReport_of_found held]
    obtain ⟨again, known⟩ := (remembers.get?_eq_some asks).1 held
    obtain ⟨answer, given, recalled⟩ := remembered_eq_some.1 known
    have served : server.fresh .live request = reportResponse answer := by
      rw [fresh, show server.analyzer.analyze .live request.language request.code = .ok answer
        from given]
    rw [served]
    refine ⟨fun agrees _ answer' given' held'' recalled' => ?_, fun durable => ?_⟩
    · obtain rfl := Except.ok.inj (given.symm.trans given')
      obtain rfl := Option.some.inj (recalled.symm.trans recalled')
      exact agrees
    · exact durable again answer given held' recalled

/-- A source is asked for **again** in a run if it was seen before, or if the run asks for it
twice. -/
def Again (server : Server) (seen : List (Text × Text)) (run : List (Health × Incoming))
    (source : Text × Text) : Prop :=
  source ∈ seen ∧ source ∈ server.sources run ∨ (server.sources run).Duplicate source

/-- At first nothing is asked again. -/
theorem again_nil (source : Text × Text) : ¬ server.Again seen [] source := by
  rintro (⟨-, member⟩ | twice)
  · exact List.not_mem_nil member
  · exact List.not_duplicate_nil _ twice

/-- A request for a report adds its source. -/
theorem sources_cons_of_asked {sent : Health × Incoming}
    (asked : server.asked? sent.2 = some request) :
    server.sources (sent :: run) = request.source :: server.sources run := by
  simp only [sources, List.filterMap_cons, asked, Option.map_some]

/-- The source of a request is asked for again if it was seen before; afterwards it was. -/
theorem again_cons_of_asked {sent : Health × Incoming}
    (asked : server.asked? sent.2 = some request) :
    server.Again seen (sent :: run) source ↔
      source = request.source ∧ request.source ∈ seen ∨
        server.Again (seen ++ [request.source]) run source := by
  rw [Again, Again, sources_cons_of_asked asked, List.duplicate_cons_iff, List.mem_cons, List.mem_append,
    List.mem_singleton]
  constructor
  · rintro (⟨old, rfl | member⟩ | ⟨same, member⟩ | twice)
    · exact Or.inl ⟨rfl, old⟩
    · exact Or.inr (Or.inl ⟨Or.inl old, member⟩)
    · exact Or.inr (Or.inl ⟨Or.inr same.symm, member⟩)
    · exact Or.inr (Or.inr twice)
  · rintro (⟨rfl, old⟩ | ⟨old | rfl, member⟩ | twice)
    · exact Or.inl ⟨old, Or.inl rfl⟩
    · exact Or.inl ⟨old, Or.inr member⟩
    · exact Or.inr (Or.inl ⟨rfl, member⟩)
    · exact Or.inr (Or.inr twice)

/-- A request that asks for no report adds no source. -/
theorem sources_cons_of_not_asked {sent : Health × Incoming}
    (not_asked : server.asked? sent.2 = none) :
    server.sources (sent :: run) = server.sources run := by
  simp only [sources, List.filterMap_cons, not_asked, Option.map_none]

/-- **A run is answered as without a cache** exactly when the answers on the sources that it asks
for again are durable. -/
theorem agrees_responses_iff (fair : server.Fair whole) (part : ∀ sent ∈ run, sent ∈ whole)
    (remembers : server.Remembers whole seen state.cache) (forgets : other.cache.keeps = false) :
    List.Forall₂ Response.Agrees (server.responses state run) (server.responses other run) ↔
      ∀ source, server.Again seen run source → ∀ answer, server.analysis source = .ok answer →
        Durable answer := by
  induction run generalizing state other seen with
  | nil => exact iff_of_true .nil fun source again => absurd again (again_nil source)
  | cons sent run ih =>
    have member : sent ∈ whole := part sent List.mem_cons_self
    have later := fun other inside => part other (List.mem_cons_of_mem _ inside)
    have forgets' : (server.handle other sent.1 sent.2).1.cache.keeps = false := by
      rwa [keeps_handle]
    rw [responses, responses, List.forall₂_cons]
    cases asked : server.asked? sent.2 with
    | none =>
      rw [ih later (remembers.handle_of_not_asked asked sent.1) forgets']
      have same : ∀ source, server.Again seen (sent :: run) source ↔
          server.Again seen run source := fun source => by
        rw [Again, Again, sources_cons_of_not_asked asked]
      simp only [same]
      exact and_iff_right (agrees_of_not_asked asked state other sent.1)
    | some request =>
      rw [agrees_handle_iff fair member remembers forgets asked,
        ih later (remembers.handle fair member asked) forgets']
      simp only [again_cons_of_asked asked]
      constructor
      · rintro ⟨first, rest⟩ source (⟨rfl, old⟩ | again)
        · exact first old
        · exact rest source again
      · exact fun all => ⟨fun old => all _ (Or.inl ⟨rfl, old⟩),
          fun source again => all source (Or.inr again)⟩

/-! ## Successful calls -/

/-- The successful calls for a report, by their sources. -/
def successes (server : Server) (calls : List Call) : List (Text × Text) :=
  (reportCalls calls).filter fun source => (server.analysis source).isOk

/-- How often the analyzer is called with success for a source in a run of which some sources were
seen before: every time if nothing of the answer is read back, else at most once. -/
def successCount (server : Server) (seen asked : List (Text × Text)) (source : Text × Text) : Nat :=
  match server.analysis source with
  | .error _ => 0
  | .ok answer =>
    if (Cache.readBack? answer).isSome then
      if source ∈ seen then 0 else if source ∈ asked then 1 else 0
    else asked.count source

/-- The first request of a run takes its share of the successful calls. -/
theorem successCount_cons (server : Server) (seen asked : List (Text × Text))
    (first source : Text × Text) :
    server.successCount seen (first :: asked) source =
      server.successCount (seen ++ [first]) asked source +
        if source = first ∧ (server.analysis first).isOk = true ∧
          ¬ (first ∈ seen ∧ (server.remembered first).isSome = true) then 1 else 0 := by
  by_cases same : source = first
  · subst same
    unfold successCount
    cases given : server.analysis source with
    | error failure => simp [Except.isOk, Except.toBool]
    | ok answer =>
      rw [remembered_of_ok given]
      by_cases recalled : (Cache.readBack? answer).isSome = true
      · by_cases old : source ∈ seen <;> simp [recalled, old, Except.isOk, Except.toBool]
      · simp [recalled, Except.isOk, Except.toBool]
  · have others : first ≠ source := Ne.symm same
    simp [successCount, same, List.count_cons_of_ne others]

/-- **The new successful call**: a request adds the one on its source, unless the cache has it. -/
theorem count_new_success (remembers : server.Remembers whole seen state.cache)
    (asks : server.Asks whole request) (asked : server.asked? incoming = some request)
    (source : Text × Text) :
    (((server.consulted? state incoming).map Request.source).toList.filter fun source =>
      (server.analysis source).isOk).count source =
      if source = request.source ∧ (server.analysis request.source).isOk = true ∧
        ¬ (request.source ∈ seen ∧ (server.remembered request.source).isSome = true)
      then 1 else 0 := by
  cases held : state.cache.get? request.key with
  | some held' =>
    obtain ⟨old, known⟩ := (remembers.get?_eq_some asks).1 held
    rw [consulted_of_found asked held]
    simp [old, known]
  | none =>
    have lost : ¬ (request.source ∈ seen ∧ (server.remembered request.source).isSome = true) := by
      rintro ⟨old, known⟩
      obtain ⟨held', known⟩ := Option.isSome_iff_exists.1 known
      cases held.symm.trans ((remembers.get?_eq_some asks).2 ⟨old, known⟩)
    rw [consulted_of_missing asked held]
    by_cases ok : (server.analysis request.source).isOk = true
    · by_cases same : source = request.source
      · simp [ok, same, lost]
      · simp [ok, same, Ne.symm same]
    · simp [ok]

/-- **How often the analyzer is called with success** for a source in a run. -/
theorem count_successes (fair : server.Fair whole) (part : ∀ sent ∈ run, sent ∈ whole)
    (remembers : server.Remembers whole seen state.cache) (source : Text × Text) :
    (server.successes (server.after state run).calls).count source =
      (server.successes state.calls).count source +
        server.successCount seen (server.sources run) source := by
  induction run generalizing state seen with
  | nil =>
    have none : server.successCount seen [] source = 0 := by
      unfold successCount
      split
      · rfl
      · simp
    show _ = _ + server.successCount seen [] source
    rw [none]
    rfl
  | cons sent run ih =>
    have member : sent ∈ whole := part sent List.mem_cons_self
    have later := fun other inside => part other (List.mem_cons_of_mem _ inside)
    have calls := reportCalls_handle server state sent.1 sent.2
    show (server.successes (server.after (server.handle state sent.1 sent.2).1 run).calls).count
      source = _
    cases asked : server.asked? sent.2 with
    | none =>
      rw [ih later (remembers.handle_of_not_asked asked sent.1), sources_cons_of_not_asked asked]
      rw [consulted_of_not_asked asked, Option.map_none, Option.toList_none, List.append_nil] at calls
      rw [successes, calls]
      rfl
    | some request =>
      rw [ih later (remembers.handle fair member asked), sources_cons_of_asked asked,
        successCount_cons, successes, calls, List.filter_append, List.count_append,
        count_new_success remembers ⟨sent, member, asked⟩ asked source, successes]
      omega

/-- What stands in a list twice is counted there at least twice. -/
theorem duplicate_iff_two_le {α : Type} [BEq α] [LawfulBEq α] {items : List α} {item : α} :
    items.Duplicate item ↔ 2 ≤ items.count item := by
  rw [List.duplicate_iff_sublist, show [item, item] = List.replicate 2 item from rfl,
    List.replicate_sublist_iff]

/-- **The analyzer is called with success for no source twice**, exactly when something is read back
of each answer that is asked for again. -/
theorem nodup_successes_iff (fair : server.Fair run) (tally : Tally) :
    (server.successes (server.after ⟨.kept [], tally, []⟩ run).calls).Nodup ↔
      ∀ source, (server.sources run).Duplicate source → ∀ answer,
        server.analysis source = .ok answer → (Cache.readBack? answer).isSome = true := by
  have counts : ∀ source,
      (server.successes (server.after ⟨.kept [], tally, []⟩ run).calls).count source =
        server.successCount [] (server.sources run) source := fun source =>
    (count_successes fair (fun _ => id) (remembers_nil server run) source).trans (Nat.zero_add _)
  rw [List.nodup_iff_count_le_one]
  refine forall_congr' fun source => ?_
  rw [counts, duplicate_iff_two_le, successCount]
  cases server.analysis source with
  | error failure => simp
  | ok answer =>
    by_cases recalled : (Cache.readBack? answer).isSome = true
    · simp only [recalled, if_true, List.not_mem_nil, if_false]
      refine iff_of_true ?_ fun _ answer' same => ?_
      · split <;> omega
      · obtain rfl := Except.ok.inj same
        exact recalled
    · simp only [recalled, Bool.false_eq_true, if_false]
      refine ⟨fun once twice => absurd twice (by omega), fun kept => ?_⟩
      by_contra twice
      exact recalled (kept (by omega) answer rfl)

/-! ## Transparency -/

/-- A run is answered **alike** with an empty cache that keeps reports and with another cache. -/
def Alike (server : Server) (tally : Tally) (cache : Cache) (run : List (Health × Incoming)) :
    Prop :=
  List.Forall₂ Response.Agrees (server.responses ⟨.kept [], tally, []⟩ run)
    (server.responses ⟨cache, tally, []⟩ run)

/-- **When the cache is transparent.** A fair run is answered alike with a cache that keeps reports
and without one, or with one that cannot keep anything, exactly when the answers on the sources that
it asks for twice are durable. A failed analysis leaves the cache as it was, and whatever is in the
cache after the run is the answer of a successful one. The analyzer is called with success for no
source twice, exactly when something is read back of the answers on the sources that are asked
for twice. Lasting reports are durable and can be read back. -/
theorem cache_transparent_iff {server : Server} {run : List (Health × Incoming)}
    (fair : server.Fair run) (tally : Tally) :
    (∀ cache : Cache, cache.keeps = false →
      (server.Alike tally cache run ↔
        ∀ source, (server.sources run).Duplicate source → ∀ answer,
          server.analysis source = .ok answer → Durable answer)) ∧
    (∀ state health incoming request failure, server.asked? incoming = some request →
      server.analyzer.analyze incoming.context request.language request.code = .error failure →
      (server.handle state health incoming).1.cache = state.cache) ∧
    (∀ entry ∈ (server.after ⟨.kept [], tally, []⟩ run).cache.entries, server.Earned run entry) ∧
    ((server.successes (server.after ⟨.kept [], tally, []⟩ run).calls).Nodup ↔
      ∀ source, (server.sources run).Duplicate source → ∀ answer,
        server.analysis source = .ok answer → (Cache.readBack? answer).isSome = true) ∧
    ∀ report : Report, report.isLasting = true →
      Durable (some report) ∧ (Cache.readBack? (some report)).isSome = true := by
  refine ⟨fun cache forgets => ?_, ?_, ?_, nodup_successes_iff fair tally, ?_⟩
  · rw [Alike, agrees_responses_iff fair (fun _ => id) (remembers_nil server run) forgets]
    -- Nothing was seen before the run.
    simp only [Again, List.not_mem_nil, false_and, false_or]
  · intro state health incoming request failure asked failed
    exact cache_handle_of_failed asked failed state health
  · intro entry member
    exact (entries_after fair.live member).resolve_left List.not_mem_nil
  · intro report lasting
    exact ⟨durable_of_isLasting lasting, by rw [Cache.readBack_of_isLasting lasting]; rfl⟩

/-! ### Fair runs -/

/-- A body that is posted to the endpoint for reports. -/
def sent (body : Text) : Health × Incoming :=
  (⟨[], []⟩, { method := "POST", target := "/generate-flowchart", body })

/-- An assignment, sent as Python twice, in two ways, and then as C++. -/
def assignmentRun : List (Health × Incoming) :=
  [sent "\x7b\"code\":\"x = 1\",\"language\":\"Python\"\x7d",
    sent "\x7b\"code\":\" x = 1\\n\",\"language\":\"python\"\x7d",
    sent "\x7b\"code\":\"x = 1\",\"language\":\"cpp\"\x7d"]

/-- What an assignment is asked for in does not depend on the analyzer. -/
theorem asked_assignmentRun (analyzer : Analyzer) :
    ∀ sent ∈ assignmentRun,
      Server.asked? { analyzer } sent.2 = some ⟨"x = 1", "python", false⟩ ∨
        Server.asked? { analyzer } sent.2 = some ⟨"x = 1", "cpp", false⟩ := by
  have all : ∀ sent ∈ assignmentRun,
      Server.asked? {} sent.2 = some ⟨"x = 1", "python", false⟩ ∨
        Server.asked? {} sent.2 = some ⟨"x = 1", "cpp", false⟩ := by
    simp only [assignmentRun, List.forall_mem_cons]
    refine ⟨?_, ?_, ?_, List.forall_mem_nil _⟩ <;> decide +kernel
  exact all

/-- The sources of the run. -/
theorem sources_assignmentRun (analyzer : Analyzer) :
    Server.sources { analyzer } assignmentRun =
      [(Text.of "python", Text.of "x = 1"), (Text.of "python", Text.of "x = 1"),
        (Text.of "cpp", Text.of "x = 1")] := by
  have sources : Server.sources {} assignmentRun =
      [(Text.of "python", Text.of "x = 1"), (Text.of "python", Text.of "x = 1"),
        (Text.of "cpp", Text.of "x = 1")] := by
    decide +kernel
  exact sources

/-- The assignment is fairly asked for, whatever the analyzer answers. -/
theorem fair_assignmentRun (analyzer : Analyzer) : Fair { analyzer } assignmentRun where
  live := by
    simp only [assignmentRun, List.forall_mem_cons]
    exact ⟨rfl, rfl, rfl, List.forall_mem_nil _⟩
  apart := by
    have different : Sha256.hex (Request.keyed ⟨"x = 1", "python", false⟩) ≠
        Sha256.hex (Request.keyed ⟨"x = 1", "cpp", false⟩) := by
      decide +kernel
    rintro request other ⟨sent, member, asked⟩ ⟨sent', member', asked'⟩ same
    rcases asked_assignmentRun analyzer sent member with first | first <;>
      rcases asked_assignmentRun analyzer sent' member' with second | second <;>
      obtain rfl := Option.some.inj (asked.symm.trans first) <;>
      obtain rfl := Option.some.inj (asked'.symm.trans second)
    · rfl
    · exact absurd same different
    · exact absurd same.symm different
    · rfl

/-- The engine answers an assignment in either language with line numbers that are words. -/
theorem answered_assignmentRun :
    ∀ name ∈ [Text.of "python", Text.of "cpp"], ∃ report,
      analysis {} (name, Text.of "x = 1") = .ok (some report) ∧ report.wordLines = true := by
  have words : ∀ name ∈ [Text.of "python", Text.of "cpp"],
      (analysis {} (name, Text.of "x = 1")).toOption.any (fun answer =>
        answer.any Report.wordLines) = true := by
    decide +kernel
  intro name among
  obtain ⟨answer, given, in_words⟩ := (Option.any_eq_true ..).1 (words name among)
  obtain ⟨report, rfl, in_words⟩ := (Option.any_eq_true ..).1 in_words
  refine ⟨report, ?_, in_words⟩
  cases gave : analysis {} (name, Text.of "x = 1") with
  | error failure =>
    rw [gave] at given
    cases given
  | ok answer =>
    rw [gave] at given
    exact congrArg Except.ok (Option.some.inj given)

/-- The cache is transparent for an assignment that is sent three times to a server that asks the
engine; with success this is called for each source once. -/
theorem cache_transparent_assignmentRun :
    Fair {} assignmentRun ∧ Alike {} {} .absent assignmentRun ∧ Alike {} {} .broken assignmentRun ∧
    (successes {} (after {} ⟨.kept [], {}, []⟩ assignmentRun).calls).Nodup ∧
    (Text.of "python", Text.of "x = 1") ∈
      successes {} (after {} ⟨.kept [], {}, []⟩ assignmentRun).calls := by
  have fair := fair_assignmentRun .engine
  obtain ⟨alike, -, -, once, -⟩ := cache_transparent_iff fair {}
  have kept : ∀ source ∈ sources {} assignmentRun, ∀ answer, analysis {} source = .ok answer →
      Durable answer ∧ (Cache.readBack? answer).isSome = true := by
    intro source member answer given
    rw [show sources {} assignmentRun = _ from sources_assignmentRun .engine] at member
    obtain ⟨name, among, rfl⟩ : ∃ name ∈ [Text.of "python", Text.of "cpp"],
        source = (name, Text.of "x = 1") := by
      rcases List.mem_cons.1 member with same | member
      · exact ⟨_, List.mem_cons_self, same⟩
      · rcases List.mem_cons.1 member with same | member
        · exact ⟨_, List.mem_cons_self, same⟩
        · exact ⟨_, List.mem_cons_of_mem _ List.mem_cons_self, List.mem_singleton.1 member⟩
    obtain ⟨report, given', in_words⟩ := answered_assignmentRun name among
    obtain rfl := Except.ok.inj (given'.symm.trans given)
    exact durable_of_engine rfl given fun report same => Option.some.inj same ▸ in_words
  refine ⟨fair, ?_, ?_, ?_, ?_⟩
  · exact (alike .absent rfl).2 fun source twice answer given =>
      (kept source twice.mem answer given).1
  · exact (alike .broken rfl).2 fun source twice answer given =>
      (kept source twice.mem answer given).1
  · exact once.2 fun source twice answer given => (kept source twice.mem answer given).2
  · have member : (Text.of "python", Text.of "x = 1") ∈ sources {} assignmentRun := by
      rw [show sources {} assignmentRun = _ from sources_assignmentRun .engine]
      exact List.mem_cons_self
    obtain ⟨report, given, -⟩ := answered_assignmentRun "python" List.mem_cons_self
    have recalled := (kept _ member _ given).2
    rw [← List.count_pos_iff, count_successes fair (fun _ => id) (remembers_nil _ _), successCount,
      given]
    simp only [recalled, if_true, List.not_mem_nil, if_false, if_pos member]
    exact Nat.succ_pos _

/-- An answer is not durable if what is read back of it has another body and another value. -/
theorem not_durable (lost : (Cache.readBack? answer).any (fun held =>
    (reportResponse (some held)).body != (reportResponse answer).body &&
      (reportResponse (some held)).value?.map Json.render !=
        (reportResponse answer).value?.map Json.render) = true) : ¬ Durable answer := by
  intro durable
  obtain ⟨held, recalled, apart⟩ := (Option.any_eq_true ..).1 lost
  obtain ⟨bodies, values⟩ := Bool.and_eq_true_iff.1 apart
  rcases (durable held recalled).json (List.mem_singleton_self _) with same | ⟨value, one, two⟩
  · rw [same, bne_self_eq_false] at bodies
    cases bodies
  · rw [one, two, bne_self_eq_false] at values
    cases values

/-- The analyzer that always gives the same answer. -/
def constant (answer : Option Report) : Analyzer := ⟨fun _ _ _ => .ok answer, fun _ _ => .ok none⟩

/-- An answer that is not durable is told from what a server without a cache answers. -/
theorem not_alike_of_not_durable (lost : ¬ Durable answer) :
    ¬ Alike { analyzer := constant answer } {} .absent assignmentRun := by
  intro alike
  have durable := (agrees_responses_iff (fair_assignmentRun (constant answer)) (fun _ => id)
    (remembers_nil _ _) rfl).1 alike
  refine lost (durable (Text.of "python", Text.of "x = 1") (Or.inr ?_) answer rfl)
  rw [sources_assignmentRun]
  exact List.Mem.duplicate_cons_self List.mem_cons_self

/-- A report on a step that assigns the least integer above zero that is no binary64 number. -/
def longReport : Report :=
  { steps := some [{ bindings := [(Text.of "n", .num "9007199254740993")] }] }

/-- **A cache is not transparent for all analyzers.** One that answers without a report is answered
for with an empty report when its answer is asked for again, and of a long integer another one is
read back. -/
theorem not_transparent :
    (Fair { analyzer := constant none } assignmentRun ∧
      ¬ Alike { analyzer := constant none } {} .absent assignmentRun) ∧
    (Fair { analyzer := constant (some longReport) } assignmentRun ∧
      ¬ Alike { analyzer := constant (some longReport) } {} .absent assignmentRun) :=
  ⟨⟨fair_assignmentRun _, not_alike_of_not_durable (not_durable (by decide +kernel))⟩,
    ⟨fair_assignmentRun _, not_alike_of_not_durable (not_durable (by decide +kernel))⟩⟩

end Server

end FlowTrace
