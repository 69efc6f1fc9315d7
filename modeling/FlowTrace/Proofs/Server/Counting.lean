import FlowTrace.Proofs.Server.Calls
import FlowTrace.Proofs.Text.Numeral

/-! # What the tally tells

Each request to an analysis endpoint is counted once, in one series: that of its endpoint and of the
status it is answered with (`Server.counted_handle`). Over a whole history the tally is in accord
with what was answered (`Server.tally_conserved`): the series add up to the responses, hits and
misses to the valid requests for reports, and the misses are as many as the analyses that were
measured, and as the calls of the analyzer.

The cache may find or lose what it likes, and the analyzer may give one answer now and another one
later: in a history each request finds a cache and an analyzer of its own (`Server.Visit`). A server
with one analyzer, and the cache that it has filled itself, is a case of that
(`Server.tally_after`). -/

namespace FlowTrace

/-! ## Counters -/

namespace Counts

variable {counts : Counts} {key other : List Text}

/-- A key comes before itself. -/
theorem before_refl (key : List Text) : before key key = true := by
  induction key with
  | nil => rfl
  | cons a as ih => simpa [before] using ih

/-- Keys are compared text by text. -/
theorem before_cons_iff {a b : Text} {as bs : List Text} : before (a :: as) (b :: bs) = true ↔
    a = b ∧ before as bs = true ∨ a ≠ b ∧ Text.le a b = true := by
  by_cases same : a = b
  · simp [before, same]
  · simp [before, same]

/-- The order of keys is transitive. -/
theorem before_trans {as bs cs : List Text} (ab : before as bs = true)
    (bc : before bs cs = true) : before as cs = true := by
  induction as generalizing bs cs with
  | nil => rfl
  | cons a as ih =>
    cases bs with
    | nil => cases ab
    | cons b bs =>
      cases cs with
      | nil => cases bc
      | cons c cs =>
        rw [before_cons_iff] at *
        rcases ab with ⟨rfl, ab⟩ | ⟨apart, ab⟩
        · exact bc.imp (fun ⟨same, bc⟩ => ⟨same, ih ab bc⟩) id
        · rcases bc with ⟨rfl, -⟩ | ⟨-, bc⟩
          · exact Or.inr ⟨apart, ab⟩
          · refine Or.inr ⟨?_, Text.le_trans ab bc⟩
            rintro rfl
            exact apart (Text.le_antisymm ab bc)

/-- Keys that come before each other are the same. -/
theorem before_antisymm {as bs : List Text} (ab : before as bs = true)
    (ba : before bs as = true) : as = bs := by
  induction as generalizing bs with
  | nil =>
    cases bs with
    | nil => rfl
    | cons b bs => cases ba
  | cons a as ih =>
    cases bs with
    | nil => cases ab
    | cons b bs =>
      rw [before_cons_iff] at *
      rcases ab with ⟨rfl, ab⟩ | ⟨apart, ab⟩
      · rcases ba with ⟨-, ba⟩ | ⟨apart, -⟩
        · rw [ih ab ba]
        · exact absurd rfl apart
      · rcases ba with ⟨rfl, -⟩ | ⟨-, ba⟩
        · exact absurd rfl apart
        · exact absurd (Text.le_antisymm ab ba) apart

/-- What becomes of the counters with one more for a key: the counter of the key is raised, or it is
put in front of a later one, or the rest is changed. -/
theorem add_cons (other : List Text) (n : Nat) (rest : Counts) (key : List Text) :
    other = key ∧ add ((other, n) :: rest) key = (other, n + 1) :: rest ∨
      other ≠ key ∧ before key other = true ∧
        add ((other, n) :: rest) key = (key, 1) :: (other, n) :: rest ∨
      before key other = false ∧ add ((other, n) :: rest) key = (other, n) :: rest.add key := by
  rw [add]
  by_cases same : other = key
  · exact Or.inl ⟨same, if_pos (beq_iff_eq.2 same)⟩
  · rw [if_neg (by simpa using same)]
    cases ahead : before key other with
    | true => exact Or.inr (Or.inl ⟨same, rfl, rfl⟩)
    | false => exact Or.inr (Or.inr ⟨rfl, rfl⟩)

/-- Counters are **ordered** when no key comes before an earlier one, or is the same. -/
def Ordered (counts : Counts) : Prop :=
  counts.Pairwise fun a b => before b.1 a.1 = false

/-- No key is counted twice. -/
theorem Ordered.nodup (ordered : counts.Ordered) : (counts.map (·.1)).Nodup := by
  refine List.pairwise_map.2 (ordered.imp fun {a b} apart same => ?_)
  rw [same, before_refl] at apart
  cases apart

/-- A key that is counted is new or was there before. -/
theorem mem_add {entry : List Text × Nat} (member : entry ∈ counts.add key) :
    entry.1 = key ∨ ∃ old ∈ counts, old.1 = entry.1 := by
  induction counts with
  | nil => exact Or.inl (by rw [List.mem_singleton.1 member])
  | cons first rest ih =>
    obtain ⟨other, n⟩ := first
    rcases add_cons other n rest key with ⟨rfl, added⟩ | ⟨-, -, added⟩ | ⟨-, added⟩
    · rw [added] at member
      rcases List.mem_cons.1 member with rfl | old
      · exact Or.inl rfl
      · exact Or.inr ⟨entry, List.mem_cons_of_mem _ old, rfl⟩
    · rw [added] at member
      rcases List.mem_cons.1 member with rfl | old
      · exact Or.inl rfl
      · exact Or.inr ⟨entry, old, rfl⟩
    · rw [added] at member
      rcases List.mem_cons.1 member with rfl | deeper
      · exact Or.inr ⟨_, List.mem_cons_self, rfl⟩
      · exact (ih deeper).imp id fun ⟨old, inside, same⟩ =>
          ⟨old, List.mem_cons_of_mem _ inside, same⟩

/-- Counting keeps the counters ordered, so that no key has two. -/
theorem Ordered.add (ordered : counts.Ordered) (key : List Text) : (counts.add key).Ordered := by
  induction counts with
  | nil => exact List.pairwise_singleton _ _
  | cons first rest ih =>
    obtain ⟨other, n⟩ := first
    obtain ⟨behind, ordered_rest⟩ := List.pairwise_cons.1 ordered
    rcases add_cons other n rest key with ⟨rfl, added⟩ | ⟨apart, ahead, added⟩ | ⟨later, added⟩
    · rw [added]
      exact List.pairwise_cons.2 ⟨behind, ordered_rest⟩
    · rw [added]
      refine List.pairwise_cons.2 ⟨List.forall_mem_cons.2 ⟨?_, fun entry inside => ?_⟩, ordered⟩
      · exact Bool.eq_false_iff.2 fun back => apart (before_antisymm back ahead)
      · refine Bool.eq_false_iff.2 fun back => ?_
        have ahead_of_other := before_trans back ahead
        rw [behind entry inside] at ahead_of_other
        cases ahead_of_other
    · rw [added]
      refine List.pairwise_cons.2 ⟨fun entry inside => ?_, ih ordered_rest⟩
      rcases mem_add inside with rfl | ⟨old, member, same⟩
      · exact later
      · rw [← same]
        exact behind old member

/-- The sum of the counters whose keys are of some kind. -/
def totalOf (p : List Text → Bool) (counts : Counts) : Nat :=
  total (counts.filter fun entry => p entry.1)

/-- The total of series begins with the first one, if it is among them. -/
theorem totalOf_cons (p : List Text → Bool) (key : List Text) (n : Nat) (rest : Counts) :
    totalOf p ((key, n) :: rest) = (if p key = true then n else 0) + totalOf p rest := by
  by_cases kind : p key = true
  · simp [totalOf, kind, total]
  · simp [totalOf, kind]

/-- Counting raises the sums that the key belongs to by one. -/
theorem totalOf_add (p : List Text → Bool) (counts : Counts) (key : List Text) :
    (counts.add key).totalOf p = counts.totalOf p + (p key).toNat := by
  have one : (if p key = true then 1 else 0) = (p key).toNat := by cases p key <;> rfl
  induction counts with
  | nil =>
    rw [add, totalOf_cons, one]
    exact Nat.add_comm _ _
  | cons first rest ih =>
    obtain ⟨other, n⟩ := first
    rcases add_cons other n rest key with ⟨rfl, added⟩ | ⟨-, -, added⟩ | ⟨-, added⟩
    · rw [added, totalOf_cons, totalOf_cons, ← one]
      split <;> omega
    · rw [added, totalOf_cons, one, Nat.add_comm]
    · rw [added, totalOf_cons, totalOf_cons, ih, Nat.add_assoc]

/-- The sum of all counters is raised by one. -/
theorem total_add (counts : Counts) (key : List Text) :
    (counts.add key).total = counts.total + 1 := by
  have all := totalOf_add (fun _ => true) counts key
  simpa only [totalOf, List.filter_true, Bool.toNat_true] using all

end Counts

namespace Server

variable {server : Server} {state : State} {incoming : Incoming} {request : Request}

/-! ## One request -/

/-- The name under which the requests to an endpoint are counted, if they are. -/
def Endpoint.name? : Endpoint → Option Text
  | reports => some reportEndpoint
  | listings => some listingEndpoint
  | _ => none

/-- Whether a key belongs to an endpoint. -/
def isOf (name : Text) (key : List Text) : Bool := key.head? == some name

/-- Whether a key is that of a series of an endpoint with a status. -/
def isSeries (name : Text) (status : Nat) : List Text → Bool
  | [endpoint, _, shown] => endpoint == name && shown == Text.ofNat status
  | _ => false

/-- The tally `after` a request is that `before` it, with the request counted: once, under the
endpoint it went to and the status it was answered with. Beside that stands whether it was a valid
request for a report, and whether the analyzer was asked for it. -/
structure Counted (before after : Tally) (endpoint : Endpoint) (status : Nat)
    (asked consulted : Bool) : Prop where
  /-- One series is raised by one, if the endpoint is one that is counted. -/
  requests : match endpoint.name? with
    | some name => ∃ language, after.requests = before.requests.add [name, language, .ofNat status]
    | none => after.requests = before.requests
  /-- A valid request for a report is a hit or a miss. -/
  found : after.hits + after.misses = before.hits + before.misses + asked.toNat
  /-- It is a miss when the analyzer is asked. -/
  missed : after.misses = before.misses + consulted.toNat
  /-- An analysis is measured when the analyzer is asked. -/
  measured : after.analyses.totalOf (isOf reportEndpoint) =
    before.analyses.totalOf (isOf reportEndpoint) + consulted.toNat

/-- A request that is neither valid nor measured is only counted. -/
theorem counted_finish {endpoint : Endpoint} {name : Text} (named : endpoint.name? = some name)
    (state : State) (language : Text) (response : Response) :
    Counted state.tally (finish state name language response).1.tally endpoint response.status
      false false := by
  refine ⟨?_, rfl, rfl, rfl⟩
  rw [named]
  exact ⟨language, rfl⟩

/-- A request to no endpoint is not counted. -/
theorem counted_same (tally : Tally) {endpoint : Endpoint} (unnamed : endpoint.name? = none)
    (status : Nat) : Counted tally tally endpoint status false false := by
  refine ⟨?_, rfl, rfl, rfl⟩
  rw [unnamed]

/-- A valid request for a report is counted once, whatever comes of it. -/
theorem counted_serveReport (server : Server) (state : State) (context : Context)
    (request : Request) :
    Counted state.tally (server.serveReport state context request).1.tally .reports
      (server.serveReport state context request).2.status true
      (state.cache.get? request.key).isNone := by
  have raised := Counts.totalOf_add (isOf reportEndpoint) state.tally.analyses
    [reportEndpoint, request.language]
  cases found : state.cache.get? (Cache.key request.language request.code) with
  | some held =>
    rw [Request.key, found]
    simp only [serveReport, found]
    exact ⟨⟨request.language, rfl⟩, Nat.add_right_comm .., rfl, rfl⟩
  | none =>
    rw [Request.key, found]
    cases given : server.analyzer.analyze context request.language request.code with
    | error failure =>
      simp only [serveReport, found, given]
      exact ⟨⟨request.language, rfl⟩, rfl, rfl, raised⟩
    | ok answer =>
      simp only [serveReport, found, given]
      exact ⟨⟨request.language, rfl⟩, rfl, rfl, raised⟩

/-- A request for a listing is counted once. -/
theorem counted_handleListing (server : Server) (state : State) (incoming : Incoming) :
    Counted state.tally (server.handleListing state incoming).1.tally .listings
      (server.handleListing state incoming).2.status false false := by
  obtain ⟨response, answered | ⟨code, answered⟩⟩ := handleListing_cases server incoming
  · rw [answered]
    exact counted_finish rfl state _ _
  · rw [answered]
    -- A listing is measured as well, but not as a report.
    refine ⟨⟨_, rfl⟩, rfl, rfl, ?_⟩
    exact Counts.totalOf_add (isOf reportEndpoint) state.tally.analyses
      [listingEndpoint, Language.python.name]

/-- **Every request to an analysis endpoint is counted once**, in the series of its endpoint and of
the status that it is answered with, and no other request is counted at all. -/
theorem counted_handle (server : Server) (state : State) (health : Health) (incoming : Incoming) :
    Counted state.tally (server.handle state health incoming).1.tally (endpoint incoming)
      (server.handle state health incoming).2.status (server.asked? incoming).isSome
      (server.consulted? state incoming).isSome := by
  cases asked : server.asked? incoming with
  | some request =>
    have reports := (asked_iff.1 asked).1
    have consulted : (server.consulted? state incoming).isSome =
        (state.cache.get? request.key).isNone := by
      cases found : state.cache.get? request.key with
      | some held => rw [consulted_of_found asked found]; rfl
      | none => rw [consulted_of_missing asked found]; rfl
    rw [handle_of_asked asked, reports, consulted]
    exact counted_serveReport server state incoming.context request
  | none =>
    rw [handle_eq, consulted_of_not_asked asked]
    cases goes : endpoint incoming with
    | nowhere response => exact counted_same state.tally rfl _
    | reports =>
      obtain ⟨language, response, refused⟩ := handleReport_of_not_asked goes asked
      simp only [answer, refused server rfl]
      exact counted_finish rfl state language response
    | listings => exact counted_handleListing server state incoming
    | health => exact counted_same state.tally rfl _
    | metrics => exact counted_same state.tally rfl _

/-- A miss is answered with what the analyzer says. -/
theorem response_of_consulted (consulted : server.consulted? state incoming = some request)
    (health : Health) :
    (server.handle state health incoming).2 =
      (match server.analyzer.analyze incoming.context request.language request.code with
        | .error failure => failureResponse failure
        | .ok answer => reportResponse answer).behind server.accessHeaders := by
  obtain ⟨asked, missing⟩ := Option.filter_eq_some_iff.1 consulted
  rw [handle_of_asked asked]
  rcases serveReport_cases server state incoming.context request with
    ⟨held, found, -, -⟩ | ⟨answer, -, given, -, served⟩ | ⟨failure, -, given, -, served⟩
  · rw [Request.key, found] at missing
    cases missing
  · rw [served, given]
  · rw [served, given]

/-! ## Histories -/

/-- A **visit**: a request, with the analyzer and the cache that it finds. -/
structure Visit where
  /-- What does the analyses then. -/
  analyzer : Analyzer
  /-- What is in the cache then. -/
  cache : Cache
  /-- What the clock shows. -/
  health : Health
  /-- The request. -/
  incoming : Incoming

/-- What a server makes of a visit. -/
def visit (server : Server) (tally : Tally) (v : Visit) : State × Response :=
  Server.handle { server with analyzer := v.analyzer } ⟨v.cache, tally, []⟩ v.health v.incoming

/-- The tally after some visits. -/
def tallyAfter (server : Server) : Tally → List Visit → Tally
  | tally, [] => tally
  | tally, v :: visits => tallyAfter server (server.visit tally v).1.tally visits

/-- The visits with their responses. -/
def served (server : Server) : Tally → List Visit → List (Visit × Response)
  | _, [] => []
  | tally, v :: visits =>
    (v, (server.visit tally v).2) :: served server (server.visit tally v).1.tally visits

/-- The sources that the analyzer was called for to report on, in some visits. -/
def called (server : Server) : Tally → List Visit → List (Text × Text)
  | _, [] => []
  | tally, v :: visits =>
    reportCalls (server.visit tally v).1.calls ++
      called server (server.visit tally v).1.tally visits

/-- Whether a visit is a valid request for a report. -/
def isAsked (server : Server) (v : Visit) : Bool := (server.asked? v.incoming).isSome

/-- Whether the analyzer is asked for a report. -/
def isConsulted (server : Server) (v : Visit) : Bool :=
  (server.consulted? ⟨v.cache, {}, []⟩ v.incoming).isSome

/-- Whether a visit to an endpoint was answered with a status. -/
def wasAnswered (name : Text) (status : Nat) (entry : Visit × Response) : Bool :=
  (endpoint entry.1.incoming).name? == some name && entry.2.status == status

/-- A visit is counted. -/
theorem counted_visit (server : Server) (tally : Tally) (v : Visit) :
    Counted tally (server.visit tally v).1.tally (endpoint v.incoming)
      (server.visit tally v).2.status (server.isAsked v) (server.isConsulted v) :=
  counted_handle { server with analyzer := v.analyzer } ⟨v.cache, tally, []⟩ v.health v.incoming

/-- A visit calls the analyzer for a report once, or not at all. -/
theorem length_reportCalls_visit (server : Server) (tally : Tally) (v : Visit) :
    (reportCalls (server.visit tally v).1.calls).length = (server.isConsulted v).toNat := by
  have calls := reportCalls_handle { server with analyzer := v.analyzer } ⟨v.cache, tally, []⟩
    v.health v.incoming
  rw [visit, calls, isConsulted]
  show (((server.consulted? ⟨v.cache, {}, []⟩ v.incoming).map Request.source).toList).length = _
  cases server.consulted? ⟨v.cache, {}, []⟩ v.incoming <;> rfl

/-! ## Conservation -/

section Counted

variable {before after : Tally} {endpoint : Endpoint} {status : Nat} {asked consulted : Bool}

/-- A request raises one series by one, or none at all. -/
theorem Counted.requests_cases (counted : Counted before after endpoint status asked consulted) :
    (endpoint.name? = none ∧ after.requests = before.requests) ∨
      ∃ own language, endpoint.name? = some own ∧
        after.requests = before.requests.add [own, language, .ofNat status] := by
  have requests := counted.requests
  cases named : endpoint.name? with
  | none => exact Or.inl ⟨rfl, by simpa only [named] using requests⟩
  | some own =>
    simp only [named] at requests
    obtain ⟨language, added⟩ := requests
    exact Or.inr ⟨own, language, rfl, added⟩

/-- A series is raised by the requests that belong to it. -/
theorem Counted.series (counted : Counted before after endpoint status asked consulted)
    (name : Text) (shown : Nat) :
    after.requests.totalOf (isSeries name shown) =
      before.requests.totalOf (isSeries name shown) +
        (endpoint.name? == some name && status == shown).toNat := by
  rcases counted.requests_cases with ⟨unnamed, same⟩ | ⟨own, language, named, added⟩
  · rw [same, unnamed]
    rfl
  · have same_status : (Text.ofNat status == Text.ofNat shown) = (status == shown) := by
      rw [Bool.eq_iff_iff, beq_iff_eq, beq_iff_eq, Text.ofNat_injective.eq_iff]
    rw [added, named, Counts.totalOf_add, isSeries, same_status]
    rfl

/-- All series together are raised by the requests that are counted. -/
theorem Counted.total (counted : Counted before after endpoint status asked consulted) :
    after.requests.total = before.requests.total + endpoint.name?.isSome.toNat := by
  rcases counted.requests_cases with ⟨unnamed, same⟩ | ⟨own, language, named, added⟩
  · rw [same, unnamed]
    rfl
  · rw [added, named, Counts.total_add]
    rfl

/-- The series stay in order when a request is counted. -/
theorem Counted.ordered (counted : Counted before after endpoint status asked consulted)
    (ordered : before.requests.Ordered) : after.requests.Ordered := by
  rcases counted.requests_cases with ⟨-, same⟩ | ⟨own, language, -, added⟩
  · rwa [same]
  · rw [added]
    exact ordered.add _

end Counted

/-- What a history adds to a tally. -/
structure Accounts (server : Server) (tally : Tally) (visits : List Visit) : Prop where
  /-- Each endpoint and status: the responses given there with it. -/
  series : ∀ name status, (server.tallyAfter tally visits).requests.totalOf (isSeries name status) =
    tally.requests.totalOf (isSeries name status) +
      (server.served tally visits).countP (wasAnswered name status)
  /-- All series together: the visits to analysis endpoints. -/
  total : (server.tallyAfter tally visits).requests.total =
    tally.requests.total + visits.countP fun v => (endpoint v.incoming).name?.isSome
  /-- No series is there twice. -/
  ordered : tally.requests.Ordered → (server.tallyAfter tally visits).requests.Ordered
  /-- Hits and misses: the valid requests for reports. -/
  found : (server.tallyAfter tally visits).hits + (server.tallyAfter tally visits).misses =
    tally.hits + tally.misses + visits.countP server.isAsked
  /-- Misses: the times when the analyzer was asked. -/
  missed : (server.tallyAfter tally visits).misses =
    tally.misses + visits.countP server.isConsulted
  /-- Calls of the analyzer: the same. -/
  called : (server.called tally visits).length = visits.countP server.isConsulted
  /-- Analyses: the same. -/
  measured : (server.tallyAfter tally visits).analyses.totalOf (isOf reportEndpoint) =
    tally.analyses.totalOf (isOf reportEndpoint) + visits.countP server.isConsulted

/-- **The tally accounts for every history**, whatever was counted before. -/
theorem accounts (server : Server) (tally : Tally) (visits : List Visit) :
    server.Accounts tally visits := by
  have countP_cons {α : Type} (p : α → Bool) (a : α) (l : List α) :
      (a :: l).countP p = (p a).toNat + l.countP p := by
    rw [List.countP_cons, Nat.add_comm]
    cases p a <;> rfl
  induction visits generalizing tally with
  | nil => exact ⟨fun _ _ => rfl, rfl, id, rfl, rfl, rfl, rfl⟩
  | cons v visits ih =>
    have counted := server.counted_visit tally v
    obtain ⟨series, total, ordered, found, missed, called, measured⟩ :=
      ih (server.visit tally v).1.tally
    refine ⟨fun name status => ?_, ?_, fun before => ordered (counted.ordered before), ?_, ?_, ?_,
      ?_⟩
    · rw [tallyAfter, series, counted.series, served, countP_cons, Nat.add_assoc]
      rfl
    · rw [tallyAfter, total, counted.total, countP_cons, Nat.add_assoc]
    · rw [tallyAfter, found, counted.found, countP_cons, Nat.add_assoc]
    · rw [tallyAfter, missed, counted.missed, countP_cons, Nat.add_assoc]
    · rw [Server.called, List.length_append, length_reportCalls_visit, called, countP_cons]
    · rw [tallyAfter, measured, counted.measured, countP_cons, Nat.add_assoc]

/-- The visits of a run on a server with one analyzer, and the cache that it has filled itself. -/
def visitsOf (server : Server) : State → List (Health × Incoming) → List Visit
  | _, [] => []
  | state, (health, incoming) :: run =>
    ⟨server.analyzer, state.cache, health, incoming⟩ ::
      visitsOf server (server.handle state health incoming).1 run

/-- A run leaves the tally that its visits leave. -/
theorem tally_after (server : Server) (state : State) (run : List (Health × Incoming)) :
    (server.after state run).tally = server.tallyAfter state.tally (server.visitsOf state run) := by
  induction run generalizing state with
  | nil => rfl
  | cons sent run ih =>
    -- A visit finds no calls; but nothing depends on them.
    have states := (handle_uncalled server state sent.1 sent.2).1
    have tallies : (server.handle state.uncalled sent.1 sent.2).1.tally =
        (server.handle state sent.1 sent.2).1.tally :=
      (congrArg State.tally states :)
    show (server.after (server.handle state sent.1 sent.2).1 run).tally =
      server.tallyAfter (server.handle state.uncalled sent.1 sent.2).1.tally _
    rw [tallies]
    exact ih (server.handle state sent.1 sent.2).1

/-- **The tally is conserved.**

* Every request to an analysis endpoint is counted once, in the series of its endpoint and of the
  status it is answered with; no other request is counted.
* In every history the series add up to the responses, and no series is there twice. Hits and misses
  are together the valid requests for reports; misses, analyses measured, and the calls of the
  analyzer for a report are as many.
* The analyzer is called for a report when the cache misses one, and then only: else it does not
  matter what it would say. (The engine does not break off then, see `engine_answers`.)
* With one analyzer and a cache of its own, a server has such histories. -/
theorem tally_conserved (server : Server) :
    (∀ state health incoming,
      Counted state.tally (server.handle state health incoming).1.tally (endpoint incoming)
        (server.handle state health incoming).2.status (server.asked? incoming).isSome
        (server.consulted? state incoming).isSome) ∧
    (∀ visits, let tally := server.tallyAfter {} visits
      (∀ name status, tally.requests.totalOf (isSeries name status) =
        (server.served {} visits).countP (wasAnswered name status)) ∧
      tally.requests.total = visits.countP (fun v => (endpoint v.incoming).name?.isSome) ∧
      (tally.requests.map (·.1)).Nodup ∧
      tally.hits + tally.misses = visits.countP server.isAsked ∧
      tally.misses = visits.countP server.isConsulted ∧
      tally.misses = (server.called {} visits).length ∧
      tally.analyses.totalOf (isOf reportEndpoint) = tally.misses) ∧
    (∀ state health incoming,
      reportCalls (server.handle state health incoming).1.calls = reportCalls state.calls ++
        ((server.consulted? state incoming).map Request.source).toList ∧
      (server.consulted? state incoming = none → ∀ analyze,
        Server.handle ⟨⟨analyze, server.analyzer.parsePython⟩, server.allowedOrigin, server.maxBody⟩
          state health incoming = server.handle state health incoming) ∧
      ∀ request, server.consulted? state incoming = some request →
        (server.handle state health incoming).2 =
          (match server.analyzer.analyze incoming.context request.language request.code with
            | .error failure => failureResponse failure
            | .ok answer => reportResponse answer).behind server.accessHeaders) ∧
    ∀ state run, (server.after state run).tally =
      server.tallyAfter state.tally (server.visitsOf state run) := by
  refine ⟨server.counted_handle, fun visits => ?_, fun state health incoming => ⟨?_, ?_, ?_⟩,
    server.tally_after⟩
  -- The tally begins empty, so what a history adds to it is all that it has.
  · obtain ⟨series, total, ordered, found, missed, called, measured⟩ := server.accounts {} visits
    refine ⟨fun name status => ?_, ?_, (ordered .nil).nodup, ?_, ?_, ?_, ?_⟩
    · rw [series]
      exact Nat.zero_add _
    · rw [total]
      exact Nat.zero_add _
    · rw [found]
      exact Nat.zero_add _
    · rw [missed]
      exact Nat.zero_add _
    · rw [missed, called]
      exact Nat.zero_add _
    · rw [measured, missed]
      rfl
  · exact reportCalls_handle server state health incoming
  · exact fun unasked analyze => handle_congr (fun request consulted => by
      rw [unasked] at consulted
      cases consulted) health
  · exact fun request consulted => response_of_consulted consulted health

end Server

end FlowTrace
