import FlowTrace.Service.Remote

/-! # Why calls fail

A call of the remote service can end without an answer while it waits for a token, during the
exchange, while the body of a success is read, by a response without success, and by a body that is
no answer. What has happened there is the **cause** of its failure (`Remote.Ends`), and the failure
tells the cause (`Cause.Explains`): a passed deadline and a slow network are timeouts, a response
is known by its status, and everything else is an exchange without a response.

There is one exception in all runs (`Remote.failures_tell_causes`). A call that would have to wait
for its token beyond its deadline is given up at once, and this failure is not taken for a
timeout. How the limiter counts does not matter: all that is assumed of it is that it refuses such a
call at once, with an error of its own (`LawfulLimits`). -/

namespace FlowTrace

/-! ## Waiting for a token -/

/-- Before a deadline that is still ahead, no deadline has passed. -/
theorem Allowance.context_after_zero {allowance : Allowance} {left : Nat}
    (live : allowance.context = .live) (limited : allowance.left = some left) (ahead : 0 < left) :
    (allowance.after 0).context ≠ .expired := by
  cases givenUp : allowance.givenUp with
  | none =>
    simp only [after, ending?, live, limited, givenUp, Nat.le_zero, Nat.ne_of_gt ahead, if_false]
    nofun
  | some time =>
    simp only [after, ending?, live, limited, givenUp]
    by_cases early : time < left
    · rw [if_pos early]
      dsimp only
      split <;> nofun
    · rw [if_neg early]
      dsimp only
      rw [if_neg (by omega)]
      nofun

namespace Limits

variable {L : Type} [Limits L]

/-- The wait for a token **fails** after some nanoseconds: the context ends, or the limiter gives
up. -/
def Denies (limiter : L) (allowance : Allowance) (passed : Nat) : Prop :=
  (wait limiter allowance).2 = .ended passed ∨
    ∃ message, (wait limiter allowance).2 = .refused passed message

/-- The time is **short**: there is a deadline ahead, and it comes before the token. -/
def Short (limiter : L) (allowance : Allowance) : Prop :=
  allowance.context = .live ∧ ∃ due left, due? limiter = some due ∧
    allowance.left = some left ∧ 0 < left ∧ left < due

/-- When the time is short, the wait fails at once, with an error of the limiter's own. -/
theorem Short.refused [LawfulLimits L] {limiter : L} {allowance : Allowance}
    (short : Short limiter allowance) :
    ∃ message, (wait limiter allowance).2 = .refused 0 message := by
  obtain ⟨live, due, left, known, limited, -, before⟩ := short
  exact LawfulLimits.refused_of_short limiter allowance live known limited before

/-- When the time is short, it is not over yet. -/
theorem Short.early {limiter : L} {allowance : Allowance} (short : Short limiter allowance) :
    (allowance.after 0).context ≠ .expired := by
  obtain ⟨live, _, left, -, limited, ahead, -⟩ := short
  exact Allowance.context_after_zero live limited ahead

end Limits

/-- The limiter that the program runs with refuses a call at once when its token comes after its
deadline. -/
instance : LawfulLimits Limiter where
  refused_of_short limiter allowance due left live known limited short := by
    have known : limiter.due? = some due := known
    have late : allowance.left.all (due ≤ ·) = false := by
      rw [limited]
      exact decide_eq_false (Nat.not_le.2 short)
    refine ⟨"rate: Wait(n=1) would exceed context deadline", ?_⟩
    show (limiter.wait allowance).2 = _
    simp only [Limiter.wait, known, live, late]
    rfl

/-! ## Causes -/

/-- Why a call ends without an answer. -/
inductive Cause where
  /-- The deadline has passed. -/
  | deadline
  /-- The deadline comes before a token. -/
  | unmet
  /-- The network was too slow. -/
  | network
  /-- There was a response without success. -/
  | refused (status : Int)
  /-- The body of a success was no answer. -/
  | unreadable (status : Int)
  /-- Something else. -/
  | other
  deriving DecidableEq, Repr

/-- What a failure has to be to **tell** its cause. -/
def Cause.Explains : Cause → Failure → Prop
  | .deadline, failure | .unmet, failure | .network, failure => failure.isTimeout = true
  | .refused status, failure => ∃ body, failure = .transport status body none
  | .unreadable status, failure => Failure.isSuccessStatus status = true ∧
      ∃ reason, failure = .transport status [] (some reason)
  | .other, failure => ∃ reason, failure = .transport 0 [] (some reason)

section

variable (context : Context) (readable : Text → Bool)

/-- What an exchange, or the reading of the body of a success, **breaks** with, and whether that is
because the network was too slow. -/
inductive Reply.Breaks : Reply → Failure → Bool → Prop
  /-- The caller stopped waiting. -/
  | silence : Breaks .silence (context.failure?.getD .canceled) false
  /-- The network stopped waiting. -/
  | slow : Breaks .slow (.plain "i/o timeout") true
  /-- The exchange broke down with a message. -/
  | broken (message : Text) : Breaks (.broken message) (.plain message) false
  /-- The exchange broke down with a failure. -/
  | failed (failure : Failure) (slow : Bool) : Breaks (.failed failure slow) failure slow
  /-- Reading the body broke off with a message. -/
  | cut {status : Int} (body message : Text) (success : Failure.isSuccessStatus status = true) :
      Breaks (.response status body (some message)) (.plain message) false
  /-- Reading the body broke off with a failure. -/
  | interrupted {status : Int} (body : Text) (failure : Failure) (slow : Bool)
      (success : Failure.isSuccessStatus status = true) :
      Breaks (.interrupted status body failure slow) failure slow

/-- Why there is **no answer** in what the network did in the end, in the state of the context at
that time. -/
inductive Reply.NoAnswer : Reply → Cause → Prop
  /-- It broke when the deadline had passed. -/
  | late {reply : Reply} {failure : Failure} {slow : Bool}
      (breaks : reply.Breaks context failure slow) (past : context = .expired) :
      NoAnswer reply .deadline
  /-- It broke because of a deadline. -/
  | deadline {reply : Reply} {failure : Failure} {slow : Bool}
      (breaks : reply.Breaks context failure slow) (due : failure.isDeadline = true) :
      NoAnswer reply .deadline
  /-- It broke because the network was too slow. -/
  | network {reply : Reply} {failure : Failure} (breaks : reply.Breaks context failure true) :
      NoAnswer reply .network
  /-- It broke for another reason. -/
  | other {reply : Reply} {failure : Failure} (breaks : reply.Breaks context failure false)
      (early : context ≠ .expired) (undue : failure.isDeadline = false) : NoAnswer reply .other
  /-- The response had no success. -/
  | refused {status : Int} (body : Text) (cut : Option Text)
      (failed : Failure.isSuccessStatus status = false) :
      NoAnswer (.response status body cut) (.refused status)
  /-- The response had no success, and reading its body broke off. -/
  | refusedInterrupted {status : Int} (body : Text) (failure : Failure) (slow : Bool)
      (failed : Failure.isSuccessStatus status = false) :
      NoAnswer (.interrupted status body failure slow) (.refused status)
  /-- The body of a success was no answer. -/
  | unreadable {status : Int} {body : Text} (success : Failure.isSuccessStatus status = true)
      (unread : readable body = false) :
      NoAnswer (.response status body none) (.unreadable status)

end

namespace Remote

variable {L : Type} [Limits L]

section

variable (remote : Remote L) (network : Outgoing → Reply) (allowance : Allowance) (path : Text)
  (body : Json) (readable : Text → Bool)

/-- What **ends** a call without an answer. -/
inductive Ends : Cause → Prop
  /-- The deadline had passed when the wait for a token failed. -/
  | expired {passed : Nat} (denied : Limits.Denies remote.limiter allowance passed)
      (past : (allowance.after passed).context = .expired) : Ends .deadline
  /-- The deadline comes before the token. -/
  | unmet (short : Limits.Short remote.limiter allowance) : Ends .unmet
  /-- The wait for a token failed otherwise: the call was given up, or there never is a token. -/
  | denied {passed : Nat} (denied : Limits.Denies remote.limiter allowance passed)
      (early : (allowance.after passed).context ≠ .expired)
      (time : ¬ Limits.Short remote.limiter allowance) : Ends .other
  /-- There is a token, and no answer to the request. -/
  | exchanged {limiter final : L} {passed : Nat} {url : Url} {context : Context} {reply : Reply}
      {cause : Cause}
      (granted : Limits.wait remote.limiter allowance = (limiter, .granted passed))
      (address : Url.read (remote.base ++ path) = .ok url)
      (ended : conclude limiter (allowance.after passed) (network ⟨url.dropEmptyPort, body⟩) =
        (final, context, reply))
      (silent : reply.NoAnswer context readable cause) : Ends cause

end

variable {α : Type} {remote : Remote L} {network : Outgoing → Reply} {allowance : Allowance}
  {path : Text} {body : Json} {read : Json → Option α} {cause : Cause} {context : Context}
  {reply : Reply} {url : Url} {failure : Failure} {passed : Nat}

/-! ## Failures tell causes -/

/-- A failure is a timeout when the context expired, the deadline passed, or the network was
slow. -/
theorem isTimeout_ofExchange {slow : Bool}
    (time : context = .expired ∨ failure.isDeadline = true ∨ slow = true) :
    (Failure.ofExchange context slow failure).isTimeout = true := by
  have late : (context == .expired || failure.isDeadline || slow) = true := by
    rcases time with rfl | due | rfl
    · rfl
    · simp [due]
    · simp
  rw [Failure.ofExchange, if_pos late]
  rfl

/-- Any other failure is one of the transport. -/
theorem ofExchange_of_other (early : context ≠ .expired) (undue : failure.isDeadline = false) :
    Failure.ofExchange context false failure = .transport 0 [] (some failure) := by
  have other : ¬ (context == .expired || failure.isDeadline || false) = true := by
    simp [undue, early]
  rw [Failure.ofExchange, if_neg other]

/-- What an exchange breaks with is sorted. -/
theorem receive_of_breaks {slow : Bool} (breaks : reply.Breaks context failure slow)
    (read : Json → Option α) (url : Url) :
    ∃ told, receive read url context reply = .error (.ofExchange context slow told) ∧
      told.isDeadline = failure.isDeadline := by
  cases breaks with
  | silence => exact ⟨_, rfl, rfl⟩
  | slow => exact ⟨_, rfl, rfl⟩
  | broken message => exact ⟨_, rfl, rfl⟩
  | failed failure slow => exact ⟨_, rfl, rfl⟩
  | cut body message success => exact ⟨.plain message, by simp [receive, success], rfl⟩
  | interrupted body failure slow success => exact ⟨failure, by simp [receive, success], rfl⟩

/-- Whether a body is read as an answer. -/
def readable (read : Json → Option α) (body : Text) : Bool := ((Json.read? body).bind read).isSome

/-- **Without an answer, the failure tells the cause.** -/
theorem receive_of_noAnswer (silent : reply.NoAnswer context (readable read) cause) (url : Url) :
    ∃ failure, receive read url context reply = .error failure ∧ cause.Explains failure ∧
      cause ≠ .unmet := by
  cases silent with
  | late breaks past =>
    obtain ⟨told, received, -⟩ := receive_of_breaks breaks read url
    exact ⟨_, received, isTimeout_ofExchange (Or.inl past), nofun⟩
  | deadline breaks due =>
    obtain ⟨told, received, same⟩ := receive_of_breaks breaks read url
    exact ⟨_, received, isTimeout_ofExchange (Or.inr (Or.inl (same.trans due))), nofun⟩
  | network breaks =>
    obtain ⟨told, received, -⟩ := receive_of_breaks breaks read url
    exact ⟨_, received, isTimeout_ofExchange (Or.inr (Or.inr rfl)), nofun⟩
  | other breaks early undue =>
    obtain ⟨told, received, same⟩ := receive_of_breaks breaks read url
    exact ⟨_, received, ⟨told, ofExchange_of_other early (same.trans undue)⟩, nofun⟩
  | refused body cut failed => exact ⟨_, by simp only [receive, failed]; rfl, ⟨_, rfl⟩, nofun⟩
  | refusedInterrupted body failure slow failed =>
    exact ⟨_, by simp only [receive, failed]; rfl, ⟨_, rfl⟩, nofun⟩
  | @unreadable status body success unread =>
    have no_value : (Json.read? body).bind read = none := by simpa [readable] using unread
    refine ⟨.transport status [] (some (.plain "parsing response")), ?_, ⟨success, _, rfl⟩, nofun⟩
    simp only [receive, success, no_value]
    rfl

/-- What is not an answer has a cause. -/
theorem exists_noAnswer (in_the_end : ∀ passed reply', reply ≠ .late passed reply')
    (failed : receive read url context reply = .error failure) :
    ∃ cause, reply.NoAnswer context (readable read) cause := by
  have of_breaks : ∀ {reply : Reply} {failure : Failure} {slow : Bool},
      reply.Breaks context failure slow → ∃ cause, reply.NoAnswer context (readable read) cause := by
    intro reply failure slow breaks
    -- Causes are tried in the order in which failures are sorted.
    by_cases past : context = .expired
    · exact ⟨_, .late breaks past⟩
    cases due : failure.isDeadline with
    | true => exact ⟨_, .deadline breaks due⟩
    | false =>
      cases slow with
      | true => exact ⟨_, .network breaks⟩
      | false => exact ⟨_, .other breaks past due⟩
  cases reply with
  | silence => exact of_breaks .silence
  | slow => exact of_breaks .slow
  | broken message => exact of_breaks (.broken message)
  | failed failure slow => exact of_breaks (.failed failure slow)
  | late passed reply => exact absurd rfl (in_the_end passed reply)
  | interrupted status body failure slow =>
    cases success : Failure.isSuccessStatus status with
    | true => exact of_breaks (.interrupted body failure slow success)
    | false => exact ⟨_, .refusedInterrupted body failure slow success⟩
  | response status body cut =>
    cases success : Failure.isSuccessStatus status with
    | false => exact ⟨_, .refused body cut success⟩
    | true =>
      cases cut with
      | some message => exact of_breaks (.cut body message success)
      | none =>
        cases read_body : (Json.read? body).bind read with
        | none => exact ⟨_, .unreadable success (by simp [readable, read_body])⟩
        | some answer =>
          simp only [receive, success, read_body] at failed
          cases failed

/-- In the end no time is left to pass. -/
theorem conclude_ne_late (limiter : L) (allowance : Allowance) (reply : Reply) :
    ∀ passed reply', (conclude limiter allowance reply).2.2 ≠ .late passed reply' := by
  induction reply generalizing limiter allowance with
  | late passed reply ih => exact ih _ _
  | _ => exact nofun

/-! ## Calls -/

/-- After its deadline, a call without a token has timed out. -/
theorem isTimeout_denial (past : context = .expired) (message? : Option Text) :
    (denial context message?).isTimeout = true :=
  isTimeout_ofExchange (Or.inl past)

/-- Before its deadline, a call without a token has failed for another reason. -/
theorem explains_denial (early : context ≠ .expired) (message? : Option Text) :
    Cause.other.Explains (denial context message?) := by
  refine ⟨_, ofExchange_of_other early ?_⟩
  cases message? with
  | some message => rfl
  | none =>
    cases context with
    | expired => exact absurd rfl early
    | live | canceled => rfl

/-- The failure of a call that a limiter refused before its deadline. -/
def refusal (message : Text) : Failure := .transport 0 [] (some (.plain message))

/-- A limit that denies a call in time gives its own message. -/
theorem denial_refused (early : context ≠ .expired) (message : Text) :
    denial context (some message) = refusal message :=
  ofExchange_of_other early rfl

/-- A call that the limiter refused fails with the limiter's error. -/
theorem post_of_refused {message : Text}
    (refused : (Limits.wait remote.limiter allowance).2 = .refused passed message) :
    (remote.post network allowance path body read).answer =
      .error (denial (allowance.after passed).context (some message)) := by
  simp only [post, refused]

/-- A call that gets no token fails. -/
theorem post_of_denied (denied : Limits.Denies remote.limiter allowance passed) :
    ∃ message?, (remote.post network allowance path body read).answer =
      .error (denial (allowance.after passed).context message?) := by
  rcases denied with ended | ⟨message, refused⟩
  · exact ⟨none, by simp only [post, ended]⟩
  · exact ⟨some message, post_of_refused refused⟩

/-- A call that gets a token is answered by what the network does in the end. -/
theorem post_of_granted {limiter : L}
    (granted : Limits.wait remote.limiter allowance = (limiter, .granted passed))
    (address : Url.read (remote.base ++ path) = .ok url) :
    (remote.post network allowance path body read).answer =
      receive read url.dropEmptyPort
        (conclude limiter (allowance.after passed) (network ⟨url.dropEmptyPort, body⟩)).2.1
        (conclude limiter (allowance.after passed) (network ⟨url.dropEmptyPort, body⟩)).2.2 := by
  simp only [post, granted, address]

/-- **What ends a call is told by its failure**, except for a deadline that cannot be met. -/
theorem post_of_ends [LawfulLimits L]
    (ends : remote.Ends network allowance path body (readable read) cause) :
    ∃ failure, (remote.post network allowance path body read).answer = .error failure ∧
      (cause ≠ .unmet → cause.Explains failure) ∧
      (cause = .unmet → ∃ message, (Limits.wait remote.limiter allowance).2 = .refused 0 message ∧
        failure = refusal message) := by
  cases ends with
  | expired denied past =>
    obtain ⟨message?, failed⟩ := post_of_denied denied
    exact ⟨_, failed, fun _ => isTimeout_denial past message?, nofun⟩
  | unmet short =>
    -- What the limiter refuses with is neither of a deadline nor of the network.
    obtain ⟨message, refused⟩ := short.refused
    exact ⟨_, post_of_refused refused, fun other => absurd rfl other,
      fun _ => ⟨message, refused, denial_refused short.early message⟩⟩
  | denied denied early =>
    obtain ⟨message?, failed⟩ := post_of_denied denied
    exact ⟨_, failed, fun _ => explains_denial early message?, nofun⟩
  | exchanged granted address ended silent =>
    rw [post_of_granted granted address, ended]
    obtain ⟨failure, received, explains, other⟩ := receive_of_noAnswer silent _
    exact ⟨failure, received, fun _ => explains, fun same => absurd same other⟩

/-- A wait that fails ends the call. -/
theorem exists_ends_of_denied (denied : Limits.Denies remote.limiter allowance passed) :
    ∃ cause, remote.Ends network allowance path body (readable read) cause := by
  by_cases past : (allowance.after passed).context = .expired
  · exact ⟨_, .expired denied past⟩
  · by_cases short : Limits.Short remote.limiter allowance
    · exact ⟨_, .unmet short⟩
    · exact ⟨_, .denied denied past short⟩

/-- **A call that fails was ended by something**, if its request could be built. -/
theorem exists_ends (address : Url.read (remote.base ++ path) = .ok url)
    (failed : (remote.post network allowance path body read).answer = .error failure) :
    ∃ cause, remote.Ends network allowance path body (readable read) cause := by
  cases waited : Limits.wait remote.limiter allowance with
  | mk limiter outcome =>
    have outcome_eq : (Limits.wait remote.limiter allowance).2 = outcome := by rw [waited]
    cases outcome with
    | ended passed => exact exists_ends_of_denied (Or.inl outcome_eq)
    | refused passed message => exact exists_ends_of_denied (Or.inr ⟨message, outcome_eq⟩)
    | granted passed =>
      rw [post_of_granted waited address] at failed
      obtain ⟨cause, silent⟩ := exists_noAnswer (conclude_ne_late _ _ _) failed
      exact ⟨cause, .exchanged waited address rfl silent⟩

end Remote

/-! ## Runs of calls -/

/-- What is **asked** for. -/
inductive Question where
  /-- An analysis. -/
  | analysis (request : Request)
  /-- The listing of a Python source. -/
  | listing (code : Text)

namespace Question

/-- Where it is asked for. -/
def path : Question → Text
  | analysis _ => "/generate-flowchart"
  | listing _ => "/parse-python"

/-- What is posted. -/
def body : Question → Json
  | analysis request => request.toJson
  | listing code => .obj [("code", .str code)]

/-- Whether a body is read as an answer to it. -/
def readable : Question → Text → Bool
  | analysis _ => Remote.readable Report.ofJson?
  | listing _ => Remote.readable Listing.ofJson?

end Question

/-- A **call** of the remote service. -/
structure Remote.Call where
  /-- The nanoseconds since the call before. -/
  pause : Nat
  /-- How long it may take. -/
  allowance : Allowance
  /-- The network that it meets. -/
  network : Outgoing → Reply
  /-- What is asked for. -/
  question : Question

/-- Why a call failed, if it did. -/
def Remote.Called.failure? {α L : Type} (called : Remote.Called α L) : Option Failure :=
  match called.answer with
  | .error failure => some failure
  | .ok _ => none

/-- A call failed when its answer is a failure. -/
theorem Remote.Called.failure?_eq_some {α L : Type} {called : Remote.Called α L}
    {failure : Failure} :
    called.failure? = some failure ↔ called.answer = .error failure := by
  rw [failure?]
  cases called.answer <;> simp

namespace Remote

variable {L : Type} [Limits L] {remote : Remote L} {call : Call} {calls : List Call} {cause : Cause}

/-- Makes a call: the service afterwards, and why the call failed, if it did. -/
def ask (remote : Remote L) (call : Call) : Remote L × Option Failure :=
  match call.question with
  | .analysis request =>
    let called := remote.analyze call.network call.allowance request
    (called.remote, called.failure?)
  | .listing code =>
    let called := remote.parsePython call.network call.allowance code
    (called.remote, called.failure?)

/-- What ended a call without an answer. -/
def EndedBy (remote : Remote L) (call : Call) (cause : Cause) : Prop :=
  remote.Ends call.network call.allowance call.question.path call.question.body
    call.question.readable cause

/-- The service after some nanoseconds. -/
def after (remote : Remote L) (passed : Nat) : Remote L :=
  { remote with limiter := Limits.after remote.limiter passed }

/-- A **run** of calls, one after the other: each call with the service as it finds it. -/
def run : Remote L → List Call → List (Remote L × Call)
  | _, [] => []
  | remote, call :: calls =>
    (remote.after call.pause, call) :: run ((remote.after call.pause).ask call).1 calls

/-- A call does not change the address of the service. -/
theorem base_post {α : Type} (remote : Remote L) (network : Outgoing → Reply) (allowance : Allowance)
    (path : Text) (body : Json) (read : Json → Option α) :
    (remote.post network allowance path body read).remote.base = remote.base := by
  cases waited : Limits.wait remote.limiter allowance with
  | mk limiter outcome =>
    cases outcome with
    | ended | refused => simp only [post, waited]
    | granted passed =>
      cases address : Url.read (remote.base ++ path) <;> simp only [post, waited, address]

/-- A call does not move the service. -/
theorem base_ask (remote : Remote L) (call : Call) : (remote.ask call).1.base = remote.base := by
  rw [ask]
  cases call.question with
  | analysis request => exact base_post ..
  | listing code => exact base_post ..

/-- The address of the service is the same at every call of a run. -/
theorem base_of_mem_run {found : Remote L} (member : (found, call) ∈ remote.run calls) :
    found.base = remote.base := by
  induction calls generalizing remote with
  | nil => cases member
  | cons first calls ih =>
    rcases List.mem_cons.1 member with same | later
    · cases same
      rfl
    · rw [ih later, base_ask, after]

/-- A call that something ended fails, with a failure that its cause explains. -/
theorem ask_of_endedBy [LawfulLimits L] (ended : remote.EndedBy call cause) :
    ∃ failure, (remote.ask call).2 = some failure ∧ (cause ≠ .unmet → cause.Explains failure) ∧
      (cause = .unmet → ∃ message,
        (Limits.wait remote.limiter call.allowance).2 = .refused 0 message ∧
          failure = refusal message) := by
  obtain ⟨pause, allowance, network, question⟩ := call
  cases question with
  | analysis request =>
    obtain ⟨failure, failed, told⟩ := post_of_ends ended
    exact ⟨failure, Called.failure?_eq_some.2 failed, told⟩
  | listing code =>
    obtain ⟨failure, failed, told⟩ := post_of_ends ended
    exact ⟨failure, Called.failure?_eq_some.2 failed, told⟩

/-- A call that fails was ended by something. -/
theorem exists_endedBy {url : Url} {failure : Failure}
    (address : Url.read (remote.base ++ call.question.path) = .ok url)
    (failed : (remote.ask call).2 = some failure) : ∃ cause, remote.EndedBy call cause := by
  obtain ⟨pause, allowance, network, question⟩ := call
  cases question with
  | analysis request => exact exists_ends address (Called.failure?_eq_some.1 failed)
  | listing code => exact exists_ends address (Called.failure?_eq_some.1 failed)

/-- **In every run of calls each failure tells its cause**, unless this is a deadline that comes
before the token: for all limiters that refuse such a call at once, all networks and all allowances,
a call whose request can be built fails if and only if something ended it, and then its failure is
what any cause of that end explains. A call that would have to wait for its token beyond its
deadline fails as if the service had not been reached, with the error of the limiter. -/
theorem failures_tell_causes [LawfulLimits L] (remote : Remote L) (calls : List Call) :
    ∀ found call, (found, call) ∈ remote.run calls →
      ∀ url, Url.read (remote.base ++ call.question.path) = .ok url →
        ((found.ask call).2.isSome = true ↔ ∃ cause, found.EndedBy call cause) ∧
        ∀ failure, (found.ask call).2 = some failure → ∀ cause, found.EndedBy call cause →
          (cause.Explains failure ↔ cause ≠ .unmet) ∧
          (cause = .unmet → ∃ message,
            (Limits.wait found.limiter call.allowance).2 = .refused 0 message ∧
              failure = refusal message) := by
  intro found call member url address
  rw [← base_of_mem_run member] at address
  refine ⟨⟨fun failed => ?_, ?_⟩, ?_⟩
  · obtain ⟨failure, failed⟩ := Option.isSome_iff_exists.1 failed
    exact exists_endedBy address failed
  · rintro ⟨cause, ended⟩
    obtain ⟨failure, failed, -⟩ := ask_of_endedBy ended
    rw [failed]
    rfl
  · intro failure failed cause ended
    obtain ⟨failure', failed', explains, unmet⟩ := ask_of_endedBy ended
    obtain rfl : failure' = failure := Option.some.inj (failed'.symm.trans failed)
    refine ⟨⟨?_, explains⟩, unmet⟩
    rintro told rfl
    obtain ⟨message, -, rfl⟩ := unmet rfl
    cases told

/-- A call that is answered at once. -/
def quickCall : Call where
  pause := 0
  allowance := {}
  network := fun _ => .response 200 "{}" none
  question := .listing "x = 1"

/-- A call whose answer breaks off when its deadline has passed. -/
def stalledCall : Call where
  pause := 0
  allowance := { left := some 5 }
  network := fun _ => .late 7 (.interrupted 200 [] (.plain "unexpected EOF") false)
  question := .listing "x = 1"

/-- A call that is given up while it waits for its token. -/
def abandonedCall : Call := { quickCall with allowance := { givenUp := some 5 } }

/-- The service at an address that may be asked 60 times a minute, and twice at once. -/
def busyService : Remote := Remote.at_ "http://svc.test" (.ofRate 60 2)

/-- Of three calls the second one fails because of its deadline, and the third one, which gets no
token, because it is given up. -/
theorem calls_tell_causes :
    ∃ second third,
      (second, stalledCall) ∈ busyService.run [quickCall, stalledCall, abandonedCall] ∧
      second.EndedBy stalledCall .deadline ∧
      (∃ failure, (second.ask stalledCall).2 = some failure ∧ failure.isTimeout = true) ∧
      (third, abandonedCall) ∈ busyService.run [quickCall, stalledCall, abandonedCall] ∧
      third.EndedBy abandonedCall .other ∧
      ∃ failure, (third.ask abandonedCall).2 = some failure ∧ Cause.other.Explains failure := by
  obtain ⟨second, is_second⟩ : ∃ second, second = ((busyService.after 0).ask quickCall).1.after 0 :=
    ⟨_, rfl⟩
  obtain ⟨third, is_third⟩ : ∃ third, third = (second.ask stalledCall).1.after 0 := ⟨_, rfl⟩
  have member : (second, stalledCall) ∈
      busyService.run [quickCall, stalledCall, abandonedCall] := by
    rw [is_second]
    exact List.mem_cons_of_mem _ List.mem_cons_self
  have member' : (third, abandonedCall) ∈
      busyService.run [quickCall, stalledCall, abandonedCall] := by
    rw [is_third, is_second]
    exact List.mem_cons_of_mem _ (List.mem_cons_of_mem _ List.mem_cons_self)
  obtain ⟨url, address⟩ : ∃ url, Url.read "http://svc.test/parse-python" = .ok url := ⟨_, rfl⟩
  have ended : second.EndedBy stalledCall .deadline := by
    rw [is_second]
    exact .exchanged rfl rfl rfl (.late (.interrupted _ _ _ rfl) rfl)
  have ended' : third.EndedBy abandonedCall .other := by
    rw [is_third, is_second]
    exact .denied (Or.inl rfl) (by decide) (by rintro ⟨-, _, _, -, none, -⟩; cases none)
  have told := failures_tell_causes busyService _ _ _ member url address
  have told' := failures_tell_causes busyService _ _ _ member' url address
  obtain ⟨failure, failed⟩ := Option.isSome_iff_exists.1 (told.1.2 ⟨_, ended⟩)
  obtain ⟨failure', failed'⟩ := Option.isSome_iff_exists.1 (told'.1.2 ⟨_, ended'⟩)
  exact ⟨second, third, member, ended,
    ⟨failure, failed, (told.2 failure failed _ ended).1.2 nofun⟩, member', ended',
    failure', failed', (told'.2 failure' failed' _ ended').1.2 nofun⟩

/-- A call that may last one second. -/
def hastyCall : Call := { quickCall with allowance := { left := some 1000000000 } }

/-- **A deadline that cannot be met is not taken for a timeout**: with one request per minute, the
second one would have to wait for its token beyond the second that it may last. -/
theorem unmet_not_timeout :
    ∃ remote, (remote, hastyCall) ∈
        (Remote.at_ "http://svc.test" (.ofRate 1 1)).run [quickCall, hastyCall] ∧
      remote.EndedBy hastyCall .unmet ∧
      (remote.ask hastyCall).2 =
        some (refusal "rate: Wait(n=1) would exceed context deadline") ∧
      (refusal "rate: Wait(n=1) would exceed context deadline").isTimeout = false :=
  ⟨_, List.mem_cons_of_mem _ List.mem_cons_self,
    .unmet ⟨rfl, _, _, rfl, rfl, by decide, by decide⟩, rfl, rfl⟩

end Remote

end FlowTrace
