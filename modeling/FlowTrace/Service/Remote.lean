import FlowTrace.Json.Reader
import FlowTrace.Report.Wire
import FlowTrace.Service.Basic
import FlowTrace.Text.Blank
import FlowTrace.Url

/-! # The remote service

The service behind a web address. A call waits for a token from a limiter, posts its request once,
and reads the answer; it is never repeated. Each way in which a call can end without an answer has
its own kind of failure (`Remote.post`). -/

namespace FlowTrace

/-! ## Rate limits

The calls are paced by a **limiter**, which grants one token for each request. How it counts is its
own affair: a remote service works with any type of limiters (`Limits`). -/

/-- How a wait for a token ends. -/
inductive Waited where
  /-- There is a token after some nanoseconds. -/
  | granted (passed : Nat)
  /-- After some nanoseconds the context ends, and the wait with it. -/
  | ended (passed : Nat)
  /-- After some nanoseconds the limiter gives up, with an error of its own. -/
  | refused (passed : Nat) (message : Text)
  deriving Repr

/-- A type of **limiters**. -/
class Limits (L : Type) where
  /-- The limiter after some nanoseconds. -/
  after : L → Nat → L
  /-- Waits for a token within an allowance: the limiter after the wait, and how it ends. -/
  wait : L → Allowance → L × Waited
  /-- The nanoseconds until there is a token for the next request; `none` if there never is one. -/
  due? : L → Option Nat

/-- What is assumed of limiters. -/
class LawfulLimits (L : Type) [Limits L] : Prop where
  /-- A request for which there is no token before its deadline is refused at once. -/
  refused_of_short : ∀ (limiter : L) (allowance : Allowance) {due left : Nat},
    allowance.context = .live → Limits.due? limiter = some due → allowance.left = some left →
      left < due → ∃ message, (Limits.wait limiter allowance).2 = .refused 0 message

/-- A **limiter** of the usual kind, which the program runs with. Tokens come in at a constant
rate, and at most a `burst` of them can be saved up. They are counted in units so small that one
nanosecond brings `perMinute` of them. -/
structure Limiter where
  /-- The requests per minute; nothing is limited without it. -/
  perMinute : Option Nat
  /-- How many tokens can be saved up. -/
  burst : Int
  /-- The saved tokens, in small units; below zero when tokens were promised in advance. -/
  level : Int

namespace Limiter

/-- The small units that make up one token. -/
def unit : Int := 60000000000

/-- A limiter with all tokens saved up. A rate that is not positive limits nothing. -/
def ofRate (perMinute burst : Int) : Limiter :=
  if perMinute ≤ 0 then ⟨none, 0, 0⟩ else ⟨some perMinute.toNat, burst, burst * unit⟩

/-- The limiter after some nanoseconds. -/
def after (limiter : Limiter) (passed : Nat) : Limiter :=
  match limiter.perMinute with
  | none => limiter
  | some rate =>
    { limiter with level := min (limiter.burst * unit) (limiter.level + rate * passed) }

/-- The whole nanoseconds until there is a token; `none` if there never is one. -/
def due? (limiter : Limiter) : Option Nat :=
  match limiter.perMinute with
  | none => some 0
  | some rate =>
    if limiter.burst < 1 then none else some ((unit - limiter.level).toNat / rate)

/-- The limiter when a token was taken and waited for. -/
def spend (limiter : Limiter) (due : Nat) : Limiter :=
  match limiter.perMinute with
  | none => limiter
  | some _ => after { limiter with level := limiter.level - unit } due

/-- Waits for a token. Without one to come, or with one that comes after the deadline, this is given
up at once; a call that is given up while it waits leaves its token to others. -/
def wait (limiter : Limiter) (allowance : Allowance) : Limiter × Waited :=
  match limiter.due? with
  | none =>
    (limiter, .refused 0
      ("rate: Wait(n=1) exceeds limiter's burst " ++ Text.ofInt limiter.burst))
  | some due =>
    if allowance.context != .live then (limiter, .ended 0)
    else if !allowance.left.all (due ≤ ·) then
      (limiter, .refused 0 "rate: Wait(n=1) would exceed context deadline")
    else
      match allowance.givenUp with
      | some givenUp =>
        if givenUp < due then (limiter.after givenUp, .ended givenUp)
        else (limiter.spend due, .granted due)
      | none => (limiter.spend due, .granted due)

end Limiter

instance : Limits Limiter := ⟨Limiter.after, Limiter.wait, Limiter.due?⟩

/-! ## Requests -/

/-- A request on its way to the remote service. -/
structure Outgoing where
  /-- The address it is posted to. -/
  url : Url
  /-- What is posted. -/
  body : Json

/-- What the network does with a request. It follows redirects by itself, so that the response is
the last one. -/
inductive Reply where
  /-- There is a response with a status and a body. Reading the body may break off at its end,
  with a message. -/
  | response (status : Int) (body : Text) (cut : Option Text)
  /-- Nothing comes until the caller stops waiting. -/
  | silence
  /-- The network itself stops waiting. -/
  | slow
  /-- The exchange breaks down, with a message. -/
  | broken (message : Text)
  /-- The exchange breaks down with any failure, perhaps because the network was too slow. -/
  | failed (failure : Failure) (slow : Bool)
  /-- There is a response with a status and a body, but reading the body breaks off with any
  failure, perhaps because the network was too slow. -/
  | interrupted (status : Int) (body : Text) (failure : Failure) (slow : Bool)
  /-- Some nanoseconds pass first. -/
  | late (passed : Nat) (reply : Reply)
  deriving Repr

/-- A **remote service**: where it is, and how often it may be asked. -/
structure Remote (L : Type := Limiter) where
  /-- The address of the service, without a slash at its end. -/
  base : Text
  /-- The limiter of the calls. -/
  limiter : L

namespace Remote

/-- The address of a service that runs on the same machine. -/
def defaultBase : Text := "http://localhost:5000"

/-- The remote service at an address, the default one if the address is empty. -/
def at_ (base : Text) (limiter : Limiter) : Remote :=
  let base := if base.isEmpty then defaultBase else base
  ⟨(base.reverse.dropWhile (· == ('/' : UInt8))).reverse, limiter⟩

/-- How many bytes of the body of a failed response are read. -/
def errorBodySize : Nat := 4096

/-- What the body of a failed response says: its member `error` if it is an object with one, else
the whole text without blanks around it. -/
def errorText (body : Text) : Text :=
  let told : Option Text := do
    let members ← Json.Writes.members? [← Json.read? body]
    (Json.writesTo members "error").text?
  match told with
  | some text => if text.isEmpty then body.trim else text
  | none => body.trim

/-- Where a call leads: the service afterwards, the request that reached the network if one did,
and the answer. -/
structure Called (α : Type) (L : Type := Limiter) where
  /-- The service after the call. -/
  remote : Remote L
  /-- The request that reached the network. -/
  sent : Option Outgoing
  /-- The answer. -/
  answer : Except Failure α

/-- The answer to a request, by what the network does with it. The context is the one at the end
of the exchange. -/
def receive {α : Type} (read : Json → Option α) (url : Url) (context : Context) :
    Reply → Except Failure α
  | .silence =>
    .error (.ofExchange context false
      (.wrapped ("Post " ++ url.toPublicText.quoted) (context.failure?.getD .canceled)))
  | .slow =>
    .error (.ofExchange context true
      (.wrapped ("Post " ++ url.toPublicText.quoted) (.plain "i/o timeout")))
  | .broken message =>
    .error (.ofExchange context false
      (.wrapped ("Post " ++ url.toPublicText.quoted) (.plain message)))
  | .failed failure slow =>
    .error (.ofExchange context slow (.wrapped ("Post " ++ url.toPublicText.quoted) failure))
  | .response status body cut =>
    if !Failure.isSuccessStatus status then
      .error (.transport status (errorText (body.take errorBodySize)) none)
    else
      match cut with
      | some message => .error (.ofExchange context false (.plain message))
      | none =>
        match (Json.read? body).bind read with
        | some answer => .ok answer
        | none => .error (.transport status [] (some (.plain "parsing response")))
  | .interrupted status body failure slow =>
    if !Failure.isSuccessStatus status then
      .error (.transport status (errorText (body.take errorBodySize)) none)
    else .error (.ofExchange context slow failure)
  | .late _ reply => receive read url context reply

section

variable {L : Type} [Limits L]

/-- The limiter and the context at the end of an exchange, and what the network did in the end. -/
def conclude (limiter : L) (allowance : Allowance) : Reply → L × Context × Reply
  | .silence =>
    let (time, ended) := allowance.ending?.getD (0, .canceled)
    (Limits.after limiter time, ended, .silence)
  | .late passed reply => conclude (Limits.after limiter passed) (allowance.after passed) reply
  | reply => (limiter, allowance.context, reply)

/-- The failure of a call that got no token: the context ended, or the limiter gave up. -/
def denial (context : Context) (message? : Option Text) : Failure :=
  .ofExchange context false
    (match message? with
    | some message => .plain message
    | none => context.failure?.getD .canceled)

/-- Posts a value to a path of the service. -/
def post {α : Type} (remote : Remote L) (network : Outgoing → Reply) (allowance : Allowance)
    (path : Text) (body : Json) (read : Json → Option α) : Called α L :=
  let (limiter, waited) := Limits.wait remote.limiter allowance
  let remote := { remote with limiter := limiter }
  match waited with
  | .ended passed => ⟨remote, none, .error (denial (allowance.after passed).context none)⟩
  | .refused passed message =>
    ⟨remote, none, .error (denial (allowance.after passed).context (some message))⟩
  | .granted passed =>
    match Url.read (remote.base ++ path) with
    | .error e =>
      ⟨remote, none, .error (.wrapped "creating request" (.plain e.message))⟩
    | .ok url =>
      let outgoing : Outgoing := ⟨url.dropEmptyPort, body⟩
      let (limiter, context, reply) :=
        conclude limiter (allowance.after passed) (network outgoing)
      ⟨{ remote with limiter := limiter }, some outgoing,
        receive read outgoing.url context reply⟩

/-- Asks for an analysis. -/
def analyze (remote : Remote L) (network : Outgoing → Reply) (allowance : Allowance)
    (request : Request) : Called Report L :=
  remote.post network allowance "/generate-flowchart" request.toJson Report.ofJson?

/-- Asks for the listing of a Python source. -/
def parsePython (remote : Remote L) (network : Outgoing → Reply) (allowance : Allowance)
    (code : Text) : Called Listing L :=
  remote.post network allowance "/parse-python" (.obj [("code", .str code)]) Listing.ofJson?

/-- The remote service as a service that remembers nothing. -/
def service (remote : Remote L) (network : Outgoing → Reply) : Service where
  analyze context request := (remote.analyze network { context := context } request).answer.map some
  parsePython context code := (remote.parsePython network { context := context } code).answer

end

end Remote

end FlowTrace
