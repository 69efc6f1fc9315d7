import FlowTrace.Event.Basic
import FlowTrace.Pattern.Reader
import FlowTrace.Text.Quoted

/-! # The event bus

Handlers subscribe to the kinds of events that a pattern describes. A published event is
delivered to every subscription that matches it, once each: first by descending priority, then in
the order of subscribing. What a handler does with an event never reaches the publisher; failures
are only counted. -/

namespace FlowTrace

/-- What became of a delivery. -/
inductive Delivery where
  /-- The handler took the event. -/
  | taken
  /-- The handler reported a failure. -/
  | refused
  /-- The handler broke down. -/
  | brokeDown
  deriving DecidableEq, Repr

/-- A **handler** of events. -/
abbrev Handler := Event → Delivery

/-- How a subscription wants its events. -/
structure SubscriptionOptions where
  /-- Deliver without making the publisher wait. -/
  detached : Bool := false
  /-- Deliveries with a higher priority come first. -/
  priority : Int := 0
  /-- Which of the matching events are wanted. -/
  wants : Event → Bool := fun _ => true

/-- A **subscription**. -/
structure Subscription where
  /-- The number of the subscription, its identity. -/
  number : Nat
  /-- The kinds of events it is about. -/
  pattern : Pattern
  /-- The handler. -/
  handler : Handler
  /-- How it wants its events. -/
  options : SubscriptionOptions

/-- Whether a subscription is about an event. -/
def Subscription.isAbout (s : Subscription) (event : Event) : Bool :=
  s.pattern.matchesIn event.kind && s.options.wants event

/-- Whether a subscription is served before another one, or is the same. -/
def Subscription.before (a b : Subscription) : Bool :=
  b.options.priority < a.options.priority ||
    (a.options.priority == b.options.priority && a.number ≤ b.number)

/-- A **bus**: the subscriptions, and counts of what happened so far. -/
structure Bus where
  /-- The subscriptions. -/
  subscriptions : List Subscription := []
  /-- The number of the latest subscription. -/
  latest : Nat := 0
  /-- How many events were published. -/
  published : Nat := 0
  /-- How many deliveries were taken. -/
  delivered : Nat := 0
  /-- How many deliveries were not. -/
  failed : Nat := 0

namespace Bus

/-- Adds a subscription and gives its number. There has to be a handler and a pattern. -/
def subscribe (bus : Bus) (pattern : Text) (handler : Option Handler)
    (options : SubscriptionOptions) : Except Failure (Bus × Nat) :=
  match handler with
  | none => .error (.plain "handler cannot be nil")
  | some handler =>
    if pattern.isEmpty then .error (.plain "pattern cannot be empty")
    else
      match Pattern.read pattern with
      | .error e => .error (.wrapped ("invalid pattern " ++ pattern.quoted) (.plain e.message))
      | .ok compiled =>
        let number := bus.latest + 1
        .ok ({ bus with
          latest := number
          subscriptions := bus.subscriptions ++ [⟨number, compiled, handler, options⟩] }, number)

/-- The bus without a subscription; `none` when it is not there. -/
def unsubscribe? (bus : Bus) (number : Nat) : Option Bus :=
  if bus.subscriptions.any (·.number == number) then
    some { bus with subscriptions := bus.subscriptions.filter (·.number != number) }
  else none

/-- The subscriptions that an event is delivered to, in the order of delivery. -/
def audience (bus : Bus) (event : Event) : List Subscription :=
  (bus.subscriptions.filter (·.isAbout event)).mergeSort Subscription.before

/-- Publishes an event. Beside the bus, the deliveries made are given in order, each with what
became of it. -/
def publish (bus : Bus) (event : Event) : Bus × List (Subscription × Delivery) :=
  let deliveries := (bus.audience event).map fun s => (s, s.handler event)
  let taken := deliveries.countP (·.2 matches .taken)
  ({ bus with
    published := bus.published + 1
    delivered := bus.delivered + taken
    failed := bus.failed + (deliveries.length - taken) }, deliveries)

end Bus

end FlowTrace
