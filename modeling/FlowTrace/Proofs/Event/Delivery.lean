import Mathlib.Data.List.Nodup
import Mathlib.Data.List.Pairwise
import Mathlib.Logic.Relation
import FlowTrace.Event.Bus

/-! # Deliveries

Publishing is not one act. Handlers take their time, detached deliveries go on when the publisher
has long returned, and a handler may itself subscribe, unsubscribe or publish. So a bus is followed
here through its **traffic**: a publication takes up those who are to be served, and then serves
them one by one, while anything else may happen in between (`Traffic.Step`). What becomes of a
delivery is left open.

Every reachable traffic is **faithful** (`Traffic.faithful_of_reachable`): each publication serves
those that were registered when it was made and match its event, each exactly once, those that the
publisher waits for in strict order, whatever the handlers make of it; and the counters of the bus
are the numbers of publications and of deliveries. With handlers that answer at once, `Bus.publish`
is such a course of steps (`Traffic.run_publish`). -/

namespace FlowTrace

/-! ## Who is served, and in which order

The table of subscriptions has no order of its own: whoever reads it may find its entries in any
order, and the sorting of those that match may exchange equals. What such a reading can give is said
by `Bus.Arranged`. Because no two subscriptions have one number, nothing is left to chance: there is
one arrangement, `Bus.audience` (`Bus.arranged_iff`). -/

namespace Subscription

variable {a b c : Subscription}

/-- A subscription **precedes** another one when its priority is higher, or when the priorities are
equal and it is the earlier one. -/
def Precedes (a b : Subscription) : Prop :=
  b.options.priority < a.options.priority ∨
    a.options.priority = b.options.priority ∧ a.number < b.number

/-- A subscription is in front of another if its priority is higher, or the same and it is not
younger. -/
theorem before_iff : a.before b = true ↔ b.options.priority < a.options.priority ∨
    a.options.priority = b.options.priority ∧ a.number ≤ b.number := by
  simp [before]

/-- What is not preceded by another one is served before it, or is its equal. -/
theorem not_precedes_iff : ¬ b.Precedes a ↔ a.before b = true := by
  rw [before_iff, Precedes]
  omega

/-- Of two subscriptions with different numbers, one that is served before the other precedes it. -/
theorem precedes_of_before (served : a.before b = true) (other : a.number ≠ b.number) :
    a.Precedes b := by
  rw [before_iff] at served
  rw [Precedes]
  omega

/-- The order of subscriptions is transitive. -/
theorem before_trans (ab : a.before b = true) (bc : b.before c = true) : a.before c = true := by
  rw [before_iff] at *
  omega

/-- Of two subscriptions one is in front of the other. -/
theorem before_total (a b : Subscription) : (a.before b || b.before a) = true := by
  rw [Bool.or_eq_true, before_iff, before_iff]
  omega

/-- Subscriptions that are in front of each other have the same number. -/
theorem number_eq_of_before (ab : a.before b = true) (ba : b.before a = true) :
    a.number = b.number := by
  rw [before_iff] at *
  omega

/-- Subscriptions are **numbered** when each has a greater number than those in front of it. -/
def Numbered (subscriptions : List Subscription) : Prop :=
  subscriptions.Pairwise fun a b => a.number < b.number

namespace Numbered

variable {subscriptions : List Subscription}

/-- Some of numbered subscriptions are numbered. -/
theorem filter (numbered : Numbered subscriptions) (p : Subscription → Bool) :
    Numbered (subscriptions.filter p) :=
  List.Pairwise.filter p numbered

/-- No two subscriptions have the same number. -/
theorem nodup_map (numbered : Numbered subscriptions) : (subscriptions.map (·.number)).Nodup :=
  List.pairwise_map.2 (numbered.imp fun h => Nat.ne_of_lt h)

/-- A subscription can be told by its number. -/
theorem eq_of_number (numbered : Numbered subscriptions) (ha : a ∈ subscriptions)
    (hb : b ∈ subscriptions) (same : a.number = b.number) : a = b :=
  List.inj_on_of_nodup_map numbered.nodup_map ha hb same

/-- No subscription is there twice. -/
theorem nodup (numbered : Numbered subscriptions) : subscriptions.Nodup :=
  .of_map _ numbered.nodup_map

end Numbered

/-- A list of different subscriptions in which nobody is preceded by a later one is in strict
order. -/
theorem pairwise_precedes {order : List Subscription}
    (sorted : order.Pairwise fun a b => a.before b = true)
    (different : (order.map (·.number)).Nodup) : order.Pairwise Precedes :=
  (sorted.and (List.pairwise_map.1 different)).imp fun h => precedes_of_before h.1 h.2

end Subscription

namespace Bus

variable {bus bus' : Bus} {event : Event} {order : List Subscription}

/-- The table of subscriptions is read in some order, and those that match the event are sorted in
some way: `order` **can come out** of that. -/
def Arranged (bus : Bus) (event : Event) (order : List Subscription) : Prop :=
  ∃ reading : List Subscription, reading.Perm bus.subscriptions ∧
    order.Perm (reading.filter (·.isAbout event)) ∧ order.Pairwise fun a b => ¬ b.Precedes a

/-- An arranged order has the subscriptions that are about the event. -/
theorem Arranged.perm (arranged : bus.Arranged event order) :
    order.Perm (bus.subscriptions.filter (·.isAbout event)) := by
  obtain ⟨reading, read, matching, -⟩ := arranged
  exact matching.trans (read.filter _)

/-- An arranged order is sorted. -/
theorem Arranged.sorted (arranged : bus.Arranged event order) :
    order.Pairwise fun a b => a.before b = true := by
  obtain ⟨-, -, -, sorted⟩ := arranged
  exact sorted.imp fun h => Subscription.not_precedes_iff.1 h

/-- The audience of an event are the subscriptions that are about it. -/
theorem audience_perm (bus : Bus) (event : Event) :
    (bus.audience event).Perm (bus.subscriptions.filter (·.isAbout event)) :=
  List.mergeSort_perm _ _

/-- The audience of an event is sorted. -/
theorem sorted_audience (bus : Bus) (event : Event) :
    (bus.audience event).Pairwise fun a b => a.before b = true := by
  apply List.pairwise_mergeSort
  · intro a b c
    exact Subscription.before_trans
  · exact Subscription.before_total

/-- The audience of an event is arranged. -/
theorem arranged_audience (bus : Bus) (event : Event) :
    bus.Arranged event (bus.audience event) :=
  ⟨bus.subscriptions, .refl _, audience_perm bus event,
    (sorted_audience bus event).imp fun h => Subscription.not_precedes_iff.2 h⟩

/-- An arrangement of numbered subscriptions is in strict order. -/
theorem Arranged.pairwise_precedes (arranged : bus.Arranged event order)
    (numbered : Subscription.Numbered bus.subscriptions) :
    order.Pairwise Subscription.Precedes := by
  refine Subscription.pairwise_precedes arranged.sorted ?_
  exact (arranged.perm.map _).nodup_iff.2 (numbered.filter _).nodup_map

/-- **However the table is read and sorted**, numbered subscriptions come out in the same order. -/
theorem arranged_iff (numbered : Subscription.Numbered bus.subscriptions) :
    bus.Arranged event order ↔ order = bus.audience event := by
  constructor
  · intro arranged
    refine List.Perm.eq_of_pairwise ?_ arranged.sorted (sorted_audience bus event)
      (arranged.perm.trans (audience_perm bus event).symm)
    intro a b ha hb ab ba
    refine numbered.eq_of_number ?_ ?_ (Subscription.number_eq_of_before ab ba)
    · exact List.mem_of_mem_filter (arranged.perm.subset ha)
    · exact List.mem_of_mem_filter ((audience_perm bus event).subset hb)
  · rintro rfl
    exact arranged_audience bus event

/-! ### Subscribing and unsubscribing -/

/-- A handler with a pattern that can be read is entered under the next number. -/
theorem subscribe_eq_ok {pattern : Text} {handler : Option Handler}
    {options : SubscriptionOptions} {number : Nat}
    (h : bus.subscribe pattern handler options = .ok (bus', number)) :
    ∃ f compiled, handler = some f ∧ Pattern.read pattern = .ok compiled ∧
      number = bus.latest + 1 ∧
      bus' = { bus with
        latest := number
        subscriptions := bus.subscriptions ++ [⟨number, compiled, f, options⟩] } := by
  unfold subscribe at h
  split at h
  · cases h
  · split at h
    · cases h
    · split at h
      · cases h
      · rename_i f _ _ compiled read
        cases h
        exact ⟨f, compiled, rfl, read, rfl, rfl⟩

/-- A subscription with a pattern that can be read is registered. -/
theorem subscribe_of_read {pattern : Text} {compiled : Pattern} (handler : Handler)
    (options : SubscriptionOptions) (written : pattern ≠ [])
    (read : Pattern.read pattern = .ok compiled) :
    bus.subscribe pattern (some handler) options = .ok ({ bus with
      latest := bus.latest + 1
      subscriptions := bus.subscriptions ++ [⟨bus.latest + 1, compiled, handler, options⟩] },
      bus.latest + 1) := by
  simp [subscribe, written, read]

/-- A subscription that is there can be ended, and the others stay. -/
theorem unsubscribe?_eq_some {number : Nat} :
    bus.unsubscribe? number = some bus' ↔ (∃ s ∈ bus.subscriptions, s.number = number) ∧
      { bus with subscriptions := bus.subscriptions.filter (·.number != number) } = bus' := by
  simp [unsubscribe?]

/-- Ending a subscription is refused just when there is none with the number. -/
theorem unsubscribe?_eq_none {number : Nat} :
    bus.unsubscribe? number = none ↔ ∀ s ∈ bus.subscriptions, s.number ≠ number := by
  simp [unsubscribe?]

/-- What is **asked** of a bus besides publishing. -/
inductive Demand where
  /-- To enter a subscription. -/
  | subscribe (pattern : Text) (handler : Option Handler) (options : SubscriptionOptions)
  /-- To end the one with this number. -/
  | unsubscribe (number : Nat)

/-- The bus after a demand was met; `none` when it is refused. -/
def after? (bus : Bus) : Demand → Option Bus
  | .subscribe pattern handler options =>
    (bus.subscribe pattern handler options).toOption.map (·.1)
  | .unsubscribe number => bus.unsubscribe? number

end Bus

/-! ## Publications -/

/-- A **publication** on its way. -/
structure Publication where
  /-- The event, as it is delivered. -/
  event : Event
  /-- Those that were registered when it was published. -/
  registered : List Subscription
  /-- Those that the publisher has still to serve, in order. -/
  queue : List Subscription
  /-- Those that are being served apart from the publisher. -/
  afoot : List Subscription := []
  /-- The handlers called so far, each with what became of the delivery. -/
  calls : List (Subscription × Delivery) := []

namespace Publication

variable {p p' p'' : Publication} {call : Option (Subscription × Delivery)}
  {does : Subscription → Event → Delivery}

/-- A publication goes on: the publisher detaches or serves the first one in the queue, or a
delivery apart from it comes to its end. With it stands the call of a handler that was made, if
any. -/
inductive Goes : Publication → Option (Subscription × Delivery) → Publication → Prop
  | detach {event : Event} {registered rest afoot : List Subscription} {s : Subscription}
      {calls : List (Subscription × Delivery)} (detached : s.options.detached = true) :
      Goes ⟨event, registered, s :: rest, afoot, calls⟩ none
        ⟨event, registered, rest, afoot ++ [s], calls⟩
  | serve {event : Event} {registered rest afoot : List Subscription} {s : Subscription}
      {calls : List (Subscription × Delivery)} (awaited : s.options.detached = false)
      (outcome : Delivery) :
      Goes ⟨event, registered, s :: rest, afoot, calls⟩ (some (s, outcome))
        ⟨event, registered, rest, afoot, calls ++ [(s, outcome)]⟩
  | finish {event : Event} {registered queue after : List Subscription} {s : Subscription}
      {calls : List (Subscription × Delivery)} (before : List Subscription) (outcome : Delivery) :
      Goes ⟨event, registered, queue, before ++ s :: after, calls⟩ (some (s, outcome))
        ⟨event, registered, queue, before ++ after, calls ++ [(s, outcome)]⟩

/-- Those whose handler was called. -/
def called (p : Publication) : List Subscription :=
  p.calls.map (·.1)

/-- Those that a publication is for. -/
def addressed (p : Publication) : List Subscription :=
  p.registered.filter (·.isAbout p.event)

/-- The publisher has **returned**. -/
def Returned (p : Publication) : Prop :=
  p.queue = []

/-- A publication is **over**: nobody is left to be served. -/
def Over (p : Publication) : Prop :=
  p.queue = [] ∧ p.afoot = []

/-- Those that the publisher waits for. -/
abbrev awaited (subscriptions : List Subscription) : List Subscription :=
  subscriptions.filter fun s => !s.options.detached

/-- A step of a publication adds its call, if it makes one. -/
theorem Goes.calls_eq (h : p.Goes call p') : p'.calls = p.calls ++ call.toList := by
  cases h <;> simp

/-- A step of a publication does not change the event. -/
theorem Goes.event_eq (h : p.Goes call p') : p'.event = p.event := by
  cases h <;> rfl

/-- A step of a publication does not change who was registered. -/
theorem Goes.registered_eq (h : p.Goes call p') : p'.registered = p.registered := by
  cases h <;> rfl

/-- Nobody is lost and nobody is served twice: those to be served, those being served and those
served are together the ones that the publication is for; and what the publisher has served and has
still to serve is in strict order. -/
structure Sound (p : Publication) : Prop where
  numbered : Subscription.Numbered p.registered
  parts : (p.queue ++ p.afoot ++ p.called).Perm p.addressed
  detached : ∀ s ∈ p.afoot, s.options.detached = true
  ordered : (awaited p.called ++ awaited p.queue).Pairwise Subscription.Precedes

/-- One of a list is moved behind some that come after it. -/
private theorem perm_moved {α : Type} (a : α) (front middle rear : List α) :
    (front ++ (middle ++ a :: rear)).Perm (front ++ a :: (middle ++ rear)) :=
  List.perm_middle.append_left front

/-- A step keeps a publication sound. -/
theorem Goes.sound (h : p.Goes call p') (sound : p.Sound) : p'.Sound := by
  obtain ⟨numbered, parts, apart, ordered⟩ := sound
  cases h with
  | @detach event registered rest afoot s calls detached =>
    refine ⟨numbered, .trans ?_ parts, List.forall_mem_append.2 ⟨apart, ?_⟩, ?_⟩
    · simpa [called] using perm_moved s [] (rest ++ afoot) (calls.map (·.1))
    · simpa using detached
    · simpa [called, awaited, detached] using ordered
  | @serve event registered rest afoot s calls waits outcome =>
    refine ⟨numbered, .trans ?_ parts, apart, ?_⟩
    · simpa [called] using perm_moved s [] (rest ++ afoot ++ calls.map (·.1)) []
    · simpa [called, awaited, waits] using ordered
  | @finish event registered queue after s calls before outcome =>
    obtain ⟨front, others⟩ := List.forall_mem_append.1 apart
    obtain ⟨detached, rear⟩ := List.forall_mem_cons.1 others
    refine ⟨numbered, .trans ?_ parts, List.forall_mem_append.2 ⟨front, rear⟩, ?_⟩
    · simpa [called] using perm_moved s (queue ++ before) (after ++ calls.map (·.1)) []
    · simpa [called, awaited, detached] using ordered

/-- No subscription is in a sound publication twice. -/
theorem Sound.nodup (sound : p.Sound) : (p.queue ++ p.afoot ++ p.called).Nodup :=
  sound.parts.nodup_iff.2 (sound.numbered.filter _).nodup

/-- A publication just made is sound. -/
theorem sound_of_arranged {bus : Bus} {event : Event} {order : List Subscription}
    (arranged : bus.Arranged event order) (numbered : Subscription.Numbered bus.subscriptions) :
    Sound ⟨event, bus.subscriptions, order, [], []⟩ := by
  refine ⟨numbered, ?_, by simp, ?_⟩
  · simpa [called, addressed] using arranged.perm
  · simpa [called] using (arranged.pairwise_precedes numbered).filter _

/-- What one publication has become of another one, when each call made in between had the outcome
that `does` says. -/
structure Grown (does : Subscription → Event → Delivery) (p p' : Publication) : Prop where
  event : p'.event = p.event
  registered : p'.registered = p.registered
  calls : ∃ more, p'.calls = p.calls ++ more ∧ ∀ call ∈ more, call.2 = does call.1 p.event

/-- A publication that does not move has grown by nothing. -/
theorem Grown.refl (does : Subscription → Event → Delivery) (p : Publication) : Grown does p p :=
  ⟨rfl, rfl, [], by simp, by simp⟩

/-- A publication grows in stages. -/
theorem Grown.trans (h : Grown does p p') (h' : Grown does p' p'') : Grown does p p'' := by
  obtain ⟨more, calls, said⟩ := h.calls
  obtain ⟨more', calls', said'⟩ := h'.calls
  refine ⟨h'.event.trans h.event, h'.registered.trans h.registered, more ++ more', ?_, ?_⟩
  · rw [calls', calls, List.append_assoc]
  · rw [h.event] at said'
    exact List.forall_mem_append.2 ⟨said, said'⟩

/-- Publications grow in stages, each for itself. -/
theorem all_grown_trans {l l' l'' : List Publication} (h : List.Forall₂ (Grown does) l l')
    (h' : List.Forall₂ (Grown does) l' l'') : List.Forall₂ (Grown does) l l'' := by
  induction h generalizing l'' with
  | nil => exact h'
  | cons first _ ih =>
    cases h' with
    | cons first' rest' => exact .cons (first.trans first') (ih rest')

/-- A publication grows by a step whose call does what its handler does. -/
theorem Goes.grown (h : p.Goes call p') (said : ∀ c ∈ call, c.2 = does c.1 p.event) :
    Grown does p p' :=
  ⟨h.event_eq, h.registered_eq, call.toList, h.calls_eq, by simpa using said⟩

/-- The steps that are left to a publication, at most. -/
def pending (p : Publication) : Nat :=
  2 * p.queue.length + p.afoot.length

/-- A publication that is not over goes on, whatever the handlers do. -/
theorem exists_goes (does : Subscription → Event → Delivery) (busy : ¬ p.Over) :
    ∃ call p', p.Goes call p' ∧ (∀ c ∈ call, c.2 = does c.1 p.event) ∧ p'.pending < p.pending := by
  obtain ⟨event, registered, queue, afoot, calls⟩ := p
  cases queue with
  | cons s rest =>
    cases kind : s.options.detached with
    | true =>
      refine ⟨none, _, .detach kind, by simp, ?_⟩
      simp only [pending, List.length_append, List.length_cons, List.length_nil]
      omega
    | false =>
      refine ⟨_, _, .serve kind (does s event), by simp, ?_⟩
      simp only [pending, List.length_cons]
      omega
  | nil =>
    cases afoot with
    | nil => exact absurd ⟨rfl, rfl⟩ busy
    | cons s rest =>
      refine ⟨_, _, .finish [] (does s event), by simp, ?_⟩
      simp [pending]

end Publication

/-- The bus, with calls of handlers counted. -/
def Bus.tallied (bus : Bus) (calls : List (Subscription × Delivery)) : Bus :=
  let taken := calls.countP (·.2 matches .taken)
  { bus with
    delivered := bus.delivered + taken
    failed := bus.failed + (calls.length - taken) }

/-- Calls of handlers that answer at once. -/
def Event.answers (event : Event) (subscriptions : List Subscription) :
    List (Subscription × Delivery) :=
  subscriptions.map fun s => (s, s.handler event)

/-- No calls leave the bus as it is. -/
theorem Bus.tallied_nil (bus : Bus) : bus.tallied [] = bus := rfl

/-- Calls are counted in stages. -/
theorem Bus.tallied_append (bus : Bus) (calls more : List (Subscription × Delivery)) :
    (bus.tallied calls).tallied more = bus.tallied (calls ++ more) := by
  have := List.countP_le_length (p := fun c : Subscription × Delivery => c.2 matches .taken)
    (l := calls)
  have := List.countP_le_length (p := fun c : Subscription × Delivery => c.2 matches .taken)
    (l := more)
  simp only [tallied, List.countP_append, List.length_append, Nat.add_assoc]
  congr 2
  omega

/-- The **traffic** of a bus: the bus, who subscribed and who left, and all publications. -/
structure Traffic where
  /-- The bus. -/
  bus : Bus := {}
  /-- All subscriptions ever made. -/
  joined : List Subscription := []
  /-- The numbers of those that were ended. -/
  left : List Nat := []
  /-- All publications. -/
  publications : List Publication := []

namespace Traffic

variable {t t' : Traffic}

/-- The subscriptions that were made and not ended. -/
def registered (t : Traffic) : List Subscription :=
  t.joined.filter fun s => s.number ∉ t.left

/-- All calls of handlers, by publication. -/
def calls (t : Traffic) : List (Subscription × Delivery) :=
  t.publications.flatMap (·.calls)

/-- One **step** of the traffic: somebody subscribes or unsubscribes, or is refused to, somebody
publishes, or a publication goes on. -/
inductive Step : Traffic → Traffic → Prop
  | subscribe {bus bus' : Bus} {joined : List Subscription} {left : List Nat}
      {publications : List Publication} {number : Nat} {pattern : Text} {compiled : Pattern}
      {handler : Handler} {options : SubscriptionOptions}
      (read : Pattern.read pattern = .ok compiled)
      (entered : bus.subscribe pattern (some handler) options = .ok (bus', number)) :
      Step ⟨bus, joined, left, publications⟩
        ⟨bus', joined ++ [⟨number, compiled, handler, options⟩], left, publications⟩
  | unsubscribe {bus bus' : Bus} {joined : List Subscription} {left : List Nat}
      {publications : List Publication} {number : Nat}
      (removed : bus.unsubscribe? number = some bus') :
      Step ⟨bus, joined, left, publications⟩ ⟨bus', joined, number :: left, publications⟩
  | refuse {t : Traffic} {demand : Bus.Demand} (refused : t.bus.after? demand = none) : Step t t
  | publish {t : Traffic} {event : Event} {order : List Subscription}
      (arranged : t.bus.Arranged event order) :
      Step t { t with
        bus := { t.bus with published := t.bus.published + 1 }
        publications := t.publications ++ [⟨event, t.registered, order, [], []⟩] }
  | proceed {bus : Bus} {joined : List Subscription} {left : List Nat}
      {before after : List Publication} {p p' : Publication}
      {call : Option (Subscription × Delivery)} (goes : p.Goes call p') :
      Step ⟨bus, joined, left, before ++ p :: after⟩
        ⟨bus.tallied call.toList, joined, left, before ++ p' :: after⟩

/-- Any number of steps. -/
def Run : Traffic → Traffic → Prop :=
  Relation.ReflTransGen Step

/-- What can come of a new bus. -/
def Reachable (t : Traffic) : Prop :=
  Run {} t

/-! ## What every step keeps -/

/-- The table of the bus and its counters are in accord with what happened, and every publication is
sound. -/
structure Sound (t : Traffic) : Prop where
  numbered : Subscription.Numbered t.joined
  joined_le : ∀ s ∈ t.joined, s.number ≤ t.bus.latest
  left_le : ∀ number ∈ t.left, number ≤ t.bus.latest
  table : t.bus.subscriptions = t.registered
  published : t.bus.published = t.publications.length
  tally : t.bus.delivered = t.calls.countP (·.2 matches .taken) ∧
    t.bus.delivered + t.bus.failed = t.calls.length
  each : ∀ p ∈ t.publications, p.Sound

/-- Traffic that has not begun is sound. -/
theorem sound_empty : Sound {} :=
  ⟨.nil, by simp, by simp, rfl, rfl, ⟨rfl, rfl⟩, by simp⟩

/-- A step keeps traffic sound. -/
theorem Step.sound (h : Step t t') (sound : t.Sound) : t'.Sound := by
  obtain ⟨numbered, joined_le, left_le, table, published, tally, each⟩ := sound
  cases h with
  | @subscribe bus bus' joined left publications number pattern compiled handler options read
      entered =>
    obtain ⟨f, compiled', same, read', rfl, rfl⟩ := Bus.subscribe_eq_ok entered
    cases same
    cases read.symm.trans read'
    -- The number is new, so it is not among those that left.
    have fresh : bus.latest + 1 ∉ left := fun member => Nat.not_succ_le_self _ (left_le _ member)
    refine ⟨List.pairwise_append.2 ⟨numbered, List.pairwise_singleton _ _, ?_⟩,
      List.forall_mem_append.2 ⟨fun s hs => Nat.le_succ_of_le (joined_le s hs), by simp⟩,
      fun n hn => Nat.le_succ_of_le (left_le n hn), ?_, published, tally, each⟩
    · intro a ha b hb
      rw [List.mem_singleton.1 hb]
      exact Nat.lt_succ_of_le (joined_le a ha)
    · simpa [registered, List.filter_append, fresh] using table
  | @unsubscribe bus bus' joined left publications number removed =>
    obtain ⟨⟨s, member, rfl⟩, rfl⟩ := Bus.unsubscribe?_eq_some.1 removed
    rw [table] at member
    refine ⟨numbered, joined_le, List.forall_mem_cons.2 ⟨?_, left_le⟩, ?_, published, tally, each⟩
    · exact joined_le s (List.mem_of_mem_filter member)
    · simp only [registered] at table ⊢
      rw [table, List.filter_filter]
      exact List.filter_congr fun x _ => by simp [bne, beq_eq_decide]
  | refuse refused => exact ⟨numbered, joined_le, left_le, table, published, tally, each⟩
  | @publish _ event order arranged =>
    refine ⟨numbered, joined_le, left_le, table, ?_, ?_, ?_⟩
    · simp [published]
    · simpa [calls] using tally
    · refine List.forall_mem_append.2 ⟨each, List.forall_mem_singleton.2 ?_⟩
      rw [← table]
      exact Publication.sound_of_arranged arranged (table ▸ numbered.filter _)
  | @proceed bus joined left before after p p' call goes =>
    obtain ⟨front, others⟩ := List.forall_mem_append.1 each
    obtain ⟨here, rear⟩ := List.forall_mem_cons.1 others
    refine ⟨numbered, joined_le, left_le, table, ?_, ?_,
      List.forall_mem_append.2 ⟨front, List.forall_mem_cons.2 ⟨goes.sound here, rear⟩⟩⟩
    · simpa [Bus.tallied] using published
    -- One more call counts as taken or as failed, never as both.
    · have taken := List.countP_le_length
        (p := fun c : Subscription × Delivery => c.2 matches .taken)
        (l := call.toList)
      simp only [calls, List.flatMap_append, List.flatMap_cons, goes.calls_eq,
        List.countP_append, List.length_append, Bus.tallied] at tally ⊢
      omega

/-- A run keeps traffic sound. -/
theorem Run.sound (h : Run t t') (sound : t.Sound) : t'.Sound := by
  induction h with
  | refl => exact sound
  | tail _ step ih => exact step.sound ih

/-- All traffic that can come about is sound. -/
theorem Reachable.sound (reached : Reachable t) : t.Sound :=
  Run.sound reached sound_empty

/-! ## Demands -/

/-- Every demand is met or refused in one step, which leaves the publications alone. -/
theorem exists_step_of_demand (t : Traffic) (demand : Bus.Demand) :
    ∃ t', Step t t' ∧ t'.bus = (t.bus.after? demand).getD t.bus ∧
      t'.publications = t.publications := by
  obtain ⟨bus, joined, left, publications⟩ := t
  cases answer : bus.after? demand with
  | none => exact ⟨_, .refuse answer, rfl, rfl⟩
  | some bus' =>
    cases demand with
    | unsubscribe number => exact ⟨_, .unsubscribe answer, rfl, rfl⟩
    | subscribe pattern handler options =>
      cases entered : bus.subscribe pattern handler options with
      | error failure =>
        rw [Bus.after?, entered] at answer
        cases answer
      | ok made =>
        obtain ⟨bus'', number⟩ := made
        obtain ⟨f, compiled, rfl, read, -, -⟩ := Bus.subscribe_eq_ok entered
        rw [Bus.after?, entered] at answer
        cases answer
        exact ⟨_, .subscribe read entered, rfl, rfl⟩

/-! ## No handler stops the others -/

/-- The steps that are left to all publications, at most. -/
def pending (t : Traffic) : Nat :=
  2 * (t.publications.flatMap (·.queue)).length + (t.publications.flatMap (·.afoot)).length

/-- While a publication is not over, one of them goes on, whatever the handlers do. -/
theorem exists_step (does : Subscription → Event → Delivery)
    (busy : ¬ ∀ p ∈ t.publications, p.Over) :
    ∃ t', Step t t' ∧ t'.pending < t.pending ∧ t'.bus.subscriptions = t.bus.subscriptions ∧
      List.Forall₂ (Publication.Grown does) t.publications t'.publications := by
  obtain ⟨bus, joined, left, publications⟩ := t
  push Not at busy
  obtain ⟨p, member, busy⟩ := busy
  obtain ⟨before, after, rfl⟩ := List.append_of_mem member
  obtain ⟨call, p', goes, said, less⟩ := Publication.exists_goes does busy
  have same (l : List Publication) : List.Forall₂ (Publication.Grown does) l l :=
    List.forall₂_same.2 fun q _ => .refl does q
  refine ⟨_, .proceed goes, ?_, rfl,
    List.rel_append (same before) (.cons (goes.grown said) (same after))⟩
  simp only [Publication.pending] at less
  simp only [pending, List.flatMap_append, List.flatMap_cons, List.length_append]
  omega

/-- Whatever the handlers do, all publications can come to their end. -/
theorem exists_run_over (does : Subscription → Event → Delivery) (t : Traffic) :
    ∃ t', Run t t' ∧ (∀ p ∈ t'.publications, p.Over) ∧
      t'.bus.subscriptions = t.bus.subscriptions ∧
      List.Forall₂ (Publication.Grown does) t.publications t'.publications := by
  -- Each step leaves fewer steps to take.
  generalize steps : t.pending = n
  induction n using Nat.strongRecOn generalizing t with
  | ind n ih =>
    by_cases done : ∀ p ∈ t.publications, p.Over
    · exact ⟨t, .refl, done, rfl, List.forall₂_same.2 fun p _ => .refl does p⟩
    · obtain ⟨t₁, step, less, kept, grown⟩ := exists_step does done
      obtain ⟨t₂, run, done₂, kept₂, grown₂⟩ := ih _ (steps ▸ less) t₁ rfl
      exact ⟨t₂, .head step run, done₂, kept₂.trans kept, Publication.all_grown_trans grown grown₂⟩

/-! ## Handlers that answer at once -/

section AtOnce

variable {bus : Bus} {joined : List Subscription} {left : List Nat} {before : List Publication}
  {event : Event} {registered : List Subscription} {calls : List (Subscription × Delivery)}

/-- The first one in the queue answers at once, be it detached or not. -/
theorem run_head (s : Subscription) (rest : List Subscription) :
    Run ⟨bus, joined, left, before ++ [⟨event, registered, s :: rest, [], calls⟩]⟩
      ⟨bus.tallied (event.answers [s]), joined, left,
        before ++ [⟨event, registered, rest, [], calls ++ event.answers [s]⟩]⟩ := by
  cases kind : s.options.detached with
  | false => exact .single (.proceed (.serve kind (s.handler event)))
  | true =>
    refine .head (.proceed (.detach kind)) (.single ?_)
    exact .proceed (.finish [] (s.handler event))

/-- All in the queue answer at once. -/
theorem run_queue (queue : List Subscription) :
    Run ⟨bus, joined, left, before ++ [⟨event, registered, queue, [], calls⟩]⟩
      ⟨bus.tallied (event.answers queue), joined, left,
        before ++ [⟨event, registered, [], [], calls ++ event.answers queue⟩]⟩ := by
  induction queue generalizing bus calls with
  | nil =>
    rw [Event.answers, List.map_nil, List.append_nil, Bus.tallied_nil]
    exact .refl
  | cons s rest ih =>
    have further := (@run_head bus joined left before event registered calls s rest).trans ih
    rwa [Bus.tallied_append, List.append_assoc, Event.answers, Event.answers, ← List.map_append]
      at further

end AtOnce

/-- The traffic after an event was published to handlers that answer at once. -/
def afterPublish (t : Traffic) (event : Event) : Traffic :=
  { t with
    bus := (t.bus.publish event).1
    publications := t.publications ++ [⟨event, t.registered, [], [], (t.bus.publish event).2⟩] }

/-- **Publishing to handlers that answer at once** is a course of steps. -/
theorem run_publish (t : Traffic) (event : Event) : Run t (t.afterPublish event) :=
  .head (.publish (Bus.arranged_audience t.bus event)) (run_queue (t.bus.audience event))

/-! ## Faithful traffic -/

/-- What the traffic of a bus has to be. -/
structure Faithful (t : Traffic) : Prop where
  /-- In the table of the bus are those who subscribed and did not leave. -/
  table : t.bus.subscriptions = t.registered
  /-- Whoever is registered can leave, and nobody else can; all others stay. -/
  leaving : ∀ number,
    (t.bus.unsubscribe? number = none ↔ ∀ s ∈ t.registered, s.number ≠ number) ∧
    ∀ bus', t.bus.unsubscribe? number = some bus' →
      Step t { t with bus := bus', left := number :: t.left } ∧
      bus'.subscriptions = t.registered.filter (·.number != number)
  /-- Whatever is asked of the bus is met or refused; a demand that is refused leaves it alone. -/
  asked : ∀ demand, ∃ t', Step t t' ∧ t'.bus = (t.bus.after? demand).getD t.bus ∧
    t'.publications = t.publications
  /-- Nobody is called but those a publication is for, and none of them twice. -/
  only : ∀ p ∈ t.publications, p.called ⊆ p.addressed ∧ p.called.Nodup
  /-- In the end all whom a publication is for were called, each once. -/
  all : ∀ p ∈ t.publications, p.Over → p.called.Perm p.addressed
  /-- When the publisher returns, all it waits for were called. -/
  awaited : ∀ p ∈ t.publications, p.Returned →
    (Publication.awaited p.called).Perm (Publication.awaited p.addressed)
  /-- Those the publisher waits for are called by descending priority, then in the order of
  subscribing. -/
  ordered : ∀ p ∈ t.publications, (Publication.awaited p.called).Pairwise Subscription.Precedes
  /-- The order in which an event is delivered is a matter of the subscriptions alone. -/
  settled : ∀ event order, t.bus.Arranged event order ↔ order = t.bus.audience event
  /-- Whatever the handlers do, all publications can come to their end. -/
  unstoppable : ∀ does, ∃ t', Run t t' ∧ (∀ p ∈ t'.publications, p.Over) ∧
    t'.bus.subscriptions = t.bus.subscriptions ∧
    List.Forall₂ (Publication.Grown does) t.publications t'.publications
  /-- With handlers that answer at once, an event can be published in one go. -/
  atOnce : ∀ event, Run t (t.afterPublish event)
  /-- The counter of publications. -/
  published : t.bus.published = t.publications.length
  /-- The counter of deliveries that failed. -/
  failed : t.bus.failed = t.calls.countP (·.2 ≠ .taken)
  /-- All deliveries are counted. -/
  handled : t.bus.delivered + t.bus.failed = t.calls.length

/-- **The traffic of a bus is faithful** at any time. -/
theorem faithful_of_reachable (reached : Reachable t) : t.Faithful := by
  have sound := reached.sound
  have numbered : Subscription.Numbered t.bus.subscriptions :=
    sound.table ▸ sound.numbered.filter _
  refine ⟨sound.table, fun number => ⟨?_, fun bus' left => ⟨.unsubscribe left, ?_⟩⟩,
    exists_step_of_demand t, fun p member => ⟨?_, ?_⟩, fun p member done => ?_,
    fun p member back => ?_, fun p member => ?_, fun event order => Bus.arranged_iff numbered,
    fun does => exists_run_over does t, run_publish t, sound.published, ?_, sound.tally.2⟩
  · rw [Bus.unsubscribe?_eq_none, sound.table]
  · obtain ⟨-, rfl⟩ := Bus.unsubscribe?_eq_some.1 left
    exact congrArg (List.filter _) sound.table
  · exact fun s called => (sound.each p member).parts.subset (List.mem_append_right _ called)
  · exact (List.nodup_append.1 (sound.each p member).nodup).2.1
  · have parts := (sound.each p member).parts
    rwa [done.1, done.2] at parts
  · have parts := (sound.each p member).parts.filter fun s => !s.options.detached
    have none_awaited : p.afoot.filter (fun s => !s.options.detached) = [] := by
      simpa using (sound.each p member).detached
    rw [back, List.nil_append, List.filter_append, none_awaited] at parts
    exact parts
  · exact (List.pairwise_append.1 (sound.each p member).ordered).1
  · have split := List.length_eq_countP_add_countP (l := t.calls) fun c => c.2 matches .taken
    have same : t.calls.countP (fun c => c.2 ≠ .taken) =
        t.calls.countP (fun c => ¬ (c.2 matches .taken) = true) := by
      refine List.countP_congr fun c _ => ?_
      cases c.2 <;> simp
    have := sound.tally
    omega

/-- One of two handlers breaks down; the later subscription has the higher priority. -/
theorem faithful_with_breakdown : ∃ t : Traffic, Reachable t ∧ t.Faithful ∧
    (t.publications.map fun p => p.calls.map fun c => (c.1.number, c.2)) =
      [[(2, .taken), (1, .brokeDown)]] ∧
    t.bus.published = 1 ∧ t.bus.delivered = 1 ∧ t.bus.failed = 1 := by
  obtain ⟨any, read, hit⟩ : ∃ any, Pattern.read "." = .ok any ∧
      any.matchesIn Event.playbackStep = true := ⟨_, rfl, by decide +kernel⟩
  let first : Subscription := ⟨1, any, fun _ => .brokeDown, {}⟩
  let second : Subscription := ⟨2, any, fun _ => .taken, { priority := 1 }⟩
  let event : Event := { kind := Event.playbackStep }
  have arranged : Bus.Arranged { subscriptions := [first, second], latest := 2 } event
      [second, first] := by
    refine ⟨[first, second], .refl _, ?_, ?_⟩
    · simpa [first, second, event, Subscription.isAbout, hit] using List.Perm.swap first second []
    · simp [first, second, Subscription.Precedes]
  have reached : Reachable ⟨⟨[first, second], 2, 1, 1, 1⟩, [first, second], [],
      [⟨event, [first, second], [], [], [(second, .taken), (first, .brokeDown)]⟩]⟩ := by
    have written : ("." : Text) ≠ [] := by decide
    have joining : Run {} ⟨⟨[first, second], 2, 0, 0, 0⟩, [first, second], [], []⟩ :=
      .tail (.single (.subscribe read (Bus.subscribe_of_read _ {} written read)))
        (.subscribe read (Bus.subscribe_of_read _ { priority := 1 } written read))
    exact .tail (.tail (.tail joining (.publish arranged))
      (.proceed (.serve rfl .taken))) (.proceed (.serve rfl .brokeDown))
  exact ⟨_, reached, faithful_of_reachable reached, rfl, rfl, rfl, rfl⟩

end Traffic

end FlowTrace
