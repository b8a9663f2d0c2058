import Chimaera.Control.Coalescing
import Chimaera.Control.Guest
import Chimaera.Control.Host
import Chimaera.Ros.Routing

/-! `Bridge::exchange` with a controller. The node's own limits are parameters, those of the
controller's outgoing queue are constants of another package; a backlog passes when it fits
the latter. Both loops run on fuel, which a caller can always give enough of. -/

namespace Chimaera.Ros
open Base.BigEndian Base.Unsigned Base.Transition Control

/-- The interface `DataController`; the node submits with the default key. -/
structure DataController (γ : Type) where
  take : γ → Except String (Option Message × γ)
  submit : γ → Message → Except String γ

def gem5HostController : DataController Host where
  take host := do
    let (message, ready) ← host.ready.take .machine
    .ok (message, { host with ready := ready, taken := host.taken ++ message.toList })
  submit host data := host.submit data []

def gem5GuestController : DataController Guest where
  take guest := do
    let (message, incoming) ← guest.incoming.take .machine
    .ok (message, { guest with incoming := incoming, taken := guest.taken ++ message.toList })
  submit guest data := guest.submit data []

namespace Bridge

variable {γ : Type}

abbrev Outcome (γ : Type) := EStateM.Result ByteString (Bridge × γ) Unit

def receiveLoop (controller : DataController γ) : Nat → Bridge × γ → Option (Outcome γ)
  | 0, _ => none
  | fuel + 1, (bridge, state) =>
      match controller.take state with
      | .error what => some (.error (literal what) (bridge, state))
      | .ok (none, state) => some (.ok () (bridge, state))
      | .ok (some bytes, state) =>
          match (submit bytes).run bridge with
          | .error what bridge => some (.error what (bridge, state))
          | .ok _ bridge => receiveLoop controller fuel (bridge, state)

/-- The executor runs callbacks on what has arrived; one that throws ends the exchange. -/
def pump : List (ByteString × ByteString) → EStateM ByteString Bridge Unit
  | [] => pure ()
  | (key, payload) :: rest => do
      callback key payload
      pump rest

def transmitLoop (controller : DataController γ) : Nat → Bridge × γ → Option (Outcome γ)
  | 0, _ => none
  | fuel + 1, (bridge, state) =>
      match bridge.take with
      | (none, bridge) => some (.ok () (bridge, state))
      | (some bytes, bridge) =>
          match controller.submit state bytes with
          | .error what => some (.error (literal what) (bridge, state))
          | .ok state => transmitLoop controller fuel (bridge, state)

def exchange (controller : DataController γ) (arrivals : List (ByteString × ByteString))
    (fuel : Nat) (start : Bridge × γ) : Option (Outcome γ) :=
  match receiveLoop controller fuel start with
  | none => none
  | some (.error what after) => some (.error what after)
  | some (.ok _ (bridge, state)) =>
      match (pump arrivals).run bridge with
      | .error what bridge => some (.error what (bridge, state))
      | .ok _ bridge => transmitLoop controller fuel (bridge, state)

end Bridge

/-! ## Controllers that work -/

/-- A controller seen through its two queues. `Fits` says which batches its outgoing queue
takes. -/
structure DataController.Works {γ : Type} (controller : DataController γ) (Good : γ → Prop)
    (incoming outgoing : γ → Batch) (Fits : γ → Batch → Prop) : Prop where
  takes : ∀ state, Good state → ∃ after, controller.take state = .ok ((incoming state).head?, after) ∧
    Good after ∧ incoming after = (incoming state).tail ∧ outgoing after = outgoing state ∧
    Fits after = Fits state
  accepts : ∀ state data, Good state → Fits state (outgoing state ++ [data]) →
    ∃ after, controller.submit state data = .ok after ∧ Good after ∧
      outgoing after = outgoing state ++ [data] ∧ Fits after = Fits state
  refuses : ∀ state data, Good state → ¬Fits state (outgoing state ++ [data]) →
    ∃ what, controller.submit state data = .error what
  nothing : ∀ state, Fits state []
  shorter : ∀ state first second, Fits state (first ++ second) → Fits state first

theorem admissible_left {first second : Batch} (fits : Admissible (first ++ second)) :
    Admissible first := by
  obtain ⟨few, light⟩ := fits
  rw [List.length_append] at few
  rw [payload_append] at light
  exact ⟨by omega, by omega⟩

theorem submit_unkeyed {queue : OutgoingQueue} (valid : queue.Valid) {data : Message}
    (fits : Admissible (queue.contents ++ [data])) :
    ∃ after, queue.submit .machine data [] = .ok after ∧ after.Valid ∧
      after.contents = queue.contents ++ [data] := by
  have within := (admissible_snoc (queue.kept []) data).mp fits
  have accepted := OutgoingQueue.submit_eq valid .machine data []
  rw [if_pos within] at accepted
  refine ⟨_, accepted, OutgoingQueue.submit_valid valid accepted, ?_⟩
  rw [OutgoingQueue.contents, List.map_append]
  rfl

theorem submit_unkeyed_refused {queue : OutgoingQueue} (valid : queue.Valid) {data : Message}
    (excess : ¬Admissible (queue.contents ++ [data])) :
    queue.submit .machine data [] = .error "controller queue limit exceeded" := by
  have outside := fun within => excess ((admissible_snoc (queue.kept []) data).mpr within)
  have refused := OutgoingQueue.submit_eq valid .machine data []
  rwa [if_neg outside] at refused

structure HostWorks (host : Host) : Prop where
  valid : host.Valid
  working : host.failure = ""

def HostFits (host : Host) (batch : Batch) : Prop :=
  Admissible batch ∧ (host.stopped = true → batch = [])

theorem gem5HostController_works :
    gem5HostController.Works HostWorks (fun host => host.ready.contents)
      (fun host => host.outgoing.contents) HostFits where
  takes host good := by
    obtain ⟨ready, found, rest, kept⟩ := ReceivedQueue.take_spec good.valid.ready
    refine ⟨{ host with
      ready := ready
      taken := host.taken ++ host.ready.contents.head?.toList }, ?_, ?_, rest, rfl, rfl⟩
    · simp only [gem5HostController, found, ok_bind]
    · exact ⟨⟨good.valid.outgoing, good.valid.incoming, kept⟩, good.working⟩
  accepts host data good fits := by
    obtain ⟨outgoing, queued, kept, contents⟩ := submit_unkeyed good.valid.outgoing fits.1
    have running : host.stopped = false := by
      apply Bool.eq_false_iff.mpr
      intro stopped
      exact List.append_ne_nil_of_right_ne_nil _ (List.cons_ne_nil _ _) (fits.2 stopped)
    refine ⟨{ host with outgoing := outgoing }, ?_, ?_, contents, rfl⟩
    · simp [gem5HostController, Host.submit, running, good.working, queued]
    · exact ⟨⟨kept, good.valid.incoming, good.valid.ready⟩, good.working⟩
  refuses host data good excess := by
    cases stopped : host.stopped with
    | true => exact ⟨"host controller stopped", by simp [gem5HostController, Host.submit, stopped]⟩
    | false =>
      have refused := submit_unkeyed_refused good.valid.outgoing
        fun fits => excess ⟨fits, by simp [stopped]⟩
      refine ⟨"controller queue limit exceeded", ?_⟩
      simp [gem5HostController, Host.submit, stopped, good.working, refused]
  nothing _ := ⟨admissible_nil, fun _ => rfl⟩
  shorter _ _ _ fits :=
    ⟨admissible_left fits.1, fun stopped => (List.append_eq_nil_iff.mp (fits.2 stopped)).1⟩

structure GuestWorks (guest : Guest) : Prop where
  valid : guest.Valid
  working : guest.failure = ""

theorem gem5GuestController_works :
    gem5GuestController.Works GuestWorks (fun guest => guest.incoming.contents)
      (fun guest => guest.outgoing.contents) fun _ => Admissible where
  takes guest good := by
    obtain ⟨incoming, found, rest, kept⟩ := ReceivedQueue.take_spec good.valid.incoming
    refine ⟨{ guest with
      incoming := incoming
      taken := guest.taken ++ guest.incoming.contents.head?.toList }, ?_, ?_, rest, rfl, rfl⟩
    · simp only [gem5GuestController, found, ok_bind]
    · exact ⟨⟨good.valid.outgoing, kept⟩, good.working⟩
  accepts guest data good fits := by
    obtain ⟨outgoing, queued, kept, contents⟩ := submit_unkeyed good.valid.outgoing fits
    refine ⟨{ guest with outgoing := outgoing }, ?_, ?_, contents, rfl⟩
    · simp [gem5GuestController, Guest.submit, good.working, queued]
    · exact ⟨⟨kept, good.valid.incoming⟩, good.working⟩
  refuses guest data good excess := by
    have refused := submit_unkeyed_refused good.valid.outgoing excess
    refine ⟨"controller queue limit exceeded", ?_⟩
    simp [gem5GuestController, Guest.submit, good.working, refused]
  nothing _ := admissible_nil
  shorter _ _ _ fits := admissible_left fits

/-! ## The three parts of an exchange -/

namespace Bridge

section Loops

variable {γ : Type} {controller : DataController γ} {Good : γ → Prop}
  {incoming outgoing : γ → Batch} {Fits : γ → Batch → Prop}

theorem accepts_publish (bridge : Bridge) (key payload : ByteString) (received : Nat)
    (bytes : Message) :
    ({ bridge.publish key payload with received := received } : Bridge).Accepts bytes ↔
      bridge.Accepts bytes := by
  have same : ∀ name, ({ bridge.publish key payload with received := received } : Bridge).Knows
      name ↔ bridge.Knows name := by
    intro name
    rw [knows_iff_endpoint, knows_iff_endpoint, ← endpoints_publish bridge key payload]
    rfl
  simp only [Accepts, same]
  rfl

structure SameQueue (bridge after : Bridge) : Prop where
  outgoing : after.outgoing = bridge.outgoing
  byteLimit : after.byteLimit = bridge.byteLimit
  queueLimit : after.queueLimit = bridge.queueLimit

theorem receiveLoop_accepted (works : controller.Works Good incoming outgoing Fits) (fuel : Nat)
    (bridge : Bridge) (state : γ) (good : Good state)
    (accepted : ∀ bytes ∈ incoming state, bridge.Accepts bytes) :
    receiveLoop controller fuel (bridge, state) = none ∧ fuel ≤ (incoming state).length ∨
      ∃ after last, receiveLoop controller fuel (bridge, state) = some (.ok () (after, last)) ∧
        SameQueue bridge after ∧ Good last ∧ outgoing last = outgoing state ∧
        Fits last = Fits state := by
  induction fuel generalizing bridge state with
  | zero => exact .inl ⟨rfl, Nat.zero_le _⟩
  | succ fuel ih =>
    obtain ⟨next, taken, still, rest, kept, limits⟩ := works.takes state good
    cases waiting : incoming state with
    | nil =>
      rw [waiting] at taken
      refine .inr ⟨bridge, next, ?_, ⟨rfl, rfl, rfl⟩, still, kept, limits⟩
      simp only [receiveLoop, taken, List.head?_nil]
    | cons bytes later =>
      rw [waiting] at taken rest
      obtain ⟨key, payload, short, known, low, high, whole⟩ :=
        accepted bytes (by rw [waiting]; exact List.mem_cons_self)
      have published := submit_frame short known low high
      rw [← whole] at published
      rw [List.tail_cons] at rest
      have remain : ∀ other ∈ incoming next,
          Accepts { bridge.publish key payload with received := bridge.received + 1 } other := by
        intro other member
        rw [rest] at member
        apply (accepts_publish _ _ _ _ _).mpr
        exact accepted other (by rw [waiting]; exact List.mem_cons_of_mem _ member)
      simp only [receiveLoop, taken, List.head?_cons, published]
      rcases ih _ next still remain with ⟨none, short⟩ | ⟨after, last, ran, same, fine, queue, room⟩
      · rw [rest] at short
        exact .inl ⟨none, Nat.succ_le_succ short⟩
      · exact .inr ⟨after, last, ran, ⟨same.outgoing, same.byteLimit, same.queueLimit⟩, fine,
          queue.trans kept, room.trans limits⟩

theorem receiveLoop_returned (works : controller.Works Good incoming outgoing Fits) (fuel : Nat)
    (bridge : Bridge) (state : γ) (good : Good state) {after : Bridge × γ}
    (returned : receiveLoop controller fuel (bridge, state) = some (.ok () after)) :
    ∀ bytes ∈ incoming state, bridge.Accepts bytes := by
  induction fuel generalizing bridge state with
  | zero => cases returned
  | succ fuel ih =>
    obtain ⟨next, taken, still, rest, -⟩ := works.takes state good
    cases waiting : incoming state with
    | nil => simp only [List.not_mem_nil, false_implies, implies_true]
    | cons bytes later =>
      rw [waiting] at taken rest
      simp only [receiveLoop, taken, List.head?_cons] at returned
      by_cases accepts : bridge.Accepts bytes
      · obtain ⟨key, payload, short, known, low, high, whole⟩ := id accepts
        have published := submit_frame short known low high
        rw [← whole] at published
        simp only [published] at returned
        have others := ih _ next still returned
        rw [rest, List.tail_cons] at others
        intro other member
        rcases List.mem_cons.mp member with rfl | member
        · exact accepts
        · exact (accepts_publish _ _ _ _ _).mp (others other member)
      · obtain ⟨what, refused⟩ := submit_refused accepts
        simp only [refused] at returned
        cases returned

def frames (arrivals : List (ByteString × ByteString)) : Batch :=
  arrivals.map fun (key, payload) => frame key payload

theorem pump_accepted (arrivals : List (ByteString × ByteString)) (bridge : Bridge)
    (within : ∀ arrival ∈ arrivals, arrival.2.length ≤ bridge.byteLimit)
    (room : bridge.outgoing.length + arrivals.length ≤ bridge.queueLimit) :
    (pump arrivals).run bridge =
      .ok () { bridge with outgoing := bridge.outgoing ++ frames arrivals } := by
  induction arrivals generalizing bridge with
  | nil => simp only [pump, frames, List.map_nil, List.append_nil, EStateM.run_pure]
  | cons arrival rest ih =>
    obtain ⟨key, payload⟩ := arrival
    rw [List.length_cons] at room
    have first : (callback key payload).run bridge = _ :=
      callback_run (within _ List.mem_cons_self) (by omega)
    rw [pump, EStateM.run_bind, first]
    have rests := ih { bridge with outgoing := bridge.outgoing ++ [frame key payload] }
      (fun arrival member => within arrival (List.mem_cons_of_mem _ member))
      (by simp only [List.length_append, List.length_singleton]; omega)
    simpa only [frames, List.map_cons, List.append_assoc, List.singleton_append] using rests

/-- A backlog within the limits of the controller is handed over as a whole. -/
theorem transmitLoop_admissible (works : controller.Works Good incoming outgoing Fits)
    (backlog : Batch) (fuel : Nat) (bridge : Bridge) (state : γ) (good : Good state)
    (queued : bridge.outgoing = backlog) (enough : backlog.length < fuel)
    (fits : Fits state (outgoing state ++ backlog)) :
    ∃ after last, transmitLoop controller fuel (bridge, state) = some (.ok () (after, last)) ∧
      after.outgoing = [] ∧ outgoing last = outgoing state ++ backlog := by
  induction backlog generalizing fuel bridge state with
  | nil =>
    obtain ⟨fuel, rfl⟩ := Nat.exists_eq_succ_of_ne_zero (Nat.ne_of_gt enough)
    refine ⟨bridge, state, ?_, queued, (List.append_nil _).symm⟩
    simp only [transmitLoop, take, queued]
  | cons bytes rest ih =>
    obtain ⟨fuel, rfl⟩ := Nat.exists_eq_succ_of_ne_zero (Nat.ne_of_gt (Nat.zero_lt_of_lt enough))
    rw [List.append_cons] at fits ⊢
    obtain ⟨next, accepted, still, contents, limits⟩ :=
      works.accepts state bytes good (works.shorter _ _ _ fits)
    rw [← contents, ← limits] at fits
    rw [← contents]
    simp only [transmitLoop, take, queued, accepted]
    exact ih fuel _ next still rfl (Nat.lt_of_succ_lt_succ enough) fits

/-- Where the loop returns, the controller has taken the backlog within its limits. -/
theorem transmitLoop_returned (works : controller.Works Good incoming outgoing Fits)
    (backlog : Batch) (fuel : Nat) (bridge : Bridge) (state : γ) (good : Good state)
    (queued : bridge.outgoing = backlog) {after : Bridge} {last : γ}
    (fits : Fits state (outgoing state))
    (returned : transmitLoop controller fuel (bridge, state) = some (.ok () (after, last))) :
    Fits state (outgoing state ++ backlog) := by
  induction backlog generalizing fuel bridge state with
  | nil => rwa [List.append_nil]
  | cons bytes rest ih =>
    cases fuel with
    | zero => cases returned
    | succ fuel =>
      rw [List.append_cons]
      by_cases room : Fits state (outgoing state ++ [bytes])
      · obtain ⟨next, accepted, still, contents, limits⟩ := works.accepts state bytes good room
        simp only [transmitLoop, take, queued, accepted] at returned
        rw [← contents, ← limits] at room ⊢
        exact ih fuel _ next still rfl room returned
      · obtain ⟨what, refused⟩ := works.refuses state bytes good room
        simp only [transmitLoop, take, queued, refused] at returned
        cases returned

def Transfers (controller : DataController γ) (outgoing : γ → Batch)
    (arrivals : List (ByteString × ByteString)) (bridge : Bridge) (state : γ) : Prop :=
  ∃ fuel after last, exchange controller arrivals fuel (bridge, state) = some (.ok () (after, last)) ∧
    after.outgoing = [] ∧ outgoing last = bridge.outgoing ++ frames arrivals

structure Buffers (bridge : Bridge) (arrivals : List (ByteString × ByteString)) : Prop where
  within : ∀ arrival ∈ arrivals, arrival.2.length ≤ bridge.byteLimit
  room : bridge.outgoing.length + arrivals.length ≤ bridge.queueLimit

theorem exchange_received {arrivals : List (ByteString × ByteString)} {bridge after : Bridge}
    {state last : γ} {fuel : Nat}
    (ran : receiveLoop controller fuel (bridge, state) = some (.ok () (after, last)))
    (same : SameQueue bridge after) (buffers : bridge.Buffers arrivals) :
    exchange controller arrivals fuel (bridge, state) = transmitLoop controller fuel
      ({ after with outgoing := bridge.outgoing ++ frames arrivals }, last) := by
  have pumped := pump_accepted arrivals after (by rw [same.byteLimit]; exact buffers.within)
    (by rw [same.outgoing, same.queueLimit]; exact buffers.room)
  simp only [exchange, ran, pumped, same.outgoing]

theorem receiveLoop_of_exchange {arrivals : List (ByteString × ByteString)}
    {start after : Bridge × γ} {fuel : Nat}
    (returned : exchange controller arrivals fuel start = some (.ok () after)) :
    ∃ middle, receiveLoop controller fuel start = some (.ok () middle) := by
  unfold exchange at returned
  cases ran : receiveLoop controller fuel start with
  | none => simp only [ran, reduceCtorEq] at returned
  | some outcome =>
    cases outcome with
    | ok _ middle => exact ⟨middle, rfl⟩
    | error what middle => simp only [ran, Option.some.injEq, reduceCtorEq] at returned

theorem transfers_iff (works : controller.Works Good incoming outgoing Fits)
    {arrivals : List (ByteString × ByteString)} {bridge : Bridge} {state : γ}
    (good : Good state) (drained : outgoing state = []) (buffers : bridge.Buffers arrivals) :
    Transfers controller outgoing arrivals bridge state ↔
      (∀ bytes ∈ incoming state, bridge.Accepts bytes) ∧
        Fits state (bridge.outgoing ++ frames arrivals) := by
  constructor
  · rintro ⟨fuel, after, last, returned, -⟩
    obtain ⟨middle, received⟩ := receiveLoop_of_exchange returned
    have accepted := receiveLoop_returned works fuel bridge state good received
    refine ⟨accepted, ?_⟩
    rcases receiveLoop_accepted works fuel bridge state good accepted with
      ⟨none, -⟩ | ⟨next, held, ran, same, fine, queue, limits⟩
    · simp only [received, reduceCtorEq] at none
    · rw [exchange_received ran same buffers] at returned
      have nothing := queue.trans drained
      have fits := transmitLoop_returned works _ fuel _ held fine rfl
        (by rw [nothing]; exact works.nothing held) returned
      rwa [nothing, limits] at fits
  · rintro ⟨accepted, fits⟩
    let fuel := (incoming state).length + (bridge.outgoing ++ frames arrivals).length + 1
    rcases receiveLoop_accepted works fuel bridge state good accepted with
      ⟨-, short⟩ | ⟨next, held, ran, same, fine, queue, limits⟩
    · exact absurd short (by omega)
    · have nothing := queue.trans drained
      have handed := transmitLoop_admissible works (bridge.outgoing ++ frames arrivals) fuel
        { next with outgoing := bridge.outgoing ++ frames arrivals } held fine rfl (by omega)
        (by rwa [nothing, limits])
      rw [← exchange_received ran same buffers, nothing] at handed
      obtain ⟨after, last, returned, emptied, contents⟩ := handed
      exact ⟨fuel, after, last, returned, emptied, contents⟩

end Loops

/-! ## The controllers' limits -/

/-- What `gem5HostController` and `gem5GuestController` hand over: a node's backlog goes
through exactly where what they have received is for that node and the backlog fits their
own queue, whatever limits the node was given. -/
theorem backlog_transferred {bridge : Bridge} {arrivals : List (ByteString × ByteString)}
    (buffers : bridge.Buffers arrivals) :
    (∀ host : Host, HostWorks host → host.outgoing.contents = [] →
      (Transfers gem5HostController (fun host => host.outgoing.contents) arrivals bridge host ↔
        (∀ bytes ∈ host.ready.contents, bridge.Accepts bytes) ∧
          Admissible (bridge.outgoing ++ frames arrivals) ∧
          (host.stopped = true → bridge.outgoing ++ frames arrivals = []))) ∧
    ∀ guest : Guest, GuestWorks guest → guest.outgoing.contents = [] →
      (Transfers gem5GuestController (fun guest => guest.outgoing.contents) arrivals bridge guest ↔
        (∀ bytes ∈ guest.incoming.contents, bridge.Accepts bytes) ∧
          Admissible (bridge.outgoing ++ frames arrivals)) := by
  constructor
  · intro host works drained
    exact transfers_iff gem5HostController_works works drained buffers
  · intro guest works drained
    exact transfers_iff gem5GuestController_works works drained buffers

/-- One frame of four bytes, from either end. -/
theorem backlog_transferred_single :
    Transfers gem5HostController (fun host => host.outgoing.contents) [([], [0, 1, 0, 0])]
        { byteLimit := 4096, queueLimit := 128 } { poll := ⟨1, by decide, by decide⟩ } ∧
      Transfers gem5GuestController (fun guest => guest.outgoing.contents) [([], [0, 1, 0, 0])]
        { byteLimit := 4096, queueLimit := 128 } {} := by
  constructor
  · apply ((backlog_transferred ⟨by decide, by decide⟩).1 _ ⟨Host.valid_initial _, rfl⟩ rfl).mpr
    exact ⟨by simp, ⟨by decide, by decide⟩, by simp⟩
  · apply ((backlog_transferred ⟨by decide, by decide⟩).2 _ ⟨Guest.valid_initial, rfl⟩ rfl).mpr
    exact ⟨by simp, by decide, by decide⟩

theorem not_transferred {bridge : Bridge} {arrivals : List (ByteString × ByteString)}
    {poll : PollInterval} (buffers : bridge.Buffers arrivals)
    (excess : ¬Admissible (bridge.outgoing ++ frames arrivals)) :
    ¬Transfers gem5HostController (fun host => host.outgoing.contents) arrivals bridge
        { poll := poll } ∧
      ¬Transfers gem5GuestController (fun guest => guest.outgoing.contents) arrivals bridge {} := by
  constructor
  · intro transfers
    have works : HostWorks { poll := poll } := ⟨Host.valid_initial poll, rfl⟩
    exact excess ((transfers_iff gem5HostController_works works rfl buffers).mp transfers).2.1
  · intro transfers
    have works : GuestWorks {} := ⟨Guest.valid_initial, rfl⟩
    exact excess ((transfers_iff gem5GuestController_works works rfl buffers).mp transfers).2

/-- Two accepted configurations the controllers do not honour: `max_pending_messages` over
1024, and `max_serialized_bytes` at its maximum, where one message is too large. -/
theorem backlog_refused :
    ∃ (bridge wide : Bridge) (arrivals large : List (ByteString × ByteString)),
      Running (literal "host") [sampleRoute] 4 bridge ∧ bridge.queueLimit = 1025 ∧
      bridge.Buffers arrivals ∧
      Running (literal "host") [sampleRoute] 67106808 wide ∧ wide.queueLimit = 1 ∧
      wide.Buffers large ∧
      ∀ start ∈ [(bridge, arrivals), (wide, large)],
        ¬Transfers gem5HostController (fun host => host.outgoing.contents) start.2 start.1
            { poll := ⟨1, by decide, by decide⟩ } ∧
          ¬Transfers gem5GuestController (fun guest => guest.outgoing.contents) start.2 start.1
            {} := by
  obtain ⟨bridge, running, nothing, -, bytes, messages⟩ := running_sample (.inl rfl) 4 1025
    ⟨by decide, by decide⟩ ⟨by decide, by decide⟩
  obtain ⟨wide, runningWide, nothingWide, -, bytesWide, messagesWide⟩ :=
    running_sample (.inl rfl) 67106808 1 ⟨by decide, by decide⟩ ⟨by decide, by decide⟩
  obtain ⟨arrivals, count, same⟩ : ∃ arrivals : List (ByteString × ByteString),
      arrivals.length = 1025 ∧ ∀ arrival ∈ arrivals, arrival = (sampleRoute.key, [0, 1, 0, 0]) :=
    ⟨List.replicate 1025 _, List.length_replicate, fun _ => List.eq_of_mem_replicate⟩
  obtain ⟨payload, size⟩ : ∃ payload : ByteString, payload.length = 33554432 :=
    ⟨List.replicate 33554432 0, List.length_replicate⟩
  have buffers : bridge.Buffers arrivals := by
    constructor
    · intro arrival member
      rw [same arrival member, bytes]
      decide
    · rw [nothing, count, messages]
      decide
  have buffersWide : wide.Buffers [(sampleRoute.key, payload)] := by
    constructor
    · intro arrival member
      rw [List.mem_singleton.mp member, bytesWide]
      show payload.length ≤ _
      rw [size]
      decide
    · rw [nothingWide, messagesWide]
      exact Nat.le_refl 1
  have many : ¬Admissible (bridge.outgoing ++ frames arrivals) := by
    rintro ⟨few, -⟩
    rw [nothing, List.nil_append, frames, List.length_map, count] at few
    exact absurd few (by decide)
  have heavy : ¬Admissible (wide.outgoing ++ frames [(sampleRoute.key, payload)]) := by
    rintro ⟨-, light⟩
    rw [nothingWide, List.nil_append] at light
    simp only [frames, List.map_cons, List.map_nil, frame, payload_cons, payload_nil,
      List.length_append, size, maxBytes] at light
    have header : (literal "CBR1").length = 4 := rfl
    omega
  refine ⟨bridge, wide, arrivals, [(sampleRoute.key, payload)], running, messages, buffers,
    runningWide, messagesWide, buffersWide, ?_⟩
  intro start member
  rcases List.mem_cons.mp member with rfl | member
  · exact not_transferred buffers many
  · rw [List.mem_singleton.mp member]
    exact not_transferred buffersWide heavy

end Bridge

end Chimaera.Ros
