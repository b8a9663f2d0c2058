import Chimaera.Base.Transition
import Chimaera.Transport.Guest
import Chimaera.Transport.Host

/-! Both transports on one link. The connections gem5 opens towards the host wait at its
listener in the order they were opened; those it opens towards the guest are served in
that order too. Sends and receives of the two ends interleave freely. -/

namespace Chimaera.Transport
open Base.BigEndian Base.Unsigned Base.Transition

structure Link where
  guest : GuestTransport Gem5
  host : HostTransport
  guestSent : List (List Byte)
  hostReceived : List (List Byte)
  hostSent : List (List Byte)
  guestReceived : List (List Byte)

inductive Event where
  | guestSend (data : List Byte)
  | hostReceive
  | hostSend (data : List Byte)
  | guestReceive
  deriving DecidableEq, Repr

namespace Link

def connect (link : Link) : Link :=
  { link with
    guest := { link.guest with world := { link.guest.world with
      sent := [], arriving := link.guest.world.arriving ++ link.host.outgoing } }
    host := { link.host with
      incoming := link.host.incoming ++ link.guest.world.sent, outgoing := [] } }

def step (native : Endian) (link : Link) : Event → Option Link
  | .guestSend data => do
      let (result, guest) ← link.guest.send (Gem5.m5Ops native) data
      some { link with
        guest := guest
        guestSent := if result.ok then link.guestSent ++ [data] else link.guestSent }.connect
  | .hostReceive => do
      let (result, host) ← link.host.receive native
      some { link with
        host := host
        hostReceived :=
          if result.ok then link.hostReceived ++ [result.data] else link.hostReceived }.connect
  | .hostSend data =>
      let (result, host) := link.host.send data
      some { link with
        host := host
        hostSent := if result.ok then link.hostSent ++ [data] else link.hostSent }.connect
  | .guestReceive => do
      let (result, guest) ← link.guest.receive (Gem5.m5Ops native)
      some { link with
        guest := guest
        guestReceived :=
          if result.ok then link.guestReceived ++ [result.data] else link.guestReceived }.connect

structure Fresh (link : Link) : Prop where
  guest : link.guest.Quiet
  host : link.host.Quiet
  connections : link.guest.world.sent = [] ∧ link.guest.world.arriving = [] ∧
    link.host.incoming = [] ∧ link.host.outgoing = []
  closed : link.guest.world.unread = [] ∧ link.host.unread = [] ∧ link.guest.world.lengths = []
  messages : link.guestSent = [] ∧ link.hostReceived = [] ∧
    link.hostSent = [] ∧ link.guestReceived = []

/-- One direction: the messages on their way are the sent ones that were not received,
and the waiting connections carry exactly their packets. -/
def Carries (carried : List Byte → List (List Byte)) (sent received : List (List Byte))
    (waiting : List (List Byte)) : Prop :=
  ∃ flight, sent = received ++ flight ∧ (∀ data ∈ flight, data.length ≤ maxMessageSize) ∧
    waiting = flight.flatMap carried

def upward (native : Endian) (data : List Byte) : List (List Byte) :=
  (packets data).map (envelope native)

structure Agrees (native : Endian) (link : Link) : Prop where
  guest : link.guest.Quiet
  host : link.host.Quiet
  handed : link.guest.world.sent = [] ∧ link.host.outgoing = []
  up : Carries (upward native) link.guestSent link.hostReceived link.host.incoming
  down : Carries packets link.hostSent link.guestReceived link.guest.world.arriving
  drained : (∀ left ∈ link.host.unread, left = []) ∧ ∀ left ∈ link.guest.world.unread, left = []
  lengths : ∀ length ∈ link.guest.world.lengths, 0 < length

theorem Carries.sent {carried : List Byte → List (List Byte)}
    {sent received waiting : List (List Byte)} (direction : Carries carried sent received waiting)
    {data : List Byte} (within : data.length ≤ maxMessageSize) :
    Carries carried (sent ++ [data]) received (waiting ++ carried data) := by
  obtain ⟨flight, split, limited, queued⟩ := direction
  refine ⟨flight ++ [data], by rw [split, List.append_assoc], ?_, by simp [queued]⟩
  intro message member
  rcases List.mem_append.mp member with earlier | last
  · exact limited message earlier
  · rw [List.mem_singleton.mp last]
    exact within

theorem Carries.received {carried : List Byte → List (List Byte)}
    {sent received waiting : List (List Byte)} (direction : Carries carried sent received waiting)
    (pending : received ≠ sent) :
    ∃ data rest, waiting = carried data ++ rest ∧ data.length ≤ maxMessageSize ∧
      Carries carried sent (received ++ [data]) rest := by
  obtain ⟨flight, split, limited, queued⟩ := direction
  cases flight with
  | nil => exact absurd (by rw [split, List.append_nil]) pending
  | cons data flight =>
    refine ⟨data, flight.flatMap carried, by rw [queued, List.flatMap_cons],
      limited data List.mem_cons_self, flight, by simp [split], ?_, rfl⟩
    exact fun message member => limited message (List.mem_cons_of_mem _ member)

theorem Carries.waiting_eq_nil {carried : List Byte → List (List Byte)}
    {sent received waiting : List (List Byte)} (direction : Carries carried sent received waiting)
    (level : received = sent) : waiting = [] := by
  obtain ⟨flight, split, -, queued⟩ := direction
  have empty : flight = [] := by
    have lengths := congrArg List.length split
    rw [List.length_append, level] at lengths
    exact List.length_eq_zero_iff.mp (by omega)
  rw [queued, empty]
  rfl

variable {link : Link} {native : Endian}

theorem Fresh.agrees (native : Endian) (fresh : Fresh link) : Agrees native link := by
  obtain ⟨sent, arriving, incoming, outgoing⟩ := fresh.connections
  obtain ⟨guestUnread, hostUnread, lengths⟩ := fresh.closed
  obtain ⟨guestSent, hostReceived, hostSent, guestReceived⟩ := fresh.messages
  refine ⟨fresh.guest, fresh.host, ⟨sent, outgoing⟩, ?_, ?_, ?_, ?_⟩
  · exact ⟨[], by rw [guestSent, hostReceived]; rfl, by simp, incoming⟩
  · exact ⟨[], by rw [hostSent, guestReceived]; rfl, by simp, arriving⟩
  · simp [hostUnread, guestUnread]
  · simp [lengths]

private theorem packets_lengths_pos {lengths : List Nat} (data : List Byte)
    (positive : ∀ length ∈ lengths, 0 < length) :
    ∀ length ∈ lengths ++ (packets data).map List.length, 0 < length := by
  intro length member
  rcases List.mem_append.mp member with earlier | new
  · exact positive length earlier
  · obtain ⟨packet, listed, rfl⟩ := List.mem_map.mp new
    exact List.length_pos_iff.mpr (packets_ne_nil data packet listed)

private theorem append_nils {unread : List (List Byte)} (data : List Byte)
    (drained : ∀ left ∈ unread, left = []) :
    ∀ left ∈ unread ++ (packets data).map fun _ => [], left = [] := by
  intro left member
  rcases List.mem_append.mp member with earlier | new
  · exact drained left earlier
  · obtain ⟨packet, -, same⟩ := List.mem_map.mp new
    exact same.symm

theorem guestSend_step (agrees : Agrees native link)
    {data : List Byte} (within : data.length ≤ maxMessageSize) :
    ∃ next, link.step native (.guestSend data) = some next ∧ Agrees native next ∧
      next.guestSent = link.guestSent ++ [data] ∧ next.hostReceived = link.hostReceived ∧
      next.hostSent = link.hostSent ∧ next.guestReceived = link.guestReceived := by
  obtain ⟨guest, sent, quiet, same⟩ := GuestTransport.send_quiet native agrees.guest within
  refine ⟨{ link with guest := guest, guestSent := link.guestSent ++ [data] }.connect,
    by simp only [step, sent, Option.bind_eq_bind, Option.bind_some, SendResult.none_ok, if_true],
    ?_, rfl, rfl, rfl, rfl⟩
  obtain ⟨noneSent, noneOutgoing⟩ := agrees.handed
  have opened : guest.world.sent = upward native data := by
    rw [same.sent, noneSent]
    rfl
  refine ⟨⟨quiet.working, quiet.usable, quiet.memory, quiet.world.writes, quiet.world.reads⟩,
    ⟨agrees.host.working, agrees.host.polls, agrees.host.calls, agrees.host.memory⟩,
    ⟨rfl, rfl⟩, ?_, ?_, ⟨agrees.drained.1, ?_⟩, ?_⟩
  · simpa only [connect, opened] using agrees.up.sent within
  · simpa only [connect, noneOutgoing, List.append_nil, same.arriving] using agrees.down
  · simpa only [connect, same.unread] using agrees.drained.2
  · simpa only [connect, same.lengths] using packets_lengths_pos data agrees.lengths

theorem hostSend_step (agrees : Agrees native link)
    {data : List Byte} (within : data.length ≤ maxMessageSize) :
    ∃ next, link.step native (.hostSend data) = some next ∧ Agrees native next ∧
      next.guestSent = link.guestSent ∧ next.hostReceived = link.hostReceived ∧
      next.hostSent = link.hostSent ++ [data] ∧ next.guestReceived = link.guestReceived := by
  obtain ⟨host, sent, quiet, same⟩ := HostTransport.send_quiet agrees.host within
  refine ⟨{ link with host := host, hostSent := link.hostSent ++ [data] }.connect,
    by simp only [step, sent, SendResult.none_ok, if_true], ?_, rfl, rfl, rfl, rfl⟩
  obtain ⟨noneSent, noneOutgoing⟩ := agrees.handed
  have opened : host.outgoing = packets data := by
    rw [same.outgoing, noneOutgoing]
    rfl
  refine ⟨⟨agrees.guest.working, agrees.guest.usable, agrees.guest.memory,
      agrees.guest.world.writes, agrees.guest.world.reads⟩,
    ⟨quiet.working, quiet.polls, quiet.calls, quiet.memory⟩, ⟨rfl, rfl⟩, ?_, ?_,
    ⟨?_, agrees.drained.2⟩, agrees.lengths⟩
  · simpa only [connect, noneSent, List.append_nil, same.incoming] using agrees.up
  · simpa only [connect, opened] using agrees.down.sent within
  · simpa only [connect, same.unread] using agrees.drained.1

theorem hostReceive_step (agrees : Agrees native link)
    (pending : link.hostReceived ≠ link.guestSent) :
    ∃ next data, link.step native .hostReceive = some next ∧ Agrees native next ∧
      next.guestSent = link.guestSent ∧ next.hostReceived = link.hostReceived ++ [data] ∧
      next.hostSent = link.hostSent ∧ next.guestReceived = link.guestReceived := by
  obtain ⟨data, rest, waiting, within, later⟩ := agrees.up.received pending
  obtain ⟨host, received, quiet, incoming, outgoing, unread⟩ :=
    HostTransport.receive_quiet native agrees.host within waiting
  refine ⟨{ link with host := host, hostReceived := link.hostReceived ++ [data] }.connect, data, ?_,
    ?_, rfl, rfl, rfl, rfl⟩
  · simp only [step, received, Option.bind_eq_bind, Option.bind_some, ReceiveResult.delivered_ok,
      ReceiveResult.delivered_data, if_true]
  obtain ⟨noneSent, noneOutgoing⟩ := agrees.handed
  refine ⟨⟨agrees.guest.working, agrees.guest.usable, agrees.guest.memory,
      agrees.guest.world.writes, agrees.guest.world.reads⟩,
    ⟨quiet.working, quiet.polls, quiet.calls, quiet.memory⟩, ⟨rfl, rfl⟩, ?_, ?_,
    ⟨?_, agrees.drained.2⟩, agrees.lengths⟩
  · simpa only [connect, noneSent, List.append_nil, incoming] using later
  · simpa only [connect, outgoing, noneOutgoing, List.append_nil] using agrees.down
  · simpa only [connect, unread] using append_nils data agrees.drained.1

theorem guestReceive_step (agrees : Agrees native link)
    (pending : link.guestReceived ≠ link.hostSent) :
    ∃ next data, link.step native .guestReceive = some next ∧ Agrees native next ∧
      next.guestSent = link.guestSent ∧ next.hostReceived = link.hostReceived ∧
      next.hostSent = link.hostSent ∧ next.guestReceived = link.guestReceived ++ [data] := by
  obtain ⟨data, rest, waiting, within, later⟩ := agrees.down.received pending
  obtain ⟨guest, received, quiet, same⟩ :=
    GuestTransport.receive_quiet native agrees.guest within waiting
  refine ⟨{ link with guest := guest, guestReceived := link.guestReceived ++ [data] }.connect, data, ?_,
    ?_, rfl, rfl, rfl, rfl⟩
  · simp only [step, received, Option.bind_eq_bind, Option.bind_some, ReceiveResult.delivered_ok,
      ReceiveResult.delivered_data, if_true]
  obtain ⟨noneSent, noneOutgoing⟩ := agrees.handed
  refine ⟨⟨quiet.working, quiet.usable, quiet.memory, quiet.world.writes, quiet.world.reads⟩,
    ⟨agrees.host.working, agrees.host.polls, agrees.host.calls, agrees.host.memory⟩,
    ⟨rfl, rfl⟩, ?_, ?_, ⟨agrees.drained.1, ?_⟩, ?_⟩
  · simpa only [connect, same.sent, noneSent, List.append_nil] using agrees.up
  · simpa only [connect, noneOutgoing, List.append_nil, same.arriving] using later
  · simpa only [connect, same.unread] using append_nils data agrees.drained.2
  · simpa only [connect, same.lengths] using packets_lengths_pos data agrees.lengths

theorem connect_eq (agrees : Agrees native link) :
    link.connect = link := by
  obtain ⟨⟨ops, mapped, failure, allocations, world⟩, host, sent, received, down, up⟩ := link
  obtain ⟨noneSent, noneOutgoing⟩ := agrees.handed
  cases host
  cases world
  simp_all [connect]

theorem oversized_step (agrees : Agrees native link)
    {data : List Byte} (excess : maxMessageSize < data.length) :
    link.step native (.guestSend data) = some link ∧
      link.step native (.hostSend data) = some link := by
  have guest := GuestTransport.send_oversized native agrees.guest excess
  have host := HostTransport.send_oversized agrees.host excess
  have refused :
      (⟨.invalidArgument, "message exceeds 64 MiB limit"⟩ : SendResult).ok = false := rfl
  have unchanged := connect_eq agrees
  refine ⟨?_, ?_⟩
  · simp only [step, guest, Option.bind_eq_bind, Option.bind_some, refused, Bool.false_eq_true,
      if_false, unchanged]
  · simp only [step, host, refused, Bool.false_eq_true, if_false, unchanged]

theorem hostReceive_waits (agrees : Agrees native link)
    (level : link.hostReceived = link.guestSent) : link.step native .hostReceive = none := by
  have waiting := HostTransport.receive_waiting native agrees.host (agrees.up.waiting_eq_nil level)
  simp only [step, waiting, Option.bind_eq_bind, Option.bind_none]

theorem guestReceive_waits (agrees : Agrees native link)
    (level : link.guestReceived = link.hostSent) : link.step native .guestReceive = none := by
  have waiting :=
    GuestTransport.receive_waiting native agrees.guest (agrees.down.waiting_eq_nil level)
  simp only [step, waiting, Option.bind_eq_bind, Option.bind_none]

theorem step_agrees (link : Link) (event : Event) (after : Link)
    (agrees : Agrees native link) (taken : link.step native event = some after) :
    Agrees native after := by
  cases event with
  | guestSend data =>
    by_cases within : data.length ≤ maxMessageSize
    · obtain ⟨next, sent, kept, -⟩ := guestSend_step agrees within
      cases sent.symm.trans taken
      exact kept
    · cases (oversized_step agrees (Nat.lt_of_not_le within)).1.symm.trans taken
      exact agrees
  | hostSend data =>
    by_cases within : data.length ≤ maxMessageSize
    · obtain ⟨next, sent, kept, -⟩ := hostSend_step agrees within
      cases sent.symm.trans taken
      exact kept
    · cases (oversized_step agrees (Nat.lt_of_not_le within)).2.symm.trans taken
      exact agrees
  | hostReceive =>
    by_cases level : link.hostReceived = link.guestSent
    · cases (hostReceive_waits agrees level).symm.trans taken
    · obtain ⟨next, data, received, kept, -⟩ := hostReceive_step agrees level
      cases received.symm.trans taken
      exact kept
  | guestReceive =>
    by_cases level : link.guestReceived = link.hostSent
    · cases (guestReceive_waits agrees level).symm.trans taken
    · obtain ⟨next, data, received, kept, -⟩ := guestReceive_step agrees level
      cases received.symm.trans taken
      exact kept

structure Direction where
  send : List Byte → Event
  receive : Event
  sent : Link → List (List Byte)
  received : Link → List (List Byte)

def Direction.up : Direction := ⟨.guestSend, .hostReceive, guestSent, hostReceived⟩

def Direction.down : Direction := ⟨.hostSend, .guestReceive, hostSent, guestReceived⟩

/-- What a direction that works does at any moment: it accepts every message within the
limit, a receive delivers a message while one is on the way and blocks otherwise, and the
received messages are the sent ones in their order. -/
structure Direction.Works (native : Endian) (direction : Direction) (link : Link) : Prop where
  accepts : ∀ data : List Byte, data.length ≤ maxMessageSize →
    ∃ next, link.step native (direction.send data) = some next ∧ Agrees native next ∧
      direction.sent next = direction.sent link ++ [data] ∧
      direction.received next = direction.received link
  delivers : direction.received link ≠ direction.sent link →
    ∃ next data, link.step native direction.receive = some next ∧ Agrees native next ∧
      direction.sent next = direction.sent link ∧
      direction.received next = direction.received link ++ [data]
  blocks : direction.received link = direction.sent link →
    link.step native direction.receive = none
  ordered : direction.received link <+: direction.sent link

theorem Agrees.up_works (agrees : Agrees native link) :
    Direction.up.Works native link where
  accepts data within := by
    obtain ⟨next, taken, kept, sent, received, -⟩ := guestSend_step agrees within
    exact ⟨next, taken, kept, sent, received⟩
  delivers pending := by
    obtain ⟨next, data, taken, kept, sent, received, -⟩ := hostReceive_step agrees pending
    exact ⟨next, data, taken, kept, sent, received⟩
  blocks := hostReceive_waits agrees
  ordered := by
    obtain ⟨flight, split, -⟩ := agrees.up
    exact ⟨flight, split.symm⟩

theorem Agrees.down_works (agrees : Agrees native link) :
    Direction.down.Works native link where
  accepts data within := by
    obtain ⟨next, taken, kept, -, -, sent, received⟩ := hostSend_step agrees within
    exact ⟨next, taken, kept, sent, received⟩
  delivers pending := by
    obtain ⟨next, data, taken, kept, -, -, sent, received⟩ := guestReceive_step agrees pending
    exact ⟨next, data, taken, kept, sent, received⟩
  blocks := guestReceive_waits agrees
  ordered := by
    obtain ⟨flight, split, -⟩ := agrees.down
    exact ⟨flight, split.symm⟩

/-- Sending a list of messages and then receiving as often returns the list. -/
theorem Direction.run_exact {direction : Direction}
    (works : ∀ link, Agrees native link → direction.Works native link) {start : Link}
    (agrees : Agrees native start) (noneSent : direction.sent start = [])
    (noneReceived : direction.received start = []) {messages : List (List Byte)}
    (within : ∀ data ∈ messages, data.length ≤ maxMessageSize) :
    ∃ final, run (step native) start
        (messages.map direction.send ++ messages.map fun _ => direction.receive) = some final ∧
      direction.received final = messages := by
  obtain ⟨middle, sends, middleAgrees, sent, unreceived⟩ := run_map
    (fun link done =>
      Agrees native link ∧ direction.sent link = done ∧ direction.received link = [])
    direction.send messages ⟨agrees, noneSent, noneReceived⟩ (by
      rintro link done data rest split ⟨held, sent, unreceived⟩
      obtain ⟨next, taken, kept, extended, same⟩ :=
        (works link held).accepts data (within data (by simp [split]))
      exact ⟨next, taken, kept, by rw [extended, sent], same.trans unreceived⟩)
  obtain ⟨final, receives, -, -, received⟩ := run_map
    (fun link done =>
      Agrees native link ∧ direction.sent link = messages ∧ direction.received link = done)
    (fun _ => direction.receive) messages ⟨middleAgrees, sent, unreceived⟩ (by
      rintro link done data rest split ⟨held, sent, received⟩
      have pending : direction.received link ≠ direction.sent link := by
        rw [received, sent, split]
        simp
      obtain ⟨next, delivered, taken, kept, same, extended⟩ := (works link held).delivers pending
      -- The next state is ordered too, so what arrived is the message whose turn it is.
      obtain ⟨flight, whole⟩ := (works next kept).ordered
      rw [same, sent, extended, received, split, List.append_assoc] at whole
      obtain ⟨rfl, -⟩ := List.cons.inj (List.append_cancel_left whole)
      exact ⟨next, taken, kept, same.trans sent, by rw [extended, received]⟩)
  exact ⟨final, (run_append _ _ _ _ _).mpr ⟨middle, sends, receives⟩, received⟩

/-- The raw transports compose. From a fresh link every list of messages within the limit
arrives as it was sent, in both directions; and at any moment of any interleaving both
directions work, no byte is left over in a closed connection or, once all messages have
arrived, in a waiting one, and every operation so far had a positive length. -/
theorem transport_composition (native : Endian) (start : Link) (fresh : start.Fresh) :
    (∀ messages : List (List Byte), (∀ data ∈ messages, data.length ≤ maxMessageSize) →
      (∃ final, run (step native) start
          (messages.map .guestSend ++ messages.map fun _ => .hostReceive) = some final ∧
        final.hostReceived = messages) ∧
      ∃ final, run (step native) start
          (messages.map .hostSend ++ messages.map fun _ => .guestReceive) = some final ∧
        final.guestReceived = messages) ∧
    ∀ link, Reachable (step native) start link →
      Direction.up.Works native link ∧ Direction.down.Works native link ∧
      (∀ left ∈ link.host.unread ++ link.guest.world.unread, left = []) ∧
      (link.hostReceived = link.guestSent → link.host.incoming = []) ∧
      (link.guestReceived = link.hostSent → link.guest.world.arriving = []) ∧
      ∀ length ∈ link.guest.world.lengths, 0 < length := by
  have agrees := fresh.agrees native
  obtain ⟨noneSent, noneReceived, noneDown, noneArrived⟩ := fresh.messages
  refine ⟨fun messages within => ⟨?_, ?_⟩, ?_⟩
  · exact Direction.run_exact (fun _ held => held.up_works) agrees noneSent noneReceived within
  · exact Direction.run_exact (fun _ held => held.down_works) agrees noneDown noneArrived within
  · intro link reached
    have held := reached.invariant step_agrees agrees
    refine ⟨held.up_works, held.down_works, ?_, held.up.waiting_eq_nil,
      held.down.waiting_eq_nil, held.lengths⟩
    intro left member
    rcases List.mem_append.mp member with host | guest
    · exact held.drained.1 left host
    · exact held.drained.2 left guest

def disturbed : Link where
  guest :=
    { ops := .instruction, mapped := false, failure := .none, allocations := [true]
      world :=
        { writes := [.moved 0, .moved 2], reads := [.interrupted, .moved 0], sent := []
          arriving := [], unread := [], lengths := [] } }
  host :=
    { failure := .none, polls := [.failed .eintr, .ready, .failed .eintr]
      calls := [.failed .eagain, .moved 0, .failed .eintr, .moved 0, .moved 4]
      allocations := [], incoming := [], unread := [], outgoing := [] }
  guestSent := []
  hostReceived := []
  hostSent := []
  guestReceived := []

theorem disturbed_fresh : disturbed.Fresh := by
  refine ⟨⟨rfl, rfl, ?_, ?_, ?_⟩, ⟨rfl, ?_, ?_, ?_⟩, ⟨rfl, rfl, rfl, rfl⟩, ⟨rfl, rfl, rfl⟩,
    ⟨rfl, rfl, rfl, rfl⟩⟩ <;>
  simp [disturbed, Errno.temporary]

theorem transport_composition_disturbed :
    ∃ final, run (step .little) disturbed
        [.guestSend [1, 2], .guestSend [], .hostReceive, .hostReceive] = some final ∧
      final.hostReceived = [[1, 2], []] :=
  ((transport_composition .little disturbed disturbed_fresh).1 [[1, 2], []] (by decide)).1

end Link

end Chimaera.Transport
