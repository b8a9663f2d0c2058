import Chimaera.Base.Transition
import Chimaera.Control.Coalescing
import Chimaera.Control.Codec
import Chimaera.Transport.Guest
import Chimaera.Transport.Host

/-! The limits a message meets on its way: the outgoing queue, the batch packet, the
transport frame and the received queue each check their own. What the first admits, the
others take. -/

namespace Chimaera.Control
open Base.BigEndian Base.Unsigned Base.Transition Transport

def OutgoingQueue.step (queue : OutgoingQueue) : OutgoingEvent → Option OutgoingQueue
  | .submit data key =>
      match queue.submit .machine data key with
      | .ok after => some after
      | .error _ => some queue
  | .drain => some queue.drain.2

theorem OutgoingQueue.step_valid (queue : OutgoingQueue) (event : OutgoingEvent)
    (after : OutgoingQueue) (valid : queue.Valid) (taken : queue.step event = some after) :
    after.Valid := by
  cases event with
  | drain =>
    cases taken
    exact OutgoingQueue.valid_empty
  | submit data key =>
    rw [OutgoingQueue.step] at taken
    cases outcome : queue.submit .machine data key with
    | error what =>
      simp only [outcome, Option.some.injEq] at taken
      exact taken ▸ valid
    | ok next =>
      simp only [outcome, Option.some.injEq] at taken
      exact taken ▸ OutgoingQueue.submit_valid valid outcome

theorem wire_length (batch : Batch) :
    (wire batch).length = 8 + 8 * batch.length + payload batch := by
  rw [wire, List.length_append, write_length, ← payload_le_length]
  omega

/-- The framing overhead of an admissible batch stays far below the second 32 MiB. -/
theorem wire_length_le {batch : Batch} (admissible : Admissible batch) :
    (wire batch).length ≤ maxMessageSize := by
  have bound : 8 + 8 * maxMessages + maxBytes ≤ maxMessageSize := by decide
  have few := admissible.1
  have light := admissible.2
  rw [wire_length]
  omega

/-- Both transports carry a packet: a working sender accepts it, and a working receiver
delivers it from the connections it travelled on. -/
structure Carried (packet : Message) : Prop where
  within : packet.length ≤ maxMessageSize
  guestSends : ∀ native (guest : GuestTransport Gem5), guest.Quiet →
    ∃ after, guest.send (Gem5.m5Ops native) packet = some (.none, after)
  hostReceives : ∀ native (host : HostTransport), host.Quiet →
    host.incoming = (packets packet).map (envelope native) →
    ∃ after, host.receive native = some (.delivered packet, after)
  hostSends : ∀ host : HostTransport, host.Quiet → ∃ after, host.send packet = (.none, after)
  guestReceives : ∀ native (guest : GuestTransport Gem5), guest.Quiet →
    guest.world.arriving = packets packet →
    ∃ after, guest.receive (Gem5.m5Ops native) = some (.delivered packet, after)

theorem carried_of_le {packet : Message} (within : packet.length ≤ maxMessageSize) :
    Carried packet where
  within := within
  guestSends native guest quiet := by
    obtain ⟨after, sent, -⟩ := GuestTransport.send_quiet native quiet within
    exact ⟨after, sent⟩
  hostReceives native host quiet waiting := by
    rw [← List.append_nil ((packets packet).map _)] at waiting
    obtain ⟨after, received, -⟩ := HostTransport.receive_quiet native quiet within waiting
    exact ⟨after, received⟩
  hostSends host quiet := by
    obtain ⟨after, sent, -⟩ := HostTransport.send_quiet quiet within
    exact ⟨after, sent⟩
  guestReceives native guest quiet waiting := by
    rw [← List.append_nil (packets packet)] at waiting
    obtain ⟨after, received, -⟩ := GuestTransport.receive_quiet native quiet within waiting
    exact ⟨after, received⟩

/-- Whatever was submitted, the batch a drain returns encodes, both transports carry its
packet, the peer decodes it, and a received queue that has nothing left accepts it. -/
theorem drained_batch_passes (queue : OutgoingQueue)
    (reached : Reachable OutgoingQueue.step {} queue) :
    ∃ packet, encode .machine queue.drain.1 = .ok packet ∧ Carried packet ∧
      decode .machine packet = .ok queue.drain.1 ∧
      ∀ received : ReceivedQueue, received.Valid → received.contents = [] →
        ∃ after, received.append .machine queue.drain.1 = .ok (after, []) ∧
          after.contents = queue.drain.1 := by
  have valid := reached.invariant OutgoingQueue.step_valid OutgoingQueue.valid_empty
  have admissible : Admissible queue.drain.1 := valid.admissible
  refine ⟨wire queue.drain.1, encode_admissible _ admissible,
    carried_of_le (wire_length_le admissible), decode_wire _ admissible, ?_⟩
  intro received receivable empty
  have fits : Admissible (received.contents ++ queue.drain.1) := by
    rw [empty]
    exact admissible
  obtain ⟨after, appended, contents, -⟩ := ReceivedQueue.append_ok receivable queue.drain.1 fits
  exact ⟨after, appended .machine, by rw [contents, empty, List.nil_append]⟩

theorem drained_batch_passes_replaced :
    Reachable OutgoingQueue.step {} ⟨[⟨[2], [7]⟩], 1⟩ ∧
      ∃ packet, encode .machine [[2]] = .ok packet ∧ decode .machine packet = .ok [[2]] := by
  have reached : Reachable OutgoingQueue.step {} ⟨[⟨[2], [7]⟩], 1⟩ :=
    ⟨[.submit [9] [], .drain, .submit [1, 1] [7], .submit [2] [7]], by decide⟩
  obtain ⟨packet, encoded, -, decoded, -⟩ := drained_batch_passes _ reached
  exact ⟨reached, packet, encoded, decoded⟩

end Chimaera.Control
