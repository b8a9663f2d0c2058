import Chimaera.Base.Flow
import Chimaera.Control.System

/-! No message is lost, duplicated or reordered between the outgoing queue of one end and
`take` at the other. Each direction is a flow: what an end drains is held until it is
sent, travels in a packet, and is appended on the other side; on the host it passes the
`incoming` queue, a detached batch and the `ready` queue. -/

namespace Chimaera.Control
open Base.BigEndian Base.Unsigned Base.Transition Base.Flow

def packetMessages (packet : Message) : Batch :=
  match decode .machine packet with
  | .error _ => []
  | .ok batch => batch

def carried (channel : List Message) : Batch := channel.flatMap packetMessages

@[simp] theorem carried_nil : carried [] = [] := rfl

@[simp] theorem carried_cons (packet : Message) (rest : List Message) :
    carried (packet :: rest) = packetMessages packet ++ carried rest := List.flatMap_cons

@[simp] theorem carried_append (first second : List Message) :
    carried (first ++ second) = carried first ++ carried second := List.flatMap_append

theorem packetMessages_decoded {packet : Message} {batch : Batch}
    (decoded : decode .machine packet = .ok batch) : packetMessages packet = batch := by
  rw [packetMessages, decoded]

theorem packetMessages_encoded {packet : Message} {batch : Batch}
    (encoded : encode .machine batch = .ok packet) : packetMessages packet = batch := by
  obtain ⟨admissible, rfl⟩ := (encode_eq_ok_iff .machine batch packet).mp encoded
  exact packetMessages_decoded (decode_wire .machine admissible)

theorem packetMessages_startup (rest : Message) : packetMessages (startupRequest ++ rest) = [] := by
  rw [packetMessages, decode_startup_error]

@[simp] theorem packetMessages_request : packetMessages startupRequest = [] := by
  simpa using packetMessages_startup []

@[simp] theorem packetMessages_reply (poll : Int) : packetMessages (encodeStartup poll) = [] := by
  rw [encodeStartup_eq, ← startupRequest_eq]
  exact packetMessages_startup _

def Guest.held (guest : Guest) : Batch :=
  match guest.location with
  | .batchSend batch => batch
  | _ => []

def Host.held (host : Host) : Batch :=
  match host.worker with
  | .batchSend batch => batch
  | _ => []

def Host.request (host : Host) : Batch :=
  match host.worker with
  | .batchLock request => request
  | _ => []

def Host.detached (host : Host) : Batch :=
  match host.app with
  | .append received => received
  | _ => []

def Host.delivered (host : Host) : Batch :=
  host.taken ++ host.ready.contents ++ host.detached

private theorem head_append_tail (taken : Batch) {contents rest : Batch}
    (removed : rest = contents.tail) :
    taken ++ contents.head?.toList ++ rest = taken ++ contents := by
  rw [removed, List.append_assoc]
  cases contents <;> rfl

def Guest.Settled (guest : Guest) : Prop := guest.failure ≠ "" → guest.location = .idle

variable {inbox rest sent : List Message}

theorem Guest.Move.settled {guest after : Guest}
    (move : guest.Move inbox after rest sent) (settled : guest.Settled) : after.Settled := by
  intro failed
  cases move with
  | submitted | took | refused => exact settled failed
  | began working | retried working | polled working | drained working | requested working
  | answered working | sent working | received _ working =>
    have idle := settled failed
    simp_all
  | _ => rfl

theorem Guest.Move.outflow {guest after : Guest}
    (move : guest.Move inbox after rest sent) (settled : guest.Settled) :
    ∃ fresh lost, after.drained.flatten = guest.drained.flatten ++ fresh ∧
      guest.held ++ fresh = carried sent ++ after.held ++ lost ∧
      (after.failure = "" → guest.failure = "" ∧ lost = []) ∧
      (guest.failure ≠ "" → fresh = [] ∧ carried sent = []) := by
  cases move with
  | submitted outgoing valid => exact ⟨[], [], by simp [Guest.held]⟩
  | took incoming valid rest => exact ⟨[], [], by simp [Guest.held]⟩
  | refused failed idle => exact ⟨[], [], by simp [Guest.held]⟩
  | began working idle =>
    refine ⟨[], [], ?_⟩
    by_cases started : guest.poll > 0 <;> simp [Guest.held, idle, started]
  | retried delayed => exact ⟨[], [], by simp [Guest.held, delayed]⟩
  | polled slept => exact ⟨[], [], by simp [Guest.held, slept]⟩
  | drained ready =>
    refine ⟨guest.outgoing.contents, [], by simp, by simp [Guest.held, ready], by simp, ?_⟩
    intro failed
    cases ready.symm.trans (settled failed)
  | requested starting => exact ⟨[], [], by simp [Guest.held, starting]⟩
  | sent sending encoded =>
    refine ⟨[], [], by simp, ?_, by simp, ?_⟩
    · simp [Guest.held, sending, packetMessages_encoded encoded]
    · intro failed
      cases sending.symm.trans (settled failed)
  | answered waiting decoded =>
    rename_i poll
    refine ⟨[], [], ?_⟩
    by_cases zero : poll = 0 <;> simp [Guest.held, waiting, zero]
  | received incoming waiting decoded valid appended =>
    exact ⟨[], [], by simp [Guest.held, Guest.finish, waiting]⟩
  | unencodable sending failed named =>
    exact ⟨[], guest.held, by simp [Guest.throw, Guest.held, named]⟩
  | mismatched waiting failed named =>
    exact ⟨[], [], by simp [Guest.held, Guest.throw, waiting, named]⟩
  | undecodable waiting failed named =>
    exact ⟨[], [], by simp [Guest.held, Guest.throw, waiting, named]⟩
  | overflowed waiting decoded named =>
    exact ⟨[], [], by simp [Guest.held, Guest.throw, waiting, named]⟩
  | receiveFailed waiting named =>
    exact ⟨[], guest.held, by simp [Guest.throw, Guest.held, named]⟩
  | requestFailed delivered starting named =>
    refine ⟨[], [], ?_⟩
    cases delivered <;> simp [Guest.held, Guest.throw, starting, named]
  | sendFailed delivered sending encoded named =>
    have stuck : guest.failure = "" := by
      by_contra failed
      cases sending.symm.trans (settled failed)
    cases delivered with
    | false => exact ⟨[], guest.held, by simp [Guest.throw, Guest.held, named, stuck]⟩
    | true =>
      refine ⟨[], [], ?_⟩
      simp [Guest.held, Guest.throw, sending, packetMessages_encoded encoded, named, stuck]

theorem Guest.Move.inflow {guest after : Guest}
    (move : guest.Move inbox after rest sent) (settled : guest.Settled) :
    (after.failure = "" → guest.failure = "" ∧
      guest.taken ++ guest.incoming.contents ++ carried inbox =
        after.taken ++ after.incoming.contents ++ carried rest) ∧
    (after.failure ≠ "" →
      after.taken ++ after.incoming.contents = guest.taken ++ guest.incoming.contents) := by
  cases move with
  | took incoming valid rest =>
    have same := head_append_tail guest.taken rest
    exact ⟨fun working => ⟨working, by rw [same]⟩, fun _ => same⟩
  | answered waiting decoded =>
    obtain ⟨-, -, rfl⟩ := (decodeStartup_eq_ok_iff _ _).mp decoded
    simp
  | received incoming waiting decoded valid appended =>
    refine ⟨fun working => ⟨working, ?_⟩, fun failed => ?_⟩
    · simp [Guest.finish, appended, packetMessages_decoded decoded]
    · cases waiting.symm.trans (settled failed)
  | mismatched waiting failed named => simp [Guest.throw, named]
  | undecodable waiting failed named => simp [Guest.throw, named]
  | overflowed waiting decoded named => simp [Guest.throw, named]
  | unencodable sending failed named => simp [Guest.throw, named]
  | receiveFailed waiting named => simp [Guest.throw, named]
  | requestFailed delivered starting named => simp [Guest.throw, named]
  | sendFailed delivered sending encoded named => simp [Guest.throw, named]
  | _ => simp

def Host.Reported (host : Host) : Prop := host.worker = .exited → host.failure ≠ ""

theorem Host.workerThrow_failure {host : Host} {what : String} (named : what ≠ "") :
    (host.workerThrow what).failure ≠ "" := by
  rw [Host.workerThrow]
  by_cases working : host.failure = ""
  · simpa [working] using named
  · simp [working]

theorem Host.Move.reported {host after : Host}
    (move : host.Move inbox after rest sent) (reported : host.Reported) : after.Reported := by
  intro exited
  cases move with
  | submitted | took | returned | began | timed | detached | appended | joining =>
    exact reported exited
  | threw named => exact named
  | requested | looked | decoded | exchanged | sent => cases exited
  | answered =>
    rename_i ready _
    cases ready <;> cases exited
  | mismatched _ _ named | undecodable _ _ named | overflowed _ named | unencodable _ _ named
  | receiveFailed _ named | answerFailed _ named | answerDisturbed _ named
  | sendFailed _ _ _ named => exact Host.workerThrow_failure named

theorem Host.Move.outflow {host after : Host} (move : host.Move inbox after rest sent) :
    ∃ fresh lost, after.drained.flatten = host.drained.flatten ++ fresh ∧
      host.held ++ fresh = carried sent ++ after.held ++ lost ∧
      (after.worker ≠ .exited → host.worker ≠ .exited ∧ lost = []) ∧
      (host.worker = .exited → fresh = [] ∧ carried sent = []) := by
  cases move with
  | requested waiting => exact ⟨[], [], by simp [Host.held, waiting]⟩
  | looked locked => exact ⟨[], [], by simp [Host.held, locked]⟩
  | answered sending =>
    rename_i ready
    refine ⟨[], [], ?_⟩
    cases ready <;> simp [Host.held, Host.workerAnswer, Host.startupPacket, sending]
  | decoded waiting accepted => exact ⟨[], [], by simp [Host.held, waiting]⟩
  | exchanged incoming locked valid contents =>
    exact ⟨host.outgoing.contents, [], by simp [Host.held, locked]⟩
  | sent sending encoded =>
    exact ⟨[], [], by simp [Host.held, sending, packetMessages_encoded encoded]⟩
  | mismatched waiting other named =>
    exact ⟨[], [], by simp [Host.held, Host.workerThrow, waiting]⟩
  | undecodable waiting failed named =>
    exact ⟨[], [], by simp [Host.held, Host.workerThrow, waiting]⟩
  | overflowed locked named => exact ⟨[], [], by simp [Host.held, Host.workerThrow, locked]⟩
  | unencodable sending failed named =>
    exact ⟨[], host.held, by simp [Host.held, Host.workerThrow]⟩
  | receiveFailed waiting named => exact ⟨[], host.held, by simp [Host.held, Host.workerThrow]⟩
  | answerFailed sending named => exact ⟨[], host.held, by simp [Host.held, Host.workerThrow]⟩
  | answerDisturbed sending named =>
    refine ⟨[], [], ?_⟩
    simp [Host.held, Host.workerThrow, Host.workerAnswer, Host.startupPacket, sending]
  | sendFailed delivered sending encoded named =>
    cases delivered with
    | false => exact ⟨[], host.held, by simp [Host.held, Host.workerThrow]⟩
    | true =>
      refine ⟨[], [], ?_⟩
      simp [Host.held, Host.workerThrow, sending, packetMessages_encoded encoded]
  | _ => exact ⟨[], [], by simp [Host.held, Host.returns, Host.throw]⟩

theorem Host.Move.inflow {host after : Host} (move : host.Move inbox after rest sent) :
    (after.failure = "" → host.failure = "" ∧
      host.delivered ++ host.incoming.contents ++ host.request ++ carried inbox =
        after.delivered ++ after.incoming.contents ++ after.request ++ carried rest) ∧
    (after.failure ≠ "" → after.delivered <+: host.delivered) := by
  cases move with
  | took ready valid rest =>
    have same : ({ host with
        ready := ready
        taken := host.taken ++ host.ready.contents.head?.toList } : Host).delivered =
        host.delivered := by
      simp only [Host.delivered, head_append_tail host.taken rest]
      rfl
    rw [same]
    exact ⟨fun working => ⟨working, rfl⟩, fun _ => List.prefix_rfl⟩
  | detached working drain =>
    have empty : host.detached = [] := by simp [Host.detached, drain]
    have same : ({ host with incoming := {}, app := .append host.incoming.contents } : Host).delivered =
        host.delivered ++ host.incoming.contents := by
      simp only [Host.delivered, empty, List.append_nil]
      rfl
    refine ⟨fun _ => ⟨working, ?_⟩, fun failed => absurd working failed⟩
    rw [same, ReceivedQueue.contents_empty, List.append_nil]
    rfl
  | appended ready append valid contents =>
    have same : ({ host with ready := ready }.returns .completed "").delivered = host.delivered := by
      simp [Host.delivered, Host.detached, Host.returns, contents, append]
    rw [same]
    exact ⟨fun working => ⟨working, rfl⟩, fun _ => List.prefix_rfl⟩
  | returned state message stopped idle =>
    have empty : host.detached = [] := by
      rcases idle with idle | joining
      · simp [Host.detached, idle]
      · simp [Host.detached, joining]
    have same : ({ host with stopped := stopped }.returns state message).delivered =
        host.delivered := by
      simp only [Host.delivered, empty]
      rfl
    rw [same]
    exact ⟨fun working => ⟨working, rfl⟩, fun _ => List.prefix_rfl⟩
  | threw named =>
    refine ⟨fun working => absurd working named, fun _ => ?_⟩
    exact ⟨host.detached, by simp [Host.delivered, Host.detached, Host.throw, Host.returns]⟩
  | began working idle => simp [Host.delivered, Host.detached, Host.request, idle]
  | timed timing => simp [Host.delivered, Host.detached, Host.request, timing]
  | joining idle => simp [Host.delivered, Host.detached, Host.request, idle]
  | submitted outgoing valid => simp [Host.delivered, Host.detached, Host.request]
  | requested waiting => simp [Host.delivered, Host.detached, Host.request, waiting]
  | looked locked => simp [Host.delivered, Host.detached, Host.request, locked]
  | answered sending =>
    rename_i ready
    cases ready <;>
      simp [Host.delivered, Host.detached, Host.request, Host.workerAnswer, sending]
  | decoded waiting accepted =>
    simp [Host.delivered, Host.detached, Host.request, waiting, packetMessages_decoded accepted]
  | exchanged incoming locked valid contents =>
    simp [Host.delivered, Host.detached, Host.request, locked, contents]
  | sent sending encoded => simp [Host.delivered, Host.detached, Host.request, sending]
  | mismatched _ _ named | undecodable _ _ named | overflowed _ named | unencodable _ _ named
  | receiveFailed _ named | answerFailed _ named | answerDisturbed _ named
  | sendFailed _ _ _ named =>
    exact ⟨fun working => absurd working (Host.workerThrow_failure named), fun _ => List.prefix_rfl⟩

namespace System

def upward (system : System) : Pipe Message where
  drained := system.guest.drained.flatten
  held := system.guest.held
  channel := carried system.toHost
  arrived := system.host.delivered ++ system.host.incoming.contents ++ system.host.request
  kept := system.host.delivered
  sending := system.guest.failure = ""
  receiving := system.host.failure = ""

def downward (system : System) : Pipe Message where
  drained := system.host.drained.flatten
  held := system.host.held
  channel := carried system.toGuest
  arrived := system.guest.taken ++ system.guest.incoming.contents
  kept := system.guest.taken ++ system.guest.incoming.contents
  sending := system.host.worker ≠ .exited
  receiving := system.guest.failure = ""

structure Invariant (system : System) : Prop where
  valid : system.Valid
  settled : system.guest.Settled
  reported : system.host.Reported
  up : Conserved system.upward
  down : Conserved system.downward

theorem invariant_initial (poll : PollInterval) : Invariant (initial poll) where
  valid := valid_initial poll
  settled := fun _ => rfl
  reported := fun exited => by cases exited
  up := ⟨fun _ => ⟨[], rfl, fun _ => rfl⟩, List.nil_prefix⟩
  down := ⟨fun _ => ⟨[], rfl, fun _ => rfl⟩, List.nil_prefix⟩

variable {inbox sent : List Message}

variable {system : System}

theorem guest_sends {guest : Guest}
    (move : system.guest.Move system.toGuest guest inbox sent) (settled : system.guest.Settled) :
    Sends system.upward
      { system with guest := guest, toGuest := inbox, toHost := system.toHost ++ sent }.upward := by
  obtain ⟨fresh, lost, drained, split, stays, stopped⟩ := move.outflow settled
  exact ⟨⟨fresh, carried sent, lost, drained, carried_append _ _, split, stays, stopped⟩, rfl, rfl, id⟩

theorem guest_receives {guest : Guest}
    (move : system.guest.Move system.toGuest guest inbox sent) (settled : system.guest.Settled) :
    Receives system.downward
      { system with guest := guest, toGuest := inbox, toHost := system.toHost ++ sent }.downward := by
  obtain ⟨working, stopped⟩ := move.inflow settled
  refine ⟨rfl, rfl, id, fun still => ?_, fun failed => ?_⟩
  · obtain ⟨before, same⟩ := working still
    exact ⟨before, same, List.prefix_rfl⟩
  · exact ⟨[], (List.append_nil _).trans (stopped failed)⟩

theorem host_sends {host : Host} (move : system.host.Move system.toHost host inbox sent) :
    Sends system.downward
      { system with host := host, toHost := inbox, toGuest := system.toGuest ++ sent }.downward := by
  obtain ⟨fresh, lost, drained, split, stays, stopped⟩ := move.outflow
  exact ⟨⟨fresh, carried sent, lost, drained, carried_append _ _, split, stays,
    fun exited => stopped (not_not.mp exited)⟩, rfl, rfl, id⟩

theorem host_receives {host : Host} (move : system.host.Move system.toHost host inbox sent) :
    Receives system.upward
      { system with host := host, toHost := inbox, toGuest := system.toGuest ++ sent }.upward := by
  obtain ⟨working, stopped⟩ := move.inflow
  refine ⟨rfl, rfl, id, fun still => ?_, stopped⟩
  obtain ⟨before, same⟩ := working still
  refine ⟨before, same, ?_⟩
  exact (List.prefix_append _ _).trans (List.prefix_append _ _)

theorem step_invariant (system : System) (event : Event) (after : System)
    (holds : Invariant system) (taken : system.step event = some after) : Invariant after := by
  have valid := step_valid system event after holds.valid taken
  rcases step_cases holds.valid taken with
    ⟨guest, inbox, sent, move, rfl⟩ | ⟨host, inbox, sent, move, rfl⟩
  · exact ⟨valid, move.settled holds.settled, holds.reported,
      holds.up.sends (guest_sends move holds.settled),
      holds.down.receives (guest_receives move holds.settled)⟩
  · exact ⟨valid, holds.settled, move.reported holds.reported,
      holds.up.receives (host_receives move), holds.down.sends (host_sends move)⟩

/-- In every interleaving, as long as neither controller has failed, the batches drained
from an outgoing queue are the messages taken at the other end followed by those on their
way, in order. After any failure, what was taken or can still be taken is a beginning of
what was drained: only a tail is lost. -/
theorem exchange_conserved (poll : PollInterval) (system : System)
    (reached : Reachable step (initial poll) system) :
    (system.guest.failure = "" → system.host.failure = "" →
      system.guest.drained.flatten =
        system.host.taken ++ system.host.ready.contents ++ system.host.detached ++
          system.host.incoming.contents ++
          (system.host.request ++ carried system.toHost ++ system.guest.held) ∧
      system.host.drained.flatten =
        system.guest.taken ++ system.guest.incoming.contents ++
          (carried system.toGuest ++ system.host.held)) ∧
    system.host.taken ++ system.host.ready.contents ++ system.host.detached <+:
      system.guest.drained.flatten ∧
    system.guest.taken ++ system.guest.incoming.contents <+: system.host.drained.flatten := by
  have holds := reached.invariant step_invariant (invariant_initial poll)
  refine ⟨fun guestWorks hostWorks => ⟨?_, ?_⟩, holds.up.ordered, holds.down.ordered⟩
  · have total := holds.up.total guestWorks hostWorks
    simpa only [upward, Host.delivered, List.append_assoc] using total
  · have serving : system.host.worker ≠ .exited := fun exited => holds.reported exited hostWorks
    have total := holds.down.total serving guestWorks
    simpa only [downward, List.append_assoc] using total

def delivery : List Event :=
  [.guest (.submit [1] []), .guest .runNext, .guest .send, .host (.step 2000000),
    .host .workerReceive, .host .workerLock, .host .workerSend, .guest .receive, .guest .drain,
    .guest .send, .host .workerReceive, .host .workerLock, .host .timingDone, .host .drain,
    .host .append, .host .take]

theorem exchange_conserved_delivery :
    ∃ system, run step (initial ⟨1000000, by decide, by decide⟩) delivery = some system ∧
      system.host.taken = [[1]] ∧ [[1]] <+: system.guest.drained.flatten := by
  have ran : ∃ system, run step (initial ⟨1000000, by decide, by decide⟩) delivery = some system ∧
      system.host.taken = [[1]] ∧ system.host.ready.contents = [] ∧ system.host.detached = [] :=
    ⟨_, rfl, by decide +kernel⟩
  obtain ⟨system, reached, taken, ready, detached⟩ := ran
  have kept := (exchange_conserved _ system ⟨delivery, reached⟩).2.1
  rw [taken, ready, detached] at kept
  exact ⟨system, reached, taken, kept⟩

end System

end Chimaera.Control
