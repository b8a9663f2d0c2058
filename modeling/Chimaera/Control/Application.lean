import Chimaera.Base.Relay
import Chimaera.Control.Conservation

/-! A session as the two applications see it: the messages that each has put into its
controller and got out of it. What happens inside of the controllers touches neither; between
the two, the pair of controllers is one hop in each direction. -/

namespace Chimaera.Control
open Base.BigEndian Base.Unsigned Base.Relay

def Host.submitted (host : Host) : Batch := host.drained.flatten ++ host.outgoing.contents

def Guest.submitted (guest : Guest) : Batch := guest.drained.flatten ++ guest.outgoing.contents

structure Host.Untouched (host after : Host) : Prop where
  submitted : after.submitted = host.submitted
  taken : after.taken = host.taken

structure Guest.Untouched (guest after : Guest) : Prop where
  submitted : after.submitted = guest.submitted
  taken : after.taken = guest.taken

variable {host after : Host}

theorem Host.Untouched.of_fields (drained : after.drained = host.drained)
    (outgoing : after.outgoing = host.outgoing) (taken : after.taken = host.taken) :
    host.Untouched after where
  submitted := by rw [Host.submitted, Host.submitted, drained, outgoing]
  taken := taken

theorem Guest.Untouched.of_fields {guest after : Guest} (drained : after.drained = guest.drained)
    (outgoing : after.outgoing = guest.outgoing) (taken : after.taken = guest.taken) :
    guest.Untouched after where
  submitted := by rw [Guest.submitted, Guest.submitted, drained, outgoing]
  taken := taken

/-! ## Calls -/

theorem Host.stepInterval_untouched (host : Host) (interval : Int) :
    host.Untouched (host.stepInterval interval) := by
  rw [Host.stepInterval]
  split_ifs <;> exact .of_fields rfl rfl rfl

theorem Host.stop_untouched (host : Host) (shutdown : Except String Unit) :
    host.Untouched (host.stop shutdown) := by
  unfold Host.stop
  split_ifs
  · exact .of_fields rfl rfl rfl
  · cases shutdown <;> exact .of_fields rfl rfl rfl

theorem Guest.runNext_untouched (guest : Guest) : guest.Untouched guest.runNext := by
  rw [Guest.runNext]
  split_ifs <;> exact .of_fields rfl rfl rfl

/-! ## Inside of the calls -/

def innerHost : HostEvent → Bool
  | .submit _ _ | .take | .step _ | .stop _ => false
  | _ => true

def innerGuest : GuestEvent → Bool
  | .submit _ _ | .take | .runNext => false
  | _ => true

/-- It leaves the results and the call alone, or it ends the call. Only the end of `stop` is
reported as stopped. -/
inductive Host.Settles (host after : Host) : Prop
  | goes (results : after.results = host.results) (stopped : after.stopped = host.stopped)
      (idle : after.app = .idle ↔ host.app = .idle)
      (joining : after.app = .joining ↔ host.app = .joining)
  | steps (result : ControllerResult) (busy : host.app ≠ .idle) (other : host.app ≠ .joining)
      (idle : after.app = .idle) (results : after.results = host.results ++ [result])
  | stops (joining : host.app = .joining) (idle : after.app = .idle)
      (results : after.results = host.results ++ [⟨.stopped, ""⟩])
      (stopped : after.stopped = true)

theorem Host.Settles.rests (settles : host.Settles after)
    (rest : host.app = .idle) : after.app = .idle := by
  cases settles with
  | goes results stopped idle joining => exact idle.mpr rest
  | steps result busy other idle results => exact idle
  | stops joining idle results stopped => exact idle

structure Host.Inner (host after : Host) : Prop where
  untouched : host.Untouched after
  settles : host.Settles after

theorem Host.Inner.of_worker (untouched : host.Untouched after)
    (results : after.results = host.results) (stopped : after.stopped = host.stopped)
    (app : after.app = host.app) : host.Inner after where
  untouched := untouched
  settles := .goes results stopped (by rw [app]) (by rw [app])

theorem Host.drainIncoming_inner {host : Host} (busy : host.app = .drain) :
    host.Inner host.drainIncoming := by
  by_cases failed : host.failure ≠ ""
  · rw [Host.drainIncoming, if_pos failed]
    exact ⟨.of_fields rfl rfl rfl, .steps _ (by simp [busy]) (by simp [busy]) rfl rfl⟩
  · rw [Host.drainIncoming, if_neg failed]
    exact ⟨.of_fields rfl rfl rfl, .goes rfl rfl (by simp [busy]) (by simp [busy])⟩

theorem Host.appendReady_inner {host : Host} {received : Batch}
    (busy : host.app = .append received) :
    host.Inner (host.appendReady received) := by
  rw [Host.appendReady]
  cases host.ready.append .machine received with
  | error what => exact ⟨.of_fields rfl rfl rfl, .steps _ (by simp [busy]) (by simp [busy]) rfl rfl⟩
  | ok result => exact ⟨.of_fields rfl rfl rfl, .steps _ (by simp [busy]) (by simp [busy]) rfl rfl⟩

theorem Host.workerThrow_inner (host : Host) (what : String) : host.Inner (host.workerThrow what) :=
  .of_worker (.of_fields rfl rfl rfl) rfl rfl rfl

theorem Host.workerRequest_inner (host : Host) (packet : Message) :
    host.Inner (host.workerRequest packet) := by
  rw [Host.workerRequest]
  split_ifs <;> exact .of_worker (.of_fields rfl rfl rfl) rfl rfl rfl

theorem Host.workerDecode_inner (host : Host) (packet : Message) :
    host.Inner (host.workerDecode packet) := by
  rw [Host.workerDecode]
  cases decode .machine packet <;> exact .of_worker (.of_fields rfl rfl rfl) rfl rfl rfl

theorem Host.workerExchange_inner (host : Host) (request : Batch) :
    host.Inner (host.workerExchange request) := by
  rw [Host.workerExchange]
  cases host.incoming.append .machine request with
  | error what => exact host.workerThrow_inner what
  | ok result =>
    refine .of_worker ⟨?_, rfl⟩ rfl rfl rfl
    simp [Host.submitted, OutgoingQueue.drain, OutgoingQueue.contents]

theorem Host.inner_step {inbox rest sent : List Message} {event : HostEvent}
    (inner : innerHost event = true)
    (taken : host.step inbox event = some (after, rest, sent)) : host.Inner after := by
  cases event with
  | submit | take | step | stop => cases inner
  | timingDone =>
    simp only [Host.step] at taken
    split_ifs at taken with busy
    cases taken
    exact ⟨.of_fields rfl rfl rfl, .goes rfl rfl (by simp [busy]) (by simp [busy])⟩
  | timingError what =>
    simp only [Host.step] at taken
    split_ifs at taken with busy
    cases taken
    exact ⟨.of_fields rfl rfl rfl, .steps _ (by simp [busy.1]) (by simp [busy.1]) rfl rfl⟩
  | drain =>
    simp only [Host.step] at taken
    split_ifs at taken with busy
    cases taken
    exact Host.drainIncoming_inner busy
  | append =>
    simp only [Host.step] at taken
    split at taken
    case h_1 received busy =>
      cases taken
      exact Host.appendReady_inner busy
    case h_2 => cases taken
  | join =>
    simp only [Host.step] at taken
    split_ifs at taken with joining
    cases taken
    exact ⟨.of_fields rfl rfl rfl, .stops joining.1 rfl rfl rfl⟩
  | workerReceive =>
    simp only [Host.step] at taken
    split at taken
    · cases taken
      exact host.workerRequest_inner _
    · cases taken
      exact host.workerDecode_inner _
    · cases taken
  | workerLock =>
    simp only [Host.step] at taken
    split at taken
    · cases taken
      exact .of_worker (.of_fields rfl rfl rfl) rfl rfl rfl
    · cases taken
      exact host.workerExchange_inner _
    · cases taken
  | workerSend =>
    simp only [Host.step] at taken
    split at taken
    · cases taken
      exact .of_worker (.of_fields rfl rfl rfl) rfl rfl rfl
    · split at taken <;> cases taken <;> exact .of_worker (.of_fields rfl rfl rfl) rfl rfl rfl
    · cases taken
  | workerTransportError what delivered =>
    simp only [Host.step] at taken
    by_cases unnamed : what = ""
    · rw [if_pos unnamed] at taken
      cases taken
    rw [if_neg unnamed] at taken
    split at taken
    · cases taken
      exact host.workerThrow_inner what
    · cases taken
      exact host.workerThrow_inner what
    · split at taken <;> cases taken <;> exact .of_worker (.of_fields rfl rfl rfl) rfl rfl rfl
    · split at taken
      · cases taken
      · cases taken
        exact host.workerThrow_inner what
    · cases taken

theorem Guest.startupReply_untouched (guest : Guest) (packet : Message) :
    guest.Untouched (guest.startupReply packet) := by
  rw [Guest.startupReply]
  cases decodeStartup packet <;> exact .of_fields rfl rfl rfl

theorem Guest.batchReply_untouched (guest : Guest) (packet : Message) :
    guest.Untouched (guest.batchReply packet) := by
  rw [Guest.batchReply]
  cases decode .machine packet with
  | error what => exact .of_fields rfl rfl rfl
  | ok batch =>
    simp only
    cases guest.incoming.append .machine batch <;> exact .of_fields rfl rfl rfl

/-- What happens inside of `run_next` happens while it runs. -/
theorem Guest.inner_step {guest after : Guest} {inbox rest sent : List Message} {event : GuestEvent}
    (inner : innerGuest event = true) (taken : guest.step inbox event = some (after, rest, sent)) :
    guest.Untouched after ∧ guest.location ≠ .idle := by
  have busy : guest.location ≠ .idle := by
    intro idle
    cases event with
    | submit | take | runNext => cases inner
    | wake | drain | send | receive => simp only [Guest.step, idle, reduceCtorEq] at taken
    | transportError what delivered =>
      simp only [Guest.step, idle, ite_self, reduceCtorEq] at taken
  refine ⟨?_, busy⟩
  cases event with
  | submit | take | runNext => cases inner
  | wake =>
    simp only [Guest.step] at taken
    split at taken <;> cases taken <;> exact .of_fields rfl rfl rfl
  | drain =>
    simp only [Guest.step] at taken
    split at taken
    · cases taken
      refine ⟨?_, rfl⟩
      simp [Guest.submitted, OutgoingQueue.drain, OutgoingQueue.contents]
    · cases taken
  | send =>
    simp only [Guest.step] at taken
    split at taken
    · cases taken
      exact .of_fields rfl rfl rfl
    · split at taken <;> cases taken <;> exact .of_fields rfl rfl rfl
    · cases taken
  | receive =>
    simp only [Guest.step] at taken
    split at taken
    · cases taken
      exact guest.startupReply_untouched _
    · cases taken
      exact guest.batchReply_untouched _
    · cases taken
  | transportError what delivered =>
    simp only [Guest.step] at taken
    by_cases unnamed : what = ""
    · rw [if_pos unnamed] at taken
      cases taken
    rw [if_neg unnamed] at taken
    split at taken
    · cases taken
      exact .of_fields rfl rfl rfl
    · cases taken
      exact .of_fields rfl rfl rfl
    · cases taken
      exact .of_fields rfl rfl rfl
    · split at taken
      · cases taken
      · cases taken
        exact .of_fields rfl rfl rfl
    · cases taken

namespace System

def upwardHop (system : System) : Hop Message where
  input := system.guest.submitted
  output := system.host.taken
  waiting := system.host.ready.contents ++ system.host.detached ++ system.host.incoming.contents ++
    (system.host.request ++ carried system.toHost ++ system.guest.held) ++
    system.guest.outgoing.contents
  intact := system.guest.failure = "" ∧ system.host.failure = ""

def downwardHop (system : System) : Hop Message where
  input := system.host.submitted
  output := system.guest.taken
  waiting := system.guest.incoming.contents ++ (carried system.toGuest ++ system.host.held) ++
    system.host.outgoing.contents
  intact := system.guest.failure = "" ∧ system.host.failure = ""

theorem Invariant.upward_faithful {system : System} (holds : system.Invariant) :
    Faithful system.upwardHop where
  whole working := by
    have total := holds.up.total working.1 working.2
    simp only [upward, Host.delivered, List.append_assoc] at total
    simp only [upwardHop, Guest.submitted, total, List.append_assoc]
  ordered := by
    have kept : system.host.taken <+: system.guest.drained.flatten := by
      apply List.IsPrefix.trans ?_ holds.up.ordered
      simp only [upward, Host.delivered, List.append_assoc]
      exact List.prefix_append _ _
    exact kept.trans (List.prefix_append _ _)

theorem Invariant.downward_faithful {system : System} (holds : system.Invariant) :
    Faithful system.downwardHop where
  whole working := by
    have serving : system.host.worker ≠ .exited := fun exited =>
      holds.reported exited working.2
    have total := holds.down.total serving working.1
    simp only [downward, List.append_assoc] at total
    simp only [downwardHop, Host.submitted, total, List.append_assoc]
  ordered := by
    have kept : system.guest.taken <+: system.host.drained.flatten := by
      apply List.IsPrefix.trans ?_ holds.down.ordered
      exact List.prefix_append _ _
    exact kept.trans (List.prefix_append _ _)

end System

end Chimaera.Control
