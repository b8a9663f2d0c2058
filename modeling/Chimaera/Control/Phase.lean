import Chimaera.Control.Host

/-! The phases of a session. The two ends exchange one packet at a time, first startup
requests and replies, then batches. Each phase says what is on the wire and where the two
ends stand. -/

namespace Chimaera.Control
open Base.BigEndian Base.Unsigned

inductive Phase where
  | guestStartup
  | request
  | answering
  | reply (ready : Bool)
  | guestBatch
  | batch (messages : Batch)
  | serving
  | batchReply (messages : Batch)
  deriving DecidableEq, Repr

namespace Phase

inductive Next : Phase → Phase → Prop
  | asks : Next .guestStartup .request
  | arrives : Next .request .answering
  | answers (ready : Bool) : Next .answering (.reply ready)
  | retries : Next (.reply false) .guestStartup
  | starts : Next (.reply true) .guestBatch
  | sends (messages : Batch) : Next .guestBatch (.batch messages)
  | serves (messages : Batch) : Next (.batch messages) .serving
  | replies (messages : Batch) : Next .serving (.batchReply messages)
  | completes (messages : Batch) : Next (.batchReply messages) .guestBatch

def toHost : Phase → List Message
  | .request => [startupRequest]
  | .batch messages => [wire messages]
  | _ => []

def toGuest (poll : Int) : Phase → List Message
  | .reply ready => [encodeStartup (if ready then poll else 0)]
  | .batchReply messages => [wire messages]
  | _ => []

def started : Phase → Bool
  | .guestBatch | .batch _ | .serving | .batchReply _ => true
  | _ => false

def Sound : Phase → Prop
  | .batch messages => Admissible messages
  | .batchReply messages => Admissible messages
  | _ => True

def GuestAt : Phase → GuestLocation → Prop
  | .guestStartup, location =>
      location = .idle ∨ location = .startupSend ∨ location = .startupDelay
  | .guestBatch, location =>
      location = .idle ∨ location = .pollSleep ∨ location = .exchange ∨
        ∃ messages, location = .batchSend messages ∧ Admissible messages
  | .request, location => location = .startupReceive
  | .answering, location => location = .startupReceive
  | .reply _, location => location = .startupReceive
  | .batch _, location => location = .batchReceive
  | .serving, location => location = .batchReceive
  | .batchReply _, location => location = .batchReceive

def WorkerAt (begun : Bool) : Phase → WorkerLocation → Prop
  | .guestStartup, location => location = .startupReceive
  | .request, location => location = .startupReceive
  | .answering, location =>
      location = .startupLock ∨
        ∃ ready, location = .startupSend ready ∧ (ready = true → begun = true)
  | .reply false, location => location = .startupReceive
  | .reply true, location => location = .batchReceive
  | .guestBatch, location => location = .batchReceive
  | .batch _, location => location = .batchReceive
  | .serving, location =>
      (∃ request, location = .batchLock request) ∨
        ∃ messages, location = .batchSend messages ∧ Admissible messages
  | .batchReply _, location => location = .batchReceive

/-- The answers that end with this phase: any number of refusals, then the one on the wire
or the positive one. -/
def answers : Phase → List Bool
  | .reply ready => [ready]
  | phase => if phase.started then [true] else []

section Locations

variable {phase : Phase} {begun : Bool}

theorem GuestAt.idle (fits : phase.GuestAt .idle) :
    phase = .guestStartup ∨ phase = .guestBatch := by
  cases phase <;> simp [GuestAt] at fits ⊢

theorem GuestAt.startupSend (fits : phase.GuestAt .startupSend) : phase = .guestStartup := by
  cases phase <;> simp [GuestAt] at fits ⊢

theorem GuestAt.startupDelay (fits : phase.GuestAt .startupDelay) : phase = .guestStartup := by
  cases phase <;> simp [GuestAt] at fits ⊢

theorem GuestAt.pollSleep (fits : phase.GuestAt .pollSleep) : phase = .guestBatch := by
  cases phase <;> simp [GuestAt] at fits ⊢

theorem GuestAt.exchange (fits : phase.GuestAt .exchange) : phase = .guestBatch := by
  cases phase <;> simp [GuestAt] at fits ⊢

theorem GuestAt.batchSend {messages : Batch} (fits : phase.GuestAt (.batchSend messages)) :
    phase = .guestBatch ∧ Admissible messages := by
  cases phase <;> simp [GuestAt] at fits ⊢
  exact fits

theorem WorkerAt.startupLock (fits : phase.WorkerAt begun .startupLock) :
    phase = .answering := by
  cases phase with
  | reply ready => cases ready <;> simp [WorkerAt] at fits
  | _ => simp [WorkerAt] at fits ⊢

theorem WorkerAt.startupSend {ready : Bool} (fits : phase.WorkerAt begun (.startupSend ready)) :
    phase = .answering ∧ (ready = true → begun = true) := by
  cases phase with
  | reply ready => cases ready <;> simp [WorkerAt] at fits
  | answering => simpa [WorkerAt] using fits
  | _ => simp [WorkerAt] at fits

theorem WorkerAt.batchLock {request : Batch} (fits : phase.WorkerAt begun (.batchLock request)) :
    phase = .serving := by
  cases phase with
  | reply ready => cases ready <;> simp [WorkerAt] at fits
  | _ => simp [WorkerAt] at fits ⊢

theorem WorkerAt.batchSend {messages : Batch} (fits : phase.WorkerAt begun (.batchSend messages)) :
    phase = .serving ∧ Admissible messages := by
  cases phase with
  | reply ready => cases ready <;> simp [WorkerAt] at fits
  | serving => simpa [WorkerAt] using fits
  | _ => simp [WorkerAt] at fits

/-! Where an end waits for a packet, the phase says which packet that can be. -/

variable {rest : List Message}

variable {packet : Message}

theorem GuestAt.startupReceive {poll : Int}
    (fits : phase.GuestAt .startupReceive) (waiting : packet :: rest = phase.toGuest poll) :
    ∃ ready, phase = .reply ready ∧ packet = encodeStartup (if ready then poll else 0) ∧
      rest = [] := by
  cases phase with
  | reply ready =>
    obtain ⟨head, tail⟩ := List.cons.inj waiting
    exact ⟨ready, rfl, head, tail⟩
  | _ => simp [GuestAt, toGuest] at fits waiting

theorem GuestAt.batchReceive {poll : Int}
    (fits : phase.GuestAt .batchReceive) (waiting : packet :: rest = phase.toGuest poll) :
    ∃ messages, phase = .batchReply messages ∧ packet = wire messages ∧ rest = [] := by
  cases phase with
  | batchReply messages =>
    obtain ⟨head, tail⟩ := List.cons.inj waiting
    exact ⟨messages, rfl, head, tail⟩
  | _ => simp [GuestAt, toGuest] at fits waiting

theorem WorkerAt.startupReceive (fits : phase.WorkerAt begun .startupReceive)
    (waiting : packet :: rest = phase.toHost) :
    phase = .request ∧ packet = startupRequest ∧ rest = [] := by
  cases phase with
  | request =>
    obtain ⟨head, tail⟩ := List.cons.inj waiting
    exact ⟨rfl, head, tail⟩
  | _ => simp [WorkerAt, toHost] at fits waiting

theorem WorkerAt.batchReceive (fits : phase.WorkerAt begun .batchReceive)
    (waiting : packet :: rest = phase.toHost) :
    ∃ messages, phase = .batch messages ∧ packet = wire messages ∧ rest = [] := by
  cases phase with
  | batch messages =>
    obtain ⟨head, tail⟩ := List.cons.inj waiting
    exact ⟨messages, rfl, head, tail⟩
  | _ => simp [WorkerAt, toHost] at fits waiting

end Locations

theorem WorkerAt.mono {phase : Phase} {location : WorkerLocation} {begun later : Bool}
    (fits : phase.WorkerAt begun location) (kept : begun = true → later = true) :
    phase.WorkerAt later location := by
  cases phase with
  | answering =>
    rcases fits with locked | ⟨ready, sending, needs⟩
    · exact .inl locked
    · exact .inr ⟨ready, sending, fun positive => kept (needs positive)⟩
  | reply ready => cases ready <;> exact fits
  | _ => exact fits

end Phase

end Chimaera.Control
