import Chimaera.Control.Refinement

/-! What the refinement says about a session: in every interleaving neither end reads a
packet of another kind than it expects, and the guest polls with the duration of the host
from the first positive reply on. -/

namespace Chimaera.Control
open Base.BigEndian Base.Unsigned Base.Transition

namespace System.InPhase

variable {poll : PollInterval} {system : System} {phase : Phase}

theorem polls_eq_zero_iff (related : InPhase poll system phase) :
    system.guest.poll = 0 ↔ phase.started = false := by
  have positive := poll.positive
  rw [related.polls]
  cases phase.started with
  | false => simp
  | true => simp only [if_true, Bool.true_eq_false, iff_false]; omega

/-- The guest has left startup exactly when one of the answers it decoded was positive. -/
theorem answered_iff (related : InPhase poll system phase) :
    system.guest.poll ≠ 0 ↔ true ∈ system.host.answers.take system.guest.replies.length := by
  obtain ⟨refusals, answers, replies⟩ := related.history
  rw [ne_eq, related.polls_eq_zero_iff, answers, replies]
  cases unstarted : phase.started with
  | true =>
    have last : phase.answers = [true] := by
      cases phase <;> simp [Phase.started] at unstarted <;> rfl
    rw [last, List.take_of_length_le (by simp)]
    simp
  | false => simp

theorem polls_of_location (related : InPhase poll system phase) (settled : system.guest.Settled)
    {location : GuestLocation} (here : system.guest.location = location) (busy : location ≠ .idle) :
    system.guest.poll =
      if location = .startupSend ∨ location = .startupReceive ∨ location = .startupDelay then 0
      else poll.duration := by
  obtain ⟨-, fits⟩ := related.guest_at settled here busy
  rw [related.polls]
  cases phase with
  | guestStartup =>
    rcases fits with idle | sending | delayed
    · exact absurd idle busy
    · simp [Phase.started, sending]
    · simp [Phase.started, delayed]
  | guestBatch =>
    rcases fits with idle | sleeping | exchanging | ⟨messages, sending, -⟩
    · exact absurd idle busy
    · simp [Phase.started, sleeping]
    · simp [Phase.started, exchanging]
    · simp [Phase.started, sending]
  | _ =>
    simp only [Phase.GuestAt] at fits
    simp [Phase.started, fits]

end System.InPhase

theorem Guest.Move.poll_eq {guest after : Guest} {inbox rest sent : List Message}
    (move : guest.Move inbox after rest sent) (elsewhere : guest.location ≠ .startupReceive) :
    after.poll = guest.poll := by
  cases move with
  | answered waiting decoded => exact absurd waiting elsewhere
  | _ => rfl

namespace System

theorem run_inPhase {poll : PollInterval} {system : System}
    (reached : Reachable step (initial poll) system) :
    ∃ phase, Relation.ReflTransGen Phase.Next .guestStartup phase ∧
      system.Invariant ∧ system.InPhase poll phase := by
  obtain ⟨events, ran⟩ := reached
  refine run_simulated (fun state phase => state.Invariant ∧ state.InPhase poll phase)
    (fun state event after phase => ?_) ⟨invariant_initial poll, InPhase.initial poll⟩ ran
  rintro ⟨holds, related⟩ taken
  have kept := step_invariant state event after holds taken
  rcases step_cases holds.valid taken with
    ⟨guest, inbox, sent, move, rfl⟩ | ⟨host, inbox, sent, move, rfl⟩
  · obtain ⟨next, path, moved⟩ := related.guest_moves holds.valid.guest holds.settled move
    exact ⟨next, path, kept, moved⟩
  · obtain ⟨next, path, moved⟩ := related.host_moves holds.valid.host move
    exact ⟨next, path, kept, moved⟩

/-- What the two ends may rely on at any moment of a session: each packet they find is of
the kind they expect, and the guest's polling duration is the host's from the first
positive reply it decoded, before which nothing is drained. -/
structure Agreement (poll : PollInterval) (system : System) : Prop where
  workerStartup : system.host.worker = .startupReceive →
    ∀ packet rest, system.toHost = packet :: rest → packet = startupRequest
  workerBatch : system.host.worker = .batchReceive →
    ∀ packet rest, system.toHost = packet :: rest → ∃ batch, decode .machine packet = .ok batch
  guestStartup : system.guest.location = .startupReceive →
    ∀ packet rest, system.toGuest = packet :: rest → ∃ reply, decodeStartup packet = .ok reply
  guestBatch : system.guest.location = .batchReceive →
    ∀ packet rest, system.toGuest = packet :: rest → ∃ batch, decode .machine packet = .ok batch
  leaves : system.guest.poll ≠ 0 ↔
    true ∈ system.host.answers.take system.guest.replies.length
  begun : true ∈ system.host.answers → system.host.started = true
  within : system.guest.location = .startupSend ∨ system.guest.location = .startupReceive ∨
    system.guest.location = .startupDelay → system.guest.poll = 0
  after : system.guest.location = .pollSleep ∨ system.guest.location = .exchange ∨
    (∃ batch, system.guest.location = .batchSend batch) ∨
    system.guest.location = .batchReceive → system.guest.poll = poll.duration
  configured : system.guest.poll = 0 ∨ system.guest.poll = poll.duration
  constant : system.guest.poll ≠ 0 → ∀ event next, system.step event = some next →
    next.guest.poll = system.guest.poll
  undrained : system.guest.poll = 0 → system.guest.drained = [] ∧ system.host.drained = []

theorem InPhase.constant {poll : PollInterval} {system : System} {phase : Phase}
    (holds : system.Invariant) (related : InPhase poll system phase)
    (started : system.guest.poll ≠ 0) (event : Event) (next : System)
    (taken : system.step event = some next) : next.guest.poll = system.guest.poll := by
  rcases step_cases holds.valid taken with
    ⟨guest, inbox, sent, move, rfl⟩ | ⟨host, inbox, sent, move, rfl⟩
  · apply move.poll_eq
    intro waiting
    exact started (related.polls_of_location holds.settled waiting (by decide))
  · rfl

theorem InPhase.agreement {poll : PollInterval} {system : System} {phase : Phase}
    (holds : system.Invariant) (related : InPhase poll system phase) : Agreement poll system where
  workerStartup waiting packet rest found := by
    have fits := related.worker_at waiting (by decide)
    exact (fits.startupReceive (found.symm.trans related.toHost)).2.1
  workerBatch waiting packet rest found := by
    have fits := related.worker_at waiting (by decide)
    obtain ⟨messages, rfl, rfl, -⟩ := fits.batchReceive (found.symm.trans related.toHost)
    exact ⟨messages, decode_wire .machine related.sound⟩
  guestStartup waiting packet rest found := by
    obtain ⟨-, fits⟩ := related.guest_at holds.settled waiting (by decide)
    obtain ⟨ready, rfl, rfl, -⟩ := fits.startupReceive (found.symm.trans related.toGuest)
    exact ⟨_, poll.decodeStartup_reply ready⟩
  guestBatch waiting packet rest found := by
    obtain ⟨-, fits⟩ := related.guest_at holds.settled waiting (by decide)
    obtain ⟨messages, rfl, rfl, -⟩ := fits.batchReceive (found.symm.trans related.toGuest)
    exact ⟨messages, decode_wire .machine related.sound⟩
  leaves := related.answered_iff
  begun := related.begun
  within starting := by
    rcases starting with here | here | here <;>
      simpa using related.polls_of_location holds.settled here (by decide)
  after exchanging := by
    rcases exchanging with here | here | ⟨batch, here⟩ | here <;>
      simpa using related.polls_of_location holds.settled here (by simp)
  configured := by
    rw [related.polls]
    cases phase.started
    · exact .inl rfl
    · exact .inr rfl
  constant := related.constant holds
  undrained zero := related.undrained (related.polls_eq_zero_iff.mp zero)

/-- In every interleaving from freshly constructed controllers the two ends follow the
protocol and agree on its phase. -/
theorem phases_agree (poll : PollInterval) (system : System)
    (reached : Reachable step (initial poll) system) :
    (∃ phase, Relation.ReflTransGen Phase.Next .guestStartup phase ∧ system.InPhase poll phase) ∧
      Agreement poll system := by
  obtain ⟨phase, path, holds, related⟩ := run_inPhase reached
  exact ⟨⟨phase, path, related⟩, related.agreement holds⟩

def lateStart : List Event :=
  [.guest .runNext, .guest .send, .host .workerReceive, .host .workerLock, .host .workerSend,
    .guest .receive, .guest .wake, .guest .send, .host (.step 2000000), .host .workerReceive,
    .host .workerLock, .host .workerSend, .guest .receive]

theorem phases_agree_lateStart :
    ∃ system, run step (initial ⟨1000000, by decide, by decide⟩) lateStart = some system ∧
      system.guest.replies = [0, 1000000] ∧
      Agreement ⟨1000000, by decide, by decide⟩ system := by
  have ran : ∃ system, run step (initial ⟨1000000, by decide, by decide⟩) lateStart = some system ∧
      system.guest.replies = [0, 1000000] := ⟨_, rfl, by decide +kernel⟩
  obtain ⟨system, reached, replies⟩ := ran
  exact ⟨system, reached, replies, (phases_agree _ system ⟨lateStart, reached⟩).2⟩

end System

end Chimaera.Control
