import Chimaera.Control.Conservation
import Chimaera.Control.Phase

/-! The controllers refine the phase protocol: every move of either end keeps the system in
its phase or takes it to the next one. -/

namespace Chimaera.Control
open Base.BigEndian Base.Unsigned Base.Transition

theorem PollInterval.decodeStartup_reply (poll : PollInterval) (ready : Bool) :
    decodeStartup (encodeStartup (if ready then poll.duration else 0)) =
      .ok (if ready then poll.duration else 0) := by
  cases ready with
  | false =>
    have zero : (0 : Int) ≤ hour := by decide
    exact decodeStartup_encodeStartup le_rfl zero
  | true => exact decodeStartup_encodeStartup poll.positive.le poll.bounded

/-- What phase a system is in. An end that has failed has no location to speak of. -/
structure System.InPhase (poll : PollInterval) (system : System) (phase : Phase) : Prop where
  configured : system.host.poll = poll
  toHost : system.toHost = phase.toHost
  toGuest : system.toGuest = phase.toGuest poll.duration
  sound : phase.Sound
  guest : system.guest.failure = "" → phase.GuestAt system.guest.location
  worker : system.host.worker ≠ .exited → phase.WorkerAt system.host.started system.host.worker
  polls : system.guest.poll = if phase.started then poll.duration else 0
  undrained : phase.started = false → system.guest.drained = [] ∧ system.host.drained = []
  history : ∃ refusals,
    system.host.answers = List.replicate refusals false ++ phase.answers ∧
    system.guest.replies =
      List.replicate refusals 0 ++ if phase.started then [poll.duration] else []
  begun : true ∈ system.host.answers → system.host.started = true

namespace System.InPhase

variable {poll : PollInterval} {system : System} {phase : Phase}

theorem initial (poll : PollInterval) : InPhase poll (System.initial poll) .guestStartup where
  configured := rfl
  toHost := rfl
  toGuest := rfl
  sound := trivial
  guest _ := .inl rfl
  worker _ := rfl
  polls := rfl
  undrained _ := ⟨rfl, rfl⟩
  history := ⟨0, rfl, rfl⟩
  begun none := by cases none

theorem guest_at (related : InPhase poll system phase) (settled : system.guest.Settled)
    {location : GuestLocation} (here : system.guest.location = location)
    (busy : location ≠ .idle) : system.guest.failure = "" ∧ phase.GuestAt location := by
  have working : system.guest.failure = "" := by
    by_contra failed
    exact busy (here.symm.trans (settled failed))
  exact ⟨working, here ▸ related.guest working⟩

theorem worker_at (related : InPhase poll system phase) {location : WorkerLocation}
    (here : system.host.worker = location) (serving : location ≠ .exited) :
    phase.WorkerAt system.host.started location :=
  here ▸ related.worker (here ▸ serving)

theorem guest_stays (related : InPhase poll system phase) {guest : Guest}
    (polls : guest.poll = system.guest.poll) (drained : guest.drained = system.guest.drained)
    (replies : guest.replies = system.guest.replies)
    (fits : guest.failure = "" → phase.GuestAt guest.location) :
    InPhase poll { system with guest := guest, toHost := system.toHost ++ [] } phase where
  configured := related.configured
  toHost := (List.append_nil _).trans related.toHost
  toGuest := related.toGuest
  sound := related.sound
  guest := fits
  worker := related.worker
  polls := polls.trans related.polls
  undrained unstarted := by
    rw [drained]
    exact related.undrained unstarted
  history := by
    rw [replies]
    exact related.history
  begun := related.begun

theorem guest_stops (related : InPhase poll system phase) {what : String} (named : what ≠ "") :
    InPhase poll { system with guest := system.guest.throw what, toHost := system.toHost ++ [] }
      phase :=
  related.guest_stays rfl rfl rfl fun working => absurd working named

theorem guest_answered {ready : Bool} (related : InPhase poll system (.reply ready))
    {duration : Int} (replied : duration = if ready then poll.duration else 0) :
    ∃ next, Relation.ReflGen Phase.Next (.reply ready) next ∧ InPhase poll { system with
      guest := { system.guest with
        poll := duration
        replies := system.guest.replies ++ [duration]
        location := if duration = 0 then .startupDelay else .exchange }
      toGuest := []
      toHost := system.toHost ++ [] } next := by
  have outgoing : system.toHost ++ [] = [] := (List.append_nil _).trans related.toHost
  obtain ⟨refusals, answers, replies⟩ := related.history
  subst replied
  cases ready with
  | false =>
    refine ⟨.guestStartup, .single .retries, { related with
      toHost := outgoing, toGuest := rfl, guest := fun _ => .inr (.inr rfl), polls := rfl
      history := ⟨refusals + 1, ?_, ?_⟩ }⟩
    · rw [answers, List.replicate_succ']
      simp [Phase.answers, Phase.started]
    · rw [replies, List.replicate_succ']
      simp [Phase.started]
  | true =>
    have positive : poll.duration ≠ 0 := poll.positive.ne'
    refine ⟨.guestBatch, .single .starts, { related with
      toHost := outgoing, toGuest := rfl
      guest := fun _ => .inr (.inr (.inl (if_neg positive)))
      polls := rfl, undrained := fun unstarted => by cases unstarted
      history := ⟨refusals, answers, ?_⟩ }⟩
    rw [replies]
    simp [Phase.started]

/-- Every move of the guest stays in the phase or is the next move of the protocol. -/
theorem guest_moves (related : InPhase poll system phase) (valid : system.guest.Valid)
    (settled : system.guest.Settled) {guest : Guest} {inbox sent : List Message}
    (move : system.guest.Move system.toGuest guest inbox sent) :
    ∃ next, Relation.ReflGen Phase.Next phase next ∧ InPhase poll
      { system with guest := guest, toGuest := inbox, toHost := system.toHost ++ sent } next := by
  have outgoing : system.toHost ++ [] = phase.toHost := by rw [List.append_nil, related.toHost]
  generalize same : system.toGuest = incoming at move
  cases move with
  | submitted queue kept =>
    exact ⟨phase, .refl, same ▸ related.guest_stays rfl rfl rfl related.guest⟩
  | took queue kept rest =>
    exact ⟨phase, .refl, same ▸ related.guest_stays rfl rfl rfl related.guest⟩
  | refused failed idle =>
    exact ⟨phase, .refl, same ▸ related.guest_stays rfl rfl rfl related.guest⟩
  | began working idle =>
    refine ⟨phase, .refl, same ▸ related.guest_stays rfl rfl rfl ?_⟩
    intro _
    have fits := related.guest working
    rw [idle] at fits
    rcases fits.idle with rfl | rfl
    · exact .inr (.inl (if_neg (by rw [related.polls]; simp [Phase.started])))
    · exact .inr (.inl (if_pos (by rw [related.polls]; exact poll.positive)))
  | retried delayed =>
    obtain ⟨working, fits⟩ := related.guest_at settled delayed (by decide)
    obtain rfl := fits.startupDelay
    exact ⟨_, .refl, same ▸ related.guest_stays rfl rfl rfl fun _ => .inr (.inl rfl)⟩
  | polled slept =>
    obtain ⟨working, fits⟩ := related.guest_at settled slept (by decide)
    obtain rfl := fits.pollSleep
    exact ⟨_, .refl, same ▸ related.guest_stays rfl rfl rfl fun _ => .inr (.inr (.inl rfl))⟩
  | drained ready =>
    obtain ⟨working, fits⟩ := related.guest_at settled ready (by decide)
    obtain rfl := fits.exchange
    exact ⟨_, .refl, { related with
      toHost := outgoing, toGuest := same ▸ related.toGuest
      guest := fun _ => .inr (.inr (.inr ⟨_, rfl, valid.outgoing.admissible⟩))
      undrained := fun unstarted => by cases unstarted }⟩
  | requested starting =>
    obtain ⟨working, fits⟩ := related.guest_at settled starting (by decide)
    obtain rfl := fits.startupSend
    exact ⟨.request, .single .asks, { related with
      toHost := by rw [related.toHost]; rfl
      toGuest := same ▸ related.toGuest
      guest := fun _ => rfl }⟩
  | sent sending encoded =>
    obtain ⟨working, fits⟩ := related.guest_at settled sending (by simp)
    obtain ⟨rfl, admissible⟩ := fits.batchSend
    obtain ⟨-, rfl⟩ := (encode_eq_ok_iff .machine _ _).mp encoded
    exact ⟨.batch _, .single (.sends _), { related with
      toHost := by rw [related.toHost]; rfl
      toGuest := same ▸ related.toGuest
      sound := admissible
      guest := fun _ => rfl }⟩
  | answered waiting decoded =>
    obtain ⟨working, fits⟩ := related.guest_at settled waiting (by decide)
    obtain ⟨ready, rfl, rfl, rfl⟩ := fits.startupReceive (same.symm.trans related.toGuest)
    rw [poll.decodeStartup_reply] at decoded
    exact related.guest_answered (Except.ok.inj decoded).symm
  | received queue waiting decoded kept appended =>
    obtain ⟨working, fits⟩ := related.guest_at settled waiting (by decide)
    obtain ⟨messages, rfl, rfl, rfl⟩ := fits.batchReceive (same.symm.trans related.toGuest)
    exact ⟨.guestBatch, .single (.completes messages), { related with
      toHost := outgoing, toGuest := rfl, sound := trivial, guest := fun _ => .inl rfl }⟩
  | unencodable sending failed named =>
    obtain ⟨working, fits⟩ := related.guest_at settled sending (by simp)
    rw [encode_admissible .machine fits.batchSend.2] at failed
    cases failed
  | mismatched waiting failed named =>
    obtain ⟨working, fits⟩ := related.guest_at settled waiting (by decide)
    obtain ⟨ready, rfl, rfl, rfl⟩ := fits.startupReceive (same.symm.trans related.toGuest)
    rw [poll.decodeStartup_reply] at failed
    cases failed
  | undecodable waiting failed named =>
    obtain ⟨working, fits⟩ := related.guest_at settled waiting (by decide)
    obtain ⟨messages, rfl, rfl, rfl⟩ := fits.batchReceive (same.symm.trans related.toGuest)
    rw [decode_wire .machine related.sound] at failed
    cases failed
  | overflowed waiting decoded named =>
    obtain ⟨working, fits⟩ := related.guest_at settled waiting (by decide)
    obtain ⟨messages, rfl, rfl, rfl⟩ := fits.batchReceive (same.symm.trans related.toGuest)
    exact ⟨.guestBatch, .single (.completes messages), { related with
      toHost := outgoing, toGuest := rfl, sound := trivial
      guest := fun working => absurd working named }⟩
  | receiveFailed waiting named => exact ⟨phase, .refl, same ▸ related.guest_stops named⟩
  | requestFailed delivered starting named =>
    obtain ⟨working, fits⟩ := related.guest_at settled starting (by decide)
    obtain rfl := fits.startupSend
    cases delivered with
    | false => exact ⟨_, .refl, same ▸ related.guest_stops named⟩
    | true =>
      exact ⟨.request, .single .asks, { related with
        toHost := by rw [related.toHost]; rfl
        toGuest := same ▸ related.toGuest
        guest := fun working => absurd working named }⟩
  | sendFailed delivered sending encoded named =>
    obtain ⟨working, fits⟩ := related.guest_at settled sending (by simp)
    obtain ⟨rfl, admissible⟩ := fits.batchSend
    obtain ⟨-, rfl⟩ := (encode_eq_ok_iff .machine _ _).mp encoded
    cases delivered with
    | false => exact ⟨_, .refl, same ▸ related.guest_stops named⟩
    | true =>
      exact ⟨.batch _, .single (.sends _), { related with
        toHost := by rw [related.toHost]; rfl
        toGuest := same ▸ related.toGuest
        sound := admissible
        guest := fun working => absurd working named }⟩

theorem app_moves (related : InPhase poll system phase) {host : Host}
    (configured : host.poll = system.host.poll) (worker : host.worker = system.host.worker)
    (drained : host.drained = system.host.drained) (answers : host.answers = system.host.answers)
    (started : system.host.started = true → host.started = true) :
    InPhase poll { system with host := host, toGuest := system.toGuest ++ [] } phase where
  configured := configured.trans related.configured
  toHost := related.toHost
  toGuest := (List.append_nil _).trans related.toGuest
  sound := related.sound
  guest := related.guest
  worker serving := by
    have fits := related.worker (worker ▸ serving)
    rw [worker]
    exact fits.mono started
  polls := related.polls
  undrained unstarted := by
    rw [drained]
    exact related.undrained unstarted
  history := by
    rw [answers]
    exact related.history
  begun positive := started (related.begun (answers ▸ positive))

theorem worker_stops (related : InPhase poll system phase) (what : String) :
    InPhase poll
      { system with host := system.host.workerThrow what, toGuest := system.toGuest ++ [] } phase :=
  { related with
    toGuest := (List.append_nil _).trans related.toGuest
    worker := fun serving => absurd rfl serving }

theorem worker_answers (related : InPhase poll system .answering) {ready : Bool}
    (positive : ready = true → system.host.started = true) :
    InPhase poll { system with
      host := system.host.workerAnswer ready
      toGuest := system.toGuest ++ [system.host.startupPacket ready] } (.reply ready) :=
  { related with
    toGuest := by rw [related.toGuest, Host.startupPacket, related.configured]; rfl
    worker := fun _ => by cases ready <;> rfl
    history := by
      obtain ⟨refusals, answers, replies⟩ := related.history
      refine ⟨refusals, ?_, replies⟩
      simp only [Host.workerAnswer, answers, Phase.answers, Phase.started, Bool.false_eq_true,
        if_false, List.append_nil]
    begun := fun member => by
      rcases List.mem_append.mp member with earlier | last
      · exact related.begun earlier
      · exact positive (List.mem_singleton.mp last).symm }

/-- Every move of the host stays in the phase or is the next move of the protocol. -/
theorem host_moves (related : InPhase poll system phase) (valid : system.host.Valid) {host : Host}
    {inbox sent : List Message} (move : system.host.Move system.toHost host inbox sent) :
    ∃ next, Relation.ReflGen Phase.Next phase next ∧ InPhase poll
      { system with host := host, toHost := inbox, toGuest := system.toGuest ++ sent } next := by
  have outgoing : system.toGuest ++ [] = phase.toGuest poll.duration := by
    rw [List.append_nil, related.toGuest]
  generalize same : system.toHost = incoming at move
  cases move with
  | submitted queue kept => exact ⟨phase, .refl, same ▸ related.app_moves rfl rfl rfl rfl id⟩
  | took queue kept rest => exact ⟨phase, .refl, same ▸ related.app_moves rfl rfl rfl rfl id⟩
  | returned state message stopped idle =>
    exact ⟨phase, .refl, same ▸ related.app_moves rfl rfl rfl rfl id⟩
  | began working idle =>
    exact ⟨phase, .refl, same ▸ related.app_moves rfl rfl rfl rfl fun _ => rfl⟩
  | timed timing => exact ⟨phase, .refl, same ▸ related.app_moves rfl rfl rfl rfl id⟩
  | detached working drain => exact ⟨phase, .refl, same ▸ related.app_moves rfl rfl rfl rfl id⟩
  | appended queue append kept contents =>
    exact ⟨phase, .refl, same ▸ related.app_moves rfl rfl rfl rfl id⟩
  | threw named => exact ⟨phase, .refl, same ▸ related.app_moves rfl rfl rfl rfl id⟩
  | joining idle => exact ⟨phase, .refl, same ▸ related.app_moves rfl rfl rfl rfl id⟩
  | requested waiting =>
    have fits := related.worker_at waiting (by decide)
    obtain ⟨rfl, -, rfl⟩ := fits.startupReceive (same.symm.trans related.toHost)
    exact ⟨.answering, .single .arrives, { related with
      toHost := rfl, toGuest := outgoing, worker := fun _ => .inl rfl }⟩
  | looked locked =>
    have fits := related.worker_at locked (by decide)
    obtain rfl := fits.startupLock
    exact ⟨_, .refl, { related with
      toHost := same ▸ related.toHost, toGuest := outgoing
      worker := fun _ => .inr ⟨_, rfl, id⟩ }⟩
  | answered sending =>
    obtain ⟨rfl, positive⟩ := (related.worker_at sending (by simp)).startupSend
    exact ⟨.reply _, .single (.answers _), same ▸ related.worker_answers positive⟩
  | decoded waiting accepted =>
    have fits := related.worker_at waiting (by decide)
    obtain ⟨messages, rfl, rfl, rfl⟩ := fits.batchReceive (same.symm.trans related.toHost)
    exact ⟨.serving, .single (.serves messages), { related with
      toHost := rfl, toGuest := outgoing, sound := trivial, worker := fun _ => .inl ⟨_, rfl⟩ }⟩
  | exchanged queue locked kept contents =>
    obtain rfl := (related.worker_at locked (by simp)).batchLock
    exact ⟨_, .refl, { related with
      toHost := same ▸ related.toHost, toGuest := outgoing
      worker := fun _ => .inr ⟨_, rfl, valid.outgoing.admissible⟩
      undrained := fun unstarted => by cases unstarted }⟩
  | sent sending encoded =>
    obtain ⟨rfl, admissible⟩ := (related.worker_at sending (by simp)).batchSend
    obtain ⟨-, rfl⟩ := (encode_eq_ok_iff .machine _ _).mp encoded
    exact ⟨.batchReply _, .single (.replies _), { related with
      toHost := same ▸ related.toHost
      toGuest := by rw [related.toGuest]; rfl
      sound := admissible
      worker := fun _ => rfl }⟩
  | mismatched waiting other named =>
    have fits := related.worker_at waiting (by decide)
    obtain ⟨-, expected, -⟩ := fits.startupReceive (same.symm.trans related.toHost)
    exact absurd expected other
  | undecodable waiting failed named =>
    have fits := related.worker_at waiting (by decide)
    obtain ⟨messages, rfl, rfl, rfl⟩ := fits.batchReceive (same.symm.trans related.toHost)
    rw [decode_wire .machine related.sound] at failed
    cases failed
  | overflowed locked named => exact ⟨phase, .refl, same ▸ related.worker_stops _⟩
  | unencodable sending failed named =>
    have admissible := (related.worker_at sending (by simp)).batchSend.2
    rw [encode_admissible .machine admissible] at failed
    cases failed
  | receiveFailed waiting named => exact ⟨phase, .refl, same ▸ related.worker_stops _⟩
  | answerFailed sending named => exact ⟨phase, .refl, same ▸ related.worker_stops _⟩
  | answerDisturbed sending named =>
    obtain ⟨rfl, positive⟩ := (related.worker_at sending (by simp)).startupSend
    have answered := related.worker_answers positive
    exact ⟨.reply _, .single (.answers _), { answered with
      toHost := same ▸ answered.toHost, worker := fun serving => absurd rfl serving }⟩
  | sendFailed delivered sending encoded named =>
    obtain ⟨rfl, admissible⟩ := (related.worker_at sending (by simp)).batchSend
    obtain ⟨-, rfl⟩ := (encode_eq_ok_iff .machine _ _).mp encoded
    cases delivered with
    | false => exact ⟨_, .refl, same ▸ related.worker_stops _⟩
    | true =>
      exact ⟨.batchReply _, .single (.replies _), { related with
        toHost := same ▸ related.toHost
        toGuest := by rw [related.toGuest]; rfl
        sound := admissible
        worker := fun serving => absurd rfl serving }⟩

end System.InPhase

end Chimaera.Control
