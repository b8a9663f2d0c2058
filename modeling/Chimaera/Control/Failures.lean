import Chimaera.Base.Transition
import Chimaera.Control.Guest
import Chimaera.Control.Host

/-! Failures of the two controllers. A failure is a nonempty text that two threads write and
every call reads; a rejected interval never becomes one. Here each controller stands alone:
what its transport and its timing do, and what there is to read, comes with the events. -/

namespace Chimaera.Control
open Base.Unsigned Base.Transition

/-! ## The guest -/

def GuestEvent.onTransport : GuestEvent → Bool
  | .send => true
  | .receive => true
  | .transportError _ _ => true
  | _ => false

namespace Guest

def act (guest : Guest) : List Message × GuestEvent → Option Guest
  | (inbox, event) => (guest.step inbox event).map Prod.fst

theorem act_move {guest after : Guest} {entry : List Message × GuestEvent} (valid : Valid guest)
    (acted : guest.act entry = some after) : ∃ rest sent, Move guest entry.1 after rest sent := by
  obtain ⟨⟨next, rest, sent⟩, taken, same⟩ := Option.map_eq_some_iff.mp acted
  cases same
  exact ⟨rest, sent, step_move valid taken⟩

theorem act_valid (guest : Guest) (entry : List Message × GuestEvent) (after : Guest)
    (valid : Valid guest) (acted : guest.act entry = some after) : Valid after := by
  obtain ⟨rest, sent, move⟩ := act_move valid acted
  exact move.valid valid

def Delivers (guest : Guest) : Prop :=
  ∀ inbox, ∃ after, guest.step inbox .take = some (after, inbox, []) ∧
    after.taken = guest.taken ++ guest.incoming.contents.head?.toList ∧
    after.incoming.contents = guest.incoming.contents.tail

theorem Valid.delivers {guest : Guest} (valid : Valid guest) : guest.Delivers := by
  intro inbox
  obtain ⟨incoming, found, rest, -⟩ := ReceivedQueue.take_spec valid.incoming
  refine ⟨{ guest with
    incoming := incoming
    taken := guest.taken ++ guest.incoming.contents.head?.toList }, ?_, rfl, rest⟩
  rw [step, take, found, ok_bind]

structure Refuses (guest : Guest) (message : String) : Prop where
  runs : ∀ inbox, guest.step inbox .runNext =
    some ({ guest with results := guest.results ++ [⟨.failed, message⟩] }, inbox, [])
  silent : ∀ inbox event, event.onTransport = true → guest.step inbox event = none
  submits : ∀ data key, guest.submit data key = .error message

structure Latched (guest : Guest) (message : String) : Prop where
  failure : guest.failure = message
  named : message ≠ ""
  idle : guest.location = .idle

variable {message : String}

theorem Latched.refuses {guest : Guest} (latched : guest.Latched message) :
    guest.Refuses message where
  runs inbox := by
    have failed : guest.failure ≠ "" := latched.failure ▸ latched.named
    rw [step, if_pos latched.idle, runNext, if_pos failed, latched.failure]
  silent inbox event operation := by
    cases event with
    | send => simp only [step, latched.idle]
    | receive => simp only [step, latched.idle]
    | transportError what delivered =>
      simp only [step, latched.idle]
      exact ite_self none
    | submit data key => cases operation
    | take => cases operation
    | runNext => cases operation
    | wake => cases operation
    | drain => cases operation
  submits data key := by
    have failed : guest.failure ≠ "" := latched.failure ▸ latched.named
    rw [submit, if_pos failed, latched.failure]

/-- Only `run_next` returns, and where it returns a failure it has stored it. -/
theorem Move.latched {guest after : Guest} {inbox rest sent : List Message}
    (move : Move guest inbox after rest sent)
    (returned : after.results = guest.results ++ [⟨.failed, message⟩]) : after.Latched message := by
  have thrown : ∀ what, what ≠ "" →
      (guest.throw what).results = guest.results ++ [⟨.failed, message⟩] →
      (guest.throw what).Latched message := by
    intro what named same
    have text : what = message := by simpa [throw] using same
    exact ⟨text, text ▸ named, rfl⟩
  cases move with
  | refused failed idle =>
    have text : guest.failure = message := by simpa using returned
    exact ⟨text, text ▸ failed, idle⟩
  | received => simp [finish] at returned
  | unencodable _ _ named => exact thrown _ named returned
  | mismatched _ _ named => exact thrown _ named returned
  | undecodable _ _ named => exact thrown _ named returned
  | overflowed _ _ named => exact thrown _ named returned
  | receiveFailed _ named => exact thrown _ named returned
  | requestFailed _ _ named => exact thrown _ named returned
  | sendFailed _ _ _ named => exact thrown _ named returned
  | _ => simp at returned

theorem Latched.kept {guest after : Guest} {inbox rest sent : List Message}
    (latched : guest.Latched message) (move : Move guest inbox after rest sent) :
    after.Latched message ∧
      after.taken ++ after.incoming.contents = guest.taken ++ guest.incoming.contents := by
  have elsewhere : ∀ {location}, guest.location = location → location = .idle := fun here =>
    here.symm.trans latched.idle
  have failed : guest.failure ≠ "" := latched.failure ▸ latched.named
  cases move with
  | submitted => exact ⟨⟨latched.failure, latched.named, latched.idle⟩, rfl⟩
  | took incoming _ left =>
    refine ⟨⟨latched.failure, latched.named, latched.idle⟩, ?_⟩
    simp only [left, List.append_assoc]
    cases guest.incoming.contents with
    | nil => rfl
    | cons first later => rfl
  | refused => exact ⟨⟨latched.failure, latched.named, latched.idle⟩, rfl⟩
  | began working => exact absurd working failed
  | retried here => exact nomatch elsewhere here
  | polled here => exact nomatch elsewhere here
  | drained here => exact nomatch elsewhere here
  | requested here => exact nomatch elsewhere here
  | sent here => exact nomatch elsewhere here
  | answered here => exact nomatch elsewhere here
  | received _ here => exact nomatch elsewhere here
  | unencodable here => exact nomatch elsewhere here
  | mismatched here => exact nomatch elsewhere here
  | undecodable here => exact nomatch elsewhere here
  | overflowed here => exact nomatch elsewhere here
  | receiveFailed here =>
    rcases here with here | here
    · exact nomatch elsewhere here
    · exact nomatch elsewhere here
  | requestFailed _ here => exact nomatch elsewhere here
  | sendFailed _ here => exact nomatch elsewhere here

structure Since (origin : Guest) (message : String) (guest : Guest) : Prop where
  valid : Valid guest
  latched : guest.Latched message
  conserved : guest.taken ++ guest.incoming.contents = origin.taken ++ origin.incoming.contents

theorem Since.run {origin guest later : Guest} {events : List (List Message × GuestEvent)}
    (since : Since origin message guest)
    (ran : run act guest events = some later) : Since origin message later := by
  refine run_preserves ?_ since ran
  intro state entry after holds acted
  obtain ⟨rest, sent, move⟩ := act_move holds.valid acted
  obtain ⟨still, conserved⟩ := holds.latched.kept move
  exact ⟨move.valid holds.valid, still, conserved.trans holds.conserved⟩

theorem Since.no_transport {origin guest later : Guest} {events : List (List Message × GuestEvent)}
    (since : Since origin message guest) (ran : Base.Transition.run act guest events = some later) :
    ∀ entry ∈ events, entry.2.onTransport = false := by
  rintro ⟨inbox, event⟩ member
  obtain ⟨front, rest, split⟩ := List.append_of_mem member
  rw [split] at ran
  obtain ⟨middle, before, further⟩ := (run_append _ _ _ _ _).mp ran
  obtain ⟨next, acted, -⟩ := (run_cons _ _ _ _ _).mp further
  have still := (since.run before).latched
  rw [Bool.eq_false_iff]
  intro operation
  rw [act, still.refuses.silent inbox event operation] at acted
  cases acted

end Guest

/-! ## The host -/

namespace Host

def act (host : Host) : List Message × HostEvent → Option Host
  | (inbox, event) => (host.step inbox event).map Prod.fst

variable {host after : Host} {inbox rest sent : List Message}

theorem act_move {entry : List Message × HostEvent} (valid : Valid host)
    (acted : host.act entry = some after) : ∃ rest sent, Move host entry.1 after rest sent := by
  obtain ⟨⟨next, rest, sent⟩, taken, same⟩ := Option.map_eq_some_iff.mp acted
  cases same
  exact ⟨rest, sent, step_move valid taken⟩

theorem act_valid (host : Host) (entry : List Message × HostEvent) (after : Host)
    (valid : Valid host) (acted : host.act entry = some after) : Valid after := by
  obtain ⟨rest, sent, move⟩ := act_move valid acted
  exact move.valid valid

def Delivers (host : Host) : Prop :=
  ∀ inbox, ∃ after, host.step inbox .take = some (after, inbox, []) ∧
    after.taken = host.taken ++ host.ready.contents.head?.toList ∧
    after.ready.contents = host.ready.contents.tail

theorem Valid.delivers {host : Host} (valid : Valid host) : host.Delivers := by
  intro inbox
  obtain ⟨ready, found, rest, -⟩ := ReceivedQueue.take_spec valid.ready
  refine ⟨{ host with
    ready := ready
    taken := host.taken ++ host.ready.contents.head?.toList }, ?_, rfl, rest⟩
  rw [step, take, found, ok_bind]

/-- The events at which a running `step` can return, an interval check that passes among
them. -/
def Stepping (host : Host) : HostEvent → Prop
  | .step interval => Control.valid interval host.poll.duration = true
  | .timingError _ => True
  | .drain => True
  | .append => True
  | _ => False

inductive Fails (host : Host) (event : HostEvent) (after : Host) : Prop
  | returned (stepping : host.Stepping event) (message : String)
      (result : after.results = host.results ++ [⟨.failed, message⟩])
  | worker (running : host.worker ≠ .exited) (exited : after.worker = .exited)

/-- A controller that has failed, as its callers see it: a step returns before it has issued
a timing command. -/
structure Refuses (host : Host) : Prop where
  steps : ∀ inbox interval, host.app = .idle → ∃ message, host.step inbox (.step interval) =
    some ({ host with results := host.results ++ [⟨.failed, message⟩] }, inbox, [])
  submits : ∀ data key, ∃ what, host.submit data key = .error what

theorem refuses_of_failure {host : Host} (failed : host.failure ≠ "")
    (running : host.stopped = false) : host.Refuses where
  steps inbox interval idle := by
    rw [step, if_pos idle, stepInterval, if_neg (by simp [running])]
    by_cases refused : (!Control.valid interval host.poll.duration) = true
    · rw [if_pos refused, returns, ← idle]
      exact ⟨_, rfl⟩
    · rw [if_neg refused, if_pos failed, throw, returns, ← idle]
      exact ⟨_, rfl⟩
  submits data key := by
    rw [submit, if_neg (by simp [running]), if_pos failed]
    exact ⟨_, rfl⟩

theorem workerThrow_failed {host : Host} {what : String} (named : what ≠ "") :
    (host.workerThrow what).failure ≠ "" := by
  by_cases working : host.failure = ""
  · simpa [workerThrow, working] using named
  · simp [workerThrow, working]

/-- A move that does not fail keeps the recorded failure, and the worker goes on. -/
theorem Move.fails_or_goes (move : Move host inbox after rest sent) :
    after.failure ≠ "" ∨
      after.failure = host.failure ∧ (after.worker = .exited → host.worker = .exited) := by
  cases move with
  | threw named => exact .inl named
  | mismatched _ _ named => exact .inl (workerThrow_failed named)
  | undecodable _ _ named => exact .inl (workerThrow_failed named)
  | overflowed _ named => exact .inl (workerThrow_failed named)
  | unencodable _ _ named => exact .inl (workerThrow_failed named)
  | receiveFailed _ named => exact .inl (workerThrow_failed named)
  | answerFailed _ named => exact .inl (workerThrow_failed named)
  | answerDisturbed _ named => exact .inl (workerThrow_failed named)
  | sendFailed _ _ _ named => exact .inl (workerThrow_failed named)
  | requested => exact .inr ⟨rfl, nofun⟩
  | looked => exact .inr ⟨rfl, nofun⟩
  | answered =>
    rename_i ready _
    cases ready <;> exact .inr ⟨rfl, nofun⟩
  | decoded => exact .inr ⟨rfl, nofun⟩
  | exchanged => exact .inr ⟨rfl, nofun⟩
  | sent => exact .inr ⟨rfl, nofun⟩
  | _ => exact .inr ⟨rfl, id⟩

theorem stepInterval_failed {host : Host} {interval : Int} {message : String}
    (passed : Control.valid interval host.poll.duration = true)
    (result : (host.stepInterval interval).results = host.results ++ [⟨.failed, message⟩]) :
    (host.stepInterval interval).failure ≠ "" := by
  by_cases stopped : host.stopped = true
  · simp [stepInterval, stopped, returns] at result
  by_cases failed : host.failure = ""
  · simp [stepInterval, stopped, passed, failed] at result
  · simp [stepInterval, stopped, passed, failed, throw, returns]

theorem Fails.failed {event : HostEvent}
    (valid : Valid host) (taken : host.step inbox event = some (after, rest, sent))
    (fails : host.Fails event after) : after.failure ≠ "" := by
  cases fails with
  | worker running exited =>
    exact (step_move valid taken).fails_or_goes.resolve_right fun goes => running (goes.2 exited)
  | returned stepping message result =>
    cases event with
    | step interval =>
      rw [step] at taken
      split_ifs at taken with idle
      cases taken
      exact stepInterval_failed stepping result
    | timingError what =>
      rw [step] at taken
      split_ifs at taken with thrown
      cases taken
      exact thrown.2
    | drain =>
      rw [step] at taken
      split_ifs at taken with drain
      cases taken
      by_cases failed : host.failure = ""
      · simp [drainIncoming, failed] at result
      · simp [drainIncoming, failed, throw, returns]
    | append =>
      simp only [step] at taken
      split at taken
      · next received append =>
        cases taken
        by_cases fits : Admissible (host.ready.contents ++ received)
        · obtain ⟨ready, appended, -⟩ := ReceivedQueue.append_ok valid.ready received fits
          simp [appendReady, appended, returns] at result
        · obtain ⟨what, named, -, refused⟩ :=
            ReceivedQueue.append_error valid.ready received fits
          simpa [appendReady, refused, throw, returns] using named
      · cases taken
    | _ => exact stepping.elim

/-- Messages made ready are taken in order, and new ones only join behind them. -/
theorem Move.ready_kept (move : Move host inbox after rest sent) :
    host.taken ++ host.ready.contents <+: after.taken ++ after.ready.contents := by
  cases move with
  | took ready _ left =>
    simp only [left, List.append_assoc]
    cases host.ready.contents with
    | nil => exact List.prefix_rfl
    | cons first later => exact List.prefix_rfl
  | appended ready _ _ contents =>
    simp only [returns, contents, ← List.append_assoc]
    exact List.prefix_append _ _
  | _ => exact List.prefix_rfl

structure Since (origin host : Host) : Prop where
  valid : Valid host
  failed : host.failure ≠ ""
  conserved : origin.taken ++ origin.ready.contents <+: host.taken ++ host.ready.contents

theorem Since.run {origin host later : Host} {events : List (List Message × HostEvent)}
    (since : Since origin host) (ran : run act host events = some later) :
    Since origin later := by
  refine run_preserves ?_ since ran
  intro state entry after holds acted
  obtain ⟨rest, sent, move⟩ := act_move holds.valid acted
  have failed : after.failure ≠ "" := move.fails_or_goes.elim id fun goes => by
    rw [goes.1]
    exact holds.failed
  exact ⟨move.valid holds.valid, failed, holds.conserved.trans move.ready_kept⟩

/-! ## Rejected intervals -/

def noted (earlier : List ControllerResult) (host : Host) : Host :=
  { host with results := earlier ++ host.results }

section Noted

variable (earlier : List ControllerResult) (host : Host)

@[simp] theorem noted_app : (host.noted earlier).app = host.app := rfl

@[simp] theorem noted_worker : (host.noted earlier).worker = host.worker := rfl

@[simp] theorem noted_stopped : (host.noted earlier).stopped = host.stopped := rfl

@[simp] theorem noted_failure : (host.noted earlier).failure = host.failure := rfl

theorem returns_noted (state : ControllerState) (message : String) :
    (host.noted earlier).returns state message = (host.returns state message).noted earlier := by
  simp [returns, noted]

theorem throw_noted (what : String) :
    (host.noted earlier).throw what = (host.throw what).noted earlier :=
  returns_noted earlier { host with failure := what } .failed what

theorem stepInterval_noted (interval : Int) :
    (host.noted earlier).stepInterval interval = (host.stepInterval interval).noted earlier := by
  simp only [stepInterval, noted_stopped, noted_failure, returns_noted, throw_noted,
    apply_ite (noted earlier)]
  rfl

theorem drainIncoming_noted :
    (host.noted earlier).drainIncoming = host.drainIncoming.noted earlier := by
  simp only [drainIncoming, noted_failure, throw_noted, apply_ite (noted earlier)]
  rfl

theorem appendReady_noted (received : Batch) :
    (host.noted earlier).appendReady received = (host.appendReady received).noted earlier := by
  have ready : (host.noted earlier).ready = host.ready := rfl
  simp only [appendReady, throw_noted, ready]
  split
  · rfl
  · exact returns_noted earlier { host with ready := _ } _ _

theorem stop_noted (shutdown : Except String Unit) :
    (host.noted earlier).stop shutdown = (host.stop shutdown).noted earlier := by
  simp only [stop, noted_stopped, returns_noted, apply_ite (noted earlier)]
  cases shutdown <;> rfl

theorem workerExchange_noted (request : Batch) :
    (host.noted earlier).workerExchange request = (host.workerExchange request).noted earlier := by
  simp only [workerExchange, noted]
  split <;> rfl

/-- No event reads what has been returned. -/
theorem step_noted (inbox : List Message) (event : HostEvent) :
    (host.noted earlier).step inbox event = (host.step inbox event).map
      fun (after, rest, sent) => (after.noted earlier, rest, sent) := by
  cases event with
  | submit data key =>
    by_cases stopped : host.stopped = true
    · simp [step, submit, stopped]
    by_cases failed : host.failure = ""
    · cases outcome : host.outgoing.submit .machine data key <;>
        simp [step, submit, noted, stopped, failed, outcome]
    · simp [step, submit, stopped, failed]
  | take => cases outcome : host.ready.take .machine <;> simp [step, take, noted, outcome]
  | append =>
    simp only [step, noted_app, appendReady_noted]
    split <;> rfl
  | step interval =>
    by_cases idle : host.app = .idle <;> simp [step, idle, stepInterval_noted]
  | timingDone => by_cases timing : host.app = .timing <;> simp [step, noted, timing]
  | timingError what =>
    by_cases thrown : host.app = .timing ∧ what ≠ "" <;> simp [step, thrown, throw_noted]
  | drain => by_cases drain : host.app = .drain <;> simp [step, drain, drainIncoming_noted]
  | stop shutdown => by_cases idle : host.app = .idle <;> simp [step, idle, stop_noted]
  | join =>
    by_cases joined : host.app = .joining ∧ host.worker = .exited <;>
      simp [step, noted, joined, returns]
  | workerReceive =>
    simp only [step, noted_worker]
    split
    · rw [workerRequest, workerRequest]
      split_ifs <;> rfl
    · rw [workerDecode, workerDecode]
      split <;> rfl
    · rfl
  | workerLock =>
    simp only [step, noted_worker]
    split
    · rfl
    · rw [workerExchange_noted]
      rfl
    · rfl
  | workerSend =>
    simp only [step, noted_worker]
    split
    · rfl
    · split <;> rfl
    · rfl
  | workerTransportError what delivered =>
    by_cases named : what = ""
    · simp [step, named]
    simp only [step, noted_worker, if_neg named]
    split
    · rfl
    · rfl
    · cases delivered <;> rfl
    · split <;> rfl
    · rfl

end Noted

theorem run_noted (earlier : List ControllerResult) (host : Host)
    (events : List (List Message × HostEvent)) :
    Base.Transition.run act (host.noted earlier) events =
      (Base.Transition.run act host events).map (noted earlier) := by
  induction events generalizing host with
  | nil => rfl
  | cons entry rest ih =>
    obtain ⟨inbox, event⟩ := entry
    rw [Base.Transition.run, Base.Transition.run, act, act, step_noted]
    cases host.step inbox event with
    | none => rfl
    | some outcome => exact ih outcome.1

def intervalRejection : ControllerResult :=
  ⟨.failed, "require 0 < poll <= interval <= 1 hour, at most 100000 polls"⟩

/-- A rejected interval is returned and otherwise forgotten: whatever happens next, the
controller goes on as one that was never asked. -/
structure Forgets (host : Host) (interval : Int) : Prop where
  rejects : ∀ inbox, host.step inbox (.step interval) =
    some ({ host with results := host.results ++ [intervalRejection] }, inbox, [])
  continues : ∀ events, ∃ core : Option Host,
    run act host events = core.map (noted host.results) ∧
    run act { host with results := host.results ++ [intervalRejection] } events =
      core.map (noted (host.results ++ [intervalRejection]))

theorem forgets {host : Host} {interval : Int} (idle : host.app = .idle)
    (running : host.stopped = false)
    (refused : Control.valid interval host.poll.duration = false) : host.Forgets interval where
  rejects inbox := by
    rw [step, if_pos idle, stepInterval, if_neg (by simp [running]), if_pos (by simp [refused]),
      returns, ← idle]
    rfl
  continues events := by
    refine ⟨Base.Transition.run act { host with results := [] } events, ?_, ?_⟩
    · rw [← run_noted, noted, List.append_nil]
    · rw [← run_noted, noted, List.append_nil]

end Host

/-- Failures are latched, rejected intervals are not, and received messages stay. -/
theorem failures_latched :
    (∀ front before inbox event after left sent message rest later,
      run Guest.act {} front = some before →
      before.step inbox event = some (after, left, sent) →
      after.results = before.results ++ [⟨.failed, message⟩] →
      run Guest.act after rest = some later →
        later.Refuses message ∧ (∀ entry ∈ rest, entry.2.onTransport = false) ∧
        later.Delivers ∧ later.taken ++ later.incoming.contents =
          after.taken ++ after.incoming.contents) ∧
    (∀ poll front before inbox event after left sent rest later,
      run Host.act { poll := poll } front = some before →
      before.step inbox event = some (after, left, sent) → before.Fails event after →
      run Host.act after rest = some later →
        (later.stopped = false → later.Refuses) ∧ later.Delivers ∧
        after.taken ++ after.ready.contents <+: later.taken ++ later.ready.contents) ∧
    ∀ (host : Host) interval, host.app = .idle → host.stopped = false →
      valid interval host.poll.duration = false → host.Forgets interval := by
  refine ⟨?_, ?_, fun host interval => Host.forgets⟩
  · intro front before inbox event after left sent message rest later reached taken failed ran
    have valid := run_preserves Guest.act_valid Guest.valid_initial reached
    have move := Guest.step_move valid taken
    have since : Guest.Since after message after := ⟨move.valid valid, move.latched failed, rfl⟩
    have still := since.run ran
    exact ⟨still.latched.refuses, since.no_transport ran, still.valid.delivers, still.conserved⟩
  · intro poll front before inbox event after left sent rest later reached taken fails ran
    have valid := run_preserves Host.act_valid (Host.valid_initial poll) reached
    have move := Host.step_move valid taken
    have since : Host.Since after after :=
      ⟨move.valid valid, fails.failed valid taken, List.prefix_rfl⟩
    have still := since.run ran
    exact ⟨Host.refuses_of_failure still.failed, still.valid.delivers, still.conserved⟩

/-- A guest whose first send breaks, a host whose worker cannot receive, and a host that is
asked for a negative interval. -/
theorem failures_latched_broken :
    (({ location := .startupSend } : Guest).throw "broken").Refuses "broken" ∧
      (({ poll := ⟨1, by decide, by decide⟩ } : Host).workerThrow "broken").Refuses ∧
      ({ poll := ⟨1, by decide, by decide⟩ } : Host).Forgets (-1) := by
  obtain ⟨guest, host, interval⟩ := failures_latched
  refine ⟨?_, ?_, interval _ (-1) rfl rfl (by decide)⟩
  · exact (guest [([], .runNext)] { location := .startupSend } [] (.transportError "broken" false)
      _ _ _ "broken" [] _ rfl rfl rfl rfl).1
  · exact (host _ [] _ [] (.workerTransportError "broken" false) _ _ _ [] _ rfl rfl
      (.worker nofun rfl) rfl).1 rfl

end Chimaera.Control
