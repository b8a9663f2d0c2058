import Chimaera.Control.Guest

/-! `Gem5HostController`. The application thread submits, takes, steps and stops; the I/O
worker serves startup requests and then batches. The two share the queues under a mutex,
so each locked section is one event, as is each transport operation of the worker and the
timing interval of a step. -/

namespace Chimaera.Control
open Base.BigEndian Base.Unsigned

structure PollInterval where
  duration : Int
  positive : 0 < duration
  bounded : duration ≤ hour
  deriving DecidableEq, Repr

def PollInterval.ofDuration (poll : Int) : Except String PollInterval :=
  if refused : poll ≤ 0 ∨ poll > hour then
    .error "poll interval must be positive and at most one hour"
  else .ok ⟨poll, by omega, by omega⟩

def valid (interval poll : Int) : Bool :=
  interval > 0 && poll > 0 && poll ≤ interval && interval ≤ hour &&
    1 + (interval - 1).tdiv poll ≤ 100000

inductive WorkerLocation where
  | startupReceive
  | startupLock
  | startupSend (ready : Bool)
  | batchReceive
  | batchLock (request : Batch)
  | batchSend (batch : Batch)
  | exited
  deriving DecidableEq, Repr

inductive AppLocation where
  | idle
  | timing
  | drain
  | append (received : Batch)
  | joining
  deriving DecidableEq, Repr

/-- The fields of the controller, the locations of its threads and the history of the
session, where `answers` are the values of `ready` that were sent. -/
structure Host where
  poll : PollInterval
  incoming : ReceivedQueue := {}
  ready : ReceivedQueue := {}
  outgoing : OutgoingQueue := {}
  started : Bool := false
  failure : String := ""
  stopped : Bool := false
  worker : WorkerLocation := .startupReceive
  app : AppLocation := .idle
  drained : List Batch := []
  taken : Batch := []
  answers : List Bool := []
  results : List ControllerResult := []
  deriving DecidableEq, Repr

inductive HostEvent where
  | submit (data : Message) (key : Key)
  | take
  | step (interval : Int)
  | timingDone
  | timingError (what : String)
  | drain
  | append
  | stop (shutdown : Except String Unit)
  | join
  | workerReceive
  | workerLock
  | workerSend
  | workerTransportError (what : String) (delivered : Bool)

namespace Host

def returns (host : Host) (state : ControllerState) (message : String) : Host :=
  { host with app := .idle, results := host.results ++ [⟨state, message⟩] }

def throw (host : Host) (what : String) : Host :=
  { host with failure := what }.returns .failed what

def workerThrow (host : Host) (what : String) : Host :=
  { host with failure := if host.failure = "" then what else host.failure, worker := .exited }

def submit (host : Host) (data : Message) (key : Key) : Except String Host :=
  if host.stopped then .error "host controller stopped"
  else if host.failure ≠ "" then .error host.failure
  else do
    let outgoing ← host.outgoing.submit .machine data key
    .ok { host with outgoing := outgoing }

def take (host : Host) : Except String Host := do
  let (message, ready) ← host.ready.take .machine
  .ok { host with ready := ready, taken := host.taken ++ message.toList }

def stepInterval (host : Host) (interval : Int) : Host :=
  if host.stopped then host.returns .stopped ""
  else if !valid interval host.poll.duration then
    host.returns .failed "require 0 < poll <= interval <= 1 hour, at most 100000 polls"
  else if host.failure ≠ "" then host.throw host.failure
  else { host with started := true, app := .timing }

def drainIncoming (host : Host) : Host :=
  if host.failure ≠ "" then host.throw host.failure
  else
    let (received, incoming) := host.incoming.drain
    { host with incoming := incoming, app := .append received }

def appendReady (host : Host) (received : Batch) : Host :=
  match host.ready.append .machine received with
  | .error what => host.throw what
  | .ok (ready, _) => { host with ready := ready }.returns .completed ""

def stop (host : Host) (shutdown : Except String Unit) : Host :=
  if host.stopped then host.returns .stopped ""
  else
    match shutdown with
    | .error what => host.returns .failed what
    | .ok _ => { host with app := .joining }

def workerRequest (host : Host) (packet : Message) : Host :=
  if packet ≠ startupRequest then host.workerThrow "controller protocol mismatch"
  else { host with worker := .startupLock }

def workerDecode (host : Host) (packet : Message) : Host :=
  match decode .machine packet with
  | .error what => host.workerThrow what
  | .ok request => { host with worker := .batchLock request }

def workerExchange (host : Host) (request : Batch) : Host :=
  match host.incoming.append .machine request with
  | .error what => host.workerThrow what
  | .ok (incoming, _) =>
      let (batch, outgoing) := host.outgoing.drain
      { host with
        incoming := incoming
        outgoing := outgoing
        worker := .batchSend batch
        drained := host.drained ++ [batch] }

def workerAnswer (host : Host) (ready : Bool) : Host :=
  { host with
    worker := if ready then .batchReceive else .startupReceive
    answers := host.answers ++ [ready] }

def startupPacket (host : Host) (ready : Bool) : Message :=
  encodeStartup (if ready then host.poll.duration else 0)

def step (host : Host) (inbox : List Message) :
    HostEvent → Option (Host × List Message × List Message)
  | .submit data key =>
      match host.submit data key with
      | .error _ => some (host, inbox, [])
      | .ok host => some (host, inbox, [])
  | .take =>
      match host.take with
      | .error _ => none
      | .ok host => some (host, inbox, [])
  | .step interval =>
      if host.app = .idle then some (host.stepInterval interval, inbox, []) else none
  | .timingDone =>
      if host.app = .timing then some ({ host with app := .drain }, inbox, []) else none
  | .timingError what =>
      if host.app = .timing ∧ what ≠ "" then some (host.throw what, inbox, []) else none
  | .drain => if host.app = .drain then some (host.drainIncoming, inbox, []) else none
  | .append =>
      match host.app with
      | .append received => some (host.appendReady received, inbox, [])
      | _ => none
  | .stop shutdown => if host.app = .idle then some (host.stop shutdown, inbox, []) else none
  -- The join returns once the cancelled worker has left its loop.
  | .join =>
      if host.app = .joining ∧ host.worker = .exited then
        some ({ host with stopped := true }.returns .stopped "", inbox, [])
      else none
  | .workerReceive =>
      match host.worker, inbox with
      | .startupReceive, packet :: inbox => some (host.workerRequest packet, inbox, [])
      | .batchReceive, packet :: inbox => some (host.workerDecode packet, inbox, [])
      | _, _ => none
  | .workerLock =>
      match host.worker with
      | .startupLock => some ({ host with worker := .startupSend host.started }, inbox, [])
      | .batchLock request => some (host.workerExchange request, inbox, [])
      | _ => none
  | .workerSend =>
      match host.worker with
      | .startupSend ready => some (host.workerAnswer ready, inbox, [host.startupPacket ready])
      | .batchSend batch =>
          match encode .machine batch with
          | .error what => some (host.workerThrow what, inbox, [])
          | .ok packet => some ({ host with worker := .batchReceive }, inbox, [packet])
      | _ => none
  -- A failed send may or may not have reached the guest.
  | .workerTransportError what delivered =>
      if what = "" then none
      else
        match host.worker with
        | .startupReceive => some (host.workerThrow what, inbox, [])
        | .batchReceive => some (host.workerThrow what, inbox, [])
        | .startupSend ready =>
            if delivered then
              some ((host.workerAnswer ready).workerThrow what, inbox, [host.startupPacket ready])
            else some (host.workerThrow what, inbox, [])
        | .batchSend batch =>
            match encode .machine batch with
            | .error _ => none
            | .ok packet =>
                some (host.workerThrow what, inbox, if delivered then [packet] else [])
        | _ => none

structure Valid (host : Host) : Prop where
  outgoing : host.outgoing.Valid
  incoming : host.incoming.Valid
  ready : host.ready.Valid

theorem valid_initial (poll : PollInterval) : Valid { poll := poll } :=
  ⟨OutgoingQueue.valid_empty, ReceivedQueue.valid_empty, ReceivedQueue.valid_empty⟩

inductive Move (host : Host) : List Message → Host → List Message → List Message → Prop
  | submitted {inbox} (outgoing : OutgoingQueue) (valid : outgoing.Valid) :
      Move host inbox { host with outgoing := outgoing } inbox []
  | took {inbox} (ready : ReceivedQueue) (valid : ready.Valid)
      (rest : ready.contents = host.ready.contents.tail) :
      Move host inbox { host with
        ready := ready
        taken := host.taken ++ host.ready.contents.head?.toList } inbox []
  | returned {inbox} (state : ControllerState) (message : String) (stopped : Bool)
      (idle : host.app = .idle ∨ host.app = .joining) :
      Move host inbox ({ host with stopped := stopped }.returns state message) inbox []
  | began {inbox} (working : host.failure = "") (idle : host.app = .idle) :
      Move host inbox { host with started := true, app := .timing } inbox []
  | timed {inbox} (timing : host.app = .timing) :
      Move host inbox { host with app := .drain } inbox []
  | detached {inbox} (working : host.failure = "") (drain : host.app = .drain) :
      Move host inbox
        { host with incoming := {}, app := .append host.incoming.contents } inbox []
  | appended {inbox received} (ready : ReceivedQueue) (append : host.app = .append received)
      (valid : ready.Valid) (contents : ready.contents = host.ready.contents ++ received) :
      Move host inbox ({ host with ready := ready }.returns .completed "") inbox []
  | threw {inbox what} (named : what ≠ "") : Move host inbox (host.throw what) inbox []
  | joining {inbox} (idle : host.app = .idle) :
      Move host inbox { host with app := .joining } inbox []
  | requested {rest} (waiting : host.worker = .startupReceive) :
      Move host (startupRequest :: rest) { host with worker := .startupLock } rest []
  | looked {inbox} (locked : host.worker = .startupLock) :
      Move host inbox { host with worker := .startupSend host.started } inbox []
  | answered {inbox ready} (sending : host.worker = .startupSend ready) :
      Move host inbox (host.workerAnswer ready) inbox [host.startupPacket ready]
  | decoded {packet rest request} (waiting : host.worker = .batchReceive)
      (accepted : decode .machine packet = .ok request) :
      Move host (packet :: rest) { host with worker := .batchLock request } rest []
  | exchanged {inbox request} (incoming : ReceivedQueue)
      (locked : host.worker = .batchLock request) (valid : incoming.Valid)
      (contents : incoming.contents = host.incoming.contents ++ request) :
      Move host inbox { host with
        incoming := incoming
        outgoing := {}
        worker := .batchSend host.outgoing.contents
        drained := host.drained ++ [host.outgoing.contents] } inbox []
  | sent {inbox batch packet} (sending : host.worker = .batchSend batch)
      (encoded : encode .machine batch = .ok packet) :
      Move host inbox { host with worker := .batchReceive } inbox [packet]
  | mismatched {packet rest what} (waiting : host.worker = .startupReceive)
      (other : packet ≠ startupRequest) (named : what ≠ "") :
      Move host (packet :: rest) (host.workerThrow what) rest []
  | undecodable {packet rest what} (waiting : host.worker = .batchReceive)
      (failed : decode .machine packet = .error what) (named : what ≠ "") :
      Move host (packet :: rest) (host.workerThrow what) rest []
  | overflowed {inbox request what} (locked : host.worker = .batchLock request)
      (named : what ≠ "") : Move host inbox (host.workerThrow what) inbox []
  | unencodable {inbox batch what} (sending : host.worker = .batchSend batch)
      (failed : encode .machine batch = .error what) (named : what ≠ "") :
      Move host inbox (host.workerThrow what) inbox []
  | receiveFailed {inbox what}
      (waiting : host.worker = .startupReceive ∨ host.worker = .batchReceive)
      (named : what ≠ "") : Move host inbox (host.workerThrow what) inbox []
  | answerFailed {inbox ready what} (sending : host.worker = .startupSend ready)
      (named : what ≠ "") : Move host inbox (host.workerThrow what) inbox []
  | answerDisturbed {inbox ready what} (sending : host.worker = .startupSend ready)
      (named : what ≠ "") :
      Move host inbox ((host.workerAnswer ready).workerThrow what) inbox [host.startupPacket ready]
  | sendFailed {inbox batch packet what} (delivered : Bool)
      (sending : host.worker = .batchSend batch)
      (encoded : encode .machine batch = .ok packet) (named : what ≠ "") :
      Move host inbox (host.workerThrow what) inbox (if delivered then [packet] else [])

variable {host after : Host}

theorem submit_move {data : Message} {key : Key} (valid : Valid host)
    (inbox : List Message) (accepted : host.submit data key = .ok after) :
    Move host inbox after inbox [] := by
  rw [submit] at accepted
  split_ifs at accepted with stopped failed
  obtain ⟨outgoing, queued, same⟩ := bind_eq_ok.mp accepted
  cases same
  exact .submitted outgoing (OutgoingQueue.submit_valid valid.outgoing queued)

theorem take_move (valid : Valid host) (inbox : List Message)
    (taken : host.take = .ok after) : Move host inbox after inbox [] := by
  obtain ⟨ready, found, rest, kept⟩ := ReceivedQueue.take_spec valid.ready
  rw [take, found, ok_bind] at taken
  cases taken
  exact .took ready kept rest

theorem stepInterval_move (host : Host) (interval : Int) (inbox : List Message)
    (idle : host.app = .idle) : Move host inbox (host.stepInterval interval) inbox [] := by
  rw [stepInterval]
  by_cases stopped : host.stopped
  · rw [if_pos stopped]
    exact .returned .stopped "" host.stopped (.inl idle)
  rw [if_neg stopped]
  by_cases refused : (!Control.valid interval host.poll.duration) = true
  · rw [if_pos refused]
    exact .returned .failed _ host.stopped (.inl idle)
  rw [if_neg refused]
  by_cases failed : host.failure = ""
  · simp only [failed, ne_eq, not_true_eq_false, if_false]
    have move : Move host inbox _ inbox [] := .began failed idle
    simpa only [failed] using move
  · rw [if_pos failed]
    exact .threw failed

theorem drainIncoming_move (host : Host) (inbox : List Message) (drain : host.app = .drain) :
    Move host inbox host.drainIncoming inbox [] := by
  rw [drainIncoming]
  by_cases failed : host.failure = ""
  · rw [if_neg (not_not.mpr failed)]
    exact .detached failed drain
  · rw [if_pos failed]
    exact .threw failed

theorem appendReady_move {host : Host} (valid : Valid host) (inbox : List Message)
    {received : Batch} (append : host.app = .append received) :
    Move host inbox (host.appendReady received) inbox [] := by
  rw [appendReady]
  by_cases fits : Admissible (host.ready.contents ++ received)
  · obtain ⟨ready, appended, contents, kept⟩ := ReceivedQueue.append_ok valid.ready received fits
    simp only [appended]
    exact .appended ready append kept contents
  · obtain ⟨what, named, -, failed⟩ := ReceivedQueue.append_error valid.ready received fits
    simp only [failed]
    exact .threw named

theorem stop_move (host : Host) (shutdown : Except String Unit) (inbox : List Message)
    (idle : host.app = .idle) : Move host inbox (host.stop shutdown) inbox [] := by
  by_cases stopped : host.stopped
  · simp only [stop, if_pos stopped]
    exact .returned .stopped "" host.stopped (.inl idle)
  · simp only [stop, if_neg stopped]
    cases shutdown with
    | error what => exact .returned .failed what host.stopped (.inl idle)
    | ok done => exact .joining idle

theorem workerRequest_move (host : Host) (packet : Message) (rest : List Message)
    (waiting : host.worker = .startupReceive) :
    Move host (packet :: rest) (host.workerRequest packet) rest [] := by
  rw [workerRequest]
  by_cases same : packet = startupRequest
  · subst same
    rw [if_neg (by simp)]
    exact .requested waiting
  · rw [if_pos same]
    exact .mismatched waiting same (by decide)

theorem workerDecode_move (host : Host) (packet : Message) (rest : List Message)
    (waiting : host.worker = .batchReceive) :
    Move host (packet :: rest) (host.workerDecode packet) rest [] := by
  rw [workerDecode]
  cases outcome : decode .machine packet with
  | error what => exact .undecodable waiting outcome (decode_error_named .machine outcome)
  | ok request => exact .decoded waiting outcome

theorem workerExchange_move {host : Host} (valid : Valid host) (inbox : List Message)
    {request : Batch} (locked : host.worker = .batchLock request) :
    Move host inbox (host.workerExchange request) inbox [] := by
  rw [workerExchange]
  by_cases fits : Admissible (host.incoming.contents ++ request)
  · obtain ⟨incoming, appended, contents, kept⟩ :=
      ReceivedQueue.append_ok valid.incoming request fits
    simp only [appended]
    exact .exchanged incoming locked kept contents
  · obtain ⟨what, named, -, failed⟩ := ReceivedQueue.append_error valid.incoming request fits
    simp only [failed]
    exact .overflowed locked named

variable {inbox rest sent : List Message}

theorem transportError_move {what : String} {delivered : Bool}
    (taken : host.step inbox (.workerTransportError what delivered) = some (after, rest, sent)) :
    Move host inbox after rest sent := by
  simp only [step] at taken
  by_cases named : what = ""
  · simp [named] at taken
  rw [if_neg named] at taken
  split at taken
  · next waiting => cases taken; exact .receiveFailed (.inl waiting) named
  · next waiting => cases taken; exact .receiveFailed (.inr waiting) named
  · next ready sending =>
    cases delivered with
    | false => cases taken; exact .answerFailed sending named
    | true => cases taken; exact .answerDisturbed sending named
  · next batch sending =>
    cases outcome : encode .machine batch with
    | error reason => simp [outcome] at taken
    | ok packet =>
      simp only [outcome] at taken
      cases taken
      exact .sendFailed delivered sending outcome named
  · cases taken

theorem step_move {event : HostEvent}
    (valid : Valid host) (taken : host.step inbox event = some (after, rest, sent)) :
    Move host inbox after rest sent := by
  cases event with
  | submit data key =>
    rw [step] at taken
    cases outcome : host.submit data key with
    | error what =>
      simp only [outcome] at taken
      cases taken
      exact .submitted host.outgoing valid.outgoing
    | ok next =>
      simp only [outcome] at taken
      cases taken
      exact submit_move valid inbox outcome
  | take =>
    rw [step] at taken
    cases outcome : host.take with
    | error what => simp [outcome] at taken
    | ok next =>
      simp only [outcome] at taken
      cases taken
      exact take_move valid inbox outcome
  | step interval =>
    rw [step] at taken
    split_ifs at taken with idle
    cases taken
    exact stepInterval_move host interval inbox idle
  | timingDone =>
    rw [step] at taken
    split_ifs at taken with timing
    cases taken
    exact .timed timing
  | timingError what =>
    rw [step] at taken
    split_ifs at taken with thrown
    cases taken
    exact .threw thrown.2
  | drain =>
    rw [step] at taken
    split_ifs at taken with drain
    cases taken
    exact drainIncoming_move host inbox drain
  | append =>
    simp only [step] at taken
    split at taken
    · next append => cases taken; exact appendReady_move valid inbox append
    · cases taken
  | stop shutdown =>
    rw [step] at taken
    split_ifs at taken with idle
    cases taken
    exact stop_move host shutdown inbox idle
  | join =>
    rw [step] at taken
    split_ifs at taken with joined
    cases taken
    exact .returned .stopped "" true (.inr joined.1)
  | workerReceive =>
    simp only [step] at taken
    split at taken
    · next waiting => cases taken; exact workerRequest_move host _ _ waiting
    · next waiting => cases taken; exact workerDecode_move host _ _ waiting
    · cases taken
  | workerLock =>
    simp only [step] at taken
    split at taken
    · next locked => cases taken; exact .looked locked
    · next locked => cases taken; exact workerExchange_move valid inbox locked
    · cases taken
  | workerSend =>
    simp only [step] at taken
    split at taken
    · next sending => cases taken; exact .answered sending
    · next batch sending =>
      cases outcome : encode .machine batch with
      | error what =>
        simp only [outcome] at taken
        cases taken
        exact .unencodable sending outcome (encode_error_named .machine outcome)
      | ok packet =>
        simp only [outcome] at taken
        cases taken
        exact .sent sending outcome
    · cases taken
  | workerTransportError what delivered => exact transportError_move taken

theorem Move.valid (move : Move host inbox after rest sent) (valid : Valid host) : Valid after := by
  cases move with
  | submitted outgoing kept => exact ⟨kept, valid.incoming, valid.ready⟩
  | took ready kept => exact ⟨valid.outgoing, valid.incoming, kept⟩
  | detached => exact ⟨valid.outgoing, ReceivedQueue.valid_empty, valid.ready⟩
  | appended ready _ kept => exact ⟨valid.outgoing, valid.incoming, kept⟩
  | exchanged incoming _ kept => exact ⟨OutgoingQueue.valid_empty, kept, valid.ready⟩
  | _ => exact ⟨valid.outgoing, valid.incoming, valid.ready⟩

end Host

end Chimaera.Control
