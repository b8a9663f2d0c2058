import Chimaera.Control.Codec

/-! `Gem5GuestController`. Submitting and taking act on its queues at any time; `run_next`
is cut at its sleeps and transport operations, the points where the rest of the system
can move. The transport is a pair of packet sequences: one operation appends a packet to
what the host will read, the other removes the first packet the host sent. -/

namespace Chimaera.Control
open Base.BigEndian Base.Unsigned

inductive ControllerState where
  | completed
  | stopped
  | failed
  deriving DecidableEq, Repr

structure ControllerResult where
  state : ControllerState
  message : String
  deriving DecidableEq, Repr

inductive GuestLocation where
  | idle
  | startupSend
  | startupReceive
  | startupDelay
  | pollSleep
  | exchange
  | batchSend (batch : Batch)
  | batchReceive
  deriving DecidableEq, Repr

/-- The fields of the controller, the location of `run_next`, and the history of the
session: the batches drained, the messages taken, the startup replies decoded and the
results returned. -/
structure Guest where
  outgoing : OutgoingQueue := {}
  incoming : ReceivedQueue := {}
  poll : Int := 0
  failure : String := ""
  location : GuestLocation := .idle
  drained : List Batch := []
  taken : Batch := []
  replies : List Int := []
  results : List ControllerResult := []
  deriving DecidableEq, Repr

inductive GuestEvent where
  | submit (data : Message) (key : Key)
  | take
  | runNext
  | wake
  | drain
  | send
  | receive
  | transportError (what : String) (delivered : Bool)
  deriving DecidableEq, Repr

namespace Guest

def throw (guest : Guest) (what : String) : Guest :=
  { guest with
    failure := what
    location := .idle
    results := guest.results ++ [⟨.failed, what⟩] }

def finish (guest : Guest) : Guest :=
  { guest with location := .idle, results := guest.results ++ [⟨.completed, ""⟩] }

def submit (guest : Guest) (data : Message) (key : Key) : Except String Guest :=
  if guest.failure ≠ "" then .error guest.failure
  else do
    let outgoing ← guest.outgoing.submit .machine data key
    .ok { guest with outgoing := outgoing }

def take (guest : Guest) : Except String Guest := do
  let (message, incoming) ← guest.incoming.take .machine
  .ok { guest with incoming := incoming, taken := guest.taken ++ message.toList }

def runNext (guest : Guest) : Guest :=
  if guest.failure ≠ "" then
    { guest with results := guest.results ++ [⟨.failed, guest.failure⟩] }
  else if guest.poll > 0 then { guest with location := .pollSleep }
  else { guest with location := .startupSend }

def startupReply (guest : Guest) (packet : Message) : Guest :=
  match decodeStartup packet with
  | .error what => guest.throw what
  | .ok poll =>
      { guest with
        poll := poll
        replies := guest.replies ++ [poll]
        location := if poll = 0 then .startupDelay else .exchange }

def batchReply (guest : Guest) (packet : Message) : Guest :=
  match decode .machine packet with
  | .error what => guest.throw what
  | .ok batch =>
      match guest.incoming.append .machine batch with
      | .error what => guest.throw what
      | .ok (incoming, _) => finish { guest with incoming := incoming }

def step (guest : Guest) (inbox : List Message) :
    GuestEvent → Option (Guest × List Message × List Message)
  | .submit data key =>
      match guest.submit data key with
      | .error _ => some (guest, inbox, [])
      | .ok guest => some (guest, inbox, [])
  | .take =>
      match guest.take with
      | .error _ => none
      | .ok guest => some (guest, inbox, [])
  | .runNext => if guest.location = .idle then some (guest.runNext, inbox, []) else none
  | .wake =>
      match guest.location with
      | .startupDelay => some ({ guest with location := .startupSend }, inbox, [])
      | .pollSleep => some ({ guest with location := .exchange }, inbox, [])
      | _ => none
  | .drain =>
      match guest.location with
      | .exchange =>
          let (batch, outgoing) := guest.outgoing.drain
          some ({ guest with
            outgoing := outgoing
            location := .batchSend batch
            drained := guest.drained ++ [batch] }, inbox, [])
      | _ => none
  | .send =>
      match guest.location with
      | .startupSend => some ({ guest with location := .startupReceive }, inbox, [startupRequest])
      | .batchSend batch =>
          match encode .machine batch with
          | .error what => some (guest.throw what, inbox, [])
          | .ok packet => some ({ guest with location := .batchReceive }, inbox, [packet])
      | _ => none
  | .receive =>
      match guest.location, inbox with
      | .startupReceive, packet :: inbox => some (guest.startupReply packet, inbox, [])
      | .batchReceive, packet :: inbox => some (guest.batchReply packet, inbox, [])
      | _, _ => none
  -- A failed send may or may not have reached the host.
  | .transportError what delivered =>
      if what = "" then none
      else
        match guest.location with
        | .startupReceive => some (guest.throw what, inbox, [])
        | .batchReceive => some (guest.throw what, inbox, [])
        | .startupSend => some (guest.throw what, inbox, if delivered then [startupRequest] else [])
        | .batchSend batch =>
            match encode .machine batch with
            | .error _ => none
            | .ok packet => some (guest.throw what, inbox, if delivered then [packet] else [])
        | _ => none

structure Valid (guest : Guest) : Prop where
  outgoing : guest.outgoing.Valid
  incoming : guest.incoming.Valid

theorem valid_initial : Valid {} := ⟨OutgoingQueue.valid_empty, ReceivedQueue.valid_empty⟩

/-- Everything an event can do, with the guards under which it does it. A move goes from
a state and an inbox to a state, the rest of the inbox and the packets sent. -/
inductive Move (guest : Guest) : List Message → Guest → List Message → List Message → Prop
  | submitted {inbox} (outgoing : OutgoingQueue) (valid : outgoing.Valid) :
      Move guest inbox { guest with outgoing := outgoing } inbox []
  | took {inbox} (incoming : ReceivedQueue) (valid : incoming.Valid)
      (rest : incoming.contents = guest.incoming.contents.tail) :
      Move guest inbox { guest with
        incoming := incoming
        taken := guest.taken ++ guest.incoming.contents.head?.toList } inbox []
  | refused {inbox} (failed : guest.failure ≠ "") (idle : guest.location = .idle) :
      Move guest inbox
        { guest with results := guest.results ++ [⟨.failed, guest.failure⟩] } inbox []
  | began {inbox} (working : guest.failure = "") (idle : guest.location = .idle) :
      Move guest inbox
        { guest with location := if guest.poll > 0 then .pollSleep else .startupSend } inbox []
  | retried {inbox} (delayed : guest.location = .startupDelay) :
      Move guest inbox { guest with location := .startupSend } inbox []
  | polled {inbox} (slept : guest.location = .pollSleep) :
      Move guest inbox { guest with location := .exchange } inbox []
  | drained {inbox} (ready : guest.location = .exchange) :
      Move guest inbox { guest with
        outgoing := {}
        location := .batchSend guest.outgoing.contents
        drained := guest.drained ++ [guest.outgoing.contents] } inbox []
  | requested {inbox} (starting : guest.location = .startupSend) :
      Move guest inbox { guest with location := .startupReceive } inbox [startupRequest]
  | sent {inbox batch packet} (sending : guest.location = .batchSend batch)
      (encoded : encode .machine batch = .ok packet) :
      Move guest inbox { guest with location := .batchReceive } inbox [packet]
  | answered {packet rest poll} (waiting : guest.location = .startupReceive)
      (decoded : decodeStartup packet = .ok poll) :
      Move guest (packet :: rest) { guest with
        poll := poll
        replies := guest.replies ++ [poll]
        location := if poll = 0 then .startupDelay else .exchange } rest []
  | received {packet rest batch} (incoming : ReceivedQueue)
      (waiting : guest.location = .batchReceive) (decoded : decode .machine packet = .ok batch)
      (valid : incoming.Valid)
      (appended : incoming.contents = guest.incoming.contents ++ batch) :
      Move guest (packet :: rest) (finish { guest with incoming := incoming }) rest []
  | unencodable {inbox batch what} (sending : guest.location = .batchSend batch)
      (failed : encode .machine batch = .error what) (named : what ≠ "") :
      Move guest inbox (guest.throw what) inbox []
  | mismatched {packet rest what} (waiting : guest.location = .startupReceive)
      (failed : decodeStartup packet = .error what) (named : what ≠ "") :
      Move guest (packet :: rest) (guest.throw what) rest []
  | undecodable {packet rest what} (waiting : guest.location = .batchReceive)
      (failed : decode .machine packet = .error what) (named : what ≠ "") :
      Move guest (packet :: rest) (guest.throw what) rest []
  | overflowed {packet rest batch what} (waiting : guest.location = .batchReceive)
      (decoded : decode .machine packet = .ok batch) (named : what ≠ "") :
      Move guest (packet :: rest) (guest.throw what) rest []
  | receiveFailed {inbox what}
      (waiting : guest.location = .startupReceive ∨ guest.location = .batchReceive)
      (named : what ≠ "") : Move guest inbox (guest.throw what) inbox []
  | requestFailed {inbox what} (delivered : Bool) (starting : guest.location = .startupSend)
      (named : what ≠ "") :
      Move guest inbox (guest.throw what) inbox (if delivered then [startupRequest] else [])
  | sendFailed {inbox batch packet what} (delivered : Bool)
      (sending : guest.location = .batchSend batch)
      (encoded : encode .machine batch = .ok packet) (named : what ≠ "") :
      Move guest inbox (guest.throw what) inbox (if delivered then [packet] else [])

variable {guest after : Guest}

theorem submit_move {data : Message} {key : Key} (valid : Valid guest)
    (inbox : List Message) (accepted : guest.submit data key = .ok after) :
    Move guest inbox after inbox [] := by
  rw [submit] at accepted
  split_ifs at accepted with failed
  obtain ⟨outgoing, queued, same⟩ := bind_eq_ok.mp accepted
  cases same
  exact .submitted outgoing (OutgoingQueue.submit_valid valid.outgoing queued)

theorem take_move (valid : Valid guest) (inbox : List Message)
    (taken : guest.take = .ok after) : Move guest inbox after inbox [] := by
  obtain ⟨incoming, found, rest, kept⟩ := ReceivedQueue.take_spec valid.incoming
  rw [take, found, ok_bind] at taken
  cases taken
  exact .took incoming kept rest

theorem startupReply_move {guest : Guest} (packet : Message) (rest : List Message)
    (waiting : guest.location = .startupReceive) :
    Move guest (packet :: rest) (guest.startupReply packet) rest [] := by
  rw [startupReply]
  cases outcome : decodeStartup packet with
  | error what => exact .mismatched waiting outcome (decodeStartup_error_named outcome)
  | ok poll => exact .answered waiting outcome

theorem batchReply_move {guest : Guest} (valid : Valid guest) (packet : Message)
    (rest : List Message) (waiting : guest.location = .batchReceive) :
    Move guest (packet :: rest) (guest.batchReply packet) rest [] := by
  rw [batchReply]
  cases outcome : decode .machine packet with
  | error what => exact .undecodable waiting outcome (decode_error_named .machine outcome)
  | ok batch =>
    by_cases fits : Admissible (guest.incoming.contents ++ batch)
    · obtain ⟨incoming, appended, contents, kept⟩ :=
        ReceivedQueue.append_ok valid.incoming batch fits
      simp only [appended]
      exact .received incoming waiting outcome kept contents
    · obtain ⟨what, named, -, failed⟩ := ReceivedQueue.append_error valid.incoming batch fits
      simp only [failed]
      exact .overflowed waiting outcome named

theorem step_move {inbox rest sent : List Message} {event : GuestEvent}
    (valid : Valid guest) (taken : guest.step inbox event = some (after, rest, sent)) :
    Move guest inbox after rest sent := by
  cases event with
  | submit data key =>
    rw [step] at taken
    cases outcome : guest.submit data key with
    | error what =>
      simp only [outcome] at taken
      cases taken
      exact .submitted guest.outgoing valid.outgoing
    | ok next =>
      simp only [outcome] at taken
      cases taken
      exact submit_move valid inbox outcome
  | take =>
    rw [step] at taken
    cases outcome : guest.take with
    | error what => simp [outcome] at taken
    | ok next =>
      simp only [outcome] at taken
      cases taken
      exact take_move valid inbox outcome
  | runNext =>
    rw [step] at taken
    split_ifs at taken with idle
    cases taken
    rw [runNext]
    by_cases failed : guest.failure = ""
    · have move : Move guest inbox _ inbox [] := .began failed idle
      by_cases started : guest.poll > 0
      · simpa [failed, started] using move
      · simpa [failed, started] using move
    · rw [if_pos failed]
      exact .refused failed idle
  | wake =>
    simp only [step] at taken
    split at taken
    · next delayed => cases taken; exact .retried delayed
    · next slept => cases taken; exact .polled slept
    · cases taken
  | drain =>
    simp only [step] at taken
    split at taken
    · next ready => cases taken; exact .drained ready
    · cases taken
  | send =>
    simp only [step] at taken
    split at taken
    · next starting => cases taken; exact .requested starting
    · next batch sending =>
      cases outcome : encode .machine batch with
      | error what =>
        simp only [outcome] at taken
        cases taken
        exact .unencodable sending outcome (encode_error_named .machine outcome)
      | ok packet =>
        simp only [outcome] at taken
        cases taken
        exact .sent sending outcome
    · cases taken
  | receive =>
    simp only [step] at taken
    split at taken
    · next waiting => cases taken; exact startupReply_move _ _ waiting
    · next waiting => cases taken; exact batchReply_move valid _ _ waiting
    · cases taken
  | transportError what delivered =>
    simp only [step] at taken
    by_cases named : what = ""
    · simp [named] at taken
    rw [if_neg named] at taken
    split at taken
    · next waiting => cases taken; exact .receiveFailed (.inl waiting) named
    · next waiting => cases taken; exact .receiveFailed (.inr waiting) named
    · next starting => cases taken; exact .requestFailed delivered starting named
    · next batch sending =>
      cases outcome : encode .machine batch with
      | error reason => simp [outcome] at taken
      | ok packet =>
        simp only [outcome] at taken
        cases taken
        exact .sendFailed delivered sending outcome named
    · cases taken

theorem Move.valid {inbox rest sent : List Message}
    (move : Move guest inbox after rest sent) (valid : Valid guest) : Valid after := by
  cases move with
  | submitted outgoing kept => exact ⟨kept, valid.incoming⟩
  | took incoming kept => exact ⟨valid.outgoing, kept⟩
  | drained => exact ⟨OutgoingQueue.valid_empty, valid.incoming⟩
  | received incoming _ _ kept => exact ⟨valid.outgoing, kept⟩
  | _ => exact ⟨valid.outgoing, valid.incoming⟩

end Guest

end Chimaera.Control
