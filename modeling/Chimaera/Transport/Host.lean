import Chimaera.Base.Stream
import Chimaera.Transport.Framing

/-! `HostTransport`: both directions accept one connection per packet, wait with `poll`
for the descriptor or for a cancellation, and repeat calls that report a temporary
error. What the kernel answers is scripted; where a script has ended, a descriptor is
ready and a call moves everything it was offered. -/

namespace Chimaera.Transport
open Base.BigEndian Base.Unsigned Base.Stream

inductive Errno where
  | eintr
  | eagain
  | ewouldblock
  | epipe
  | econnreset
  | enotconn
  | other (text : String)
  deriving DecidableEq, Repr

def Errno.strerror : Errno → String
  | .eintr => "Interrupted system call"
  | .eagain => "Resource temporarily unavailable"
  | .ewouldblock => "Resource temporarily unavailable"
  | .epipe => "Broken pipe"
  | .econnreset => "Connection reset by peer"
  | .enotconn => "Transport endpoint is not connected"
  | .other text => text

def Errno.temporary (code : Errno) : Bool :=
  code == .eintr || code == .eagain || code == .ewouldblock

inductive Poll where
  | failed (code : Errno)
  | cancelled
  | ready
  deriving DecidableEq, Repr

/-- An answer of `accept4`, `recv` or `send`; `moved extra` moves at most `extra + 1` bytes. -/
inductive Call where
  | failed (code : Errno)
  | zero
  | moved (extra : Nat)
  deriving DecidableEq, Repr

/-- The latched failure, the scripts of the kernel and the connections: those waiting to
be accepted with the bytes they carry, what was left in each incoming one when it was
closed, and what each outgoing one carried. -/
structure HostTransport where
  failure : SendResult
  polls : List Poll
  calls : List Call
  allocations : List Bool
  incoming : List (List Byte)
  unread : List (List Byte)
  outgoing : List (List Byte)
  deriving DecidableEq, Repr

namespace HostTransport

def fail (host : HostTransport) (error : TransportError) (message : String) : HostTransport :=
  { host with failure := ⟨error, message⟩ }

def systemFailure (host : HostTransport) (operation : String) (code : Errno) : HostTransport :=
  host.fail
    (if code = .epipe ∨ code = .econnreset ∨ code = .enotconn then .disconnected else .ioError)
    (operation ++ ": " ++ code.strerror)

def pollLoop : List Poll → Poll × List Poll
  | [] => (.ready, [])
  | .failed .eintr :: polls => pollLoop polls
  | answer :: polls => (answer, polls)

def ready (host : HostTransport) : Bool × HostTransport :=
  let (answer, polls) := pollLoop host.polls
  let host := { host with polls := polls }
  match answer with
  | .failed code => (false, host.systemFailure "poll" code)
  | .cancelled => (false, host.fail .disconnected "transport cancelled")
  | .ready => (true, host)

/-- Wait and make one call, again while it reports a temporary error. The count is at most
`limit`; without one the failure is latched. -/
def attemptLoop (operation : String) (limit : Nat) (host : HostTransport) :
    List Call → Option Nat × HostTransport
  | [] =>
      match host.ready with
      | (false, host) => (none, { host with calls := [] })
      | (true, host) => (some limit, { host with calls := [] })
  | call :: calls =>
      match host.ready with
      | (false, host) => (none, { host with calls := call :: calls })
      | (true, host) =>
          match call with
          | .failed code =>
              if code.temporary then attemptLoop operation limit host calls
              else (none, { host with calls := calls }.systemFailure operation code)
          | .zero => (some 0, { host with calls := calls })
          | .moved extra => (some (min (extra + 1) limit), { host with calls := calls })

def attempt (host : HostTransport) (operation : String) (limit : Nat) :
    Option Nat × HostTransport :=
  attemptLoop operation limit host host.calls

/-- One turn of the `recv` and `send` loops; `closed` is the text for a count of zero. -/
def turn (operation closed : String) (host : HostTransport) (limit : Nat) :
    Option Nat × HostTransport :=
  match host.attempt operation limit with
  | (none, host) => (none, host)
  | (some 0, host) => (none, host.fail .disconnected closed)
  | (some (extra + 1), host) => (some extra, host)

def readAll (host : HostTransport) (connection : List Byte) (size : Nat) :
    Option (List Byte × List Byte) × HostTransport :=
  transfer (turn "receive" "incomplete gem5 packet") host connection size

def sendPacket (host : HostTransport) (data : List Byte) : Bool × HostTransport :=
  match host.attempt "accept" 1 with
  | (none, host) => (false, host)
  | (some _, host) =>
      match transfer (turn "send" "peer disconnected during send") host data data.length with
      | (none, host) => (false, host)
      | (some (sent, _), host) => (true, { host with outgoing := host.outgoing ++ [sent] })

def receivePacket (native : Endian) (host : HostTransport) (size : Nat) :
    Option (Option (List Byte) × HostTransport) :=
  match host.attempt "accept" 1 with
  | (none, host) => some (none, host)
  | (some _, host) =>
      match host.incoming with
      | [] => none
      | connection :: incoming =>
          let host := { host with incoming := incoming }
          match host.readAll connection 8 with
          | (none, host) => some (none, host)
          | (some (length, connection), host) =>
              if native.value length ≠ size then
                some (none, host.fail .invalidArgument "unexpected gem5 packet length")
              else
                match host.readAll connection size with
                | (none, host) => some (none, host)
                | (some (data, left), host) =>
                    some (some data, { host with unread := host.unread ++ [left] })

def send (host : HostTransport) (data : List Byte) : SendResult × HostTransport :=
  if !host.failure.ok then (host.failure, host)
  else if data.length > maxMessageSize then
    (⟨.invalidArgument, "message exceeds 64 MiB limit"⟩, host)
  else
    match host.sendPacket (encodeHeader data.length) with
    | (false, host) => (host.failure, host)
    | (true, host) =>
        if data = [] then (host.failure, host)
        else
          let (_, host) := host.sendPacket data
          (host.failure, host)

def allocate (host : HostTransport) : Bool × HostTransport :=
  (host.allocations.headD true, { host with allocations := host.allocations.tail })

/-- The payload of an accepted header; an empty vector allocates nothing. -/
def receivePayload (native : Endian) (host : HostTransport) (size : Nat) :
    Option (ReceiveResult × HostTransport) :=
  if size = 0 then some (.delivered [], host)
  else
    match host.allocate with
    | (false, host) =>
        let host := host.fail .ioError "cannot allocate receive buffer"
        some (host.failure.received, host)
    | (true, host) => do
        let (data, host) ← host.receivePacket native size
        match data with
        | none => some (host.failure.received, host)
        | some data => some (.delivered data, host)

def receive (native : Endian) (host : HostTransport) : Option (ReceiveResult × HostTransport) :=
  if !host.failure.ok then some (host.failure.received, host)
  else do
    let (header, host) ← host.receivePacket native headerSize
    match header with
    | none => some (host.failure.received, host)
    | some header =>
        let size := decodeHeader header
        if size > maxMessageSize then
          let host := host.fail .invalidArgument "peer message exceeds 64 MiB limit"
          some (host.failure.received, host)
        else host.receivePayload native size

/-! ## Error-free environments -/

/-- No failure is latched and none will be: the descriptors become ready after any number
of interruptions, the calls move nonempty chunks after any number of temporary errors, and
memory is there. -/
structure Quiet (host : HostTransport) : Prop where
  working : host.failure = .none
  polls : ∀ answer ∈ host.polls, answer = .failed .eintr ∨ answer = .ready
  calls : ∀ answer ∈ host.calls,
    (∃ code, code.temporary ∧ answer = .failed code) ∨ ∃ extra, answer = .moved extra
  memory : ∀ granted ∈ host.allocations, granted = true

structure SameConnections (host after : HostTransport) : Prop where
  incoming : after.incoming = host.incoming
  unread : after.unread = host.unread
  outgoing : after.outgoing = host.outgoing

theorem SameConnections.refl (host : HostTransport) : SameConnections host host :=
  ⟨rfl, rfl, rfl⟩

theorem SameConnections.trans {first second third : HostTransport}
    (left : SameConnections first second) (right : SameConnections second third) :
    SameConnections first third :=
  ⟨right.incoming.trans left.incoming, right.unread.trans left.unread,
    right.outgoing.trans left.outgoing⟩

theorem pollLoop_quiet (polls : List Poll)
    (quiet : ∀ answer ∈ polls, answer = .failed .eintr ∨ answer = .ready) :
    ∃ left, pollLoop polls = (.ready, left) ∧ left ⊆ polls := by
  induction polls with
  | nil => exact ⟨[], rfl, List.Subset.refl _⟩
  | cons answer polls ih =>
    rcases quiet answer List.mem_cons_self with interrupted | ready
    · obtain ⟨left, looped, subset⟩ := ih fun later member =>
        quiet later (List.mem_cons_of_mem _ member)
      exact ⟨left, by rw [interrupted, pollLoop, looped], List.subset_cons_of_subset _ subset⟩
    · exact ⟨polls, by rw [ready]; rfl, List.subset_cons_self _ _⟩

variable {host : HostTransport}

theorem ready_quiet (quiet : Quiet host) :
    ∃ after, host.ready = (true, after) ∧ Quiet after ∧ SameConnections host after ∧
      after.calls = host.calls := by
  obtain ⟨left, looped, subset⟩ := pollLoop_quiet host.polls quiet.polls
  refine ⟨{ host with polls := left }, by simp only [ready, looped], ?_, ⟨rfl, rfl, rfl⟩, rfl⟩
  exact ⟨quiet.working, fun answer member => quiet.polls answer (subset member), quiet.calls,
    quiet.memory⟩

theorem Quiet.drop {calls : List Call} (quiet : Quiet host)
    (subset : calls ⊆ host.calls) : Quiet { host with calls := calls } :=
  ⟨quiet.working, quiet.polls, fun answer member => quiet.calls answer (subset member),
    quiet.memory⟩

theorem attemptLoop_quiet (operation : String) {limit : Nat} (positive : 0 < limit)
    (calls : List Call) (host : HostTransport) (quiet : Quiet host) (subset : calls ⊆ host.calls) :
    ∃ count after, attemptLoop operation limit host calls = (some count, after) ∧
      0 < count ∧ count ≤ limit ∧ Quiet after ∧ SameConnections host after := by
  induction calls generalizing host with
  | nil =>
    obtain ⟨next, waited, calm, same, -⟩ := ready_quiet quiet
    refine ⟨limit, { next with calls := [] }, by simp only [attemptLoop, waited], positive, le_rfl,
      calm.drop (List.nil_subset _), same.incoming, same.unread, same.outgoing⟩
  | cons call calls ih =>
    obtain ⟨next, waited, calm, same, unchanged⟩ := ready_quiet quiet
    have later : calls ⊆ next.calls := by
      rw [unchanged]
      exact fun answer member => subset (List.mem_cons_of_mem _ member)
    rcases quiet.calls call (subset List.mem_cons_self) with ⟨code, again, rfl⟩ | ⟨extra, rfl⟩
    · obtain ⟨count, after, looped, some, within, quieter, kept⟩ := ih next calm later
      refine ⟨count, after, ?_, some, within, quieter, same.trans kept⟩
      simp only [attemptLoop, waited, again, if_true, looped]
    · refine ⟨min (extra + 1) limit, { next with calls := calls }, by simp only [attemptLoop, waited],
        by omega, by omega, calm.drop later, same.incoming, same.unread, same.outgoing⟩

theorem attempt_quiet (operation : String) {limit : Nat} (positive : 0 < limit)
    {host : HostTransport} (quiet : Quiet host) :
    ∃ count after, host.attempt operation limit = (some count, after) ∧
      0 < count ∧ count ≤ limit ∧ Quiet after ∧ SameConnections host after :=
  attemptLoop_quiet operation positive host.calls host quiet (List.Subset.refl _)

theorem turn_progress (operation closed : String) (start : HostTransport) :
    Progress (turn operation closed) fun host => Quiet host ∧ SameConnections start host := by
  intro host limit good positive
  obtain ⟨count, after, called, some, within, quiet, same⟩ :=
    attempt_quiet operation positive good.1
  refine ⟨count - 1, after, ?_, by omega, quiet, good.2.trans same⟩
  obtain ⟨extra, rfl⟩ : ∃ extra, count = extra + 1 := ⟨count - 1, by omega⟩
  simp only [turn, called, Nat.add_sub_cancel]

theorem readAll_quiet (quiet : Quiet host) (data rest : List Byte) :
    ∃ after, host.readAll (data ++ rest) data.length = (some (data, rest), after) ∧
      Quiet after ∧ SameConnections host after := by
  obtain ⟨after, moved, calm, same⟩ := transfer_exact
    (turn_progress "receive" "incomplete gem5 packet" host) host (data ++ rest) data.length
    ⟨quiet, .refl host⟩ (by simp)
  rw [List.take_left, List.drop_left] at moved
  exact ⟨after, moved, calm, same⟩

theorem sendPacket_quiet (quiet : Quiet host) (data : List Byte) :
    ∃ after, host.sendPacket data = (true, after) ∧ Quiet after ∧
      SameConnections { host with outgoing := host.outgoing ++ [data] } after := by
  obtain ⟨count, next, accepted, -, -, calm, same⟩ := attempt_quiet "accept" Nat.one_pos quiet
  obtain ⟨after, moved, calmer, kept⟩ := transfer_exact
    (turn_progress "send" "peer disconnected during send" next) next data data.length
    ⟨calm, .refl next⟩ le_rfl
  rw [List.take_length] at moved
  have both := same.trans kept
  refine ⟨{ after with outgoing := after.outgoing ++ [data] }, ?_,
    ⟨calmer.working, calmer.polls, calmer.calls, calmer.memory⟩,
    both.incoming, both.unread, by simp only [both.outgoing]⟩
  simp only [sendPacket, accepted, moved]

theorem receivePacket_quiet (native : Endian) {host : HostTransport} (quiet : Quiet host)
    {packet : List Byte} {rest : List (List Byte)} (bound : packet.length < modulus)
    (waiting : host.incoming = envelope native packet :: rest) :
    ∃ after, host.receivePacket native packet.length = some (some packet, after) ∧ Quiet after ∧
      SameConnections { host with incoming := rest, unread := host.unread ++ [[]] } after := by
  obtain ⟨count, accepted, called, -, -, calm, same⟩ := attempt_quiet "accept" Nat.one_pos quiet
  have first : accepted.incoming = envelope native packet :: rest := same.incoming.trans waiting
  have opened : Quiet { accepted with incoming := rest } :=
    ⟨calm.working, calm.polls, calm.calls, calm.memory⟩
  obtain ⟨sized, lengthRead, sizedQuiet, sizedSame⟩ :=
    readAll_quiet opened (native.bytes packet.length) packet
  rw [Endian.bytes_length] at lengthRead
  obtain ⟨after, payloadRead, afterQuiet, afterSame⟩ := readAll_quiet sizedQuiet packet []
  rw [List.append_nil] at payloadRead
  have kept := sizedSame.trans afterSame
  refine ⟨{ after with unread := after.unread ++ [[]] }, ?_,
    ⟨afterQuiet.working, afterQuiet.polls, afterQuiet.calls, afterQuiet.memory⟩,
    kept.incoming, by simp only [kept.unread, same.unread], kept.outgoing.trans same.outgoing⟩
  simp only [receivePacket, called, first, envelope, lengthRead, native.value_bytes bound,
    ne_eq, not_true_eq_false, if_false, payloadRead]

theorem send_quiet (quiet : Quiet host) {data : List Byte} (within : data.length ≤ maxMessageSize) :
    ∃ after, host.send data = (.none, after) ∧ Quiet after ∧
      SameConnections { host with outgoing := host.outgoing ++ packets data } after := by
  have working : host.failure.ok = true := by rw [quiet.working, SendResult.none_ok]
  obtain ⟨next, header, calm, same⟩ := sendPacket_quiet quiet (encodeHeader data.length)
  by_cases empty : data = []
  · refine ⟨next, ?_, calm, same.incoming, same.unread, ?_⟩
    · simp only [send, working, Bool.not_true, Bool.false_eq_true, if_false, Nat.not_lt.mpr within,
        header, if_pos empty, calm.working]
    · rw [same.outgoing, packets, if_pos empty]
  · obtain ⟨after, payload, calmer, kept⟩ := sendPacket_quiet calm data
    refine ⟨after, ?_, calmer, kept.incoming.trans same.incoming, kept.unread.trans same.unread, ?_⟩
    · simp only [send, working, Bool.not_true, Bool.false_eq_true, if_false, Nat.not_lt.mpr within,
        header, if_neg empty, payload, calmer.working]
    · rw [kept.outgoing, same.outgoing, packets, if_neg empty]
      simp

theorem receivePayload_quiet (native : Endian) {host : HostTransport} (quiet : Quiet host)
    {data : List Byte} {rest : List (List Byte)} (within : data.length ≤ maxMessageSize)
    (filled : data ≠ []) (waiting : host.incoming = envelope native data :: rest) :
    ∃ after, host.receivePayload native data.length = some (.delivered data, after) ∧
      Quiet after ∧
      SameConnections { host with incoming := rest, unread := host.unread ++ [[]] } after := by
  have granted : host.allocations.headD true = true := by
    cases known : host.allocations with
    | nil => rfl
    | cons first later => exact quiet.memory first (by rw [known]; exact List.mem_cons_self)
  have allocated : Quiet { host with allocations := host.allocations.tail } :=
    ⟨quiet.working, quiet.polls, quiet.calls,
      fun answer member => quiet.memory answer (List.mem_of_mem_tail member)⟩
  obtain ⟨after, received, calm, same⟩ := receivePacket_quiet native allocated
    (lt_of_le_of_lt within maxMessageSize_lt) waiting
  refine ⟨after, ?_, calm, same.incoming, same.unread, same.outgoing⟩
  have nonzero : data.length ≠ 0 := fun zero => filled (List.length_eq_zero_iff.mp zero)
  simp only [receivePayload, if_neg nonzero, allocate, granted, received, Option.bind_eq_bind,
    Option.bind_some]

/-- A receive consumes exactly the packets of one message and leaves nothing in their
connections. -/
theorem receive_quiet (native : Endian) {host : HostTransport} (quiet : Quiet host)
    {data : List Byte} {rest : List (List Byte)} (within : data.length ≤ maxMessageSize)
    (waiting : host.incoming = (packets data).map (envelope native) ++ rest) :
    ∃ after, host.receive native = some (.delivered data, after) ∧ Quiet after ∧
      after.incoming = rest ∧ after.outgoing = host.outgoing ∧
      after.unread = host.unread ++ (packets data).map fun _ => [] := by
  have working : host.failure.ok = true := by rw [quiet.working, SendResult.none_ok]
  have headerBound : (encodeHeader data.length).length < modulus := by
    rw [encodeHeader_length]
    decide
  obtain ⟨next, header, calm, same⟩ := receivePacket_quiet native quiet headerBound waiting
  rw [encodeHeader_length] at header
  have opened : host.receive native = next.receivePayload native data.length := by
    simp only [receive, working, Bool.not_true, Bool.false_eq_true, if_false, header,
      Option.bind_eq_bind, Option.bind_some, decodeHeader_encodeHeader within, gt_iff_lt,
      Nat.not_lt.mpr within]
  rw [opened]
  by_cases empty : data = []
  · subst empty
    exact ⟨next, rfl, calm, same.incoming, same.outgoing, same.unread⟩
  · have payload : next.incoming = envelope native data :: rest := by
      rw [same.incoming, if_neg empty]
      rfl
    obtain ⟨after, received, calmer, kept⟩ := receivePayload_quiet native calm within empty payload
    refine ⟨after, received, calmer, kept.incoming, kept.outgoing.trans same.outgoing, ?_⟩
    rw [kept.unread, same.unread, packets, if_neg empty]
    simp

theorem receive_waiting (native : Endian) {host : HostTransport} (quiet : Quiet host)
    (waiting : host.incoming = []) : host.receive native = none := by
  obtain ⟨count, next, accepted, -, -, -, same⟩ := attempt_quiet "accept" Nat.one_pos quiet
  have nobody : next.incoming = [] := same.incoming.trans waiting
  simp [receive, quiet.working, receivePacket, accepted, nobody]

theorem send_oversized (quiet : Quiet host) {data : List Byte}
    (excess : maxMessageSize < data.length) :
    host.send data = (⟨.invalidArgument, "message exceeds 64 MiB limit"⟩, host) := by
  simp only [send, quiet.working, SendResult.none_ok, Bool.not_true, Bool.false_eq_true, if_false,
    gt_iff_lt, if_pos excess]

end HostTransport

end Chimaera.Transport
