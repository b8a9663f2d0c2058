import Chimaera.Base.Calls
import Chimaera.Transport.Guest
import Chimaera.Transport.Host

/-! Failures of a transport over whole sequences of calls. What both transports have in
common is a law about one call: a stored failure answers it, a local rejection leaves the
transport alone, and a transfer is complete or stores its failure. -/

namespace Chimaera.Transport
open Base.BigEndian Base.Stream Base.Calls

inductive TransportCall where
  | send (data : List Byte)
  | receive
  deriving DecidableEq, Repr

inductive TransportResult where
  | sent (result : SendResult)
  | received (result : ReceiveResult)
  deriving DecidableEq, Repr

def TransportResult.ok : TransportResult → Bool
  | .sent result => result.ok
  | .received result => result.ok

def TransportResult.data : TransportResult → List Byte
  | .sent _ => []
  | .received result => result.data

def SendResult.reply (failure : SendResult) : TransportCall → TransportResult
  | .send _ => .sent failure
  | .receive => .received failure.received

@[simp] theorem SendResult.reply_ok (failure : SendResult) (call : TransportCall) :
    (failure.reply call).ok = failure.ok := by
  cases call <;> rfl

@[simp] theorem SendResult.reply_data (failure : SendResult) (call : TransportCall) :
    (failure.reply call).data = [] := by
  cases call <;> rfl

section Sequences

variable {σ γ : Type} (perform : σ → γ → Option (TransportResult × σ)) (kind : γ → TransportCall)
  (failure : σ → SendResult) (Rejected : σ → γ → Prop) (Complete : σ → γ → σ → Prop)

/-- One call on a transport. `Rejected` says that a call is refused locally, `Complete`
that every packet of its message was transferred. -/
structure Law : Prop where
  latched : ∀ state call, (failure state).ok = false →
    perform state call = some ((failure state).reply (kind call), state)
  rejected : ∀ state call, (failure state).ok = true → Rejected state call →
    ∃ result, perform state call = some (result, state) ∧ result.ok = false ∧ result.data = []
  transferred : ∀ state call result after, (failure state).ok = true → ¬Rejected state call →
    perform state call = some (result, after) →
      Complete state call after ∧ result.ok = true ∨
      (failure after).ok = false ∧ result = (failure after).reply (kind call)

structure Sticky : Prop where
  /-- A transfer that was not completed fixes the error that every later call returns; none
  of them touches the transport or what is beneath it. -/
  fixed : ∀ start front done before call result after rest later final,
    calls perform start front = some (done, before) →
    perform before call = some (result, after) → ¬Rejected before call →
    ¬Complete before call after → calls perform after rest = some (later, final) →
      ∃ error : SendResult, error.ok = false ∧ result = error.reply (kind call) ∧ final = after ∧
        ∀ entry ∈ later, entry.2 = error.reply (kind entry.1)
  /-- A rejected call touches nothing: without it the other calls return the same. -/
  harmless : ∀ start front done before call, calls perform start front = some (done, before) →
    Rejected before call → ∃ result, result.ok = false ∧
      perform before call = some (result, before) ∧ ∀ rest,
        calls perform start (front ++ call :: rest) = (calls perform before rest).map
          (fun (later, final) => (done ++ (call, result) :: later, final)) ∧
        calls perform start (front ++ rest) = (calls perform before rest).map
          (fun (later, final) => (done ++ later, final))
  /-- A call that fails returns no data. -/
  empty : ∀ start events trace final, calls perform start events = some (trace, final) →
    ∀ entry ∈ trace, entry.2.ok = false → entry.2.data = []

variable {perform kind failure Rejected Complete}

theorem Law.failing (law : Law perform kind failure Rejected Complete) {state after : σ} {call : γ}
    {result : TransportResult} (performed : perform state call = some (result, after))
    (admitted : ¬Rejected state call) (incomplete : ¬Complete state call after) :
    (failure after).ok = false ∧ result = (failure after).reply (kind call) := by
  cases working : (failure state).ok with
  | false =>
    rw [law.latched state call working] at performed
    cases performed
    exact ⟨working, rfl⟩
  | true =>
    rcases law.transferred state call result after working admitted performed with ⟨complete, -⟩ | failed
    · exact absurd complete incomplete
    · exact failed

theorem Law.untouched (law : Law perform kind failure Rejected Complete) {state : σ} {call : γ}
    (rejected : Rejected state call) :
    ∃ result, perform state call = some (result, state) ∧ result.ok = false := by
  cases working : (failure state).ok with
  | false =>
    refine ⟨_, law.latched state call working, ?_⟩
    rw [SendResult.reply_ok, working]
  | true =>
    obtain ⟨result, performed, failed, -⟩ := law.rejected state call working rejected
    exact ⟨result, performed, failed⟩

/-- A call that fails returns no data, whether it found the failure or met it. -/
theorem Law.blank (law : Law perform kind failure Rejected Complete) {state after : σ} {call : γ}
    {result : TransportResult} (performed : perform state call = some (result, after))
    (failed : result.ok = false) : result.data = [] := by
  cases working : (failure state).ok with
  | false =>
    rw [law.latched state call working] at performed
    cases performed
    exact SendResult.reply_data _ _
  | true =>
    by_cases rejected : Rejected state call
    · obtain ⟨refusal, refused, -, blank⟩ := law.rejected state call working rejected
      rw [refused] at performed
      cases performed
      exact blank
    · rcases law.transferred state call result after working rejected performed with
        ⟨-, fine⟩ | ⟨-, reported⟩
      · rw [failed] at fine
        cases fine
      · rw [reported, SendResult.reply_data]

theorem Law.stays (law : Law perform kind failure Rejected Complete) {state final : σ}
    {events : List γ} {trace : List (γ × TransportResult)} (failed : (failure state).ok = false)
    (made : calls perform state events = some (trace, final)) :
    final = state ∧ ∀ entry ∈ trace, entry.2 = (failure state).reply (kind entry.1) := by
  apply calls_invariant (fun trace next =>
    next = state ∧ ∀ entry ∈ trace, entry.2 = (failure state).reply (kind entry.1)) ?_ ?_ made
  · rintro done next call result after ⟨rfl, replies⟩ performed
    rw [law.latched next call failed] at performed
    cases performed
    refine ⟨rfl, fun entry member => ?_⟩
    rcases List.mem_append.mp member with earlier | last
    · exact replies entry earlier
    · rw [List.mem_singleton.mp last]
  · exact ⟨rfl, fun entry member => nomatch member⟩

theorem Law.sticky (law : Law perform kind failure Rejected Complete) :
    Sticky perform kind Rejected Complete where
  fixed start front done before call result after rest later final made performed admitted
      incomplete further := by
    obtain ⟨failed, reported⟩ := law.failing performed admitted incomplete
    obtain ⟨same, replies⟩ := law.stays failed further
    exact ⟨failure after, failed, reported, same, replies⟩
  harmless start front done before call made rejected := by
    obtain ⟨result, performed, failed⟩ := law.untouched rejected
    refine ⟨result, failed, performed, fun rest => ⟨?_, calls_after made rest⟩⟩
    rw [calls_after made, calls, performed, Option.bind_some, Option.map_map]
    rfl
  empty start events trace final made := by
    apply calls_invariant (fun trace _ =>
      ∀ entry ∈ trace, entry.2.ok = false → entry.2.data = []) ?_ ?_ made
    · intro done state call result next earlier performed entry member failed
      rcases List.mem_append.mp member with before | last
      · exact earlier entry before failed
      · rw [List.mem_singleton.mp last] at failed ⊢
        exact law.blank performed failed
    · intro entry member
      cases member

end Sequences

/-! ## The guest -/

/-- A call on the guest; the mapping is libm5's, and each call finds it there or not. -/
structure GuestCall where
  mapped : Bool
  call : TransportCall
  deriving DecidableEq, Repr

namespace GuestTransport

variable {σ : Type}

def perform (m5 : M5Ops σ) (guest : GuestTransport σ) (call : GuestCall) :
    Option (TransportResult × GuestTransport σ) :=
  let guest' := { guest with mapped := call.mapped }
  match call.call with
  | .send data => (guest'.send m5 data).map fun (result, after) =>
      (.sent result, { after with mapped := guest.mapped })
  | .receive => (guest'.receive m5).map fun (result, after) =>
      (.received result, { after with mapped := guest.mapped })

def Rejected (guest : GuestTransport σ) (call : GuestCall) : Prop :=
  (∃ data, call.call = .send data ∧ maxMessageSize < data.length) ∨
    guest.ops = .address ∧ call.mapped = false

inductive Complete (m5 : M5Ops σ) (ops : GuestM5Ops) (world : σ) : TransportCall → σ → Prop
  | sent {data after} (operations : sendOps m5 ops world data = some (true, after)) :
      Complete m5 ops world (.send data) after
  | receivedEmpty {header after}
      (first : m5.recv ops world headerSize = some (headerSize, header, after))
      (size : decodeHeader header = 0) : Complete m5 ops world .receive after
  | received {header data middle after}
      (first : m5.recv ops world headerSize = some (headerSize, header, middle))
      (size : decodeHeader header ≤ maxMessageSize)
      (second : m5.recv ops middle (decodeHeader header) =
        some (decodeHeader header, data, after)) : Complete m5 ops world .receive after

theorem unmapped_iff (guest : GuestTransport σ) :
    guest.unmapped = true ↔ guest.ops = .address ∧ guest.mapped = false := by
  simp [unmapped]

theorem send_latched (m5 : M5Ops σ) (guest : GuestTransport σ) (data : List Byte)
    (failed : guest.failure.ok = false) : guest.send m5 data = some (guest.failure, guest) := by
  simp only [send, failed, Bool.not_false, if_true]

theorem receive_latched (m5 : M5Ops σ) (guest : GuestTransport σ)
    (failed : guest.failure.ok = false) :
    guest.receive m5 = some (guest.failure.received, guest) := by
  simp only [receive, failed, Bool.not_false, if_true]

variable {guest after : GuestTransport σ}

/-- A send that passes the checks is complete, or it stores what it returns. -/
theorem send_transferred {m5 : M5Ops σ} {data : List Byte} {result : SendResult}
    (working : guest.failure.ok = true)
    (within : data.length ≤ maxMessageSize) (mapped : guest.unmapped = false)
    (sent : guest.send m5 data = some (result, after)) :
    Complete m5 guest.ops guest.world (.send data) after.world ∧ result.ok = true ∨
      after.failure.ok = false ∧ result = after.failure := by
  simp only [send, working, Bool.not_true, Bool.false_eq_true, if_false, gt_iff_lt,
    Nat.not_lt.mpr within, mapped, Option.bind_eq_bind, Option.bind_eq_some_iff] at sent
  obtain ⟨⟨complete, world⟩, operated, returned⟩ := sent
  cases complete with
  | true =>
    cases returned
    exact .inl ⟨.sent operated, working⟩
  | false =>
    cases returned
    exact .inr ⟨rfl, rfl⟩

theorem receivePayload_transferred {m5 : M5Ops σ} {size : Nat} {result : ReceiveResult}
    (received : guest.receivePayload m5 size = some (result, after)) :
    ((size = 0 ∧ after.world = guest.world ∨
        ∃ data, m5.recv guest.ops guest.world size = some (size, data, after.world)) ∧
      result.ok = true) ∨ after.failure.ok = false ∧ result = after.failure.received := by
  rw [receivePayload] at received
  by_cases none : size = 0
  · rw [if_pos none] at received
    cases received
    exact .inl ⟨.inl ⟨none, rfl⟩, rfl⟩
  rw [if_neg none] at received
  rcases granted : guest.allocate with ⟨_ | _, allocated⟩
  · rw [granted] at received
    cases received
    exact .inr ⟨rfl, rfl⟩
  simp only [granted, Option.bind_eq_bind, Option.bind_eq_some_iff] at received
  obtain ⟨⟨count, data, world⟩, operated, returned⟩ := received
  have same : { guest with allocations := guest.allocations.tail } = allocated :=
    congrArg Prod.snd granted
  subst same
  by_cases whole : count = size
  · subst whole
    rw [if_pos rfl] at returned
    cases returned
    exact .inl ⟨.inr ⟨data, operated⟩, rfl⟩
  · rw [if_neg whole] at returned
    cases returned
    exact .inr ⟨rfl, rfl⟩

/-- A receive that passes the checks is complete, or it stores what it returns. -/
theorem receive_transferred {m5 : M5Ops σ} {result : ReceiveResult}
    (working : guest.failure.ok = true)
    (mapped : guest.unmapped = false) (received : guest.receive m5 = some (result, after)) :
    Complete m5 guest.ops guest.world .receive after.world ∧ result.ok = true ∨
      after.failure.ok = false ∧ result = after.failure.received := by
  simp only [receive, working, Bool.not_true, Bool.false_eq_true, if_false, mapped,
    Option.bind_eq_bind, Option.bind_eq_some_iff] at received
  obtain ⟨⟨count, header, world⟩, operated, returned⟩ := received
  by_cases short : count ≠ headerSize
  · rw [if_pos short] at returned
    cases returned
    exact .inr ⟨rfl, rfl⟩
  have whole := not_not.mp short
  subst whole
  rw [if_neg short] at returned
  by_cases above : decodeHeader header > maxMessageSize
  · rw [if_pos above] at returned
    cases returned
    exact .inr ⟨rfl, rfl⟩
  rw [if_neg above] at returned
  rcases receivePayload_transferred returned with ⟨payload, fine⟩ | failed
  · rcases payload with ⟨none, same⟩ | ⟨data, moved⟩
    · exact .inl ⟨.receivedEmpty (same ▸ operated) none, fine⟩
    · exact .inl ⟨.received operated (Nat.le_of_not_lt above) moved, fine⟩
  · exact .inr failed

theorem law (m5 : M5Ops σ) :
    Law (perform m5) GuestCall.call GuestTransport.failure Rejected
      fun guest call after => Complete m5 guest.ops guest.world call.call after.world where
  latched guest call failed := by
    rcases call with ⟨mapped, data | _⟩
    · rw [perform]
      simp only [send_latched m5 { guest with mapped := mapped } data failed, Option.map_some]
      rfl
    · rw [perform]
      simp only [receive_latched m5 { guest with mapped := mapped } failed, Option.map_some]
      rfl
  rejected guest call working rejected := by
    have passes : (!guest.failure.ok) = false := by rw [working]; rfl
    rcases call with ⟨mapped, data | _⟩
    · by_cases excess : data.length > maxMessageSize
      · refine ⟨.sent ⟨.invalidArgument, "message exceeds 64 MiB limit"⟩, ?_, rfl, rfl⟩
        simp only [perform, send, passes, Bool.false_eq_true, if_false, if_pos excess,
          Option.map_some]
      · have blind : { guest with mapped := mapped }.unmapped = true := by
          rcases rejected with ⟨_, same, above⟩ | missing
          · cases same
            exact absurd above excess
          · exact (unmapped_iff _).mpr missing
        refine ⟨.sent ⟨.invalidArgument, "libm5 address memory is not mapped"⟩, ?_, rfl, rfl⟩
        simp only [perform, send, passes, Bool.false_eq_true, if_false, if_neg excess, blind,
          if_true, Option.map_some]
    · have blind : { guest with mapped := mapped }.unmapped = true := by
        rcases rejected with ⟨_, same, -⟩ | missing
        · cases same
        · exact (unmapped_iff _).mpr missing
      refine ⟨.received ⟨[], .invalidArgument, "libm5 address memory is not mapped"⟩, ?_, rfl, rfl⟩
      simp only [perform, receive, passes, Bool.false_eq_true, if_false, blind, if_true,
        Option.map_some]
  transferred guest call result after working admitted performed := by
    have mapped : { guest with mapped := call.mapped }.unmapped = false := by
      rw [Bool.eq_false_iff]
      intro blind
      exact admitted (.inr ((unmapped_iff _).mp blind))
    rcases call with ⟨there, data | _⟩
    · have within : data.length ≤ maxMessageSize := Nat.le_of_not_lt fun excess =>
        admitted (.inl ⟨data, rfl, excess⟩)
      obtain ⟨⟨outcome, moved⟩, sent, same⟩ := Option.map_eq_some_iff.mp performed
      cases same
      have ready : { guest with mapped := there }.failure.ok = true := working
      rcases send_transferred ready within mapped sent with complete | ⟨failed, stored⟩
      · exact .inl complete
      · exact .inr ⟨failed, congrArg _ stored⟩
    · obtain ⟨⟨outcome, moved⟩, received, same⟩ := Option.map_eq_some_iff.mp performed
      cases same
      have ready : { guest with mapped := there }.failure.ok = true := working
      rcases receive_transferred ready mapped received with complete | ⟨failed, stored⟩
      · exact .inl complete
      · exact .inr ⟨failed, congrArg _ stored⟩

end GuestTransport

/-! ## The host -/

namespace HostTransport

def perform (native : Endian) (host : HostTransport) :
    TransportCall → Option (TransportResult × HostTransport)
  | .send data => some (.sent (host.send data).1, (host.send data).2)
  | .receive => (host.receive native).map fun (result, after) => (.received result, after)

def Rejected (_ : HostTransport) (call : TransportCall) : Prop :=
  ∃ data, call = .send data ∧ maxMessageSize < data.length

inductive Complete (native : Endian) (host : HostTransport) :
    TransportCall → HostTransport → Prop
  | sentEmpty {after} (header : host.sendPacket (encodeHeader 0) = (true, after)) :
      Complete native host (.send []) after
  | sent {data middle after} (filled : data ≠ [])
      (header : host.sendPacket (encodeHeader data.length) = (true, middle))
      (payload : middle.sendPacket data = (true, after)) : Complete native host (.send data) after
  | receivedEmpty {header after}
      (first : host.receivePacket native headerSize = some (some header, after))
      (size : decodeHeader header = 0) : Complete native host .receive after
  | received {header data middle after}
      (first : host.receivePacket native headerSize = some (some header, middle))
      (size : decodeHeader header ≤ maxMessageSize)
      (second : middle.allocate.2.receivePacket native (decodeHeader header) =
        some (some data, after)) : Complete native host .receive after

theorem systemFailure_failed (host : HostTransport) (operation : String) (code : Errno) :
    (host.systemFailure operation code).failure.ok = false := by
  by_cases closed : code = .epipe ∨ code = .econnreset ∨ code = .enotconn
  · simp only [systemFailure, if_pos closed]
    rfl
  · simp only [systemFailure, if_neg closed]
    rfl

abbrev Steady {β : Type} (host : HostTransport) : Option β × HostTransport → Prop :=
  Outcome (fun after => after.failure = host.failure) fun after => after.failure.ok = false

variable {host after : HostTransport}

theorem ready_true (waited : host.ready = (true, after)) :
    after.failure = host.failure := by
  cases answer : (pollLoop host.polls).1 with
  | failed code => simp [ready, answer] at waited
  | cancelled => simp [ready, answer] at waited
  | ready =>
    simp only [ready, answer, Prod.mk.injEq, true_and] at waited
    rw [← waited]

theorem ready_false (waited : host.ready = (false, after)) :
    after.failure.ok = false := by
  cases answer : (pollLoop host.polls).1 with
  | failed code =>
    simp only [ready, answer, Prod.mk.injEq, true_and] at waited
    rw [← waited]
    exact systemFailure_failed _ _ _
  | cancelled =>
    simp only [ready, answer, Prod.mk.injEq, true_and] at waited
    rw [← waited]
    rfl
  | ready => simp [ready, answer] at waited

theorem attemptLoop_steady (operation : String) (limit : Nat) (calls : List Call)
    (host : HostTransport) : Steady host (attemptLoop operation limit host calls) := by
  induction calls generalizing host with
  | nil =>
    rw [attemptLoop]
    rcases waited : host.ready with ⟨_ | _, next⟩
    · have failed := ready_false waited
      exact failed
    · have same := ready_true waited
      exact same
  | cons call calls ih =>
    rw [attemptLoop]
    rcases waited : host.ready with ⟨_ | _, next⟩
    · have failed := ready_false waited
      exact failed
    have same := ready_true waited
    rcases call with code | _ | extra
    · by_cases again : code.temporary = true
      · simp only [again, if_true]
        have later := ih next
        rwa [Steady, same] at later
      · simp only [again]
        exact systemFailure_failed _ _ _
    · exact same
    · exact same

theorem attempt_steady {host : HostTransport} {operation : String} {limit : Nat}
    {outcome : Option Nat × HostTransport} (tried : host.attempt operation limit = outcome) :
    Steady host outcome := tried ▸ attemptLoop_steady operation limit host.calls host

theorem turn_steady (operation closed : String) (host : HostTransport) (limit : Nat) :
    Steady host (turn operation closed host limit) := by
  rw [turn]
  rcases tried : host.attempt operation limit with ⟨_ | _ | extra, after⟩
  · have failed := attempt_steady tried
    exact failed
  · rfl
  · have same := attempt_steady tried
    exact same

theorem transfer_steady {operation closed : String} {host : HostTransport} {stream : List Byte}
    {wanted : Nat} {outcome : Option (List Byte × List Byte) × HostTransport}
    (moved : transfer (turn operation closed) host stream wanted = outcome) :
    Steady host outcome := by
  rw [← moved]
  apply transfer_outcome ?_ host stream wanted
  · rfl
  · intro state limit same
    have turned := turn_steady operation closed state limit
    rwa [Steady, same] at turned

theorem sendPacket_steady {data : List Byte} {whole : Bool}
    (sent : host.sendPacket data = (whole, after)) :
    if whole then after.failure = host.failure else after.failure.ok = false := by
  rw [sendPacket] at sent
  rcases tried : host.attempt "accept" 1 with ⟨_ | count, next⟩
  · simp only [tried] at sent
    cases sent
    exact attempt_steady tried
  have accepted : next.failure = host.failure := attempt_steady tried
  simp only [tried] at sent
  rcases moved : transfer (turn "send" "peer disconnected during send") next data data.length with
    ⟨_ | ⟨bytes, rest⟩, last⟩
  · simp only [moved] at sent
    cases sent
    exact transfer_steady moved
  · simp only [moved] at sent
    cases sent
    have kept : last.failure = next.failure := transfer_steady moved
    exact kept.trans accepted

theorem receivePacket_steady {native : Endian} {host : HostTransport} {size : Nat}
    {outcome : Option (List Byte) × HostTransport}
    (received : host.receivePacket native size = some outcome) : Steady host outcome := by
  rw [receivePacket] at received
  rcases tried : host.attempt "accept" 1 with ⟨_ | count, next⟩
  · simp only [tried] at received
    cases received
    exact attempt_steady tried
  have accepted : next.failure = host.failure := attempt_steady tried
  simp only [tried] at received
  cases waiting : next.incoming with
  | nil =>
    simp only [waiting] at received
    cases received
  | cons connection incoming =>
    simp only [waiting] at received
    rcases sized : readAll { next with incoming := incoming } connection 8 with
      ⟨_ | ⟨length, rest⟩, opened⟩
    · simp only [sized] at received
      cases received
      exact transfer_steady sized
    have kept : opened.failure = next.failure := transfer_steady sized
    simp only [sized] at received
    by_cases other : native.value length ≠ size
    · rw [if_pos other] at received
      cases received
      rfl
    rw [if_neg other] at received
    rcases moved : opened.readAll rest size with ⟨_ | ⟨data, left⟩, last⟩
    · simp only [moved] at received
      cases received
      exact transfer_steady moved
    · simp only [moved] at received
      cases received
      have steady : last.failure = opened.failure := transfer_steady moved
      exact steady.trans (kept.trans accepted)

theorem send_transferred (native : Endian) {host : HostTransport} {data : List Byte}
    (working : host.failure.ok = true) (within : data.length ≤ maxMessageSize) :
    Complete native host (.send data) (host.send data).2 ∧ (host.send data).1.ok = true ∨
      (host.send data).2.failure.ok = false ∧ (host.send data).1 = (host.send data).2.failure := by
  simp only [send, working, Bool.not_true, Bool.false_eq_true, if_false, gt_iff_lt,
    Nat.not_lt.mpr within]
  rcases header : host.sendPacket (encodeHeader data.length) with ⟨_ | _, next⟩
  · exact .inr ⟨sendPacket_steady header, rfl⟩
  have kept : next.failure = host.failure := sendPacket_steady header
  have fine : next.failure.ok = true := by rw [kept, working]
  by_cases empty : data = []
  · subst empty
    exact .inl ⟨.sentEmpty header, fine⟩
  simp only [if_neg empty]
  rcases payload : next.sendPacket data with ⟨_ | _, last⟩
  · exact .inr ⟨sendPacket_steady payload, trivial⟩
  · have steady : last.failure = next.failure := sendPacket_steady payload
    refine .inl ⟨.sent empty header payload, ?_⟩
    rw [steady, fine]

theorem receivePayload_transferred {native : Endian} {size : Nat} {result : ReceiveResult}
    (received : host.receivePayload native size = some (result, after)) :
    ((size = 0 ∧ after = host ∨
        ∃ data, host.allocate.2.receivePacket native size = some (some data, after)) ∧
      result.ok = true) ∨ after.failure.ok = false ∧ result = after.failure.received := by
  rw [receivePayload] at received
  by_cases none : size = 0
  · rw [if_pos none] at received
    cases received
    exact .inl ⟨.inl ⟨none, rfl⟩, rfl⟩
  rw [if_neg none] at received
  rcases granted : host.allocate with ⟨_ | _, allocated⟩
  · rw [granted] at received
    cases received
    exact .inr ⟨rfl, rfl⟩
  simp only [granted, Option.bind_eq_bind, Option.bind_eq_some_iff] at received
  obtain ⟨⟨_ | data, next⟩, packet, returned⟩ := received
  · cases returned
    exact .inr ⟨receivePacket_steady packet, rfl⟩
  · cases returned
    exact .inl ⟨.inr ⟨data, packet⟩, rfl⟩

theorem receive_transferred {native : Endian} {result : ReceiveResult}
    (working : host.failure.ok = true) (received : host.receive native = some (result, after)) :
    Complete native host .receive after ∧ result.ok = true ∨
      after.failure.ok = false ∧ result = after.failure.received := by
  simp only [receive, working, Bool.not_true, Bool.false_eq_true, if_false,
    Option.bind_eq_bind, Option.bind_eq_some_iff] at received
  obtain ⟨⟨_ | header, next⟩, packet, returned⟩ := received
  · cases returned
    exact .inr ⟨receivePacket_steady packet, rfl⟩
  by_cases above : decodeHeader header > maxMessageSize
  · simp only [if_pos above] at returned
    cases returned
    exact .inr ⟨rfl, rfl⟩
  simp only [if_neg above] at returned
  rcases receivePayload_transferred returned with ⟨payload, fine⟩ | failed
  · rcases payload with ⟨none, rfl⟩ | ⟨data, moved⟩
    · exact .inl ⟨.receivedEmpty packet none, fine⟩
    · exact .inl ⟨.received packet (Nat.le_of_not_lt above) moved, fine⟩
  · exact .inr failed

theorem law (native : Endian) :
    Law (perform native) id HostTransport.failure Rejected (Complete native) where
  latched host call failed := by
    cases call with
    | send data => simp only [perform, send, failed, Bool.not_false, if_true]; rfl
    | receive => simp only [perform, receive, failed, Bool.not_false, if_true]; rfl
  rejected host call working rejected := by
    obtain ⟨data, rfl, excess⟩ := rejected
    refine ⟨.sent ⟨.invalidArgument, "message exceeds 64 MiB limit"⟩, ?_, rfl, rfl⟩
    simp only [perform, send, working, Bool.not_true, Bool.false_eq_true, if_false, gt_iff_lt,
      if_pos excess]
  transferred host call result after working admitted performed := by
    cases call with
    | send data =>
      have within : data.length ≤ maxMessageSize := Nat.le_of_not_lt fun excess =>
        admitted ⟨data, rfl, excess⟩
      cases performed
      rcases send_transferred native working within with complete | ⟨failed, stored⟩
      · exact .inl complete
      · exact .inr ⟨failed, congrArg _ stored⟩
    | receive =>
      obtain ⟨⟨outcome, moved⟩, received, same⟩ := Option.map_eq_some_iff.mp performed
      cases same
      rcases receive_transferred working received with complete | ⟨failed, stored⟩
      · exact .inl complete
      · exact .inr ⟨failed, congrArg _ stored⟩

end HostTransport

/-- Both transports, over every sequence of calls and whatever is beneath them does. -/
theorem transport_failures_sticky :
    (∀ (σ : Type) (m5 : M5Ops σ),
      Sticky (GuestTransport.perform m5) GuestCall.call GuestTransport.Rejected
        fun guest call after =>
          GuestTransport.Complete m5 guest.ops guest.world call.call after.world) ∧
    ∀ native, Sticky (HostTransport.perform native) id HostTransport.Rejected
      (HostTransport.Complete native) :=
  ⟨fun _ m5 => (GuestTransport.law m5).sticky, fun native => (HostTransport.law native).sticky⟩

end Chimaera.Transport
