import Chimaera.Base.Stream
import Chimaera.Transport.Framing

/-! `GuestTransport` over the m5 operations, and the operations themselves as gem5
implements them: `chimaeraSend` and `chimaeraRecv` open one connection each. -/

namespace Chimaera.Transport
open Base.BigEndian Base.Unsigned Base.Stream

inductive GuestM5Ops where
  | address
  | instruction
  deriving DecidableEq, Repr

/-- The m5 operations over a world `σ`. Each returns the number of bytes it reports, and
`none` where it does not return to the guest. `recv` also returns the buffer. -/
structure M5Ops (σ : Type) where
  send : GuestM5Ops → σ → List Byte → Option (Nat × σ)
  recv : GuestM5Ops → σ → Nat → Option (Nat × List Byte × σ)

/-- `mapped` is whether libm5's address memory is mapped. -/
structure GuestTransport (σ : Type) where
  ops : GuestM5Ops
  mapped : Bool
  failure : SendResult
  allocations : List Bool
  world : σ

namespace GuestTransport

variable {σ : Type}

def fail (guest : GuestTransport σ) (error : TransportError) (message : String) :
    GuestTransport σ :=
  { guest with failure := ⟨error, message⟩ }

def unmapped (guest : GuestTransport σ) : Bool := guest.ops == .address && !guest.mapped

/-- The header and then, unless it is empty, the payload; `false` where an operation
reports another count than the length it was given. -/
def sendOps (m5 : M5Ops σ) (ops : GuestM5Ops) (world : σ) (data : List Byte) :
    Option (Bool × σ) := do
  let header := encodeHeader data.length
  let (count, world) ← m5.send ops world header
  if count ≠ header.length then some (false, world)
  else if data = [] then some (true, world)
  else
    let (count, world) ← m5.send ops world data
    some (count = data.length, world)

def send (m5 : M5Ops σ) (guest : GuestTransport σ) (data : List Byte) :
    Option (SendResult × GuestTransport σ) :=
  if !guest.failure.ok then some (guest.failure, guest)
  else if data.length > maxMessageSize then
    some (⟨.invalidArgument, "message exceeds 64 MiB limit"⟩, guest)
  else if guest.unmapped then
    some (⟨.invalidArgument, "libm5 address memory is not mapped"⟩, guest)
  else do
    let (complete, world) ← sendOps m5 guest.ops guest.world data
    let guest := { guest with world := world }
    let guest := if complete then guest else guest.fail .ioError "incomplete gem5 send"
    some (guest.failure, guest)

def allocate (guest : GuestTransport σ) : Bool × GuestTransport σ :=
  (guest.allocations.headD true, { guest with allocations := guest.allocations.tail })

/-- The payload of an accepted header; an empty vector allocates nothing. -/
def receivePayload (m5 : M5Ops σ) (guest : GuestTransport σ) (size : Nat) :
    Option (ReceiveResult × GuestTransport σ) :=
  if size = 0 then some (.delivered [], guest)
  else
    match guest.allocate with
    | (false, guest) =>
        let guest := guest.fail .ioError "cannot allocate receive buffer"
        some (guest.failure.received, guest)
    | (true, guest) => do
        let (count, data, world) ← m5.recv guest.ops guest.world size
        let guest := { guest with world := world }
        if count = size then some (.delivered data, guest)
        else
          let guest := guest.fail .ioError "incomplete gem5 receive payload"
          some (guest.failure.received, guest)

def receive (m5 : M5Ops σ) (guest : GuestTransport σ) :
    Option (ReceiveResult × GuestTransport σ) :=
  if !guest.failure.ok then some (guest.failure.received, guest)
  else if guest.unmapped then
    some (⟨[], .invalidArgument, "libm5 address memory is not mapped"⟩, guest)
  else do
    let (count, header, world) ← m5.recv guest.ops guest.world headerSize
    let guest := { guest with world := world }
    if count ≠ headerSize then
      let guest := guest.fail .ioError "incomplete gem5 receive header"
      some (guest.failure.received, guest)
    else
      let size := decodeHeader header
      if size > maxMessageSize then
        let guest := guest.fail .invalidArgument "peer message exceeds 64 MiB limit"
        some (guest.failure.received, guest)
      else guest.receivePayload m5 size

end GuestTransport

/-! ## The operations in gem5 -/

/-- An answer of `write` or `read` in gem5; only an interrupted `read` is repeated, any
other error panics. -/
inductive Answer where
  | failed
  | interrupted
  | zero
  | moved (extra : Nat)
  deriving DecidableEq, Repr

/-- The scripts of the kernel and the connections: `sent` are those closed by
`chimaeraSend` with what they carried, `arriving` what the host puts into those
`chimaeraRecv` opens, `unread` what it left in them. `lengths` records every operation. -/
structure Gem5 where
  writes : List Answer
  reads : List Answer
  sent : List (List Byte)
  arriving : List (List Byte)
  unread : List (List Byte)
  lengths : List Nat
  deriving DecidableEq, Repr

namespace Gem5

/-- One turn of `write_exact`: a count of zero moves nothing and is tried again. -/
def writeLoop (limit : Nat) : List Answer → Option Nat × List Answer
  | [] => (some (limit - 1), [])
  | .zero :: answers => writeLoop limit answers
  | .moved extra :: answers => (some (min extra (limit - 1)), answers)
  | .failed :: answers => (none, answers)
  | .interrupted :: answers => (none, answers)

/-- One turn of `read_exact`: a count of zero is the end of the stream and panics. -/
def readLoop (limit : Nat) : List Answer → Option Nat × List Answer
  | [] => (if limit = 0 then none else some (limit - 1), [])
  | .interrupted :: answers => readLoop limit answers
  | .moved extra :: answers => (if limit = 0 then none else some (min extra (limit - 1)), answers)
  | .failed :: answers => (none, answers)
  | .zero :: answers => (none, answers)

def writeTurn (world : Gem5) (limit : Nat) : Option Nat × Gem5 :=
  let (count, answers) := writeLoop limit world.writes
  (count, { world with writes := answers })

def readTurn (world : Gem5) (limit : Nat) : Option Nat × Gem5 :=
  let (count, answers) := readLoop limit world.reads
  (count, { world with reads := answers })

def writeExact (world : Gem5) (buffer : List Byte) : Option (List Byte × Gem5) :=
  match transfer writeTurn world buffer buffer.length with
  | (none, _) => none
  | (some (written, _), world) => some (written, world)

def readExact (world : Gem5) (connection : List Byte) (length : Nat) :
    Option (List Byte × List Byte × Gem5) :=
  match transfer readTurn world connection length with
  | (none, _) => none
  | (some (data, left), world) => some (data, left, world)

def chimaeraSend (native : Endian) (world : Gem5) (buffer : List Byte) : Option (Nat × Gem5) := do
  let (size, world) ← world.writeExact (native.bytes buffer.length)
  let (data, world) ← world.writeExact buffer
  some (buffer.length, { world with
    sent := world.sent ++ [size ++ data], lengths := world.lengths ++ [buffer.length] })

def chimaeraRecv (world : Gem5) (length : Nat) : Option (Nat × List Byte × Gem5) :=
  match world.arriving with
  | [] => none
  | connection :: arriving => do
      let (data, left, world) ← { world with arriving := arriving }.readExact connection length
      some (length, data, { world with
        unread := world.unread ++ [left], lengths := world.lengths ++ [length] })

/-- Both kinds of operation reach the same pseudo instructions. -/
def m5Ops (native : Endian) : M5Ops Gem5 where
  send _ world buffer := world.chimaeraSend native buffer
  recv _ world length := world.chimaeraRecv length

/-! ## Error-free environments -/

structure Quiet (world : Gem5) : Prop where
  writes : ∀ answer ∈ world.writes, answer = .zero ∨ ∃ extra, answer = .moved extra
  reads : ∀ answer ∈ world.reads, answer = .interrupted ∨ ∃ extra, answer = .moved extra

structure SameConnections (world after : Gem5) : Prop where
  sent : after.sent = world.sent
  arriving : after.arriving = world.arriving
  unread : after.unread = world.unread
  lengths : after.lengths = world.lengths

theorem SameConnections.refl (world : Gem5) : SameConnections world world :=
  ⟨rfl, rfl, rfl, rfl⟩

theorem SameConnections.trans {first second third : Gem5} (left : SameConnections first second)
    (right : SameConnections second third) : SameConnections first third :=
  ⟨right.sent.trans left.sent, right.arriving.trans left.arriving,
    right.unread.trans left.unread, right.lengths.trans left.lengths⟩

theorem writeLoop_quiet {limit : Nat} (positive : 0 < limit) (answers : List Answer)
    (quiet : ∀ answer ∈ answers, answer = .zero ∨ ∃ extra, answer = .moved extra) :
    ∃ extra left, writeLoop limit answers = (some extra, left) ∧ extra < limit ∧
      left ⊆ answers := by
  induction answers with
  | nil => exact ⟨limit - 1, [], rfl, by omega, List.Subset.refl _⟩
  | cons answer answers ih =>
    rcases quiet answer List.mem_cons_self with rfl | ⟨extra, rfl⟩
    · obtain ⟨extra, left, looped, within, subset⟩ := ih fun later member =>
        quiet later (List.mem_cons_of_mem _ member)
      exact ⟨extra, left, looped, within, List.subset_cons_of_subset _ subset⟩
    · exact ⟨min extra (limit - 1), answers, rfl, by omega, List.subset_cons_self _ _⟩

theorem readLoop_quiet {limit : Nat} (positive : 0 < limit) (answers : List Answer)
    (quiet : ∀ answer ∈ answers, answer = .interrupted ∨ ∃ extra, answer = .moved extra) :
    ∃ extra left, readLoop limit answers = (some extra, left) ∧ extra < limit ∧
      left ⊆ answers := by
  have nonzero : limit ≠ 0 := by omega
  induction answers with
  | nil => exact ⟨limit - 1, [], by rw [readLoop, if_neg nonzero], by omega, List.Subset.refl _⟩
  | cons answer answers ih =>
    rcases quiet answer List.mem_cons_self with rfl | ⟨extra, rfl⟩
    · obtain ⟨extra, left, looped, within, subset⟩ := ih fun later member =>
        quiet later (List.mem_cons_of_mem _ member)
      exact ⟨extra, left, looped, within, List.subset_cons_of_subset _ subset⟩
    · exact ⟨min extra (limit - 1), answers, by rw [readLoop, if_neg nonzero], by omega,
        List.subset_cons_self _ _⟩

theorem writeTurn_progress (start : Gem5) :
    Progress writeTurn fun world => Quiet world ∧ SameConnections start world := by
  intro world limit good positive
  obtain ⟨extra, left, looped, within, subset⟩ := writeLoop_quiet positive _ good.1.writes
  refine ⟨extra, { world with writes := left }, by simp only [writeTurn, looped], within,
    ⟨fun answer member => good.1.writes answer (subset member), good.1.reads⟩, ?_⟩
  exact ⟨good.2.sent, good.2.arriving, good.2.unread, good.2.lengths⟩

theorem readTurn_progress (start : Gem5) :
    Progress readTurn fun world => Quiet world ∧ SameConnections start world := by
  intro world limit good positive
  obtain ⟨extra, left, looped, within, subset⟩ := readLoop_quiet positive _ good.1.reads
  refine ⟨extra, { world with reads := left }, by simp only [readTurn, looped], within,
    ⟨good.1.writes, fun answer member => good.1.reads answer (subset member)⟩, ?_⟩
  exact ⟨good.2.sent, good.2.arriving, good.2.unread, good.2.lengths⟩

theorem writeExact_quiet {world : Gem5} (quiet : Quiet world) (buffer : List Byte) :
    ∃ after, world.writeExact buffer = some (buffer, after) ∧ Quiet after ∧
      SameConnections world after := by
  obtain ⟨after, moved, calm, same⟩ := transfer_exact (writeTurn_progress world) world buffer
    buffer.length ⟨quiet, .refl world⟩ le_rfl
  rw [List.take_length] at moved
  exact ⟨after, by simp only [writeExact, moved], calm, same⟩

theorem readExact_quiet {world : Gem5} (quiet : Quiet world) (data : List Byte) :
    ∃ after, world.readExact data data.length = some (data, [], after) ∧ Quiet after ∧
      SameConnections world after := by
  obtain ⟨after, moved, calm, same⟩ := transfer_exact (readTurn_progress world) world data
    data.length ⟨quiet, .refl world⟩ le_rfl
  rw [List.take_length, List.drop_length] at moved
  exact ⟨after, by simp only [readExact, moved], calm, same⟩

theorem chimaeraSend_quiet (native : Endian) {world : Gem5} (quiet : Quiet world)
    (buffer : List Byte) :
    ∃ after, world.chimaeraSend native buffer = some (buffer.length, after) ∧ Quiet after ∧
      SameConnections { world with
        sent := world.sent ++ [envelope native buffer]
        lengths := world.lengths ++ [buffer.length] } after := by
  obtain ⟨sized, size, calm, same⟩ := writeExact_quiet quiet (native.bytes buffer.length)
  obtain ⟨after, data, calmer, kept⟩ := writeExact_quiet calm buffer
  have both := same.trans kept
  refine ⟨{ after with
      sent := after.sent ++ [envelope native buffer]
      lengths := after.lengths ++ [buffer.length] }, ?_, ⟨calmer.writes, calmer.reads⟩,
    by simp only [both.sent], both.arriving, both.unread, by simp only [both.lengths]⟩
  simp only [chimaeraSend, size, data, Option.bind_eq_bind, Option.bind_some, envelope]

theorem chimaeraRecv_quiet {world : Gem5} (quiet : Quiet world) {packet : List Byte}
    {rest : List (List Byte)} (waiting : world.arriving = packet :: rest) :
    ∃ after, world.chimaeraRecv packet.length = some (packet.length, packet, after) ∧
      Quiet after ∧
      SameConnections { world with
        arriving := rest
        unread := world.unread ++ [[]]
        lengths := world.lengths ++ [packet.length] } after := by
  have opened : Quiet { world with arriving := rest } := ⟨quiet.writes, quiet.reads⟩
  obtain ⟨after, data, calm, same⟩ := readExact_quiet opened packet
  refine ⟨{ after with
      unread := after.unread ++ [[]]
      lengths := after.lengths ++ [packet.length] }, ?_, ⟨calm.writes, calm.reads⟩,
    same.sent, same.arriving, by simp only [same.unread], by simp only [same.lengths]⟩
  simp only [chimaeraRecv, waiting, data, Option.bind_eq_bind, Option.bind_some]

end Gem5

namespace GuestTransport

structure Quiet (guest : GuestTransport Gem5) : Prop where
  working : guest.failure = .none
  usable : guest.unmapped = false
  memory : ∀ granted ∈ guest.allocations, granted = true
  world : guest.world.Quiet

theorem sendOps_quiet (native : Endian) (ops : GuestM5Ops) {world : Gem5} (quiet : world.Quiet)
    (data : List Byte) :
    ∃ after, sendOps (Gem5.m5Ops native) ops world data = some (true, after) ∧ after.Quiet ∧
      Gem5.SameConnections { world with
        sent := world.sent ++ (packets data).map (envelope native)
        lengths := world.lengths ++ (packets data).map List.length } after := by
  obtain ⟨next, header, calm, same⟩ :=
    Gem5.chimaeraSend_quiet native quiet (encodeHeader data.length)
  by_cases empty : data = []
  · refine ⟨next, ?_, calm, ?_⟩
    · simp only [sendOps, Gem5.m5Ops, header, Option.bind_eq_bind, Option.bind_some, ne_eq,
        not_true_eq_false, if_false, if_pos empty]
    · simpa only [packets, if_pos empty, List.map_cons, List.map_nil] using same
  · obtain ⟨after, payload, calmer, kept⟩ := Gem5.chimaeraSend_quiet native calm data
    refine ⟨after, ?_, calmer, ?_⟩
    · simp only [sendOps, Gem5.m5Ops, header, Option.bind_eq_bind, Option.bind_some, ne_eq,
        not_true_eq_false, if_false, if_neg empty, payload, decide_true]
    · refine ⟨?_, kept.arriving.trans same.arriving, kept.unread.trans same.unread, ?_⟩
      · rw [kept.sent, same.sent, packets, if_neg empty]
        simp
      · rw [kept.lengths, same.lengths, packets, if_neg empty]
        simp

theorem send_quiet (native : Endian) {guest : GuestTransport Gem5} (quiet : Quiet guest)
    {data : List Byte} (within : data.length ≤ maxMessageSize) :
    ∃ after, guest.send (Gem5.m5Ops native) data = some (.none, after) ∧ Quiet after ∧
      Gem5.SameConnections { guest.world with
        sent := guest.world.sent ++ (packets data).map (envelope native)
        lengths := guest.world.lengths ++ (packets data).map List.length } after.world := by
  obtain ⟨world, sent, calm, same⟩ := sendOps_quiet native guest.ops quiet.world data
  refine ⟨{ guest with world := world }, ?_,
    ⟨quiet.working, quiet.usable, quiet.memory, calm⟩, same⟩
  simp only [send, quiet.working, SendResult.none_ok, Bool.not_true, Bool.false_eq_true, if_false,
    Nat.not_lt.mpr within, quiet.usable, sent, Option.bind_eq_bind, Option.bind_some, if_true]

theorem receivePayload_quiet (native : Endian) {guest : GuestTransport Gem5} (quiet : Quiet guest)
    {data : List Byte} {rest : List (List Byte)} (filled : data ≠ [])
    (waiting : guest.world.arriving = data :: rest) :
    ∃ after, guest.receivePayload (Gem5.m5Ops native) data.length =
        some (.delivered data, after) ∧ Quiet after ∧
      Gem5.SameConnections { guest.world with
        arriving := rest
        unread := guest.world.unread ++ [[]]
        lengths := guest.world.lengths ++ [data.length] } after.world := by
  have granted : guest.allocations.headD true = true := by
    cases known : guest.allocations with
    | nil => rfl
    | cons first later => exact quiet.memory first (by rw [known]; exact List.mem_cons_self)
  have nonzero : data.length ≠ 0 := fun zero => filled (List.length_eq_zero_iff.mp zero)
  obtain ⟨world, received, calm, same⟩ := Gem5.chimaeraRecv_quiet quiet.world waiting
  refine ⟨{ guest with allocations := guest.allocations.tail, world := world }, ?_,
    ⟨quiet.working, quiet.usable,
      fun answer member => quiet.memory answer (List.mem_of_mem_tail member), calm⟩, same⟩
  simp only [receivePayload, if_neg nonzero, allocate, granted, Gem5.m5Ops, received,
    Option.bind_eq_bind, Option.bind_some, if_true]

/-- A receive consumes exactly the packets of one message, one operation for each, and
leaves nothing in their connections. -/
theorem receive_quiet (native : Endian) {guest : GuestTransport Gem5} (quiet : Quiet guest)
    {data : List Byte} {rest : List (List Byte)} (within : data.length ≤ maxMessageSize)
    (waiting : guest.world.arriving = packets data ++ rest) :
    ∃ after, guest.receive (Gem5.m5Ops native) = some (.delivered data, after) ∧ Quiet after ∧
      Gem5.SameConnections { guest.world with
        arriving := rest
        unread := guest.world.unread ++ (packets data).map fun _ => []
        lengths := guest.world.lengths ++ (packets data).map List.length } after.world := by
  have working : guest.failure.ok = true := by rw [quiet.working, SendResult.none_ok]
  obtain ⟨world, header, calm, same⟩ := Gem5.chimaeraRecv_quiet quiet.world waiting
  rw [encodeHeader_length] at header
  let next : GuestTransport Gem5 := { guest with world := world }
  have nextQuiet : Quiet next := ⟨quiet.working, quiet.usable, quiet.memory, calm⟩
  have opened : guest.receive (Gem5.m5Ops native) =
      next.receivePayload (Gem5.m5Ops native) data.length := by
    simp only [receive, working, Bool.not_true, Bool.false_eq_true, if_false, quiet.usable,
      Gem5.m5Ops, header, Option.bind_eq_bind, Option.bind_some, ne_eq, not_true_eq_false,
      decodeHeader_encodeHeader within, gt_iff_lt, Nat.not_lt.mpr within, next]
  rw [opened]
  by_cases empty : data = []
  · subst empty
    exact ⟨next, rfl, nextQuiet, same⟩
  · have payload : next.world.arriving = data :: rest := by
      rw [show next.world = world from rfl, same.arriving, if_neg empty]
      rfl
    obtain ⟨after, received, calmer, kept⟩ :=
      receivePayload_quiet native nextQuiet empty payload
    refine ⟨after, received, calmer, kept.sent.trans same.sent, kept.arriving, ?_, ?_⟩
    · rw [kept.unread, show next.world = world from rfl, same.unread, packets, if_neg empty]
      simp
    · rw [kept.lengths, show next.world = world from rfl, same.lengths, packets, if_neg empty]
      simp

theorem receive_waiting (native : Endian) {guest : GuestTransport Gem5} (quiet : Quiet guest)
    (waiting : guest.world.arriving = []) : guest.receive (Gem5.m5Ops native) = none := by
  simp [receive, quiet.working, quiet.usable, Gem5.m5Ops, Gem5.chimaeraRecv, waiting]

theorem send_oversized (native : Endian) {guest : GuestTransport Gem5} (quiet : Quiet guest)
    {data : List Byte} (excess : maxMessageSize < data.length) :
    guest.send (Gem5.m5Ops native) data =
      some (⟨.invalidArgument, "message exceeds 64 MiB limit"⟩, guest) := by
  simp only [send, quiet.working, SendResult.none_ok, Bool.not_true, Bool.false_eq_true, if_false,
    gt_iff_lt, if_pos excess]

end GuestTransport

end Chimaera.Transport
