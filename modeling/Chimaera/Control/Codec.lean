import Chimaera.Control.Queues

/-! The wire format of `controller_protocol.hpp`. A batch packet is a message count
followed by length-prefixed messages; a startup packet is the protocol identifier,
with a polling duration in the reply. All integers are eight bytes, big-endian.
Durations are counts of nanoseconds. -/

namespace Chimaera.Control
open Base.BigEndian Base.Unsigned

def startupMagic : Nat := 0x4348494d43545232

def put (data : Message) (value : Nat) : Message :=
  [56, 48, 40, 32, 24, 16, 8, 0].foldl
    (fun data shift => data ++ [UInt8.ofNat ((value >>> shift) &&& 255)]) data

def get (data : Message) : Except String (Nat × Message) :=
  if data.length < 8 then .error "truncated controller packet"
  else .ok ((data.take 8).foldl (fun value byte => ((value <<< 8) % modulus) ||| byte.toNat) 0,
    data.drop 8)

def startupRequest : Message := put [] startupMagic

/-- The count enters the packet through its conversion to an unsigned word. -/
def encodeStartup (poll : Int) : Message := put startupRequest (poll % modulus).toNat

def decodeStartup (data : Message) : Except String Int := do
  let (magic, data) ← get data
  if magic ≠ startupMagic then .error "controller protocol mismatch"
  else
    let (poll, data) ← get data
    if !data.isEmpty || poll > hour.toNat then .error "invalid controller startup reply"
    else .ok poll

def encode (mode : Mode) (batch : Batch) : Except String Message := do
  -- The reservation computes the payload and so enforces the limits.
  let _ ← bytes mode batch
  .ok (batch.foldl (fun data message => put data message.length ++ message) (put [] batch.length))

def decodeLoop (mode : Mode) : Nat → Message → Nat → Batch → Except String Batch
  | 0, data, _, batch => if !data.isEmpty then .error "trailing controller data" else .ok batch
  | count + 1, data, payloadBytes, batch => do
      let (size, data) ← get data
      if size > data.length then .error "truncated controller message"
      else
        let room ← mode.sub maxBytes payloadBytes
        if size > room then .error "controller batch exceeds 32 MiB"
        else decodeLoop mode count (data.drop size) (payloadBytes + size) (batch ++ [data.take size])

def decode (mode : Mode) (data : Message) : Except String Batch := do
  let (count, data) ← get data
  if count > maxMessages then .error "invalid controller batch size"
  else decodeLoop mode count data 0 []

/-! ## Words -/

theorem put_eq (data : Message) (value : Nat) : put data value = data ++ write 8 value := by
  have byte := ofNat_shift_mask value
  simp only [put, List.foldl_cons, List.foldl_nil, write, List.append_assoc, List.cons_append,
    List.nil_append]
  rw [byte 7, byte 6, byte 5, byte 4, byte 3, byte 2, byte 1, byte 0]

theorem get_eq (data : Message) :
    get data = if data.length < 8 then .error "truncated controller packet"
      else .ok (read (data.take 8), data.drop 8) := by
  rw [get]
  by_cases short : data.length < 8
  · rw [if_pos short, if_pos short]
  · rw [if_neg short, if_neg short, foldl_shift_eq_read _ (by simp)]

theorem get_write (value : Nat) (rest : Message) (bound : value < modulus) :
    get (write 8 value ++ rest) = .ok (value, rest) := by
  have wide : value < 256 ^ 8 := bound
  rw [get_eq, if_neg (by simp), List.take_left' (write_length 8 value),
    List.drop_left' (write_length 8 value), read_write_of_lt wide]

theorem get_eq_ok_iff (data rest : Message) (value : Nat) :
    get data = .ok (value, rest) ↔ value < modulus ∧ data = write 8 value ++ rest := by
  constructor
  · intro accepted
    rw [get_eq] at accepted
    split_ifs at accepted with short
    obtain ⟨rfl, rfl⟩ := Prod.mk.inj (Except.ok.inj accepted)
    have eight : (data.take 8).length = 8 := by rw [List.length_take]; omega
    have bound := read_lt (data.take 8)
    have rebuilt := write_read (data.take 8)
    rw [eight] at bound rebuilt
    exact ⟨bound, by rw [rebuilt, List.take_append_drop]⟩
  · rintro ⟨bound, rfl⟩
    exact get_write value rest bound

theorem get_error (data : Message) (what : String) (failed : get data = .error what) :
    what = "truncated controller packet" := by
  rw [get_eq] at failed
  split_ifs at failed
  exact (Except.error.inj failed).symm

/-! ## Batches -/

def frame (message : Message) : Message := write 8 message.length ++ message

def wire (batch : Batch) : Message := write 8 batch.length ++ batch.flatMap frame

theorem foldl_put_eq (messages : Batch) (data : Message) :
    messages.foldl (fun data message => put data message.length ++ message) data =
      data ++ messages.flatMap frame := by
  induction messages generalizing data with
  | nil => simp
  | cons message rest ih =>
    rw [List.foldl_cons, ih, put_eq, List.flatMap_cons, frame]
    simp only [List.append_assoc]

theorem encode_eq (mode : Mode) (batch : Batch) :
    encode mode batch = (bytes mode batch).map fun _ => wire batch := by
  rw [encode, foldl_put_eq, put_eq, List.nil_append]
  cases bytes mode batch with
  | error what => rfl
  | ok count => rfl

theorem encode_eq_ok_iff (mode : Mode) (batch : Batch) (data : Message) :
    encode mode batch = .ok data ↔ Admissible batch ∧ wire batch = data := by
  rw [encode_eq, bytes_eq, Admissible]
  split_ifs with light few
  · simp [Except.map, light, few]
  · simp [Except.map, few]
  · simp [Except.map, light]

theorem payload_le_length (batch : Batch) : payload batch + 8 * batch.length =
    (batch.flatMap frame).length := by
  induction batch with
  | nil => rfl
  | cons message rest ih =>
    simp only [payload_cons, List.length_cons, List.flatMap_cons, List.length_append, frame,
      write_length, ← ih]
    omega

theorem decodeLoop_frames (mode : Mode) (messages : Batch) (count : Nat) (rest : Message)
    (used : Nat) (batch : Batch) (budget : used + payload messages ≤ maxBytes) :
    decodeLoop mode (messages.length + count) (messages.flatMap frame ++ rest) used batch =
      decodeLoop mode count rest (used + payload messages) (batch ++ messages) := by
  induction messages generalizing used batch with
  | nil => simp
  | cons message tail ih =>
    rw [payload_cons] at budget
    have small : message.length < modulus := lt_of_le_of_lt (by omega) maxBytes_lt
    rw [List.length_cons, Nat.add_right_comm, List.flatMap_cons, frame, List.append_assoc,
      List.append_assoc, decodeLoop, get_write _ _ small, ok_bind]
    simp only [mode.sub_exact (by omega : used ≤ maxBytes) maxBytes_lt, ok_bind]
    rw [if_neg (by simp), if_neg (by omega), List.drop_left, List.take_left,
      ih _ _ (by omega), payload_cons, Nat.add_assoc, List.append_assoc, List.singleton_append]

/-- The loop accepts exactly the framed messages that use up its input and its budget
allows; the accumulated batch is carried through unchanged. -/
theorem decodeLoop_eq_ok_iff (mode : Mode) (count : Nat) (data : Message) (used : Nat)
    (batch result : Batch) (budget : used ≤ maxBytes) :
    decodeLoop mode count data used batch = .ok result ↔
      ∃ tail, result = batch ++ tail ∧ tail.length = count ∧ used + payload tail ≤ maxBytes ∧
        data = tail.flatMap frame := by
  constructor
  · intro accepted
    induction count generalizing data used batch with
    | zero =>
      rw [decodeLoop] at accepted
      split_ifs at accepted with trailing
      have empty : data = [] := by simpa using trailing
      exact ⟨[], by simpa using (Except.ok.inj accepted).symm, rfl, budget, empty⟩
    | succ count ih =>
      rw [decodeLoop, bind_eq_ok] at accepted
      obtain ⟨⟨size, rest⟩, word, accepted⟩ := accepted
      obtain ⟨-, rfl⟩ := (get_eq_ok_iff data rest size).mp word
      simp only [mode.sub_exact budget maxBytes_lt, ok_bind] at accepted
      split_ifs at accepted with long heavy
      obtain ⟨tail, rfl, length, light, same⟩ := ih _ _ _ (by omega) accepted
      have sized : (rest.take size).length = size := by rw [List.length_take]; omega
      refine ⟨rest.take size :: tail, by simp, by simp [length], ?_, ?_⟩
      · rw [payload_cons, sized]; omega
      · rw [List.flatMap_cons, frame, sized, ← same, List.append_assoc, List.take_append_drop]
  · rintro ⟨tail, rfl, rfl, light, rfl⟩
    have consumed := decodeLoop_frames mode tail 0 [] used batch light
    rw [Nat.add_zero, List.append_nil] at consumed
    rw [consumed]
    rfl

/-- Acceptance does not depend on how wrapping is read: the budget stays in range. -/
theorem decodeLoop_mode (mode other : Mode) (count : Nat) (data : Message) (used : Nat)
    (batch : Batch) (budget : used ≤ maxBytes) :
    decodeLoop mode count data used batch = decodeLoop other count data used batch := by
  induction count generalizing data used batch with
  | zero => rfl
  | succ count ih =>
    rw [decodeLoop, decodeLoop]
    congr 1
    funext word
    simp only [mode.sub_exact budget maxBytes_lt, other.sub_exact budget maxBytes_lt, ok_bind]
    split_ifs with long heavy
    · rfl
    · rfl
    · exact ih _ _ _ (by omega)

theorem decode_eq_ok_iff (mode : Mode) (data : Message) (batch : Batch) :
    decode mode data = .ok batch ↔ Admissible batch ∧ wire batch = data := by
  constructor
  · intro accepted
    rw [decode, bind_eq_ok] at accepted
    obtain ⟨⟨count, rest⟩, word, accepted⟩ := accepted
    obtain ⟨-, rfl⟩ := (get_eq_ok_iff data rest count).mp word
    simp only at accepted
    split_ifs at accepted with many
    obtain ⟨tail, rfl, rfl, light, rfl⟩ :=
      (decodeLoop_eq_ok_iff mode _ _ 0 [] batch (Nat.zero_le _)).mp accepted
    rw [Nat.zero_add] at light
    exact ⟨⟨Nat.le_of_not_gt many, light⟩, rfl⟩
  · rintro ⟨⟨few, light⟩, rfl⟩
    rw [decode, wire, get_write _ _ (lt_of_le_of_lt few maxMessages_lt)]
    simp only [ok_bind]
    rw [if_neg (Nat.not_lt_of_ge few)]
    exact (decodeLoop_eq_ok_iff mode _ _ 0 [] batch (Nat.zero_le _)).mpr
      ⟨batch, rfl, rfl, by rwa [Nat.zero_add], rfl⟩

theorem decode_wire (mode : Mode) {batch : Batch} (admissible : Admissible batch) :
    decode mode (wire batch) = .ok batch := (decode_eq_ok_iff mode _ _).mpr ⟨admissible, rfl⟩

theorem encode_admissible (mode : Mode) {batch : Batch} (admissible : Admissible batch) :
    encode mode batch = .ok (wire batch) := (encode_eq_ok_iff mode _ _).mpr ⟨admissible, rfl⟩

theorem decode_mode (mode other : Mode)
    (data : Message) : decode mode data = decode other data := by
  rw [decode, decode]
  congr 1
  funext word
  simp only
  split_ifs with many
  · rfl
  · exact decodeLoop_mode mode other _ _ 0 [] (Nat.zero_le _)

theorem encode_mode (mode other : Mode)
    (batch : Batch) : encode mode batch = encode other batch := by
  rw [encode_eq, encode_eq, bytes_eq, bytes_eq]

private theorem frames_append_eq (first second : Batch) (extra : Message)
    (lengths : first.length = second.length) (light : payload first ≤ maxBytes)
    (other : payload second ≤ maxBytes)
    (same : first.flatMap frame ++ extra = second.flatMap frame) : extra = [] := by
  induction first generalizing second with
  | nil =>
    cases second with
    | nil => simpa using same
    | cons message rest => cases lengths
  | cons message rest ih =>
    cases second with
    | nil => cases lengths
    | cons message' rest' =>
      rw [payload_cons] at light other
      simp only [List.flatMap_cons, frame, List.append_assoc] at same
      have heads := List.append_inj_left same (by simp)
      have sizes : message.length = message'.length := by
        apply write_injective (lt_of_le_of_lt _ maxBytes_lt) (lt_of_le_of_lt _ maxBytes_lt) heads
        · omega
        · omega
      have bodies := List.append_inj_right same (by simp)
      have tails := List.append_inj_right bodies sizes
      exact ih rest' (by simpa using lengths) (by omega) (by omega) tails

theorem wire_append_eq {first second : Batch} (admissible : Admissible first)
    (other : Admissible second) {extra : Message} (same : wire first ++ extra = wire second) :
    extra = [] := by
  rw [wire, wire, List.append_assoc] at same
  have heads := List.append_inj_left same (by simp)
  have counts : first.length = second.length :=
    write_injective (lt_of_le_of_lt admissible.1 maxMessages_lt)
      (lt_of_le_of_lt other.1 maxMessages_lt) heads
  exact frames_append_eq first second extra counts admissible.2 other.2
    (List.append_inj_right same (by simp))

private theorem error_of_not_ok {α : Type} {result : Except String α}
    (rejected : ∀ value, result ≠ .ok value) : ∃ what, result = .error what := by
  cases result with
  | error what => exact ⟨what, rfl⟩
  | ok value => exact (rejected value rfl).elim

variable {data : Message} {what : String}

theorem decode_extension {mode : Mode} {batch : Batch}
    (accepted : decode mode data = .ok batch) {extra : Message} (more : extra ≠ []) :
    ∃ what, decode mode (data ++ extra) = .error what := by
  obtain ⟨admissible, rfl⟩ := (decode_eq_ok_iff mode data batch).mp accepted
  apply error_of_not_ok
  intro other longer
  obtain ⟨otherAdmissible, same⟩ := (decode_eq_ok_iff mode _ other).mp longer
  exact more (wire_append_eq admissible otherAdmissible same.symm)

theorem decode_truncation {mode : Mode} {batch : Batch}
    (accepted : decode mode data = .ok batch) {kept : Message} (shorter : kept <+: data)
    (proper : kept ≠ data) : ∃ what, decode mode kept = .error what := by
  obtain ⟨extra, rfl⟩ := shorter
  apply error_of_not_ok
  intro other short
  have more : extra ≠ [] := fun empty => proper (by rw [empty, List.append_nil])
  obtain ⟨what, failed⟩ := decode_extension short more
  rw [failed] at accepted
  cases accepted

theorem decode_excessive_count (mode : Mode) (count : Nat) (rest : Message)
    (many : maxMessages < count) (word : count < modulus) :
    decode mode (put [] count ++ rest) = .error "invalid controller batch size" := by
  rw [put_eq, List.nil_append, decode, get_write count rest word, ok_bind]
  simp only [if_pos many]

def packetUpTo (count : Nat) (messages : Batch) (size : Nat) : Message :=
  put (messages.foldl (fun data message => put data message.length ++ message) (put [] count)) size

/-- A length field that points past the input or past the budget is refused, whatever
its value. -/
theorem decode_length_field (mode : Mode) (count : Nat) (messages : Batch) (size : Nat)
    (rest : Message) (pending : messages.length < count) (counted : count < modulus)
    (light : payload messages ≤ maxBytes) (word : size < modulus)
    (excess : rest.length < size ∨ maxBytes < payload messages + size) :
    ∃ what, decode mode (packetUpTo count messages size ++ rest) = .error what := by
  obtain ⟨left, rfl⟩ : ∃ left, count = messages.length + (left + 1) :=
    ⟨count - messages.length - 1, by omega⟩
  rw [packetUpTo, foldl_put_eq, put_eq, put_eq, List.nil_append, List.append_assoc,
    List.append_assoc, decode, get_write _ _ counted, ok_bind]
  simp only
  split_ifs with many
  · exact ⟨_, rfl⟩
  · rw [decodeLoop_frames mode messages _ _ 0 [] (by omega), decodeLoop, get_write _ _ word, ok_bind]
    simp only [Nat.zero_add, mode.sub_exact light maxBytes_lt, ok_bind]
    split_ifs with long heavy
    · exact ⟨_, rfl⟩
    · exact ⟨_, rfl⟩
    · omega

/-- The batch codec is exact: a packet decodes to a batch precisely when it is the
encoding of that batch and the batch keeps both limits. Every way of spoiling a packet
is refused, and no unsigned subtraction wraps on any input. -/
theorem batch_codec_exact :
    (∀ data batch, decode .machine data = .ok batch ↔
      batch.length ≤ maxMessages ∧ payload batch ≤ maxBytes ∧ encode .machine batch = .ok data) ∧
    (∀ batch : Batch, batch.length ≤ maxMessages → payload batch ≤ maxBytes →
      ∃ data, encode .machine batch = .ok data ∧ decode .machine data = .ok batch) ∧
    (∀ data batch kept, decode .machine data = .ok batch → kept <+: data → kept ≠ data →
      ∃ what, decode .machine kept = .error what) ∧
    (∀ data batch extra, decode .machine data = .ok batch → extra ≠ [] →
      ∃ what, decode .machine (data ++ extra) = .error what) ∧
    (∀ count rest, maxMessages < count → count < modulus →
      ∃ what, decode .machine (put [] count ++ rest) = .error what) ∧
    (∀ count messages size rest, messages.length < count → count < modulus →
      payload messages ≤ maxBytes → size < modulus →
      rest.length < size ∨ maxBytes < payload messages + size →
      ∃ what, decode .machine (packetUpTo count messages size ++ rest) = .error what) ∧
    (∀ data, decode .trapping data = decode .machine data) ∧
    (∀ batch, encode .trapping batch = encode .machine batch) := by
  refine ⟨?_, ?_, ?_, ?_, ?_, ?_, decode_mode _ _, encode_mode _ _⟩
  · intro data batch
    rw [decode_eq_ok_iff, encode_eq_ok_iff, Admissible]
    constructor
    · rintro ⟨admissible, same⟩
      exact ⟨admissible.1, admissible.2, admissible, same⟩
    · rintro ⟨-, -, admissible, same⟩
      exact ⟨admissible, same⟩
  · intro batch few light
    exact ⟨wire batch, encode_admissible _ ⟨few, light⟩, decode_wire _ ⟨few, light⟩⟩
  · intro data batch kept accepted shorter proper
    exact decode_truncation accepted shorter proper
  · intro data batch extra accepted more
    exact decode_extension accepted more
  · intro count rest many word
    exact ⟨_, decode_excessive_count _ count rest many word⟩
  · intro count messages size rest pending counted light word excess
    exact decode_length_field _ count messages size rest pending counted light word excess

/-! ## Startup -/

theorem startupMagic_lt : startupMagic < modulus := by decide

theorem startupRequest_eq : startupRequest = write 8 startupMagic := by
  rw [startupRequest, put_eq, List.nil_append]

theorem encodeStartup_eq (poll : Int) :
    encodeStartup poll = write 8 startupMagic ++ write 8 (poll % modulus).toNat := by
  rw [encodeStartup, put_eq, startupRequest_eq]

theorem decodeStartup_eq_ok_iff (data : Message) (poll : Int) :
    decodeStartup data = .ok poll ↔ 0 ≤ poll ∧ poll ≤ hour ∧ data = encodeStartup poll := by
  constructor
  · intro accepted
    rw [decodeStartup, bind_eq_ok] at accepted
    obtain ⟨⟨magic, rest⟩, word, accepted⟩ := accepted
    obtain ⟨-, rfl⟩ := (get_eq_ok_iff data rest magic).mp word
    simp only at accepted
    split_ifs at accepted with other
    rw [bind_eq_ok] at accepted
    obtain ⟨⟨value, trailing⟩, word', accepted⟩ := accepted
    obtain ⟨bound, rfl⟩ := (get_eq_ok_iff rest trailing value).mp word'
    simp only at accepted
    split_ifs at accepted with refused
    have kept : trailing = [] ∧ value ≤ hour.toNat := by simpa using refused
    obtain ⟨rfl, short⟩ := kept
    cases accepted
    have residue : ((value : Int) % (modulus : Int)).toNat = value := by
      rw [Int.emod_eq_of_lt (by omega) (by exact_mod_cast bound)]
      rfl
    have positive : (0 : Int) ≤ hour := by decide
    refine ⟨by omega, by omega, ?_⟩
    rw [encodeStartup_eq, residue, List.append_nil, not_not.mp other]
  · rintro ⟨low, high, rfl⟩
    have top : hour < (modulus : Int) := by decide
    have residue : (poll % (modulus : Int)).toNat = poll.toNat := by
      rw [Int.emod_eq_of_lt low (by omega)]
    have bound : poll.toNat < modulus := by omega
    have last := get_write poll.toNat [] bound
    rw [List.append_nil] at last
    rw [encodeStartup_eq, residue, decodeStartup, get_write _ _ startupMagic_lt, ok_bind]
    simp only [ne_eq, not_true_eq_false, if_false, last, ok_bind]
    have short : ¬(poll.toNat > hour.toNat) := by omega
    simp [short, Int.toNat_of_nonneg low]

theorem decodeStartup_encodeStartup {poll : Int} (low : 0 ≤ poll) (high : poll ≤ hour) :
    decodeStartup (encodeStartup poll) = .ok poll :=
  (decodeStartup_eq_ok_iff _ _).mpr ⟨low, high, rfl⟩

theorem length_encodeStartup (poll : Int) : (encodeStartup poll).length = 16 := by
  rw [encodeStartup_eq, List.length_append, write_length, write_length]

theorem encodeStartup_injective {first second : Int} (low : -(2 ^ 63) ≤ first)
    (high : first < 2 ^ 63) (otherLow : -(2 ^ 63) ≤ second) (otherHigh : second < 2 ^ 63)
    (same : encodeStartup first = encodeStartup second) : first = second := by
  have positive : (0 : Int) < modulus := by decide
  have size : (modulus : Int) = 2 ^ 64 := by decide
  have word : ∀ value : Int, (value % modulus).toNat < 256 ^ 8 := by
    intro value
    have below := Int.emod_lt_of_pos value positive
    have width : (256 : Nat) ^ 8 = modulus := by decide
    omega
  rw [encodeStartup_eq, encodeStartup_eq] at same
  have words := write_injective (word first) (word second) (List.append_cancel_left same)
  rw [size] at words
  omega

theorem decodeStartup_refused {poll : Int} (low : -(2 ^ 63) ≤ poll) (high : poll < 2 ^ 63)
    (outside : ¬(0 ≤ poll ∧ poll ≤ hour)) :
    ∃ what, decodeStartup (encodeStartup poll) = .error what := by
  apply error_of_not_ok
  intro value accepted
  obtain ⟨positive, short, same⟩ := (decodeStartup_eq_ok_iff _ _).mp accepted
  have top : hour < 2 ^ 63 := by decide
  apply outside
  rw [encodeStartup_injective low high (by omega) (by omega) same]
  exact ⟨positive, short⟩

/-- The identifier reads as an impossible message count, so the batch decoder refuses
every startup packet. -/
theorem decode_startup_error (mode : Mode) (rest : Message) :
    decode mode (startupRequest ++ rest) = .error "invalid controller batch size" := by
  have many : maxMessages < startupMagic := by decide
  have refused := decode_excessive_count mode startupMagic rest many startupMagic_lt
  rwa [put_eq, List.nil_append, ← startupRequest_eq] at refused

/-- The startup reply is exact over all durations of 64 bits and all byte strings, and no
packet of the startup phase passes for a batch. -/
theorem startup_codec_exact :
    (∀ poll : Int, -(2 ^ 63) ≤ poll → poll < 2 ^ 63 →
      (0 ≤ poll ∧ poll ≤ hour → decodeStartup (encodeStartup poll) = .ok poll) ∧
      (¬(0 ≤ poll ∧ poll ≤ hour) → ∃ what, decodeStartup (encodeStartup poll) = .error what)) ∧
    (∀ data, (∃ poll, decodeStartup data = .ok poll) ↔
      data.length = 16 ∧ ∃ poll, 0 ≤ poll ∧ poll ≤ hour ∧ data = encodeStartup poll) ∧
    (∀ data poll batch, decodeStartup data = .ok poll → decode .machine data ≠ .ok batch) ∧
    (∀ batch, decode .machine startupRequest ≠ .ok batch ∧
      ∀ poll, decode .machine (encodeStartup poll) ≠ .ok batch) ∧
    ∀ batch, Admissible batch → encode .machine batch ≠ .ok startupRequest ∧
      ∀ poll, encode .machine batch ≠ .ok (encodeStartup poll) := by
  have request : ∀ batch, decode .machine startupRequest ≠ .ok batch := by
    intro batch accepted
    have refused := decode_startup_error .machine []
    rw [List.append_nil, accepted] at refused
    cases refused
  have reply : ∀ poll batch, decode .machine (encodeStartup poll) ≠ .ok batch := by
    intro poll batch accepted
    rw [encodeStartup_eq, ← startupRequest_eq, decode_startup_error] at accepted
    cases accepted
  have decoded : ∀ batch data, encode .machine batch = .ok data → decode .machine data = .ok batch := by
    intro batch data encoded
    exact (decode_eq_ok_iff _ _ _).mpr ((encode_eq_ok_iff _ _ _).mp encoded)
  refine ⟨?_, ?_, ?_, ?_, ?_⟩
  · intro poll low high
    exact ⟨fun within => decodeStartup_encodeStartup within.1 within.2,
      fun outside => decodeStartup_refused low high outside⟩
  · intro data
    simp only [decodeStartup_eq_ok_iff]
    constructor
    · rintro ⟨poll, low, high, rfl⟩
      exact ⟨length_encodeStartup poll, poll, low, high, rfl⟩
    · rintro ⟨-, found⟩
      exact found
  · intro data poll batch accepted
    obtain ⟨-, -, rfl⟩ := (decodeStartup_eq_ok_iff _ _).mp accepted
    exact reply poll batch
  · intro batch
    exact ⟨request batch, fun poll => reply poll batch⟩
  · intro batch _
    exact ⟨fun encoded => request batch (decoded _ _ encoded),
      fun poll encoded => reply poll batch (decoded _ _ encoded)⟩

/-! ## Error texts -/

theorem encode_error_named {batch : Batch} (mode : Mode)
    (failed : encode mode batch = .error what) : what ≠ "" := by
  rw [encode_eq, bytes_eq] at failed
  split_ifs at failed <;> cases failed <;> decide

theorem get_bind_error_named {α : Type} {next : Nat × Message → Except String α}
    (failed : (get data >>= next) = .error what)
    (later : ∀ found, next found = .error what → what ≠ "") : what ≠ "" := by
  cases word : get data with
  | error truncated =>
    rw [word, error_bind] at failed
    rw [← Except.error.inj failed, get_error data truncated word]
    decide
  | ok found =>
    rw [word, ok_bind] at failed
    exact later found failed

theorem decodeLoop_error_named {count : Nat} {used : Nat} {batch : Batch} (mode : Mode)
    (budget : used ≤ maxBytes)
    (failed : decodeLoop mode count data used batch = .error what) : what ≠ "" := by
  induction count generalizing data used batch with
  | zero =>
    rw [decodeLoop] at failed
    split_ifs at failed
    cases failed
    decide
  | succ count ih =>
    refine get_bind_error_named failed fun found failed => ?_
    simp only [ok_bind, mode.sub_exact budget maxBytes_lt] at failed
    split_ifs at failed with long heavy
    · cases failed
      decide
    · cases failed
      decide
    · exact ih (by omega) failed

theorem decode_error_named (mode : Mode) (failed : decode mode data = .error what) : what ≠ "" := by
  refine get_bind_error_named failed fun found failed => ?_
  dsimp only at failed
  split_ifs at failed with many
  · cases failed
    decide
  · exact decodeLoop_error_named mode (Nat.zero_le _) failed

theorem decodeStartup_error_named (failed : decodeStartup data = .error what) : what ≠ "" := by
  refine get_bind_error_named failed fun found failed => ?_
  dsimp only at failed
  split_ifs at failed with other
  · cases failed
    decide
  · refine get_bind_error_named failed fun last failed => ?_
    split_ifs at failed
    cases failed
    decide

end Chimaera.Control
