import Chimaera.Base.BigEndian
import Chimaera.Base.Unsigned

/-! The bounded message queues of `controller_protocol.hpp`. A received queue keeps a
cursor into its buffer; an outgoing queue keeps entries with local coalescing keys.
Both carry a byte count that is updated by unsigned arithmetic, so every operation
takes the arithmetic mode it is read under. -/

namespace Chimaera.Control
open Base.BigEndian Base.Unsigned

abbrev Message := List Byte
abbrev Batch := List Message
abbrev Key := List Byte

def maxMessages : Nat := 1024
def maxBytes : Nat := 32 * 1024 * 1024

def payload (batch : Batch) : Nat := (batch.map List.length).sum

def Admissible (batch : Batch) : Prop := batch.length ≤ maxMessages ∧ payload batch ≤ maxBytes

instance (batch : Batch) : Decidable (Admissible batch) := inferInstanceAs (Decidable (_ ∧ _))

@[simp] theorem payload_nil : payload [] = 0 := rfl

@[simp] theorem payload_cons (message : Message) (rest : Batch) :
    payload (message :: rest) = message.length + payload rest := by
  simp [payload]

@[simp] theorem payload_append (first second : Batch) :
    payload (first ++ second) = payload first + payload second := by
  simp [payload]

theorem admissible_nil : Admissible [] := by simp [Admissible]

theorem maxBytes_lt : maxBytes < modulus := by decide

theorem maxMessages_lt : maxMessages < modulus := by decide

def bytesLoop (mode : Mode) : Nat → Batch → Except String Nat
  | count, [] => .ok count
  | count, message :: rest => do
      let room ← mode.sub maxBytes count
      if message.length > room then .error "controller queue exceeds 32 MiB"
      else bytesLoop mode (count + message.length) rest

def bytes (mode : Mode) (batch : Batch) : Except String Nat := do
  let count ← bytesLoop mode 0 batch
  if batch.length > maxMessages then .error "controller queue exceeds 1024 messages"
  else .ok count

theorem bytesLoop_eq (mode : Mode) (count : Nat) (batch : Batch) (bound : count ≤ maxBytes) :
    bytesLoop mode count batch =
      if count + payload batch ≤ maxBytes then .ok (count + payload batch)
      else .error "controller queue exceeds 32 MiB" := by
  induction batch generalizing count with
  | nil => simp [bytesLoop, bound]
  | cons message rest ih =>
    rw [bytesLoop, mode.sub_exact bound maxBytes_lt, ok_bind]
    by_cases fits : message.length > maxBytes - count
    · have excess : ¬count + (message.length + payload rest) ≤ maxBytes := by omega
      rw [if_pos fits, payload_cons, if_neg excess]
    · rw [if_neg fits, ih _ (by omega), payload_cons, Nat.add_assoc]

/-- The byte count is the payload, and the only failures are the two limits. -/
theorem bytes_eq (mode : Mode) (batch : Batch) :
    bytes mode batch =
      if payload batch ≤ maxBytes then
        if batch.length ≤ maxMessages then .ok (payload batch)
        else .error "controller queue exceeds 1024 messages"
      else .error "controller queue exceeds 32 MiB" := by
  rw [bytes, bytesLoop_eq mode 0 batch (Nat.zero_le _), Nat.zero_add]
  by_cases fits : payload batch ≤ maxBytes
  · by_cases few : batch.length ≤ maxMessages
    · rw [if_pos fits, if_pos fits, if_pos few, ok_bind, if_neg (by omega)]
    · rw [if_pos fits, if_pos fits, if_neg few, ok_bind, if_pos (by omega)]
  · rw [if_neg fits, if_neg fits, error_bind]

theorem bytes_admissible (mode : Mode) {batch : Batch} (admissible : Admissible batch) :
    bytes mode batch = .ok (payload batch) := by
  rw [bytes_eq, if_pos admissible.2, if_pos admissible.1]

/-! ## Received messages -/

structure ReceivedQueue where
  messages : Batch := []
  next : Nat := 0
  bytes : Nat := 0
  deriving DecidableEq, Repr

def ReceivedQueue.contents (queue : ReceivedQueue) : Batch := queue.messages.drop queue.next

def ReceivedQueue.append (mode : Mode) (queue : ReceivedQueue) (source : Batch) :
    Except String (ReceivedQueue × Batch) := do
  let count ← mode.sub queue.messages.length queue.next
  let addedBytes ← Control.bytes mode source
  if count + source.length > maxMessages then .error "controller queue limit exceeded"
  else
    let room ← mode.sub maxBytes queue.bytes
    if addedBytes > room then .error "controller queue limit exceeded"
    else if source.isEmpty then .ok (queue, source)
    else
      -- Compaction drops the consumed slots before the new messages are pushed.
      let compacted := if queue.next ≠ 0 then
        { queue with messages := queue.messages.drop queue.next, next := 0 } else queue
      let total ← mode.add queue.bytes addedBytes
      .ok ({ compacted with messages := compacted.messages ++ source, bytes := total }, [])

def ReceivedQueue.take (mode : Mode) (queue : ReceivedQueue) :
    Except String (Option Message × ReceivedQueue) :=
  if queue.next = queue.messages.length then .ok (none, queue)
  else do
    let message := queue.messages.getD queue.next []
    let bytes ← mode.sub queue.bytes message.length
    -- The moved-from slot stays behind as an empty message until it is reclaimed.
    let messages := queue.messages.set queue.next []
    let next := queue.next + 1
    if next = messages.length then .ok (some message, { messages := [], next := 0, bytes })
    else .ok (some message, { messages, next, bytes })

def ReceivedQueue.drain (queue : ReceivedQueue) : Batch × ReceivedQueue :=
  (queue.messages.drop queue.next, {})

structure ReceivedQueue.Valid (queue : ReceivedQueue) : Prop where
  cursor : queue.next ≤ queue.messages.length
  buffered : queue.messages.length ≤ maxMessages
  counted : queue.bytes = payload queue.contents
  light : queue.bytes ≤ maxBytes

theorem ReceivedQueue.valid_empty : ReceivedQueue.Valid {} :=
  ⟨Nat.le_refl _, Nat.zero_le _, rfl, Nat.zero_le _⟩

@[simp] theorem ReceivedQueue.contents_empty : ReceivedQueue.contents {} = [] := rfl

theorem ReceivedQueue.length_contents (queue : ReceivedQueue) :
    queue.contents.length = queue.messages.length - queue.next := List.length_drop

variable {queue : ReceivedQueue}

theorem ReceivedQueue.Valid.count_eq (valid : queue.Valid) (mode : Mode) :
    mode.sub queue.messages.length queue.next = .ok queue.contents.length := by
  rw [mode.sub_exact valid.cursor (lt_of_le_of_lt valid.buffered maxMessages_lt),
    queue.length_contents]

theorem ReceivedQueue.Valid.room_eq (valid : queue.Valid) (mode : Mode) :
    mode.sub maxBytes queue.bytes = .ok (maxBytes - queue.bytes) :=
  mode.sub_exact valid.light maxBytes_lt

/-- Every check of `append` in one place, with all subtractions in range. -/
theorem ReceivedQueue.Valid.append_eq (valid : queue.Valid) (mode : Mode) (source : Batch) :
    queue.append mode source = (do
      let addedBytes ← Control.bytes mode source
      if queue.contents.length + source.length > maxMessages then
        .error "controller queue limit exceeded"
      else if addedBytes > maxBytes - queue.bytes then .error "controller queue limit exceeded"
      else if source.isEmpty then .ok (queue, source)
      else
        let total ← mode.add queue.bytes addedBytes
        .ok ({ messages := queue.contents ++ source, next := 0, bytes := total }, [])) := by
  have compacts : ∀ total, (⟨(if queue.next ≠ 0 then
        { queue with messages := queue.messages.drop queue.next, next := 0 } else queue).messages ++ source,
      (if queue.next ≠ 0 then
        { queue with messages := queue.messages.drop queue.next, next := 0 } else queue).next, total⟩
        : ReceivedQueue) = ⟨queue.contents ++ source, 0, total⟩ := by
    intro total
    by_cases fresh : queue.next = 0
    · simp [fresh, ReceivedQueue.contents]
    · simp [fresh, ReceivedQueue.contents]
  simp only [ReceivedQueue.append, valid.count_eq, valid.room_eq, ok_bind, compacts]

/-- Within the limits an append adds the batch at the tail and empties its source. -/
theorem ReceivedQueue.append_ok (valid : queue.Valid) (source : Batch)
    (fits : Admissible (queue.contents ++ source)) :
    ∃ after : ReceivedQueue, (∀ mode, queue.append mode source = .ok (after, [])) ∧
      after.contents = queue.contents ++ source ∧ after.Valid := by
  obtain ⟨few, light⟩ := fits
  rw [List.length_append] at few
  rw [payload_append, ← valid.counted] at light
  have admissible : Admissible source := ⟨by omega, by omega⟩
  cases source with
  | nil =>
    refine ⟨queue, fun mode => ?_, (List.append_nil _).symm, valid⟩
    rw [valid.append_eq, bytes_admissible mode admissible, ok_bind, if_neg (by omega),
      if_neg (by omega)]
    rfl
  | cons message rest =>
    refine ⟨⟨queue.contents ++ message :: rest, 0, queue.bytes + payload (message :: rest)⟩,
      fun mode => ?_, rfl, ?_⟩
    · have small : queue.bytes + payload (message :: rest) < modulus :=
        lt_of_le_of_lt light maxBytes_lt
      rw [valid.append_eq, bytes_admissible mode admissible, ok_bind, if_neg (by omega),
        if_neg (by omega), mode.add_exact small]
      rfl
    · refine ⟨Nat.zero_le _, ?_, ?_, light⟩
      · simpa only [List.length_append] using few
      · simp only [ReceivedQueue.contents, List.drop_zero, payload_append, valid.counted]

/-- The text an append outside the limits throws: the batch is checked before the queue. -/
def refusal (source : Batch) : String :=
  if payload source > maxBytes then "controller queue exceeds 32 MiB"
  else if source.length > maxMessages then "controller queue exceeds 1024 messages"
  else "controller queue limit exceeded"

theorem refusal_named (source : Batch) : refusal source ≠ "" ∧ refusal source ≠ wrapped := by
  unfold refusal
  split_ifs <;> decide

theorem ReceivedQueue.append_refused (valid : queue.Valid) (source : Batch)
    (excess : ¬Admissible (queue.contents ++ source)) (mode : Mode) :
    queue.append mode source = .error (refusal source) := by
  rw [valid.append_eq, bytes_eq, refusal]
  by_cases light : payload source ≤ maxBytes
  · rw [if_pos light, if_neg (Nat.not_lt.mpr light)]
    by_cases few : source.length ≤ maxMessages
    · rw [if_pos few, if_neg (Nat.not_lt.mpr few), ok_bind]
      by_cases crowded : queue.contents.length + source.length > maxMessages
      · rw [if_pos crowded]
      · have heavy : payload source > maxBytes - queue.bytes := by
          by_contra fits
          have counted := valid.counted
          have room := valid.light
          apply excess
          constructor
          · rw [List.length_append]; omega
          · rw [payload_append]; omega
        rw [if_neg crowded, if_pos heavy]
    · rw [if_neg few, if_pos (Nat.lt_of_not_le few), error_bind]
  · rw [if_neg light, if_pos (Nat.lt_of_not_le light), error_bind]

theorem ReceivedQueue.append_error (valid : queue.Valid) (source : Batch)
    (excess : ¬Admissible (queue.contents ++ source)) :
    ∃ what, what ≠ "" ∧ what ≠ wrapped ∧ ∀ mode, queue.append mode source = .error what := by
  obtain ⟨named, unwrapped⟩ := refusal_named source
  exact ⟨refusal source, named, unwrapped, ReceivedQueue.append_refused valid source excess⟩

theorem ReceivedQueue.append_valid {queue after : ReceivedQueue} {source left : Batch}
    (valid : queue.Valid) {mode : Mode}
    (returned : queue.append mode source = .ok (after, left)) : after.Valid := by
  by_cases fits : Admissible (queue.contents ++ source)
  · obtain ⟨other, appended, -, kept⟩ := ReceivedQueue.append_ok valid source fits
    rw [appended mode] at returned
    cases returned
    exact kept
  · rw [ReceivedQueue.append_refused valid source fits mode] at returned
    cases returned

theorem ReceivedQueue.take_spec (valid : queue.Valid) :
    ∃ after : ReceivedQueue, (∀ mode, queue.take mode = .ok (queue.contents.head?, after)) ∧
      after.contents = queue.contents.tail ∧ after.Valid := by
  have cursor := valid.cursor
  have buffered := valid.buffered
  have light := valid.light
  by_cases consumed : queue.next = queue.messages.length
  · have empty : queue.contents = [] := by
      rw [ReceivedQueue.contents, consumed, List.drop_length]
    refine ⟨queue, fun mode => ?_, by rw [empty, List.tail_nil], valid⟩
    rw [ReceivedQueue.take, if_pos consumed, empty, List.head?_nil]
  · have inside : queue.next < queue.messages.length := by omega
    obtain ⟨message, found⟩ : ∃ message, queue.messages.getD queue.next [] = message := ⟨_, rfl⟩
    have split : queue.contents = message :: queue.messages.drop (queue.next + 1) := by
      rw [ReceivedQueue.contents, List.drop_eq_getElem_cons inside, ← found]
      simp [inside]
    have counted := valid.counted
    rw [split, payload_cons] at counted
    have subtracts : ∀ mode : Mode, mode.sub queue.bytes message.length =
        .ok (queue.bytes - message.length) := fun mode =>
      mode.sub_exact (by omega) (lt_of_le_of_lt light maxBytes_lt)
    have remaining : queue.bytes - message.length =
        payload (queue.messages.drop (queue.next + 1)) := by omega
    have lighter : queue.bytes - message.length ≤ maxBytes := by omega
    by_cases last : queue.next + 1 = queue.messages.length
    · have finished : queue.messages.drop (queue.next + 1) = [] := by rw [last, List.drop_length]
      refine ⟨⟨[], 0, queue.bytes - message.length⟩, fun mode => ?_, ?_,
        ⟨Nat.zero_le _, Nat.zero_le _, ?_, lighter⟩⟩
      · simp only [ReceivedQueue.take, if_neg consumed, found, subtracts, ok_bind, List.length_set,
          if_pos last, split, List.head?_cons]
      · rw [split, List.tail_cons, finished]
        rfl
      · rw [finished] at remaining
        exact remaining
    · have kept : ∀ left, ReceivedQueue.contents
          ⟨queue.messages.set queue.next [], queue.next + 1, left⟩ =
          queue.messages.drop (queue.next + 1) := fun left =>
        List.drop_set_of_lt (Nat.lt_succ_self _)
      refine ⟨⟨queue.messages.set queue.next [], queue.next + 1, queue.bytes - message.length⟩,
        fun mode => ?_, ?_, ⟨?_, ?_, ?_, lighter⟩⟩
      · simp only [ReceivedQueue.take, if_neg consumed, found, subtracts, ok_bind, List.length_set,
          if_neg last, split, List.head?_cons]
      · rw [kept, split, List.tail_cons]
      · simpa only [List.length_set] using Nat.succ_le_of_lt inside
      · simpa only [List.length_set] using buffered
      · rw [kept]
        exact remaining

/-! ## Outgoing messages -/

structure Entry where
  data : Message
  key : Key
  deriving DecidableEq, Repr

structure OutgoingQueue where
  entries : List Entry := []
  bytes : Nat := 0
  deriving DecidableEq, Repr

def OutgoingQueue.discount (mode : Mode) (key : Key) :
    List Entry → Nat → Nat → Except String (Nat × Nat)
  | [], count, size => .ok (count, size)
  | entry :: rest, count, size =>
      if entry.key = key then do
        let count ← mode.sub count entry.data.length
        let size ← mode.sub size 1
        OutgoingQueue.discount mode key rest count size
      else OutgoingQueue.discount mode key rest count size

def OutgoingQueue.counts (mode : Mode) (queue : OutgoingQueue) (key : Key) :
    Except String (Nat × Nat) :=
  if key ≠ [] then
    OutgoingQueue.discount mode key queue.entries queue.bytes queue.entries.length
  else .ok (queue.bytes, queue.entries.length)

def OutgoingQueue.kept (queue : OutgoingQueue) (key : Key) : List Entry :=
  if key ≠ [] then queue.entries.filter fun entry => entry.key ≠ key else queue.entries

def OutgoingQueue.submit (mode : Mode) (queue : OutgoingQueue) (data : Message) (key : Key) :
    Except String OutgoingQueue := do
  let (count, size) ← queue.counts mode key
  if size ≥ maxMessages then .error "controller queue limit exceeded"
  else
    let room ← mode.sub maxBytes count
    if data.length > room then .error "controller queue limit exceeded"
    else
      let bytes ← mode.add count data.length
      .ok { entries := queue.kept key ++ [⟨data, key⟩], bytes }

def OutgoingQueue.drain (queue : OutgoingQueue) : Batch × OutgoingQueue :=
  (queue.entries.map Entry.data, {})

def OutgoingQueue.contents (queue : OutgoingQueue) : Batch := queue.entries.map Entry.data

structure OutgoingQueue.Valid (queue : OutgoingQueue) : Prop where
  counted : queue.bytes = payload queue.contents
  admissible : Admissible queue.contents

theorem OutgoingQueue.valid_empty : OutgoingQueue.Valid {} := ⟨rfl, admissible_nil⟩

theorem OutgoingQueue.discount_eq (mode : Mode) (key : Key) (entries : List Entry)
    (count size : Nat) (heavy : payload (entries.map Entry.data) ≤ count)
    (many : entries.length ≤ size) (light : count < modulus) (few : size < modulus) :
    OutgoingQueue.discount mode key entries count size = .ok
      (count - payload ((entries.filter fun entry => entry.key = key).map Entry.data),
        size - (entries.filter fun entry => entry.key = key).length) := by
  induction entries generalizing count size with
  | nil => rfl
  | cons entry rest ih =>
    simp only [List.map_cons, payload_cons, List.length_cons] at heavy many
    by_cases same : entry.key = key
    · rw [OutgoingQueue.discount, if_pos same, mode.sub_exact (by omega) light, ok_bind,
        mode.sub_exact (by omega) few, ok_bind, ih _ _ (by omega) (by omega) (by omega) (by omega),
        List.filter_cons_of_pos (by simpa using same), List.map_cons, payload_cons, List.length_cons]
      congr 2 <;> omega
    · rw [OutgoingQueue.discount, if_neg same, ih _ _ (by omega) (by omega) light few,
        List.filter_cons_of_neg (by simpa using same)]

theorem OutgoingQueue.partition (key : Key) (entries : List Entry) :
    payload ((entries.filter fun entry => entry.key = key).map Entry.data) +
        payload ((entries.filter fun entry => entry.key ≠ key).map Entry.data) =
      payload (entries.map Entry.data) ∧
    (entries.filter fun entry => entry.key = key).length +
        (entries.filter fun entry => entry.key ≠ key).length = entries.length := by
  induction entries with
  | nil => exact ⟨rfl, rfl⟩
  | cons entry rest ih =>
    obtain ⟨weights, lengths⟩ := ih
    by_cases same : entry.key = key
    · rw [List.filter_cons_of_pos (by simpa using same), List.filter_cons_of_neg (by simpa using same)]
      simp only [List.map_cons, payload_cons, List.length_cons]
      omega
    · rw [List.filter_cons_of_neg (by simpa using same), List.filter_cons_of_pos (by simpa using same)]
      simp only [List.map_cons, payload_cons, List.length_cons]
      omega

theorem OutgoingQueue.Valid.kept_light {queue : OutgoingQueue} (valid : queue.Valid) (key : Key) :
    payload ((queue.kept key).map Entry.data) ≤ maxBytes := by
  have light : payload (queue.entries.map Entry.data) ≤ maxBytes := valid.admissible.2
  have weights := (OutgoingQueue.partition key queue.entries).1
  by_cases keyed : key ≠ []
  · rw [OutgoingQueue.kept, if_pos keyed]; omega
  · rw [OutgoingQueue.kept, if_neg keyed]; omega

theorem OutgoingQueue.Valid.counts_eq {queue : OutgoingQueue} (valid : queue.Valid) (mode : Mode)
    (key : Key) :
    queue.counts mode key =
      .ok (payload ((queue.kept key).map Entry.data), (queue.kept key).length) := by
  have light : queue.bytes ≤ maxBytes := valid.counted ▸ valid.admissible.2
  have few : queue.entries.length ≤ maxMessages := by
    simpa only [OutgoingQueue.contents, List.length_map] using valid.admissible.1
  have counted : queue.bytes = payload (queue.entries.map Entry.data) := valid.counted
  by_cases keyed : key ≠ []
  · obtain ⟨weights, lengths⟩ := OutgoingQueue.partition key queue.entries
    rw [OutgoingQueue.counts, if_pos keyed,
      OutgoingQueue.discount_eq mode key _ _ _ counted.ge (Nat.le_refl _)
        (lt_of_le_of_lt light maxBytes_lt) (lt_of_le_of_lt few maxMessages_lt),
      OutgoingQueue.kept, if_pos keyed]
    congr 2 <;> omega
  · rw [OutgoingQueue.counts, if_neg keyed, OutgoingQueue.kept, if_neg keyed, counted]

/-- A submission is judged by the entries it would leave in place, under either reading
of the arithmetic. -/
theorem OutgoingQueue.submit_eq {queue : OutgoingQueue} (valid : queue.Valid) (mode : Mode)
    (data : Message) (key : Key) :
    queue.submit mode data key =
      if (queue.kept key).length < maxMessages ∧
          payload ((queue.kept key).map Entry.data) + data.length ≤ maxBytes then
        .ok { entries := queue.kept key ++ [⟨data, key⟩],
              bytes := payload ((queue.kept key).map Entry.data) + data.length }
      else .error "controller queue limit exceeded" := by
  have light := valid.kept_light key
  rw [OutgoingQueue.submit, valid.counts_eq, ok_bind]
  simp only [mode.sub_exact light maxBytes_lt, ok_bind]
  by_cases room : (queue.kept key).length < maxMessages
  · by_cases fits : payload ((queue.kept key).map Entry.data) + data.length ≤ maxBytes
    · rw [if_neg (by omega), if_neg (by omega), if_pos ⟨room, fits⟩,
        mode.add_exact (lt_of_le_of_lt fits maxBytes_lt)]
      rfl
    · rw [if_neg (by omega), if_pos (by omega), if_neg (fun both => fits both.2)]
  · rw [if_pos (by omega), if_neg (fun both => room both.1)]

theorem OutgoingQueue.submit_valid {queue after : OutgoingQueue} (valid : queue.Valid) {mode : Mode}
    {data : Message} {key : Key}
    (accepted : queue.submit mode data key = .ok after) : after.Valid := by
  rw [OutgoingQueue.submit_eq valid] at accepted
  split_ifs at accepted with fits
  obtain ⟨room, light⟩ := fits
  cases accepted
  constructor
  · simp [OutgoingQueue.contents]
  · constructor
    · simpa [OutgoingQueue.contents] using Nat.succ_le_of_lt room
    · simpa [OutgoingQueue.contents] using light

end Chimaera.Control
