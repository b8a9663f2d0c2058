import Chimaera.Base.Capacity
import Chimaera.Base.Transition
import Chimaera.Control.Queues

/-! The two queues over vectors whose storage can run out. `append`, `submit` and `drain` are
written out with their reservations, so that a refused request leaves behind what was done
before it. -/

namespace Chimaera.Control
open Base.Unsigned Base.Capacity Base.Transition

section Room

variable {α ρ : Type}

/-- The reservation in front of both methods: if the capacity is not enough, room for a number
that depends on twice the capacity. -/
def secure (mode : Mode) (allocator : Allocator) (needed : Nat) (choose : Nat → Nat) :
    EStateM Failure (Memory α ρ) Unit := do
  let memory ← MonadState.get
  if needed > memory.buffer.capacity then
    let doubled ← checked (mode.mul memory.buffer.capacity 2)
    reserve allocator (choose doubled)

theorem secure_run (memory : Memory α ρ) {needed : Nat} (choose : Nat → Nat)
    (enough : memory.buffer.capacity < needed → needed ≤ choose (memory.buffer.capacity * 2))
    (few : needed ≤ maxMessages) (mode : Mode) (allocator : Allocator) :
    Reserves allocator needed memory ((secure mode allocator needed choose).run memory) := by
  by_cases short : needed > memory.buffer.capacity
  · have small : memory.buffer.capacity * 2 < modulus := by
      have bound : maxMessages * 2 < modulus := by decide
      omega
    simp only [secure, EStateM.run_bind, EStateM.run_get, if_pos short, mode.mul_exact small,
      checked_ok, EStateM.run_pure]
    exact (reserve_run memory _ allocator).mono (enough short)
  · simp only [secure, EStateM.run_bind, EStateM.run_get, if_neg short]
    exact Reserves.of_enough (Nat.not_lt.mp short)

end Room

/-! ## Received messages -/

structure ReceivedStorage where
  messages : Buffer Message := Buffer.empty
  next : Nat := 0
  bytes : Nat := 0

structure Appending where
  next : Nat
  bytes : Nat
  source : Batch

namespace ReceivedStorage

def queue (storage : ReceivedStorage) : ReceivedQueue :=
  ⟨storage.messages.elements, storage.next, storage.bytes⟩

def call (storage : ReceivedStorage) (source : Batch) : Memory Message Appending where
  buffer := storage.messages
  rest := ⟨storage.next, storage.bytes, source⟩

def ofCall (memory : Memory Message Appending) : ReceivedStorage :=
  ⟨memory.buffer, memory.rest.next, memory.rest.bytes⟩

def compact (allocator : Allocator) (count : Nat) :
    EStateM Failure (Memory Message Appending) Unit := do
  if (← MonadState.get).rest.next ≠ 0 then
    modify fun memory => { memory with buffer := memory.buffer.moveDown [] memory.rest.next }
    resize allocator [] count
    modify fun memory => { memory with rest := { memory.rest with next := 0 } }

/-- What `append` asks for: at least what it needs, otherwise twice the capacity up to the
limit. -/
def room (needed doubled : Nat) : Nat := max needed (min maxMessages (max 16 doubled))

def fill (mode : Mode) (allocator : Allocator) (count : Nat) (source : Batch) (addedBytes : Nat) :
    EStateM Failure (Memory Message Appending) Unit := do
  let needed := count + source.length
  secure mode allocator needed (room needed)
  compact allocator count
  pushMoved allocator (fun index rest => { rest with source := rest.source.set index [] }) 0 source
  let total ← checked (mode.add (← MonadState.get).rest.bytes addedBytes)
  modify fun memory => { memory with rest := { memory.rest with bytes := total } }
  modify fun memory => { memory with rest := { memory.rest with source := [] } }

def appendInPlace (mode : Mode) (allocator : Allocator) :
    EStateM Failure (Memory Message Appending) Unit := do
  let memory ← MonadState.get
  let source := memory.rest.source
  let count ← checked (mode.sub memory.buffer.elements.length memory.rest.next)
  let addedBytes ← checked (Control.bytes mode source)
  if count + source.length > maxMessages then
    throw (.runtimeError "controller queue limit exceeded")
  else
    let room ← checked (mode.sub maxBytes memory.rest.bytes)
    if addedBytes > room then throw (.runtimeError "controller queue limit exceeded")
    else if source.isEmpty then pure ()
    else fill mode allocator count source addedBytes

def append (mode : Mode) (allocator : Allocator) (storage : ReceivedStorage) (source : Batch) :
    EStateM.Result Failure (Memory Message Appending) Unit :=
  (appendInPlace mode allocator).run (storage.call source)

def take (mode : Mode) (storage : ReceivedStorage) :
    Except String (Option Message × ReceivedStorage) :=
  if storage.next = storage.messages.elements.length then .ok (none, storage)
  else do
    let message := storage.messages.elements.getD storage.next []
    let bytes ← mode.sub storage.bytes message.length
    let messages := storage.messages.set storage.next []
    let next := storage.next + 1
    if next = messages.elements.length then
      .ok (some message, { messages := messages.clear, next := 0, bytes })
    else .ok (some message, { messages, next, bytes })

inductive Call where
  | append (allocator : Allocator) (source : Batch)
  | take
  | drain

/-- One call and the object it leaves, whether it returns or throws. `drain` hands its vector to
the caller. -/
def step (mode : Mode) (storage : ReceivedStorage) : Call → Option ReceivedStorage
  | .append allocator source => some (ofCall (final (storage.append mode allocator source)))
  | .take =>
      match storage.take mode with
      | .ok (_, after) => some after
      | .error _ => some storage
  | .drain => some {}

theorem compact_run (memory : Memory Message Appending) (allocator : Allocator) :
    ∃ after, (compact allocator (memory.buffer.elements.length - memory.rest.next)).run memory =
        .ok () after ∧
      after.buffer.elements = memory.buffer.elements.drop memory.rest.next ∧
      after.buffer.capacity = memory.buffer.capacity ∧ after.requests = memory.requests ∧
      after.rest = { memory.rest with next := 0 } := by
  by_cases consumed : memory.rest.next ≠ 0
  · let moved : Memory Message Appending :=
      { memory with buffer := memory.buffer.moveDown [] memory.rest.next }
    have fewer : memory.buffer.elements.length - memory.rest.next ≤
        moved.buffer.elements.length := by
      have size : moved.buffer.elements.length = (memory.buffer.elements.drop memory.rest.next ++
        List.replicate _ []).length := rfl
      rw [size, List.length_append, List.length_drop]
      omega
    have reclaimed := Buffer.truncate_moveDown memory.buffer [] memory.rest.next
    refine ⟨{ moved with
        buffer := moved.buffer.truncate (memory.buffer.elements.length - memory.rest.next)
        rest := { memory.rest with next := 0 } }, ?_, ?_, rfl, rfl, rfl⟩
    · rw [compact, EStateM.run_bind, EStateM.run_get]
      dsimp only
      rw [if_pos consumed, run_bind_ok (run_modify _ memory), run_bind_ok (resize_within fewer _ _),
        run_modify]
    · exact congrArg Buffer.elements reclaimed
  · have start : memory.rest.next = 0 := by omega
    refine ⟨memory, ?_, ?_, rfl, rfl, ?_⟩
    · simp only [compact, EStateM.run_bind, EStateM.run_get, if_neg consumed]
      rfl
    · rw [start, List.drop_zero]
    · rw [← start]

theorem rest_moved (indices : List Nat) (rest : Appending) :
    ∃ source, indices.foldl (fun rest index =>
      ({ rest with source := rest.source.set index [] } : Appending)) rest =
        { rest with source } := by
  induction indices generalizing rest with
  | nil => exact ⟨rest.source, rfl⟩
  | cons index later ih =>
    obtain ⟨source, moved⟩ := ih { rest with source := rest.source.set index [] }
    exact ⟨source, moved⟩

theorem fill_cases {memory : Memory Message Appending} {source : Batch} {addedBytes : Nat}
    (few : memory.buffer.elements.length - memory.rest.next + source.length ≤ maxMessages)
    (light : memory.rest.bytes + addedBytes < modulus) (mode : Mode) (allocator : Allocator) :
    (∃ after, (fill mode allocator (memory.buffer.elements.length - memory.rest.next) source
          addedBytes).run memory = .ok () after ∧
      after.buffer.elements = memory.buffer.elements.drop memory.rest.next ++ source ∧
      after.rest = ⟨0, memory.rest.bytes + addedBytes, []⟩ ∧
      (after.requests = memory.requests ∨
        ∃ room, after.requests = memory.requests ++ [.reserve room])) ∨
    ∃ room, allocator room = none ∧
      (fill mode allocator (memory.buffer.elements.length - memory.rest.next) source
          addedBytes).run memory =
        .error .badAlloc { memory with requests := memory.requests ++ [.reserve room] } := by
  rcases secure_run memory (room _) (fun _ => le_max_left _ _) few mode allocator with
    ⟨reserved, secured, elements, room, rest, requests⟩ | ⟨room, refusal, secured⟩
  · left
    obtain ⟨compacted, first, remaining, capacity, unasked, start⟩ :=
      compact_run reserved allocator
    rw [elements, rest] at first remaining
    have enough : compacted.buffer.elements.length + source.length ≤
        compacted.buffer.capacity := by
      rw [remaining, capacity, List.length_drop]
      exact room
    obtain ⟨pushed, second, pushes, -, silent, moved⟩ := pushMoved_within enough allocator
      (fun index rest => { rest with source := rest.source.set index [] }) 0
    obtain ⟨left, others⟩ := rest_moved (List.range' 0 source.length) compacted.rest
    rw [others, start, rest] at moved
    refine ⟨{ pushed with rest := ⟨0, memory.rest.bytes + addedBytes, []⟩ }, ?_, ?_, rfl, ?_⟩
    · have total : mode.add pushed.rest.bytes addedBytes = .ok (memory.rest.bytes + addedBytes) := by
        rw [moved]
        exact mode.add_exact light
      rw [fill, run_bind_ok secured, run_bind_ok first, run_bind_ok second, EStateM.run_bind,
        EStateM.run_get]
      dsimp only
      rw [total, checked_ok, pure_bind, run_bind_ok (run_modify _ _), run_modify, moved]
    · rw [← remaining]
      exact pushes
    · rw [← unasked, ← silent] at requests
      exact requests
  · right
    exact ⟨room, refusal, run_bind_error secured _⟩

/-- Either the checks of the queue refuse the batch and nothing has happened, or there is
nothing to append, or the method gets to its reservation. -/
theorem append_cases (memory : Memory Message Appending) (valid : (ofCall memory).queue.Valid)
    (mode : Mode) (allocator : Allocator) :
    (∃ what, (appendInPlace mode allocator).run memory = .error (.runtimeError what) memory ∧
      (ofCall memory).queue.append mode memory.rest.source = .error what) ∨
    ((appendInPlace mode allocator).run memory = .ok () memory ∧
      (ofCall memory).queue.append mode memory.rest.source =
        .ok ((ofCall memory).queue, memory.rest.source)) ∨
    ∃ addedBytes,
      memory.buffer.elements.length - memory.rest.next + memory.rest.source.length ≤ maxMessages ∧
      memory.rest.bytes + addedBytes ≤ maxBytes ∧
      (appendInPlace mode allocator).run memory =
        (fill mode allocator (memory.buffer.elements.length - memory.rest.next) memory.rest.source
          addedBytes).run memory ∧
      (ofCall memory).queue.append mode memory.rest.source = .ok
        (⟨memory.buffer.elements.drop memory.rest.next ++ memory.rest.source, 0,
          memory.rest.bytes + addedBytes⟩, []) := by
  have size : (ofCall memory).queue.contents.length =
      memory.buffer.elements.length - memory.rest.next := ReceivedQueue.length_contents _
  have count : mode.sub memory.buffer.elements.length memory.rest.next =
      .ok (memory.buffer.elements.length - memory.rest.next) := by
    rw [← size]
    exact valid.count_eq mode
  have space : mode.sub maxBytes memory.rest.bytes = .ok (maxBytes - memory.rest.bytes) :=
    valid.room_eq mode
  have light : memory.rest.bytes ≤ maxBytes := valid.light
  have bound := maxBytes_lt
  have bytes : (ofCall memory).queue.bytes = memory.rest.bytes := rfl
  rw [valid.append_eq, size, bytes]
  simp only [appendInPlace, EStateM.run_bind, EStateM.run_get, count, space, checked_ok,
    EStateM.run_pure]
  cases Control.bytes mode memory.rest.source with
  | error what => exact .inl ⟨what, rfl, rfl⟩
  | ok addedBytes =>
    simp only [checked_ok, EStateM.run_pure, ok_bind]
    by_cases crowded : memory.buffer.elements.length - memory.rest.next +
        memory.rest.source.length > maxMessages
    · rw [if_pos crowded, if_pos crowded]
      exact .inl ⟨_, rfl, rfl⟩
    rw [if_neg crowded, if_neg crowded, pure_bind]
    by_cases heavy : addedBytes > maxBytes - memory.rest.bytes
    · rw [if_pos heavy, if_pos heavy]
      exact .inl ⟨_, rfl, rfl⟩
    rw [if_neg heavy, if_neg heavy]
    by_cases none : memory.rest.source.isEmpty
    · rw [if_pos none, if_pos none]
      exact .inr (.inl ⟨rfl, rfl⟩)
    rw [if_neg none, if_neg none, mode.add_exact (by omega)]
    exact .inr (.inr ⟨addedBytes, by omega, by omega, rfl, rfl⟩)

theorem append_outcome {storage : ReceivedStorage} (valid : storage.queue.Valid) (mode : Mode)
    (allocator : Allocator) (source : Batch) :
    Guarded allocator (storage.call source) (storage.append mode allocator source) ∧
      Agrees (storage.queue.append mode source)
        (fun after => ((ofCall after).queue, after.rest.source))
        (storage.append mode allocator source) := by
  rcases append_cases (storage.call source) valid mode allocator with
    ⟨what, thrown, refused⟩ | ⟨returned, same⟩ | ⟨addedBytes, few, light, ran, accepted⟩
  · rw [append, thrown]
    exact ⟨.of_throw rfl what, .of_throw refused⟩
  · rw [append, returned]
    exact ⟨.of_return (.inl rfl), .of_return same⟩
  · rw [append, ran]
    rcases fill_cases few (lt_of_le_of_lt light maxBytes_lt) mode allocator with
      ⟨after, filled, contents, rest, requests⟩ | ⟨room, refusal, filled⟩
    · rw [filled]
      refine ⟨.of_return requests, .of_return (accepted.trans ?_)⟩
      rw [queue, ofCall, contents, rest]
    · rw [filled]
      exact ⟨.of_refusal rfl refusal, .of_refusal⟩

theorem take_queue (mode : Mode) (storage : ReceivedStorage) :
    (storage.take mode).map (fun taken => (taken.1, taken.2.queue)) = storage.queue.take mode := by
  have length : (storage.messages.set storage.next []).elements.length =
      (storage.queue.messages.set storage.queue.next []).length := rfl
  by_cases consumed : storage.next = storage.messages.elements.length
  · have same : storage.queue.next = storage.queue.messages.length := consumed
    rw [take, if_pos consumed, ReceivedQueue.take, if_pos same]
    rfl
  · have other : ¬storage.queue.next = storage.queue.messages.length := consumed
    rw [take, if_neg consumed, ReceivedQueue.take, if_neg other]
    change Except.map _ (mode.sub storage.bytes (storage.messages.elements.getD storage.next
      []).length >>= _) = (mode.sub storage.bytes (storage.messages.elements.getD storage.next
      []).length >>= _)
    cases mode.sub storage.bytes (storage.messages.elements.getD storage.next []).length with
    | error what => rfl
    | ok bytes =>
      simp only [ok_bind]
      by_cases last : storage.next + 1 = (storage.messages.set storage.next []).elements.length
      · rw [if_pos last, if_pos (by rw [← length]; exact last)]
        rfl
      · rw [if_neg last, if_neg (by rw [← length]; exact last)]
        rfl

theorem step_valid {mode : Mode} {storage after : ReceivedStorage} {call : Call}
    (valid : storage.queue.Valid) (made : storage.step mode call = some after) :
    after.queue.Valid := by
  cases call with
  | append allocator source =>
    obtain ⟨guarded, agrees⟩ := append_outcome valid mode allocator source
    cases outcome : storage.append mode allocator source with
    | ok value memory =>
      rw [step, outcome] at made
      cases made
      exact ReceivedQueue.append_valid valid (agrees.returned memory outcome)
    | error failure memory =>
      obtain ⟨buffer, rest⟩ := guarded.unchanged failure memory outcome
      rw [step, outcome] at made
      cases made
      rw [final, queue, ofCall, buffer, rest]
      exact valid
  | take =>
    have same := take_queue mode storage
    obtain ⟨left, taken, -, kept⟩ := ReceivedQueue.take_spec valid
    rw [taken mode] at same
    cases outcome : storage.take mode with
    | error what =>
      rw [outcome] at same
      cases same
    | ok result =>
      rw [step, outcome] at made
      rw [outcome] at same
      cases made
      have left_eq : result.2.queue = left := congrArg Prod.snd (Except.ok.inj same)
      rw [left_eq]
      exact kept
  | drain =>
    cases made
    exact ReceivedQueue.valid_empty

theorem reachable_valid {mode : Mode} {storage : ReceivedStorage}
    (reachable : Reachable (step mode) {} storage) : storage.queue.Valid := by
  obtain ⟨calls, ran⟩ := reachable
  have keep : ∀ (before : ReceivedStorage) call after, before.queue.Valid →
      before.step mode call = some after → after.queue.Valid :=
    fun _ _ _ valid made => step_valid valid made
  have fresh : ({} : ReceivedStorage).queue.Valid := ReceivedQueue.valid_empty
  exact run_preserves keep fresh ran

end ReceivedStorage

/-! ## Outgoing messages -/

structure OutgoingStorage where
  entries : Buffer Entry := Buffer.empty
  bytes : Nat := 0

structure Draining where
  entries : Buffer Entry
  bytes : Nat

namespace OutgoingStorage

def queue (storage : OutgoingStorage) : OutgoingQueue := ⟨storage.entries.elements, storage.bytes⟩

def call (storage : OutgoingStorage) : Memory Entry Nat where
  buffer := storage.entries
  rest := storage.bytes

def ofCall (memory : Memory Entry Nat) : OutgoingStorage := ⟨memory.buffer, memory.rest⟩

def eraseReplaced (key : Key) : EStateM Failure (Memory Entry Nat) Unit :=
  if key ≠ [] then
    modify fun memory =>
      { memory with buffer := memory.buffer.eraseIf fun entry => entry.key = key }
  else pure ()

def room (doubled : Nat) : Nat := min maxMessages (max 16 doubled)

def replace (mode : Mode) (allocator : Allocator) (data : Message) (key : Key)
    (count size : Nat) : EStateM Failure (Memory Entry Nat) Unit := do
  secure mode allocator (size + 1) room
  eraseReplaced key
  let bytes ← checked (mode.add count data.length)
  modify fun memory => { memory with rest := bytes }
  pushBack allocator ⟨data, key⟩

def submitInPlace (mode : Mode) (allocator : Allocator) (data : Message) (key : Key) :
    EStateM Failure (Memory Entry Nat) Unit := do
  let (count, size) ← checked ((ofCall (← MonadState.get)).queue.counts mode key)
  if size ≥ maxMessages then throw (.runtimeError "controller queue limit exceeded")
  else
    let room ← checked (mode.sub maxBytes count)
    if data.length > room then throw (.runtimeError "controller queue limit exceeded")
    else replace mode allocator data key count size

def submit (mode : Mode) (allocator : Allocator) (storage : OutgoingStorage) (data : Message)
    (key : Key) : EStateM.Result Failure (Memory Entry Nat) Unit :=
  (submitInPlace mode allocator data key).run storage.call

def emptied (index : Nat) (rest : Draining) : Draining :=
  match rest.entries.elements[index]? with
  | none => rest
  | some entry => { rest with entries := rest.entries.set index ⟨[], entry.key⟩ }

def drainInPlace (allocator : Allocator) : EStateM Failure (Memory Message Draining) Unit := do
  let entries := (← MonadState.get).rest.entries
  reserve allocator entries.elements.length
  pushMoved allocator emptied 0 (entries.elements.map Entry.data)
  modify fun memory =>
    { memory with rest := { memory.rest with entries := memory.rest.entries.clear } }
  modify fun memory => { memory with rest := { memory.rest with bytes := 0 } }

def draining (storage : OutgoingStorage) : Memory Message Draining where
  buffer := Buffer.empty
  rest := ⟨storage.entries, storage.bytes⟩

def drain (allocator : Allocator) (storage : OutgoingStorage) :
    EStateM.Result Failure (Memory Message Draining) Unit :=
  (drainInPlace allocator).run storage.draining

inductive Call where
  | submit (allocator : Allocator) (data : Message) (key : Key)
  | drain (allocator : Allocator)

def step (mode : Mode) (storage : OutgoingStorage) : Call → Option OutgoingStorage
  | .submit allocator data key => some (ofCall (final (storage.submit mode allocator data key)))
  | .drain allocator =>
      let rest := (final (storage.drain allocator)).rest
      some ⟨rest.entries, rest.bytes⟩

/-- Where the capacity has no room for one more of the entries that stay, all entries stay, and
twice the capacity is enough for the next one. -/
theorem room_enough {size length capacity : Nat} (fewer : size ≤ length) (fits : length ≤ capacity)
    (few : size < maxMessages) (short : capacity < size + 1) :
    size + 1 ≤ room (capacity * 2) := by
  apply le_min few
  rcases Nat.lt_or_ge size 16 with small | large
  · exact le_max_of_le_left small
  · apply le_max_of_le_right
    omega

theorem eraseIf_elements (buffer : Buffer Entry) (key : Key) :
    (buffer.eraseIf fun entry => entry.key = key).elements =
      buffer.elements.filter fun entry => entry.key ≠ key := by
  change buffer.elements.filter _ = _
  apply List.filter_congr
  intro entry _
  rw [decide_not]

theorem length_kept_le (queue : OutgoingQueue) (key : Key) :
    (queue.kept key).length ≤ queue.entries.length := by
  rw [OutgoingQueue.kept]
  split_ifs
  · exact List.length_filter_le _ _
  · exact Nat.le_refl _

/-- Without a key the entries stay; with one they become fewer in the same storage. -/
theorem eraseReplaced_run (memory : Memory Entry Nat) (key : Key) :
    ∃ after, (eraseReplaced key).run memory = .ok () after ∧
      after.buffer.elements = (ofCall memory).queue.kept key ∧
      after.buffer.capacity = memory.buffer.capacity ∧ after.requests = memory.requests := by
  by_cases keyed : key ≠ []
  · refine ⟨{ memory with buffer := memory.buffer.eraseIf fun entry => entry.key = key },
      ?_, ?_, rfl, rfl⟩
    · rw [eraseReplaced, if_pos keyed, run_modify]
    · rw [eraseIf_elements, OutgoingQueue.kept, if_pos keyed]
      rfl
  · refine ⟨memory, ?_, ?_, rfl, rfl⟩
    · rw [eraseReplaced, if_neg keyed]
      rfl
    · rw [OutgoingQueue.kept, if_neg keyed]
      rfl

theorem replace_cases (memory : Memory Entry Nat) {data : Message} {key : Key} {count : Nat}
    (few : ((ofCall memory).queue.kept key).length < maxMessages)
    (light : count + data.length < modulus) (mode : Mode) (allocator : Allocator) :
    (∃ after, (replace mode allocator data key count
          ((ofCall memory).queue.kept key).length).run memory = .ok () after ∧
      after.buffer.elements = (ofCall memory).queue.kept key ++ [⟨data, key⟩] ∧
      after.rest = count + data.length ∧
      (after.requests = memory.requests ∨
        ∃ room, after.requests = memory.requests ++ [.reserve room])) ∨
    ∃ room, allocator room = none ∧
      (replace mode allocator data key count ((ofCall memory).queue.kept key).length).run memory =
        .error .badAlloc { memory with requests := memory.requests ++ [.reserve room] } := by
  have fewer : ((ofCall memory).queue.kept key).length ≤ memory.buffer.elements.length :=
    length_kept_le (ofCall memory).queue key
  rcases secure_run memory room (room_enough fewer memory.buffer.fits few) few mode allocator with
    ⟨reserved, secured, elements, enough, rest, requests⟩ | ⟨asked, refusal, secured⟩
  · left
    obtain ⟨erased, dropped, kept, capacity, unasked⟩ := eraseReplaced_run reserved key
    have kept : erased.buffer.elements = (ofCall memory).queue.kept key := by
      rw [kept, queue, queue, ofCall, ofCall, elements]
      rfl
    let counted : Memory Entry Nat := { erased with rest := count + data.length }
    have fits : counted.buffer.elements.length + 1 ≤ counted.buffer.capacity := by
      change erased.buffer.elements.length + 1 ≤ erased.buffer.capacity
      rw [kept, capacity]
      exact enough
    refine ⟨{ counted with buffer := counted.buffer.push ⟨data, key⟩ }, ?_, ?_, rfl, ?_⟩
    · rw [replace, run_bind_ok secured, run_bind_ok dropped, mode.add_exact light, checked_ok,
        pure_bind, run_bind_ok (run_modify _ _)]
      exact pushBack_within fits allocator _
    · change erased.buffer.elements ++ _ = _
      rw [kept]
    · rw [← unasked] at requests
      exact requests
  · right
    exact ⟨asked, refusal, run_bind_error secured _⟩

theorem submit_outcome {storage : OutgoingStorage} (valid : storage.queue.Valid) (mode : Mode)
    (allocator : Allocator) (data : Message) (key : Key) :
    Guarded allocator storage.call (storage.submit mode allocator data key) ∧
      Agrees (storage.queue.submit mode data key) (fun after => (ofCall after).queue)
        (storage.submit mode allocator data key) := by
  have light := valid.kept_light key
  have counts : (ofCall storage.call).queue.counts mode key =
      .ok (payload ((storage.queue.kept key).map Entry.data), (storage.queue.kept key).length) :=
    valid.counts_eq mode key
  rw [OutgoingQueue.submit_eq valid]
  simp only [submit, submitInPlace, EStateM.run_bind, EStateM.run_get, counts, checked_ok,
    mode.sub_exact light maxBytes_lt, pure_bind]
  by_cases room : (storage.queue.kept key).length < maxMessages
  · by_cases fits : payload ((storage.queue.kept key).map Entry.data) + data.length ≤ maxBytes
    · rw [if_neg (by omega), if_neg (by omega), if_pos ⟨room, fits⟩]
      have small := lt_of_le_of_lt fits maxBytes_lt
      rcases replace_cases storage.call room small mode allocator with
        ⟨after, replaced, entries, bytes, requests⟩ | ⟨asked, refusal, replaced⟩
      · have replaced : (replace mode allocator data key _ (storage.queue.kept key).length).run
          storage.call = .ok () after := replaced
        rw [replaced]
        refine ⟨.of_return requests, .of_return ?_⟩
        have same : (ofCall after).queue = ⟨after.buffer.elements, after.rest⟩ := rfl
        rw [same, entries, bytes]
        rfl
      · have replaced : (replace mode allocator data key _ (storage.queue.kept key).length).run
          storage.call = .error .badAlloc _ := replaced
        rw [replaced]
        exact ⟨.of_refusal rfl refusal, .of_refusal⟩
    · rw [if_neg (by omega), if_pos (by omega), if_neg fun both => fits both.2]
      exact ⟨.of_throw rfl _, .of_throw rfl⟩
  · rw [if_pos (by omega), if_neg fun both => room both.1]
    exact ⟨.of_throw rfl _, .of_throw rfl⟩

/-- The batch of `drain` gets its storage before any message is moved into it. -/
theorem drain_outcome (storage : OutgoingStorage) (allocator : Allocator) :
    Guarded allocator storage.draining (storage.drain allocator) ∧
      Agrees (.ok storage.queue.drain)
        (fun after => (after.buffer.elements, ⟨after.rest.entries.elements, after.rest.bytes⟩))
        (storage.drain allocator) := by
  have start : (drainInPlace allocator).run storage.draining = (do
      reserve allocator storage.entries.elements.length
      pushMoved allocator emptied 0 (storage.entries.elements.map Entry.data)
      modify fun memory =>
        { memory with rest := { memory.rest with entries := memory.rest.entries.clear } }
      modify fun memory => { memory with rest := { memory.rest with bytes := 0 } }
      : EStateM Failure (Memory Message Draining) Unit).run storage.draining := rfl
  rw [drain, start]
  rcases reserve_run storage.draining storage.entries.elements.length allocator with
    ⟨reserved, secured, elements, room, rest, requests⟩ | ⟨room, refusal, secured⟩
  · have enough : reserved.buffer.elements.length +
        (storage.entries.elements.map Entry.data).length ≤ reserved.buffer.capacity := by
      rw [elements, List.length_map]
      exact (Nat.zero_add _).trans_le room
    obtain ⟨pushed, moved, contents, -, silent, -⟩ :=
      pushMoved_within enough allocator emptied 0
    rw [run_bind_ok secured, run_bind_ok moved, run_bind_ok (run_modify _ _), run_modify]
    rw [← silent] at requests
    refine ⟨.of_return requests, .of_return ?_⟩
    rw [contents, elements]
    rfl
  · rw [run_bind_error secured]
    exact ⟨.of_refusal rfl refusal, .of_refusal⟩

theorem step_valid {mode : Mode} {storage after : OutgoingStorage} {call : Call}
    (valid : storage.queue.Valid) (made : storage.step mode call = some after) :
    after.queue.Valid := by
  cases call with
  | submit allocator data key =>
    obtain ⟨guarded, agrees⟩ := submit_outcome valid mode allocator data key
    cases outcome : storage.submit mode allocator data key with
    | ok value memory =>
      rw [step, outcome] at made
      cases made
      exact OutgoingQueue.submit_valid valid (agrees.returned memory outcome)
    | error failure memory =>
      obtain ⟨buffer, rest⟩ := guarded.unchanged failure memory outcome
      rw [step, outcome] at made
      cases made
      rw [final, queue, ofCall, buffer, rest]
      exact valid
  | drain allocator =>
    obtain ⟨guarded, drained⟩ := drain_outcome storage allocator
    cases outcome : storage.drain allocator with
    | ok value memory =>
      rw [step, outcome] at made
      cases made
      have left : ({} : OutgoingQueue) = ⟨memory.rest.entries.elements, memory.rest.bytes⟩ :=
        congrArg Prod.snd (Except.ok.inj (drained.returned memory outcome))
      change OutgoingQueue.Valid ⟨memory.rest.entries.elements, memory.rest.bytes⟩
      rw [← left]
      exact OutgoingQueue.valid_empty
    | error failure memory =>
      obtain ⟨-, rest⟩ := guarded.unchanged failure memory outcome
      rw [step, outcome] at made
      cases made
      rw [final, rest]
      exact valid

theorem reachable_valid {mode : Mode} {storage : OutgoingStorage}
    (reachable : Reachable (step mode) {} storage) : storage.queue.Valid := by
  obtain ⟨calls, ran⟩ := reachable
  have keep : ∀ (before : OutgoingStorage) call after, before.queue.Valid →
      before.step mode call = some after → after.queue.Valid :=
    fun _ _ _ valid made => step_valid valid made
  have fresh : ({} : OutgoingStorage).queue.Valid := OutgoingQueue.valid_empty
  exact run_preserves keep fresh ran

end OutgoingStorage

/-- Running out of storage never costs a queue anything: in a call on a queue that any calls have
led to, the one request is the explicit reservation, a refusal leaves the queue as it was, and
otherwise the call does what it does on the queue without storage. -/
theorem allocation_failure_keeps_queues (mode : Mode) :
    (∀ storage, Reachable (ReceivedStorage.step mode) {} storage → ∀ allocator source,
      Guarded allocator (storage.call source) (storage.append mode allocator source) ∧
      Agrees (storage.queue.append mode source)
        (fun after => ((ReceivedStorage.ofCall after).queue, after.rest.source))
        (storage.append mode allocator source)) ∧
    ∀ storage, Reachable (OutgoingStorage.step mode) {} storage → ∀ allocator,
      (∀ data key, Guarded allocator storage.call (storage.submit mode allocator data key) ∧
        Agrees (storage.queue.submit mode data key)
          (fun after => (OutgoingStorage.ofCall after).queue)
          (storage.submit mode allocator data key)) ∧
      Guarded allocator storage.draining (storage.drain allocator) ∧
      Agrees (.ok storage.queue.drain)
        (fun after => (after.buffer.elements, ⟨after.rest.entries.elements, after.rest.bytes⟩))
        (storage.drain allocator) := by
  constructor
  · intro storage reachable allocator source
    exact ReceivedStorage.append_outcome (ReceivedStorage.reachable_valid reachable) mode
      allocator source
  · intro storage reachable allocator
    constructor
    · intro data key
      exact OutgoingStorage.submit_outcome (OutgoingStorage.reachable_valid reachable) mode
        allocator data key
    · exact OutgoingStorage.drain_outcome storage allocator

example : ({} : OutgoingStorage).submit .machine (fun _ => none) [] [] =
    .error .badAlloc { ({} : OutgoingStorage).call with requests := [.reserve 16] } := rfl

end Chimaera.Control
