import Chimaera.Base.Calls
import Chimaera.Control.Queues

/-! `ReceivedQueue` over whole sequences of calls. The cursor, the consumed slots and the
byte count are a representation of a plain list of messages; `append` is written out as it
changes the queue and the batch it is given. -/

namespace Chimaera.Control
open Base.Unsigned Base.Calls

/-- The method `append`, statement by statement, over the queue and its argument. -/
def ReceivedQueue.appendInPlace (mode : Mode) : EStateM String (ReceivedQueue × Batch) Unit := do
  let (queue, source) ← MonadState.get
  let count ← MonadExcept.ofExcept (mode.sub queue.messages.length queue.next)
  let addedBytes ← MonadExcept.ofExcept (Control.bytes mode source)
  if count + source.length > maxMessages then throw "controller queue limit exceeded"
  else
    let room ← MonadExcept.ofExcept (mode.sub maxBytes queue.bytes)
    if addedBytes > room then throw "controller queue limit exceeded"
    else if source.isEmpty then pure ()
    else
      if queue.next ≠ 0 then
        modify fun (queue, source) =>
          ({ queue with messages := queue.messages.drop queue.next, next := 0 }, source)
      -- The pushed messages are moved out of the batch.
      modify fun (queue, source) =>
        ({ queue with messages := queue.messages ++ source }, source.map fun _ => [])
      let total ← MonadExcept.ofExcept (mode.add queue.bytes addedBytes)
      modify fun (queue, source) => ({ queue with bytes := total }, source)
      modify fun (queue, _) => (queue, [])

inductive ReceivedEvent where
  | append (source : Batch)
  | take
  | drain
  deriving DecidableEq, Repr

inductive ReceivedResult where
  | appended (source : Batch)
  | threw (what : String) (source : Batch)
  | took (message : Option Message)
  | drained (batch : Batch)
  deriving DecidableEq, Repr

def ReceivedQueue.perform (mode : Mode) (queue : ReceivedQueue) :
    ReceivedEvent → Option (ReceivedResult × ReceivedQueue)
  | .append source =>
      match (ReceivedQueue.appendInPlace mode).run (queue, source) with
      | .ok _ (after, left) => some (.appended left, after)
      | .error what (after, left) => some (.threw what left, after)
  | .take =>
      match queue.take mode with
      | .ok (message, after) => some (.took message, after)
      | .error what => some (.threw what [], queue)
  | .drain => some (.drained queue.drain.1, queue.drain.2)

/-- The queue the representation stands for: a list of messages under two limits. -/
def fifo (pending : Batch) : ReceivedEvent → Option (ReceivedResult × Batch)
  | .append source =>
      if Admissible (pending ++ source) then some (.appended [], pending ++ source)
      else some (.threw (refusal source) source, pending)
  | .take => some (.took pending.head?, pending.tail)
  | .drain => some (.drained pending, [])

variable {queue : ReceivedQueue}

theorem ReceivedQueue.appendInPlace_run (valid : queue.Valid) (mode : Mode) (source : Batch) :
    (ReceivedQueue.appendInPlace mode).run (queue, source) =
      match queue.append mode source with
      | .ok (after, left) => .ok () (after, left)
      | .error what => .error what (queue, source) := by
  simp only [ReceivedQueue.appendInPlace, ReceivedQueue.append, EStateM.run_bind, EStateM.run_get,
    valid.count_eq, valid.room_eq, ofExcept_ok, pure_bind, ok_bind]
  cases Control.bytes mode source with
  | error what => rfl
  | ok addedBytes =>
    simp only [ofExcept_ok, EStateM.run_pure, ok_bind]
    by_cases crowded : queue.contents.length + source.length > maxMessages
    · rw [if_pos crowded, if_pos crowded]
      rfl
    rw [if_neg crowded, if_neg crowded]
    by_cases heavy : addedBytes > maxBytes - queue.bytes
    · rw [if_pos heavy, if_pos heavy]
      rfl
    rw [if_neg heavy, if_neg heavy]
    by_cases none : source.isEmpty
    · rw [if_pos none, if_pos none]
      rfl
    rw [if_neg none, if_neg none]
    have light := valid.light
    have bound := maxBytes_lt
    simp only [mode.add_exact (show queue.bytes + addedBytes < modulus by omega), ofExcept_ok,
      pure_bind, ok_bind]
    by_cases consumed : queue.next ≠ 0
    · rw [if_pos consumed, if_pos consumed]
      rfl
    · rw [if_neg consumed, if_neg consumed]
      rfl

theorem ReceivedQueue.perform_append (valid : queue.Valid)
    (source : Batch) (fits : Admissible (queue.contents ++ source)) :
    ∃ after : ReceivedQueue,
      (∀ mode, queue.perform mode (.append source) = some (.appended [], after)) ∧
      after.contents = queue.contents ++ source ∧ after.Valid := by
  obtain ⟨after, appended, contents, kept⟩ := ReceivedQueue.append_ok valid source fits
  refine ⟨after, fun mode => ?_, contents, kept⟩
  rw [ReceivedQueue.perform, ReceivedQueue.appendInPlace_run valid, appended mode]

theorem ReceivedQueue.perform_refused (valid : queue.Valid)
    (source : Batch) (excess : ¬Admissible (queue.contents ++ source)) (mode : Mode) :
    queue.perform mode (.append source) = some (.threw (refusal source) source, queue) := by
  rw [ReceivedQueue.perform, ReceivedQueue.appendInPlace_run valid,
    ReceivedQueue.append_refused valid source excess]

structure ReceivedQueue.Represents (trace : List (ReceivedEvent × ReceivedResult))
    (queue : ReceivedQueue) : Prop where
  valid : queue.Valid
  fifo : calls fifo [] (trace.map Prod.fst) = some (trace, queue.contents)

theorem ReceivedQueue.Represents.extend {trace : List (ReceivedEvent × ReceivedResult)}
    {queue after : ReceivedQueue} (represents : queue.Represents trace) {event : ReceivedEvent}
    {result : ReceivedResult} (valid : after.Valid)
    (answered : Control.fifo queue.contents event = some (result, after.contents)) :
    after.Represents (trace ++ [(event, result)]) := by
  refine ⟨valid, ?_⟩
  rw [List.map_append]
  exact calls_snoc represents.fifo answered

theorem ReceivedQueue.Represents.answer (trace : List (ReceivedEvent × ReceivedResult))
    (queue : ReceivedQueue) (event : ReceivedEvent) (represents : queue.Represents trace) :
    ∃ result after, (∀ mode, queue.perform mode event = some (result, after)) ∧
      after.Represents (trace ++ [(event, result)]) := by
  have valid := represents.valid
  cases event with
  | append source =>
    by_cases fits : Admissible (queue.contents ++ source)
    · obtain ⟨after, performed, contents, kept⟩ :=
        ReceivedQueue.perform_append valid source fits
      refine ⟨.appended [], after, performed, represents.extend kept ?_⟩
      rw [Control.fifo, if_pos fits, contents]
    · refine ⟨_, queue, ReceivedQueue.perform_refused valid source fits, represents.extend valid ?_⟩
      rw [Control.fifo, if_neg fits]
  | take =>
    obtain ⟨after, taken, contents, kept⟩ := ReceivedQueue.take_spec valid
    refine ⟨.took queue.contents.head?, after, fun mode => ?_, represents.extend kept ?_⟩
    · rw [ReceivedQueue.perform, taken mode]
    · rw [Control.fifo, contents]
  | drain =>
    exact ⟨.drained queue.contents, {}, fun _ => rfl,
      represents.extend ReceivedQueue.valid_empty rfl⟩

structure ReceivedQueue.Bounded (queue : ReceivedQueue) : Prop where
  counted : queue.bytes = payload queue.contents
  cursor : queue.next ≤ queue.messages.length
  unwrapped : ∀ event left after, queue.perform .trapping event ≠ some (.threw wrapped left, after)
  throws : ∀ mode source, (∃ what left after,
    queue.perform mode (.append source) = some (.threw what left, after)) ↔
      ¬Admissible (queue.contents ++ source)
  unchanged : ∀ mode source what left after,
    queue.perform mode (.append source) = some (.threw what left, after) →
      after = queue ∧ left = source

theorem ReceivedQueue.perform_threw {queue after : ReceivedQueue} (valid : queue.Valid)
    {mode : Mode} {source left : Batch} {what : String}
    (threw : queue.perform mode (.append source) = some (.threw what left, after)) :
    ¬Admissible (queue.contents ++ source) ∧ what = refusal source ∧
      after = queue ∧ left = source := by
  by_cases fits : Admissible (queue.contents ++ source)
  · obtain ⟨next, performed, -⟩ := ReceivedQueue.perform_append valid source fits
    rw [performed mode] at threw
    cases threw
  · rw [ReceivedQueue.perform_refused valid source fits] at threw
    cases threw
    exact ⟨fits, rfl, rfl, rfl⟩

theorem ReceivedQueue.Valid.bounded (valid : queue.Valid) :
    queue.Bounded where
  counted := valid.counted
  cursor := valid.cursor
  unwrapped event left after threw := by
    cases event with
    | append source =>
      have text := (ReceivedQueue.perform_threw valid threw).2.1
      exact (refusal_named source).2 text.symm
    | take =>
      obtain ⟨next, taken, -⟩ := ReceivedQueue.take_spec valid
      rw [ReceivedQueue.perform, taken] at threw
      cases threw
    | drain => cases threw
  throws mode source := by
    constructor
    · rintro ⟨what, left, after, threw⟩
      exact (ReceivedQueue.perform_threw valid threw).1
    · intro excess
      exact ⟨_, _, _, ReceivedQueue.perform_refused valid source excess mode⟩
  unchanged mode source what left after threw := (ReceivedQueue.perform_threw valid threw).2.2

/-- Every sequence of calls returns what the list returns, under both readings of the
arithmetic, and ends with the list as the unconsumed messages. -/
theorem received_refines_fifo (events : List ReceivedEvent) :
    ∃ trace queue, (∀ mode, calls (ReceivedQueue.perform mode) {} events = some (trace, queue)) ∧
      calls fifo [] events = some (trace, queue.contents) ∧ queue.Bounded := by
  obtain ⟨trace, queue, made, represents⟩ := calls_total ReceivedQueue.Represents
    ⟨ReceivedQueue.valid_empty, rfl⟩ ReceivedQueue.Represents.answer events
  have listed := represents.fifo
  rw [calls_events (made .machine)] at listed
  exact ⟨trace, queue, made, listed, represents.valid.bounded⟩

end Chimaera.Control
