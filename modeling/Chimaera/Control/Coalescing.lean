import Chimaera.Base.Calls
import Chimaera.Control.Queues

/-! `OutgoingQueue` over whole sequences of calls. `submit` is written out as it changes
the object, so that a throw leaves behind what was done before it. The specification is on
the history: of the submissions accepted since the last drain, those that no later one with
their key supersedes. -/

namespace Chimaera.Control
open Base.Unsigned Base.Calls

/-- The method `submit`, statement by statement. -/
def OutgoingQueue.submitInPlace (mode : Mode) (data : Message) (key : Key) :
    EStateM String OutgoingQueue Unit := do
  let (count, size) ← MonadExcept.ofExcept ((← get).counts mode key)
  if size ≥ maxMessages then throw "controller queue limit exceeded"
  else
    let room ← MonadExcept.ofExcept (mode.sub maxBytes count)
    if data.length > room then throw "controller queue limit exceeded"
    else
      if key ≠ [] then
        modify fun queue =>
          { queue with entries := queue.entries.filter fun entry => entry.key ≠ key }
      let bytes ← MonadExcept.ofExcept (mode.add count data.length)
      modify fun queue => { queue with bytes := bytes }
      modify fun queue => { queue with entries := queue.entries ++ [⟨data, key⟩] }

inductive OutgoingEvent where
  | submit (data : Message) (key : Key)
  | drain
  deriving DecidableEq, Repr

inductive OutgoingResult where
  | returned
  | threw (what : String)
  | drained (batch : Batch)
  deriving DecidableEq, Repr

def OutgoingQueue.perform (mode : Mode) (queue : OutgoingQueue) :
    OutgoingEvent → Option (OutgoingResult × OutgoingQueue)
  | .submit data key =>
      match (OutgoingQueue.submitInPlace mode data key).run queue with
      | .ok _ after => some (.returned, after)
      | .error what after => some (.threw what, after)
  | .drain => some (.drained queue.drain.1, queue.drain.2)

/-! ## The history -/

def Superseded (entry : Entry) (later : List Entry) : Prop :=
  entry.key ≠ [] ∧ ∃ other ∈ later, other.key = entry.key

instance (entry : Entry) (later : List Entry) : Decidable (Superseded entry later) :=
  inferInstanceAs (Decidable (_ ∧ _))

def surviving : List Entry → List Entry
  | [] => []
  | entry :: later => if Superseded entry later then surviving later else entry :: surviving later

def account (pending : List Entry) : OutgoingEvent × OutgoingResult → List Entry
  | (.submit data key, .returned) => pending ++ [⟨data, key⟩]
  | (.submit _ _, _) => pending
  | (.drain, _) => []

def accepted (trace : List (OutgoingEvent × OutgoingResult)) : List Entry :=
  trace.foldl account []

theorem accepted_snoc (trace : List (OutgoingEvent × OutgoingResult))
    (call : OutgoingEvent × OutgoingResult) :
    accepted (trace ++ [call]) = account (accepted trace) call := by
  rw [accepted, List.foldl_append]
  rfl

theorem surviving_subset (entries : List Entry) : surviving entries ⊆ entries := by
  induction entries with
  | nil => exact List.Subset.refl _
  | cons entry later ih =>
    rw [surviving]
    by_cases replaced : Superseded entry later
    · rw [if_pos replaced]
      exact List.subset_cons_of_subset _ ih
    · rw [if_neg replaced]
      exact List.cons_subset_cons _ ih

theorem surviving_distinct (entries : List Entry) :
    (surviving entries).Pairwise fun first second => first.key = second.key → first.key = [] := by
  induction entries with
  | nil => exact .nil
  | cons entry later ih =>
    rw [surviving]
    by_cases replaced : Superseded entry later
    · rwa [if_pos replaced]
    · rw [if_neg replaced]
      apply List.Pairwise.cons ?_ ih
      intro other member same
      by_contra keyed
      exact replaced ⟨keyed, other, surviving_subset later member, same.symm⟩

theorem surviving_snoc (entries : List Entry) (data : Message) (key : Key) :
    surviving (entries ++ [⟨data, key⟩]) =
      (if key ≠ [] then (surviving entries).filter fun entry => entry.key ≠ key
        else surviving entries) ++ [⟨data, key⟩] := by
  induction entries with
  | nil =>
    have last : ¬Superseded ⟨data, key⟩ [] := by rintro ⟨-, other, member, -⟩; cases member
    simp [surviving, last]
  | cons entry later ih =>
    have split : Superseded entry (later ++ [⟨data, key⟩]) ↔
        Superseded entry later ∨ (key ≠ [] ∧ entry.key = key) := by
      simp only [Superseded, List.mem_append, List.mem_singleton, or_and_right, exists_or,
        exists_eq_left]
      constructor
      · rintro ⟨keyed, found | same⟩
        · exact .inl ⟨keyed, found⟩
        · exact .inr ⟨same ▸ keyed, same.symm⟩
      · rintro (⟨keyed, found⟩ | ⟨keyed, same⟩)
        · exact ⟨keyed, .inl found⟩
        · exact ⟨same ▸ keyed, .inr same.symm⟩
    rw [List.cons_append, surviving, surviving, ih]
    by_cases replaced : Superseded entry later
    · rw [if_pos replaced, if_pos (split.mpr (.inl replaced))]
    · rw [if_neg replaced]
      by_cases same : key ≠ [] ∧ entry.key = key
      · rw [if_pos (split.mpr (.inr same)), if_pos same.1, if_pos same.1,
          List.filter_cons_of_neg (by simp [same.2])]
      · have kept : ¬Superseded entry (later ++ [⟨data, key⟩]) := by
          rw [split]
          exact not_or.mpr ⟨replaced, same⟩
        rw [if_neg kept]
        by_cases keyed : key ≠ []
        · have other : entry.key ≠ key := fun equal => same ⟨keyed, equal⟩
          rw [if_pos keyed, if_pos keyed, List.filter_cons_of_pos (by simp [other])]
          rfl
        · rw [if_neg keyed, if_neg keyed]
          rfl

/-! ## One call -/

variable {queue : OutgoingQueue}

/-- The method decides before it writes, so it does what the pure submission says. -/
theorem OutgoingQueue.submitInPlace_run (valid : queue.Valid)
    (mode : Mode) (data : Message) (key : Key) :
    (OutgoingQueue.submitInPlace mode data key).run queue =
      match queue.submit mode data key with
      | .ok after => .ok () after
      | .error what => .error what queue := by
  have light := valid.kept_light key
  rw [OutgoingQueue.submit_eq valid]
  simp only [OutgoingQueue.submitInPlace, EStateM.run_bind, EStateM.run_get, valid.counts_eq,
    mode.sub_exact light maxBytes_lt, ofExcept_ok, pure_bind]
  by_cases room : (queue.kept key).length < maxMessages
  · by_cases fits : payload ((queue.kept key).map Entry.data) + data.length ≤ maxBytes
    · have within := And.intro room fits
      rw [if_neg (by omega), if_neg (by omega), if_pos within]
      simp only [mode.add_exact (lt_of_le_of_lt fits maxBytes_lt), ofExcept_ok, pure_bind]
      by_cases keyed : key ≠ []
      · rw [if_pos keyed, OutgoingQueue.kept, if_pos keyed]
        rfl
      · rw [if_neg keyed, OutgoingQueue.kept, if_neg keyed]
        rfl
    · rw [if_neg (by omega), if_pos (by omega), if_neg fun both => fits both.2]
      rfl
  · rw [if_pos (by omega), if_neg fun both => room both.1]
    rfl

theorem admissible_snoc (entries : List Entry) (data : Message) :
    Admissible (entries.map Entry.data ++ [data]) ↔ entries.length < maxMessages ∧
      payload (entries.map Entry.data) + data.length ≤ maxBytes := by
  rw [Admissible, List.length_append, List.length_singleton, List.length_map, Nat.succ_le_iff,
    payload_append, payload_cons, payload_nil]
  rfl

theorem OutgoingQueue.perform_submit (valid : queue.Valid) (mode : Mode)
    {data : Message} {key : Key} (fits : Admissible ((queue.kept key).map Entry.data ++ [data])) :
    queue.perform mode (.submit data key) = some (.returned,
      ⟨queue.kept key ++ [⟨data, key⟩],
        payload ((queue.kept key).map Entry.data) + data.length⟩) := by
  rw [admissible_snoc] at fits
  rw [OutgoingQueue.perform, OutgoingQueue.submitInPlace_run valid,
    OutgoingQueue.submit_eq valid, if_pos fits]

theorem OutgoingQueue.perform_refused (valid : queue.Valid) (mode : Mode) {data : Message}
    {key : Key} (excess : ¬Admissible ((queue.kept key).map Entry.data ++ [data])) :
    queue.perform mode (.submit data key) =
      some (.threw "controller queue limit exceeded", queue) := by
  rw [admissible_snoc] at excess
  rw [OutgoingQueue.perform, OutgoingQueue.submitInPlace_run valid,
    OutgoingQueue.submit_eq valid, if_neg excess]

structure OutgoingQueue.Recorded (trace : List (OutgoingEvent × OutgoingResult))
    (queue : OutgoingQueue) : Prop where
  valid : queue.Valid
  entries : queue.entries = surviving (accepted trace)

theorem OutgoingQueue.Recorded.kept {trace : List (OutgoingEvent × OutgoingResult)}
    (recorded : queue.Recorded trace) (data : Message) (key : Key) :
    surviving (accepted trace ++ [⟨data, key⟩]) = queue.kept key ++ [⟨data, key⟩] := by
  rw [surviving_snoc, ← recorded.entries]
  rfl

theorem OutgoingQueue.Recorded.answer (trace : List (OutgoingEvent × OutgoingResult))
    (queue : OutgoingQueue) (event : OutgoingEvent) (recorded : queue.Recorded trace) :
    ∃ result after, (∀ mode, queue.perform mode event = some (result, after)) ∧
      after.Recorded (trace ++ [(event, result)]) := by
  cases event with
  | drain =>
    refine ⟨.drained queue.drain.1, {}, fun _ => rfl, OutgoingQueue.valid_empty, ?_⟩
    rw [accepted_snoc]
    rfl
  | submit data key =>
    by_cases fits : Admissible ((queue.kept key).map Entry.data ++ [data])
    · refine ⟨.returned, _, fun mode => OutgoingQueue.perform_submit recorded.valid mode fits,
        ⟨?_, ?_⟩, ?_⟩
      · simp [OutgoingQueue.contents]
      · simpa [OutgoingQueue.contents] using fits
      · rw [accepted_snoc]
        exact (recorded.kept data key).symm
    · refine ⟨_, queue, fun mode => OutgoingQueue.perform_refused recorded.valid mode fits,
        recorded.valid, ?_⟩
      rw [accepted_snoc]
      exact recorded.entries

/-! ## Whole sequences -/

/-- The queue as its callers see it, after submissions of which `accepted` were accepted
since the last drain. -/
structure OutgoingQueue.Coalesces (queue : OutgoingQueue) (accepted : List Entry) : Prop where
  counted : queue.bytes = payload (queue.entries.map Entry.data)
  few : queue.entries.length ≤ maxMessages
  light : queue.bytes ≤ maxBytes
  distinct : queue.entries.Pairwise fun first second =>
    first.key = second.key → first.key = []
  unwrapped : ∀ event after, queue.perform .trapping event ≠ some (.threw wrapped, after)
  throws : ∀ mode data key, (∃ what after,
    queue.perform mode (.submit data key) = some (.threw what, after)) ↔
      ¬Admissible ((queue.entries.filter fun entry => key = [] ∨ entry.key ≠ key).map Entry.data
        ++ [data])
  unchanged : ∀ mode data key what after,
    queue.perform mode (.submit data key) = some (.threw what, after) → after = queue
  drains : ∀ mode, queue.perform mode .drain =
    some (.drained ((surviving accepted).map Entry.data), {})

theorem OutgoingQueue.kept_eq_filter (queue : OutgoingQueue) (key : Key) :
    queue.kept key = queue.entries.filter fun entry => key = [] ∨ entry.key ≠ key := by
  by_cases keyed : key = []
  · rw [OutgoingQueue.kept, if_neg (not_not.mpr keyed), List.filter_eq_self.mpr]
    simp [keyed]
  · simp [OutgoingQueue.kept, keyed]

/-- A submission that throws is one outside the limits, and it has written nothing. -/
theorem OutgoingQueue.perform_threw {queue after : OutgoingQueue} (valid : queue.Valid)
    {mode : Mode} {data : Message} {key : Key} {what : String}
    (threw : queue.perform mode (.submit data key) = some (.threw what, after)) :
    ¬Admissible ((queue.kept key).map Entry.data ++ [data]) ∧
      what = "controller queue limit exceeded" ∧ after = queue := by
  by_cases fits : Admissible ((queue.kept key).map Entry.data ++ [data])
  · rw [OutgoingQueue.perform_submit valid mode fits] at threw
    cases threw
  · rw [OutgoingQueue.perform_refused valid mode fits] at threw
    cases threw
    exact ⟨fits, rfl, rfl⟩

theorem OutgoingQueue.Recorded.coalesces {trace : List (OutgoingEvent × OutgoingResult)}
    (recorded : queue.Recorded trace) :
    queue.Coalesces (accepted trace) where
  counted := recorded.valid.counted
  few := by
    simpa only [OutgoingQueue.contents, List.length_map] using recorded.valid.admissible.1
  light := recorded.valid.counted ▸ recorded.valid.admissible.2
  distinct := recorded.entries ▸ surviving_distinct _
  unwrapped event after threw := by
    cases event with
    | drain => cases threw
    | submit data key =>
      have text := (OutgoingQueue.perform_threw recorded.valid threw).2.1
      exact absurd text (by decide)
  throws mode data key := by
    rw [← OutgoingQueue.kept_eq_filter]
    constructor
    · rintro ⟨what, after, threw⟩
      exact (OutgoingQueue.perform_threw recorded.valid threw).1
    · intro excess
      exact ⟨_, _, OutgoingQueue.perform_refused recorded.valid mode excess⟩
  unchanged mode data key what after threw :=
    (OutgoingQueue.perform_threw recorded.valid threw).2.2
  drains mode := by
    rw [← recorded.entries]
    rfl

/-- Every sequence of calls returns, with one trace under both readings of the arithmetic. -/
theorem outgoing_coalesces (events : List OutgoingEvent) :
    ∃ trace queue, (∀ mode, calls (OutgoingQueue.perform mode) {} events = some (trace, queue)) ∧
      queue.Coalesces (accepted trace) := by
  obtain ⟨trace, queue, made, recorded⟩ := calls_total OutgoingQueue.Recorded
    ⟨OutgoingQueue.valid_empty, rfl⟩ OutgoingQueue.Recorded.answer events
  exact ⟨trace, queue, made, recorded.coalesces⟩

end Chimaera.Control
