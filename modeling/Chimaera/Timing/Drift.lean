import Mathlib.Algebra.BigOperators.Ring.List
import Chimaera.Base.Tracking
import Chimaera.Base.Transition
import Chimaera.Timing.Steps

/-! The cumulative error of a timing session. A run is a list of `start`/`wait` pairs with
the interval replies of a server that misses each request by a bounded number of ticks. -/

namespace Chimaera.Timing
open Base.Text Base.Unsigned Base.Tracking Base.Transition

/-- One pair: the interval asked for, the ticks on the wire and those of the reply. -/
structure Step where
  interval : Int
  requested : Nat
  start : Nat
  finish : Nat
  deriving DecidableEq, Repr

def pair (mode : Mode) (client : Client) (step : Step) : Option Client :=
  match client.start mode step.interval .sent with
  | (.error _, _) => none
  | (.ok _, waiting) =>
      if waiting.sent = client.sent ++ [Client.stepCommand step.requested] then
        match waiting.wait mode (.bytes (okLine step.start step.finish ++ ['\n'])) with
        | (.error _, _) => none
        | (.ok _, after) => some after
      else none

/-- A reply within `E` ticks of the request, with an interval for which a correction by `E` stays
below the cap `max_step_ticks`. A request of no ticks keeps gem5 paused. -/
structure Tolerated (E : Nat) (step : Step) : Prop where
  cap : 1000 * step.interval + E ≤ maxStepTicks
  startBound : step.start < modulus
  finishBound : step.finish < modulus
  still : step.requested = 0 → step.finish = step.start
  near : step.requested ≠ 0 → |(step.finish : Int) - step.start - step.requested| ≤ E

namespace Client

structure Live (client : Client) : Prop where
  ranged : client.InRange
  usable : client.Usable
  unfinished : client.finished = false

theorem stepCommand_injective {a b : Nat} (same : stepCommand a = stepCommand b) : a = b := by
  unfold stepCommand at same
  have digits : decimal a = decimal b :=
    List.append_cancel_left (List.append_cancel_right same)
  rw [← number_decimal a, digits, number_decimal]

variable {client after : Client}

theorem start_ok_cases {mode : Mode} {interval : Int} (live : client.Live)
    (started : client.start mode interval .sent = (.ok (), after)) :
    Interval interval ∧ ¬client.Overflows interval ∧ after = client.stepping interval := by
  have range : Interval interval := by
    unfold start at started
    split_ifs at started with finished outside
    · simp [throw] at started
    · simp [throw] at started
    · constructor <;> omega
  rw [start_sent mode live.ranged live.usable live.unfinished range] at started
  by_cases overflow : client.Overflows interval
  · simp [overflow, throw] at started
  · rw [if_neg overflow, Prod.mk.injEq] at started
    exact ⟨range, overflow, started.2.symm⟩

theorem path_of_start_ok {mode : Mode} {interval : Int} {delivery : Delivery}
    (started : client.start mode interval delivery = (.ok (), after)) :
    client.validEndpoint = true := by
  by_contra invalid
  have refused : ∀ command, ∃ fault, client.request command false delivery = (.error fault, client) := by
    intro command
    unfold request
    by_cases pending : client.pending = true
    · exact ⟨_, if_pos pending⟩
    · rw [if_neg pending]
      by_cases ended : (client.stopped || client.failed) = true
      · exact ⟨_, if_pos ended⟩
      · rw [if_neg ended]
        exact ⟨_, if_pos (by simp [invalid])⟩
  unfold start at started
  split_ifs at started
  · simp [throw] at started
  · simp [throw] at started
  · cases planned : client.plan mode interval with
    | error fault => simp [planned] at started
    | ok result =>
      obtain ⟨fault, request⟩ := refused (stepCommand result.2.2)
      simp [planned, request] at started

theorem wait_ok_cases {mode : Mode} {start finish : Nat} (pending : client.pending = true)
    (startBound : start < modulus) (finishBound : finish < modulus)
    (completed : client.wait mode (.bytes (okLine start finish ++ ['\n'])) = (.ok (), after)) :
    client.Continues start finish ∧ after = client.settled start finish := by
  have continues := continues_of_wait_ok pending startBound finishBound completed
  rw [wait_okLine mode pending startBound finishBound continues, Prod.mk.injEq] at completed
  exact ⟨continues, completed.2.symm⟩

end Client

open Client

variable {client after : Client}

theorem pair_eq_some {mode : Mode} {step : Step} :
    pair mode client step = some after ↔
      ∃ waiting, client.start mode step.interval .sent = (.ok (), waiting) ∧
        waiting.sent = client.sent ++ [stepCommand step.requested] ∧
        waiting.wait mode (.bytes (okLine step.start step.finish ++ ['\n'])) = (.ok (), after) := by
  unfold pair
  constructor
  · intro taken
    split at taken
    · cases taken
    · rename_i waiting started
      split_ifs at taken with command
      split at taken
      · cases taken
      · rename_i settled waited
        cases taken
        exact ⟨waiting, started, command, waited⟩
  · rintro ⟨waiting, started, command, waited⟩
    simp only [started, command, if_true, waited]

/-- What a pair is, without its arithmetic: the mode plays no part in it. -/
theorem pair_eq_some_iff (mode : Mode) {client after : Client} {step : Step} (live : client.Live)
    (startBound : step.start < modulus) (finishBound : step.finish < modulus) :
    pair mode client step = some after ↔
      Interval step.interval ∧ ¬client.Overflows step.interval ∧
        step.requested = client.requested step.interval ∧
        (client.stepping step.interval).Continues step.start step.finish ∧
        after = (client.stepping step.interval).settled step.start step.finish := by
  rw [pair_eq_some]
  constructor
  · rintro ⟨waiting, started, command, waited⟩
    obtain ⟨range, fits, rfl⟩ := start_ok_cases live started
    obtain ⟨continues, settled⟩ := wait_ok_cases rfl startBound finishBound waited
    have same : [stepCommand (client.requested step.interval)] = [stepCommand step.requested] :=
      List.append_cancel_left command
    have requested := stepCommand_injective (List.head_eq_of_cons_eq same)
    exact ⟨range, fits, requested.symm, continues, settled⟩
  · rintro ⟨range, fits, requested, continues, rfl⟩
    refine ⟨client.stepping step.interval, ?_, ?_, ?_⟩
    · rw [start_sent mode live.ranged live.usable live.unfinished range, if_neg fits]
    · rw [requested]
      rfl
    · exact wait_okLine mode rfl startBound finishBound continues

/-! ## One pair -/

section Pair

variable {client : Client} {step : Step} {E : Nat}

theorem live_after (live : client.Live) (finishBound : step.finish < modulus)
    (fits : ¬client.Overflows step.interval)
    (continues : (client.stepping step.interval).Continues step.start step.finish) :
    ((client.stepping step.interval).settled step.start step.finish).Live := by
  have ordered := live.ranged.ordered
  have forward := continues.forward
  constructor
  · cases anchored : client.anchored with
    | true =>
      have joined : step.start = client.lastTick := continues.joined anchored
      have inside : ¬modulus ≤ client.targetTick + nominal step.interval := fun outside =>
        fits ⟨anchored, outside⟩
      constructor
      · simp only [settled, stepping, anchored, if_true]
        omega
      · exact finishBound
      · simp only [settled, stepping, anchored, if_true]
        omega
    | false =>
      have room : step.start + nominal step.interval < modulus := continues.room anchored
      constructor
      · simp only [settled, stepping, anchored]
        exact room
      · exact finishBound
      · simp only [settled, stepping, anchored]
        exact forward
  · exact ⟨rfl, live.usable.running, live.usable.sound, live.usable.path⟩
  · exact live.unfinished

theorem nominal_cast {interval : Int} (range : Interval interval) :
    (nominal interval : Int) = 1000 * interval := by
  have positive := range.positive
  unfold nominal
  omega

theorem first_corrects (fresh : client.anchored = false) (tolerated : Tolerated E step)
    (range : Interval step.interval) (requested : step.requested = client.requested step.interval) :
    Corrects (E : Int) step.start step.start (1000 * step.interval) step.finish := by
  have positive := range.positive
  have scaled := nominal_cast range
  have whole : step.requested = nominal step.interval := by
    rw [requested, Client.requested, fresh, if_neg Bool.false_ne_true,
      Nat.min_eq_left range.nominal_le]
  constructor
  · omega
  · intro ahead
    omega
  · intro behind
    have near := tolerated.near (by omega)
    have missing : (step.start : Int) + 1000 * step.interval - step.start = step.requested := by omega
    rwa [missing]

/-- A later pair asks for what is missing: within the tolerance the cap plays no part. -/
theorem later_corrects (anchored : client.anchored = true) (tolerated : Tolerated E step)
    (range : Interval step.interval) (requested : step.requested = client.requested step.interval)
    (joined : step.start = client.lastTick)
    (near : |(client.lastTick : Int) - client.targetTick| ≤ E) :
    Corrects (E : Int) client.targetTick client.lastTick (1000 * step.interval) step.finish := by
  have positive := range.positive
  have scaled := nominal_cast range
  have cap := tolerated.cap
  have behindBy := (abs_le.mp near).1
  have uncapped : client.targetTick + nominal step.interval - client.lastTick ≤ maxStepTicks := by
    omega
  have whole : step.requested = client.targetTick + nominal step.interval - client.lastTick := by
    rw [requested, Client.requested, anchored, if_pos rfl, Nat.min_eq_left uncapped]
  constructor
  · omega
  · intro ahead
    have still := tolerated.still (by omega)
    omega
  · intro behind
    have missed := tolerated.near (by omega)
    have missing : (client.targetTick : Int) + 1000 * step.interval - client.lastTick =
        step.requested := by omega
    rwa [missing, ← joined]

end Pair

/-! ## Runs -/

/-- The mode plays no part in a run: no operation of it wraps. -/
theorem run_pair_mode {client : Client} (live : client.Live) {steps : List Step}
    (bounds : ∀ step ∈ steps, step.start < modulus ∧ step.finish < modulus) (mode other : Mode)
    {after : Client} (ran : run (pair mode) client steps = some after) :
    run (pair other) client steps = some after := by
  induction steps generalizing client with
  | nil => exact ran
  | cons step steps ih =>
    obtain ⟨next, taken, later⟩ := (run_cons _ _ _ _ _).mp ran
    obtain ⟨startBound, finishBound⟩ := bounds step List.mem_cons_self
    have facts := (pair_eq_some_iff mode live startBound finishBound).mp taken
    have again := (pair_eq_some_iff other live startBound finishBound).mpr facts
    obtain ⟨-, fits, -, continues, rfl⟩ := facts
    have rest := ih (live_after live finishBound fits continues)
      (fun step member => bounds step (List.mem_cons_of_mem _ member)) later
    exact (run_cons _ _ _ _ _).mpr ⟨_, again, rest⟩

structure Followed (E : Nat) (target position : Int) (first : Nat) (sent : List Line)
    (steps : List Step) (client : Client) : Prop where
  live : client.Live
  anchored : client.anchored = true
  path : Path (E : Int) target position (steps.map fun step => 1000 * step.interval)
    client.targetTick client.lastTick
  origin : client.firstTick = first
  sent : client.sent = sent ++ steps.map fun step => stepCommand step.requested
  capped : ∀ step ∈ steps, step.requested ≤ maxStepTicks

variable {steps : List Step}

theorem Followed.cons {E : Nat} {target position : Int} {first : Nat} {sent : List Line}
    {step : Step} {before client : Client}
    (round : Corrects (E : Int) target position (1000 * step.interval) step.finish)
    (requested : step.requested = before.requested step.interval)
    (rest : Followed E (target + 1000 * step.interval) step.finish first
      (sent ++ [stepCommand (before.requested step.interval)]) steps client) :
    Followed E target position first sent (step :: steps) client := by
  constructor
  · exact rest.live
  · exact rest.anchored
  · exact .round round rest.path
  · exact rest.origin
  · rw [rest.sent, ← requested, List.append_assoc]
    rfl
  · intro other member
    rcases List.mem_cons.mp member with rfl | member
    · exact requested ▸ requested_le _ _
    · exact rest.capped other member

theorem later_pairs {E : Nat} (live : client.Live) (anchored : client.anchored = true)
    (near : |(client.lastTick : Int) - client.targetTick| ≤ E)
    (tolerated : ∀ step ∈ steps, Tolerated E step)
    (ran : run (pair .machine) client steps = some after) :
    Followed E client.targetTick client.lastTick client.firstTick client.sent steps after := by
  induction steps generalizing client with
  | nil =>
    cases ran
    exact ⟨live, anchored, .done _ _, rfl, (List.append_nil _).symm, by simp⟩
  | cons step steps ih =>
    obtain ⟨next, taken, later⟩ := (run_cons _ _ _ _ _).mp ran
    have tolerance := tolerated step List.mem_cons_self
    obtain ⟨range, fits, requested, continues, rfl⟩ :=
      (pair_eq_some_iff .machine live tolerance.startBound tolerance.finishBound).mp taken
    have joined : step.start = client.lastTick := continues.joined anchored
    have round := later_corrects anchored tolerance range requested joined near
    have moved : ((client.targetTick + nominal step.interval : Nat) : Int) =
        client.targetTick + 1000 * step.interval := by
      rw [Nat.cast_add, nominal_cast range]
    have rest := ih (live_after live tolerance.finishBound fits continues) rfl
      (by
        simp only [settled, stepping, anchored, if_true, moved]
        exact round.near near)
      (fun step member => tolerated step (List.mem_cons_of_mem _ member)) later
    simp only [settled, stepping, anchored, if_true, moved] at rest
    exact .cons round requested rest

theorem all_pairs {E : Nat} {step : Step} (live : client.Live) (fresh : client.anchored = false)
    (tolerated : ∀ other ∈ step :: steps, Tolerated E other)
    (ran : run (pair .machine) client (step :: steps) = some after) :
    Followed E step.start step.start step.start client.sent (step :: steps) after := by
  obtain ⟨next, taken, later⟩ := (run_cons _ _ _ _ _).mp ran
  have tolerance := tolerated step List.mem_cons_self
  obtain ⟨range, fits, requested, continues, rfl⟩ :=
    (pair_eq_some_iff .machine live tolerance.startBound tolerance.finishBound).mp taken
  have round := first_corrects fresh tolerance range requested
  have moved : ((step.start + nominal step.interval : Nat) : Int) =
      step.start + 1000 * step.interval := by
    rw [Nat.cast_add, nominal_cast range]
  have rest := later_pairs (live_after live tolerance.finishBound fits continues) rfl
    (by
      simp only [settled, stepping, fresh, if_neg Bool.false_ne_true, moved]
      exact round.near (by simp))
    (fun step member => tolerated step (List.mem_cons_of_mem _ member)) later
  simp only [settled, stepping, fresh, if_neg Bool.false_ne_true, moved] at rest
  exact .cons round requested rest

theorem elapsedTicks_eq (mode : Mode) {client : Client} (ranged : client.InRange)
    (anchored : client.anchored = true) :
    client.elapsedTicks mode = .ok (client.lastTick - client.firstTick) := by
  unfold Client.elapsedTicks
  rw [if_pos anchored, mode.sub_exact ranged.ordered ranged.last]

theorem live_of_create {endpoint : Line} {timeout : Int} {fresh : Client}
    (created : Client.create endpoint timeout = .ok fresh) (path : fresh.validEndpoint = true) :
    fresh.Live ∧ fresh = { endpoint := endpoint, timeout := timeout } := by
  unfold Client.create at created
  split_ifs at created
  cases created
  have zero : 0 < modulus := by decide
  exact ⟨⟨⟨zero, zero, le_rfl⟩, ⟨rfl, rfl, rfl, path⟩, rfl⟩, rfl⟩

/-- After every pair of every session the ideal target is the first start plus all the
intervals, gem5 is within one step's error of it, and every request keeps to the cap. The
trapping reading runs alike, so nothing wraps. -/
theorem drift_bounded {endpoint : Line} {timeout : Int} {fresh client : Client} {E : Nat}
    {first : Step} (created : Client.create endpoint timeout = .ok fresh)
    (tolerated : ∀ step ∈ first :: steps, Tolerated E step)
    (ran : run (pair .machine) fresh (first :: steps) = some client) :
    (client.targetTick : Int) =
        first.start + 1000 * ((first :: steps).map fun step => step.interval).sum ∧
      |(client.lastTick : Int) - client.targetTick| ≤ E ∧
      client.sent = (first :: steps).map (fun step => stepCommand step.requested) ∧
      (∀ step ∈ first :: steps, step.requested ≤ maxStepTicks) ∧
      run (pair .trapping) fresh (first :: steps) = some client ∧
      ∀ mode, client.elapsedTicks mode = .ok (client.lastTick - first.start) ∧
        first.start ≤ client.lastTick := by
  obtain ⟨next, taken, -⟩ := (run_cons _ _ _ _ _).mp ran
  obtain ⟨waiting, started, -, -⟩ := pair_eq_some.mp taken
  obtain ⟨live, rfl⟩ := live_of_create created (path_of_start_ok started)
  have followed := all_pairs live rfl tolerated ran
  have bounds : ∀ step ∈ first :: steps, step.start < modulus ∧ step.finish < modulus :=
    fun step member => ⟨(tolerated step member).startBound, (tolerated step member).finishBound⟩
  refine ⟨?_, ?_, followed.sent, followed.capped, run_pair_mode live bounds .machine .trapping ran, ?_⟩
  · rw [followed.path.target_eq, List.sum_map_mul_left]
  · exact followed.path.near (by simp)
  · intro mode
    have elapsed := elapsedTicks_eq mode followed.live.ranged followed.anchored
    have ordered := followed.live.ranged.ordered
    rw [followed.origin] at elapsed ordered
    exact ⟨elapsed, ordered⟩

def unsteady : List Step :=
  [⟨1, 1000, 0, 3000⟩, ⟨1, 0, 3000, 3000⟩, ⟨2, 1000, 3000, 3500⟩]

theorem drift_bounded_unsteady : ∃ fresh client,
    Client.create (text "/tmp/time.sock") 300 = .ok fresh ∧
      run (pair .machine) fresh unsteady = some client ∧
      (∀ step ∈ unsteady, Tolerated 2000 step) ∧ client.targetTick = 4000 ∧
      |(client.lastTick : Int) - client.targetTick| ≤ (2000 : Nat) := by
  have tolerated : ∀ step ∈ unsteady, Tolerated 2000 step := by
    intro step member
    simp only [unsteady, List.mem_cons, List.not_mem_nil, or_false] at member
    rcases member with rfl | rfl | rfl
    all_goals constructor <;> decide
  have ran : run (pair .machine) { endpoint := text "/tmp/time.sock", timeout := 300 } unsteady =
      some { endpoint := text "/tmp/time.sock", timeout := 300, nominalTicks := 2000,
             targetTick := 4000, lastTick := 3500, anchored := true,
             sent := [stepCommand 1000, stepCommand 0, stepCommand 1000] } := by decide +kernel
  have created : Client.create (text "/tmp/time.sock") 300 =
      .ok { endpoint := text "/tmp/time.sock", timeout := 300 } := by decide
  have bounded := drift_bounded created tolerated ran
  exact ⟨_, _, created, ran, tolerated, rfl, bounded.2.1⟩

end Chimaera.Timing
