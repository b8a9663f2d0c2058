import Mathlib.Tactic.SplitIfs
import Chimaera.Timing.Replies

/-! What the client's operations come to when the socket works: the arithmetic of `start`
without wrapping, and the effect of each kind of reply. -/

namespace Chimaera.Timing.Client
open Base.Text Base.Unsigned

structure InRange (client : Client) : Prop where
  target : client.targetTick < modulus
  last : client.lastTick < modulus
  ordered : client.firstTick ≤ client.lastTick

structure Usable (client : Client) : Prop where
  idle : client.pending = false
  running : client.stopped = false
  sound : client.failed = false
  path : client.validEndpoint = true

structure Interval (interval : Int) : Prop where
  positive : 0 < interval
  bounded : interval ≤ hour

def nominal (interval : Int) : Nat := interval.toNat * 1000

theorem Interval.nominal_le {interval : Int} (range : Interval interval) :
    nominal interval ≤ maxStepTicks := by
  have bounded := range.bounded
  unfold nominal
  simp only [hour, maxStepTicks] at *
  omega

/-- The request of a step: what is missing to the ideal target, up to the cap. -/
def requested (client : Client) (interval : Int) : Nat :=
  min (if client.anchored then client.targetTick + nominal interval - client.lastTick
    else nominal interval) maxStepTicks

theorem requested_le (client : Client) (interval : Int) :
    client.requested interval ≤ maxStepTicks := by
  unfold requested
  exact Nat.min_le_right _ _

def Overflows (client : Client) (interval : Int) : Prop :=
  client.anchored = true ∧ modulus ≤ client.targetTick + nominal interval

instance (client : Client) (interval : Int) : Decidable (client.Overflows interval) := by
  unfold Overflows
  infer_instance

theorem checked_ok {α : Type} (value : α) : checked (.ok value) = .ok value := rfl

theorem plan_eq (mode : Mode) {client : Client} {interval : Int} (ranged : client.InRange)
    (range : Interval interval) : client.plan mode interval =
      if client.Overflows interval then
        .error ⟨.overflow, text "gem5 cumulative timing target exceeds tick range"⟩
      else .ok (nominal interval,
        if client.anchored then client.targetTick + nominal interval else 0,
        client.requested interval) := by
  have small : nominal interval < modulus := lt_of_le_of_lt range.nominal_le (by decide)
  have top : maxTick + 1 = modulus := by decide
  have target := ranged.target
  have scaled : mode.mul interval.toNat 1000 = .ok (nominal interval) := mode.mul_exact small
  have room : mode.sub maxTick client.targetTick = .ok (maxTick - client.targetTick) :=
    mode.sub_exact (by omega) (by omega)
  unfold plan requested
  rw [scaled, checked_ok, ok_bind]
  by_cases anchored : client.anchored = true
  · simp only [anchored, if_true, room, checked_ok, ok_bind]
    by_cases outside : modulus ≤ client.targetTick + nominal interval
    · rw [if_pos (by omega), if_pos (show client.Overflows interval from ⟨anchored, outside⟩)]
    · have sum := mode.add_exact (Nat.lt_of_not_le outside)
      rw [if_neg (by omega), if_neg (fun overflow : client.Overflows interval => outside overflow.2),
        sum, checked_ok, ok_bind]
      by_cases ahead : client.targetTick + nominal interval > client.lastTick
      · have missing := mode.sub_exact (Nat.le_of_lt ahead) (Nat.lt_of_not_le outside)
        rw [if_pos ahead, missing, checked_ok, ok_bind]
      · rw [if_neg ahead, Nat.sub_eq_zero_of_le (Nat.le_of_not_lt ahead), Nat.zero_min]
  · have fits : ¬client.Overflows interval := fun overflow => anchored overflow.1
    simp only [anchored, fits, if_false]
    rfl

theorem request_sent {client : Client} (usable : client.Usable) (command : Line)
    (allowUnavailable : Bool) : client.request command allowUnavailable .sent =
      (.ok true, { client with pending := true, sent := client.sent ++ [command] }) := by
  simp [request, usable.idle, usable.running, usable.sound, usable.path]

def stepping (client : Client) (interval : Int) : Client :=
  { client with
    pending := true
    sent := client.sent ++ [stepCommand (client.requested interval)]
    nominalTicks := nominal interval
    targetTick :=
      if client.anchored then client.targetTick + nominal interval else client.targetTick }

theorem start_sent (mode : Mode) {client : Client} {interval : Int} (ranged : client.InRange)
    (usable : client.Usable) (unfinished : client.finished = false) (range : Interval interval) :
    client.start mode interval .sent =
      if client.Overflows interval then
        client.throw .overflow (text "gem5 cumulative timing target exceeds tick range")
      else (.ok (), client.stepping interval) := by
  have positive := range.positive
  have bounded := range.bounded
  unfold start
  rw [unfinished, if_neg Bool.false_ne_true, if_neg (by omega), plan_eq mode ranged range]
  by_cases overflow : client.Overflows interval
  · rw [if_pos overflow, if_pos overflow]
    rfl
  · rw [if_neg overflow, if_neg overflow]
    simp only [request_sent usable]
    by_cases anchored : client.anchored = true
    · simp only [anchored, if_true, stepping]
    · simp only [anchored, stepping]
      rfl

/-! ## Replies -/

def settled (client : Client) (start finish : Nat) : Client :=
  { client with
    pending := false
    targetTick := if client.anchored then client.targetTick else start + client.nominalTicks
    firstTick := if client.anchored then client.firstTick else start
    anchored := true
    lastTick := finish }

structure Continues (client : Client) (start finish : Nat) : Prop where
  forward : start ≤ finish
  joined : client.anchored = true → start = client.lastTick
  room : client.anchored = false → start + client.nominalTicks < modulus

theorem anchor_eq (mode : Mode) (client : Client) {start : Nat} (bound : start < modulus) :
    client.anchor mode start =
      if client.anchored then (.ok (), client)
      else if modulus ≤ start + client.nominalTicks then
        client.error (text "initial timing target exceeds tick range")
      else (.ok (), { client with
        targetTick := start + client.nominalTicks
        firstTick := start
        anchored := true }) := by
  have top : maxTick + 1 = modulus := by decide
  have room : mode.sub maxTick start = .ok (maxTick - start) :=
    mode.sub_exact (by omega) (by omega)
  unfold anchor
  cases client.anchored with
  | true => simp only [if_true]
  | false =>
    simp only [if_neg Bool.false_ne_true, room, checked_ok]
    by_cases outside : modulus ≤ start + client.nominalTicks
    · rw [if_pos (by omega), if_pos outside]
    · have sum := mode.add_exact (Nat.lt_of_not_le outside)
      rw [if_neg (by omega), if_neg outside, sum, checked_ok]

/-- An interval reply settles the step exactly if it continues the timeline. -/
theorem wait_okLine (mode : Mode) {client : Client} {start finish : Nat}
    (pending : client.pending = true) (startBound : start < modulus)
    (finishBound : finish < modulus) (continues : client.Continues start finish) :
    client.wait mode (.bytes (okLine start finish ++ ['\n'])) =
      (.ok (), client.settled start finish) := by
  have forward : ¬finish < start := Nat.not_lt.mpr continues.forward
  have status : ¬text "OK" = text "DONE" := by decide
  unfold wait
  rw [response_reply pending (reply_okLine startBound finishBound)]
  simp only [token_okLine, Option.getD_some, if_neg status,
    parseInterval_okLine startBound finishBound, if_neg forward, anchor_eq mode _ startBound]
  cases anchored : client.anchored with
  | true =>
    have joined := continues.joined anchored
    rw [if_neg (by simp [joined]), if_pos rfl]
    simp only [settled, anchored, if_true]
  | false =>
    have room := continues.room anchored
    rw [if_neg (by simp), if_neg Bool.false_ne_true, if_neg (by omega)]
    simp only [settled, anchored, if_neg Bool.false_ne_true]

theorem continues_of_wait_ok {mode : Mode} {client after : Client} {start finish : Nat}
    (pending : client.pending = true) (startBound : start < modulus)
    (finishBound : finish < modulus)
    (completed : client.wait mode (.bytes (okLine start finish ++ ['\n'])) = (.ok (), after)) :
    client.Continues start finish := by
  have status : ¬text "OK" = text "DONE" := by decide
  unfold wait at completed
  rw [response_reply pending (reply_okLine startBound finishBound)] at completed
  simp only [token_okLine, Option.getD_some, if_neg status,
    parseInterval_okLine startBound finishBound] at completed
  by_cases backward : finish < start
  · simp only [if_pos backward, error, throw, Prod.mk.injEq, reduceCtorEq, false_and] at completed
  · simp only [if_neg backward] at completed
    constructor
    · exact Nat.le_of_not_lt backward
    · intro anchored
      by_contra apart
      simp [anchored, apart, error, throw] at completed
    · intro anchored
      by_contra outside
      simp [anchored, anchor_eq mode _ startBound, Nat.le_of_not_lt outside, error, throw]
        at completed

theorem wait_doneLine (mode : Mode) {client : Client} {tick : Nat}
    (pending : client.pending = true) (bound : tick < modulus) :
    client.wait mode (.bytes (doneLine tick ++ ['\n'])) =
      { client with pending := false, finished := true }.throw .runtime
        (text "gem5 finished before completing the interval at tick " ++ decimal tick) := by
  unfold wait
  rw [response_reply pending (reply_doneLine bound)]
  simp only [token_doneLine, Option.getD_some, if_true, parseDone_decimal bound]

theorem ready_pausedLine {client : Client} {tick : Nat} (pending : client.pending = true)
    (bound : tick < modulus) : client.ready (.bytes (pausedLine tick ++ ['\n'])) =
      (.ok (), { client with pending := false }) := by
  unfold ready
  rw [response_reply pending (reply_pausedLine bound)]
  simp only [parsePaused_pausedLine bound]

def tries (reasons : List Line) : List Attempt :=
  reasons.map (fun reason => ⟨.unavailable reason, false, false⟩) ++ [⟨.sent, false, false⟩]

theorem reach_tries {client : Client} (usable : client.Usable) (reasons : List Line) :
    client.reach (tries reasons) = some (.ok (),
      { client with pending := true, sent := client.sent ++ [text "STATUS\n"] }) := by
  induction reasons with
  | nil =>
    simp only [tries, List.map_nil, List.nil_append, reach, request_sent usable]
  | cons reason reasons ih =>
    have retried : client.request (text "STATUS\n") true (.unavailable reason) =
        (.ok false, client) := by
      simp [request, usable.idle, usable.running, usable.sound, usable.path]
    simp only [tries, List.map_cons, List.cons_append, reach, retried, Bool.false_eq_true, if_false]
    exact ih

theorem askShutdown_sent (mode : Mode) {client : Client} (usable : client.Usable)
    (waiting : Arrival) : client.askShutdown mode waiting .sent =
      (.ok (), { client with pending := true, sent := client.sent ++ [text "QUIT\n"] }) := by
  unfold askShutdown
  simp only [usable.idle, Bool.false_eq_true, if_false, request_sent usable]

theorem shutdown_bye (mode : Mode) {client : Client} (usable : client.Usable) (waiting : Arrival) :
    client.shutdown mode waiting .sent (.bytes (text "BYE" ++ ['\n'])) =
      (.ok (), { client with
        pending := false
        sent := client.sent ++ [text "QUIT\n"]
        stopped := true }) := by
  have confirmed : Reply (text "BYE") := ⟨by decide, by decide⟩
  have answered := @response_reply { client with
    pending := true, sent := client.sent ++ [text "QUIT\n"] } _ rfl confirmed
  unfold shutdown
  rw [usable.running, if_neg Bool.false_ne_true, askShutdown_sent mode usable]
  simp only [answered, ne_eq, not_true_eq_false, if_false]

end Chimaera.Timing.Client
