import Chimaera.Base.Calls
import Chimaera.Timing.Steps

/-! Calls that `Gem5TimingController` refuses, and replies after which it refuses every call.
The arithmetic is the machine's. -/

namespace Chimaera.Timing
open Base.Calls Base.Text Base.Unsigned

inductive TimingCall where
  | start (interval : Int) (delivery : Delivery)
  | wait (arrival : Arrival)
  | elapsedTicks
  deriving DecidableEq, Repr

inductive TimingResult where
  | returned
  | threw (fault : Fault)
  | ticks (value : Nat)
  deriving DecidableEq, Repr

def TimingResult.ofOutcome : Except Fault Unit → TimingResult
  | .ok _ => .returned
  | .error fault => .threw fault

namespace Client

def perform (client : Client) : TimingCall → Option (TimingResult × Client)
  | .start interval delivery =>
      let (outcome, after) := client.start .machine interval delivery
      some (.ofOutcome outcome, after)
  | .wait arrival =>
      let (outcome, after) := client.wait .machine arrival
      some (.ofOutcome outcome, after)
  | .elapsedTicks => (client.elapsedTicks .machine).toOption.map fun value => (.ticks value, client)

def exceeds (client : Client) (interval : Int) : Bool :=
  client.anchored && match Mode.machine.sub maxTick client.targetTick with
    | .ok room => decide (room < nominal interval)
    | .error _ => false

def refused (client : Client) : TimingCall → Bool
  | .start interval _ =>
      client.finished || decide (interval ≤ 0 ∨ interval > hour) || client.exceeds interval ||
        client.pending || (client.stopped || client.failed) || !client.validEndpoint
  | .wait _ => !client.pending
  | .elapsedTicks => false

variable {client : Client}

theorem plan_exceeds {interval : Int} (range : Interval interval)
    (exceeds : client.exceeds interval = true) :
    ∃ fault, client.plan .machine interval = .error fault := by
  have small : nominal interval < modulus := lt_of_le_of_lt range.nominal_le (by decide)
  have scaled : Mode.machine.mul interval.toNat 1000 = .ok (nominal interval) :=
    Mode.machine.mul_exact small
  unfold Client.exceeds at exceeds
  obtain ⟨anchored, beyond⟩ := (Bool.and_eq_true _ _).mp exceeds
  cases room : Mode.machine.sub maxTick client.targetTick with
  | error what =>
    rw [room] at beyond
    cases beyond
  | ok value =>
    rw [room] at beyond
    have larger := of_decide_eq_true beyond
    refine ⟨⟨.overflow, text "gem5 cumulative timing target exceeds tick range"⟩, ?_⟩
    unfold plan
    rw [scaled, checked_ok, ok_bind, if_pos anchored, room, checked_ok, ok_bind, if_pos larger]

theorem request_refused
    (closed : (client.pending || (client.stopped || client.failed) || !client.validEndpoint) = true)
    (command : Line) (allowUnavailable : Bool) (delivery : Delivery) :
    ∃ fault, client.request command allowUnavailable delivery = (.error fault, client) := by
  unfold request
  by_cases pending : client.pending = true
  · rw [if_pos pending]
    exact ⟨_, rfl⟩
  · rw [if_neg pending]
    by_cases stopped : (client.stopped || client.failed) = true
    · rw [if_pos stopped]
      exact ⟨_, rfl⟩
    · have endpoint : (!client.validEndpoint) = true := by simpa [pending, stopped] using closed
      rw [if_neg stopped, if_pos endpoint]
      exact ⟨_, rfl⟩

theorem start_refused {interval : Int} {delivery : Delivery}
    (refused : client.refused (.start interval delivery) = true) :
    ∃ fault, client.start .machine interval delivery = (.error fault, client) := by
  unfold start
  split_ifs with finished outside
  · exact ⟨_, rfl⟩
  · exact ⟨_, rfl⟩
  · have range : Interval interval := ⟨by omega, by omega⟩
    cases planned : client.plan .machine interval with
    | error fault => exact ⟨fault, rfl⟩
    | ok triple =>
      have within : client.exceeds interval = false := by
        apply Bool.eq_false_iff.mpr
        intro exceeds
        obtain ⟨fault, failed⟩ := plan_exceeds range exceeds
        rw [planned] at failed
        cases failed
      have closed : (client.pending || (client.stopped || client.failed) ||
          !client.validEndpoint) = true := by
        simpa [Client.refused, finished, outside, within] using refused
      obtain ⟨fault, thrown⟩ := request_refused closed (stepCommand triple.2.2) false delivery
      exact ⟨fault, by simp only [thrown]⟩

theorem perform_refused {call : TimingCall} (refused : client.refused call = true) :
    ∃ fault, client.perform call = some (.threw fault, client) := by
  cases call with
  | start interval delivery =>
    obtain ⟨fault, thrown⟩ := start_refused refused
    exact ⟨fault, by simp only [perform, thrown, TimingResult.ofOutcome]⟩
  | wait arrival =>
    have idle : client.pending = false := by simpa [Client.refused] using refused
    refine ⟨⟨.logic, text "no gem5 timing command is pending"⟩, ?_⟩
    simp only [perform, wait, response, idle, Bool.not_false, if_true, throw,
      TimingResult.ofOutcome]
  | elapsedTicks => cases refused

theorem perform_some (client : Client) (call : TimingCall) :
    ∃ result after, client.perform call = some (result, after) := by
  cases call with
  | start interval delivery => exact ⟨_, _, rfl⟩
  | wait arrival => exact ⟨_, _, rfl⟩
  | elapsedTicks =>
    unfold perform elapsedTicks
    split_ifs
    · exact ⟨_, _, rfl⟩
    · exact ⟨_, _, rfl⟩

/-! ## Replies that end the session -/

/-- A reply without a line, one that is not of its form or whose end is before its start, or
one that does not go on from the last tick of an anchored session. -/
inductive Unacceptable (client : Client) : Arrival → Prop
  | cut {bytes message : Line} (read : readLine [] bytes = .error message) :
      Unacceptable client (.bytes bytes)
  | completion {bytes line rest : Line} (read : readLine [] bytes = .ok line)
      (done : token blank line = some (text "DONE", rest)) (malformed : parseDone rest = none) :
      Unacceptable client (.bytes bytes)
  | interval {bytes line : Line} (read : readLine [] bytes = .ok line)
      (other : ∀ rest, token blank line ≠ some (text "DONE", rest))
      (malformed : parseInterval line = none) : Unacceptable client (.bytes bytes)
  | apart {bytes line : Line} {start finish : Nat} (read : readLine [] bytes = .ok line)
      (other : ∀ rest, token blank line ≠ some (text "DONE", rest))
      (parsed : parseInterval line = some (start, finish)) (anchored : client.anchored = true)
      (differs : start ≠ client.lastTick) : Unacceptable client (.bytes bytes)

def broken (client : Client) : Client := { client with failed := true, pending := false }

theorem wait_unacceptable {arrival : Arrival} (pending : client.pending = true)
    (bad : client.Unacceptable arrival) :
    ∃ fault, client.wait .machine arrival = (.error fault, client.broken) := by
  have status : ∀ line : Line, (∀ rest, token blank line ≠ some (text "DONE", rest)) →
      ¬((token blank line).getD ([], [])).1 = text "DONE" := by
    intro line other same
    cases found : token blank line with
    | none =>
      rw [found] at same
      cases same
    | some pair =>
      rw [found] at same
      exact other pair.2 (by rw [found, ← same]; rfl)
  cases bad with
  | cut read =>
    simp only [wait, response, pending, Bool.not_true, Bool.false_eq_true, if_false, read]
    exact ⟨_, rfl⟩
  | completion read done malformed =>
    simp only [wait, response, pending, Bool.not_true, Bool.false_eq_true, if_false, read, done,
      Option.getD_some, if_true, malformed]
    exact ⟨_, rfl⟩
  | interval read other malformed =>
    simp only [wait, response, pending, Bool.not_true, Bool.false_eq_true, if_false, read,
      if_neg (status _ other), malformed]
    exact ⟨_, rfl⟩
  | apart read other parsed anchored differs =>
    simp only [wait, response, pending, Bool.not_true, Bool.false_eq_true, if_false, read,
      if_neg (status _ other), parsed]
    rw [if_pos ⟨anchored, differs⟩]
    exact ⟨_, rfl⟩

/-- An interval line with its numbers in the wrong order or away from the last tick. -/
theorem unacceptable_okLine {start finish : Nat} (startBound : start < modulus)
    (finishBound : finish < modulus)
    (wrong : finish < start ∨ client.anchored = true ∧ start ≠ client.lastTick) :
    client.Unacceptable (.bytes (okLine start finish ++ ['\n'])) := by
  have reply := reply_okLine startBound finishBound
  have read := readLine_line (okLine start finish) [] [] reply.plain (by simpa using reply.short)
  have other : ∀ rest, token blank (okLine start finish) ≠ some (text "DONE", rest) := by
    intro rest same
    rw [token_okLine] at same
    exact absurd (congrArg Prod.fst (Option.some.inj same)) (show text "OK" ≠ text "DONE" by decide)
  have parsed := parseInterval_okLine startBound finishBound
  by_cases backward : finish < start
  · rw [if_pos backward] at parsed
    exact .interval read other parsed
  · rw [if_neg backward] at parsed
    obtain ⟨anchored, differs⟩ := wrong.resolve_left backward
    exact .apart read other parsed anchored differs

theorem calls_broken (failed : client.failed = true)
    (idle : client.pending = false) (events : List TimingCall) :
    ∃ trace, calls perform client events = some (trace, client) := by
  induction events with
  | nil => exact ⟨[], rfl⟩
  | cons call rest ih =>
    obtain ⟨trace, made⟩ := ih
    obtain ⟨result, called⟩ : ∃ result, client.perform call = some (result, client) := by
      cases call with
      | start interval delivery =>
        obtain ⟨fault, thrown⟩ := @perform_refused client (.start interval delivery)
          (by simp [refused, failed])
        exact ⟨_, thrown⟩
      | wait arrival =>
        obtain ⟨fault, thrown⟩ := @perform_refused client (.wait arrival) (by simp [refused, idle])
        exact ⟨_, thrown⟩
      | elapsedTicks =>
        obtain ⟨result, after, read⟩ := client.perform_some .elapsedTicks
        have same : after = client := by
          obtain ⟨value, -, made⟩ := Option.map_eq_some_iff.mp read
          exact (congrArg Prod.snd made).symm
        exact ⟨result, same ▸ read⟩
    exact ⟨(call, result) :: trace, calls_cons.mpr ⟨result, client, trace, called, made, rfl⟩⟩

end Client

/-- Refused calls change nothing, so that the others return and send what they would without
them; a reply that does not fit ends the session and leaves its accounts as they were. -/
theorem refusals_inert (client : Client) (events : List TimingCall) :
    (∀ call, client.refused call = true →
      ∃ fault, client.perform call = some (.threw fault, client)) ∧
    (∃ trace final, calls Client.perform client events = some (trace, final) ∧
      (heard Client.perform Client.refused client events).Sublist trace ∧
      calls Client.perform client
          ((heard Client.perform Client.refused client events).map Prod.fst) =
        some (heard Client.perform Client.refused client events, final)) ∧
    (∀ start finish, start < modulus → finish < modulus →
      finish < start ∨ client.anchored = true ∧ start ≠ client.lastTick →
      client.Unacceptable (.bytes (okLine start finish ++ ['\n']))) ∧
    (∀ arrival, client.pending = true → client.Unacceptable arrival → ∃ fault after,
      client.wait .machine arrival = (.error fault, after) ∧
      after = { client with failed := true, pending := false } ∧
      (∀ later, ∃ trace, calls Client.perform after later = some (trace, after)) ∧
      ∀ command allowUnavailable delivery, ∃ fault,
        after.request command allowUnavailable delivery = (.error fault, after)) := by
  refine ⟨fun call => Client.perform_refused, ?_,
    fun start finish => Client.unacceptable_okLine, ?_⟩
  · have total : ∀ (events : List TimingCall) (client : Client), ∃ trace final,
        calls Client.perform client events = some (trace, final) := by
      intro events
      induction events with
      | nil => exact fun client => ⟨[], client, rfl⟩
      | cons call rest ih =>
        intro client
        obtain ⟨result, next, called⟩ := client.perform_some call
        obtain ⟨trace, final, made⟩ := ih next
        exact ⟨_, final, calls_cons.mpr ⟨result, next, trace, called, made, rfl⟩⟩
    obtain ⟨trace, final, made⟩ := total events client
    refine ⟨trace, final, made, calls_heard ?_ made⟩
    intro state call result next quiet called
    obtain ⟨fault, thrown⟩ := Client.perform_refused quiet
    rw [thrown] at called
    exact (congrArg Prod.snd (Option.some.inj called)).symm
  · intro arrival pending bad
    obtain ⟨fault, waited⟩ := Client.wait_unacceptable pending bad
    refine ⟨fault, client.broken, waited, rfl, Client.calls_broken rfl rfl, ?_⟩
    exact Client.request_refused (by simp [Client.broken])

/-- The first reply of a session may start at any tick: it sets the origin. -/
theorem first_reply_accepted :
    ∃ client after : Client,
      calls Client.perform { endpoint := text "/tmp/chimaera_time.sock", timeout := 300 }
        [.start 1 .sent] = some ([(.start 1 .sent, .returned)], client) ∧ client.lastTick = 0 ∧
      client.wait .machine (.bytes (okLine 5 1005 ++ ['\n'])) = (.ok (), after) ∧
      after.lastTick = 1005 ∧ after.refused (.start 1 .sent) = false := by
  refine ⟨{ endpoint := text "/tmp/chimaera_time.sock", timeout := 300, pending := true,
            nominalTicks := 1000, sent := [Client.stepCommand 1000] }, _, by decide +kernel, rfl,
    Client.wait_okLine .machine rfl (by decide) (by decide) ⟨by decide, by simp, fun _ => by decide⟩,
    rfl, by decide +kernel⟩

end Chimaera.Timing
