import Mathlib.Tactic.SplitIfs
import Chimaera.Timing.Server

/-! What the runs of the simulator can do to the server: one run before and after the region
of interest has started, the loop of a whole step, and the answer to a connection. -/

namespace Chimaera.Timing.Server
open Base.Text Base.Unsigned

def ran (server : Server) (exit : Exit) : Server :=
  { server.record [.run server.maxTicks exit.advance] with
    curTick := server.curTick + exit.advance }

def startup (onReady : Bool) : List Effect := if onReady then [.ready true, .reset] else [.reset]

inductive Handled (server : Server) (exit : Exit) : Except Line Unit → Server → Prop
  | quiet (other : exit.hypercallId = 0 → translateExitStatus exit.cause ≠ .ok .workend) :
      Handled server exit (.ok ()) server
  | again (begins : eventOf exit = .ok .workbegin) (started : server.roiStarted = true) :
      Handled server exit (.ok ()) (server.record [.workbegin])
  | unready (message : Line) (begins : eventOf exit = .ok .workbegin)
      (waiting : server.roiStarted = false) :
      Handled server exit (.error message) (server.record [.workbegin, .ready false])
  | started (begins : eventOf exit = .ok .workbegin) (waiting : server.roiStarted = false)
      (returned : server.onReady = true → exit.callback = .ok ()) :
      Handled server exit (.ok ())
        { server.record (.workbegin :: startup server.onReady) with roiStarted := true }
  | ended (ends : eventOf exit = .ok .workend) :
      Handled server exit (.ok ()) { server.record [.dump] with finished := true }

theorem record_record (server : Server) (first second : List Effect) :
    (server.record first).record second = server.record (first ++ second) := by
  unfold record
  rw [List.append_assoc]

variable {exit : Exit}

theorem eventOf_classic (classic : exit.hypercallId = 0) :
    eventOf exit = translateExitStatus exit.cause := by
  unfold eventOf
  rw [if_neg (by omega)]

theorem onWorkbegin_handled (server : Server) {exit : Exit}
    (begins : eventOf exit = .ok .workbegin) :
    Handled server exit (server.onWorkbegin exit.callback).1
      (server.onWorkbegin exit.callback).2 := by
  unfold onWorkbegin
  cases started : server.roiStarted with
  | true =>
    rw [if_pos (by exact started)]
    exact .again begins started
  | false =>
    rw [if_neg (by rw [show (server.record [.workbegin]).roiStarted = false from started]; decide)]
    cases supplied : server.onReady with
    | false =>
      have first := Handled.started begins started
        (fun called => by rw [supplied] at called; cases called)
      simp only [show (server.record [.workbegin]).onReady = false from supplied, record_record]
      rw [supplied] at first
      exact first
    | true =>
      simp only [show (server.record [.workbegin]).onReady = true from supplied]
      cases returned : exit.callback with
      | error message =>
        simp only [record_record]
        exact .unready message begins started
      | ok done =>
        have first := Handled.started begins started (fun _ => returned)
        simp only [record_record]
        rw [supplied] at first
        exact first

theorem simulate_raised (server : Server) {exit : Exit} {message : Line}
    (raised : exit.handled = .error message) :
    server.simulate exit = (.error message, server.ran exit) := by
  unfold simulate
  rw [raised]
  rfl

theorem simulate_handled (server : Server) {exit : Exit} (returned : exit.handled = .ok ()) :
    Handled (server.ran exit) exit (server.simulate exit).1 (server.simulate exit).2 := by
  unfold simulate
  rw [returned]
  by_cases classic : exit.hypercallId = 0
  · simp only [classic, ne_eq, not_true_eq_false, if_false]
    have same := eventOf_classic classic
    split
    · rename_i begins
      exact onWorkbegin_handled _ (same.trans begins)
    · rename_i ends
      exact .ended (same.trans ends)
    · rename_i other
      exact .quiet fun _ => other
  · simp only [ne_eq, classic, not_false_eq_true, if_true]
    exact .quiet fun same => absurd same classic

/-- What `_run_once` makes of an exit if no handler of the server raises. -/
def outcomeOf (exit : Exit) : Except Line ExitEvent :=
  match exit.handled with
  | .error message => .error message
  | .ok _ => eventOf exit

theorem eventOf_of_outcomeOf {event : ExitEvent}
    (returned : outcomeOf exit = .ok event) : eventOf exit = .ok event := by
  unfold outcomeOf at returned
  split at returned
  · cases returned
  · exact returned

def Ends (exit : Exit) : Prop :=
  ∃ event, eventOf exit = .ok event ∧ (event = .workend ∨ boundary event = false)

def Marks (effects : List Effect) : Prop := ∀ effect ∈ effects, effect = .workbegin ∨ effect = .dump

structure Stepped (server : Server) (exit : Exit) (after : Server) : Prop where
  roi : after.roiStarted = true
  callback : after.onReady = server.onReady
  requested : after.exitRequested = server.exitRequested
  tick : after.curTick = server.curTick + exit.advance
  log : ∃ marks, after.log = server.log ++ .run server.maxTicks exit.advance :: marks ∧ Marks marks
  stays : server.finished = true → after.finished = true
  ends : after.finished = true → server.finished = true ∨ Ends exit

theorem marks_nil : Marks [] := fun _ member => absurd member List.not_mem_nil

theorem stepped_ran {server : Server} (roi : server.roiStarted = true) (exit : Exit) :
    Stepped server exit (server.ran exit) :=
  ⟨roi, rfl, rfl, rfl, ⟨[], rfl, marks_nil⟩, id, .inl⟩

variable {server after : Server} {outcome : Except Line Unit} {exits : List Exit}

theorem handled_stepped (roi : server.roiStarted = true)
    (handled : Handled (server.ran exit) exit outcome after) :
    outcome = .ok () ∧ Stepped server exit after := by
  cases handled with
  | quiet other => exact ⟨rfl, stepped_ran roi exit⟩
  | again begins started =>
    refine ⟨rfl, roi, rfl, rfl, rfl, ⟨[.workbegin], ?_, by simp [Marks]⟩, id, .inl⟩
    simp [ran, record]
  | unready message begins waiting =>
    rw [show (server.ran exit).roiStarted = server.roiStarted from rfl, roi] at waiting
    cases waiting
  | started begins waiting returned =>
    rw [show (server.ran exit).roiStarted = server.roiStarted from rfl, roi] at waiting
    cases waiting
  | ended ends =>
    refine ⟨rfl, roi, rfl, rfl, rfl, ⟨[.dump], ?_, by simp [Marks]⟩, fun _ => rfl, fun _ => ?_⟩
    · simp [ran, record]
    · exact .inr ⟨.workend, ends, .inl rfl⟩

theorem runOnce_stepped {server : Server} (roi : server.roiStarted = true) (exit : Exit) :
    (server.runOnce exit).1 = outcomeOf exit ∧ Stepped server exit (server.runOnce exit).2 := by
  unfold runOnce outcomeOf
  cases returned : exit.handled with
  | error message =>
    rw [server.simulate_raised returned]
    exact ⟨rfl, stepped_ran roi exit⟩
  | ok done =>
    obtain ⟨fine, stepped⟩ := handled_stepped roi (server.simulate_handled returned)
    cases simulated : server.simulate exit with
    | mk outcome after =>
      rw [simulated] at fine stepped
      cases fine
      cases translated : eventOf exit with
      | error message => exact ⟨rfl, stepped⟩
      | ok event =>
        refine ⟨rfl, ?_⟩
        cases goes : boundary event with
        | true =>
          simp only [goes, if_true]
          exact stepped
        | false =>
          simp only [goes, Bool.false_eq_true, if_false]
          exact { stepped with
            stays := fun _ => rfl
            ends := fun _ => .inr ⟨event, translated, .inr goes⟩ }

/-! ## The loop of a step -/

structure Looped (target : Nat) (server : Server) (exits : List Exit)
    (outcome : Except Line Unit) (after : Server) : Prop where
  roi : after.roiStarted = true
  callback : after.onReady = server.onReady
  requested : after.exitRequested = server.exitRequested
  forward : server.curTick ≤ after.curTick
  log : ∃ effects, after.log = server.log ++ effects ∧
    (∀ effect ∈ effects, effect = .workbegin ∨ effect = .dump ∨
      ∃ budget advance, effect = .run budget advance ∧ 0 < budget) ∧
    ((∀ budget advance, .run budget advance ∈ effects → advance ≤ budget) →
      server.curTick ≤ target → after.curTick ≤ target)
  stays : server.finished = true → after.finished = true
  ends : after.finished = true → server.finished = true ∨ ∃ exit ∈ exits, Ends exit
  reached : outcome = .ok () → after.finished = true ∨ target ≤ after.curTick ∨
    ∃ exit, exits.getLast? = some exit ∧ eventOf exit = .ok .maxTick
  failed : ∀ message, outcome = .error message → ∃ exit ∈ exits, outcomeOf exit = .error message

theorem Looped.single {target : Nat} (below : server.curTick < target)
    (stepped : Stepped { server with maxTicks := target - server.curTick } exit after)
    (reached : outcome = .ok () → eventOf exit = .ok .maxTick)
    (failed : ∀ message, outcome = .error message → outcomeOf exit = .error message) :
    Looped target server [exit] outcome after := by
  obtain ⟨marks, log, marked⟩ := stepped.log
  have tick : after.curTick = server.curTick + exit.advance := stepped.tick
  constructor
  · exact stepped.roi
  · exact stepped.callback
  · exact stepped.requested
  · omega
  · refine ⟨_, log, ?_, ?_⟩
    · intro effect member
      rcases List.mem_cons.mp member with rfl | member
      · exact .inr (.inr ⟨_, _, rfl, Nat.sub_pos_of_lt below⟩)
      · rcases marked effect member with begins | dumps
        · exact .inl begins
        · exact .inr (.inl dumps)
    · intro within _
      have spent : exit.advance ≤ target - server.curTick := within _ _ List.mem_cons_self
      omega
  · exact stepped.stays
  · intro finished
    rcases stepped.ends finished with before | ends
    · exact .inl before
    · exact .inr ⟨exit, List.mem_cons_self, ends⟩
  · intro fine
    exact .inr (.inr ⟨exit, rfl, reached fine⟩)
  · intro message raised
    exact ⟨exit, List.mem_cons_self, failed message raised⟩

theorem Looped.cons {target : Nat} {server middle after : Server} (below : server.curTick < target)
    (stepped : Stepped { server with maxTicks := target - server.curTick } exit middle)
    (rest : Looped target middle exits outcome after) :
    Looped target server (exit :: exits) outcome after := by
  obtain ⟨marks, log, marked⟩ := stepped.log
  obtain ⟨effects, later, shapes, bounded⟩ := rest.log
  have tick : middle.curTick = server.curTick + exit.advance := stepped.tick
  have forward := rest.forward
  constructor
  · exact rest.roi
  · exact rest.callback.trans stepped.callback
  · exact rest.requested.trans stepped.requested
  · omega
  · refine ⟨.run (target - server.curTick) exit.advance :: marks ++ effects, ?_, ?_, ?_⟩
    · rw [later, log, List.append_assoc]
    · intro effect member
      rcases List.mem_append.mp member with member | member
      · rcases List.mem_cons.mp member with rfl | member
        · exact .inr (.inr ⟨_, _, rfl, Nat.sub_pos_of_lt below⟩)
        · rcases marked effect member with begins | dumps
          · exact .inl begins
          · exact .inr (.inl dumps)
      · exact shapes effect member
    · intro within _
      have spent : exit.advance ≤ target - server.curTick :=
        within _ _ (List.mem_append_left _ List.mem_cons_self)
      exact bounded (fun budget advance member =>
        within budget advance (List.mem_append_right _ member)) (by omega)
  · intro finished
    exact rest.stays (stepped.stays finished)
  · intro finished
    rcases rest.ends finished with before | ⟨other, member, ends⟩
    · rcases stepped.ends before with earlier | ends
      · exact .inl earlier
      · exact .inr ⟨exit, List.mem_cons_self, ends⟩
    · exact .inr ⟨other, List.mem_cons_of_mem _ member, ends⟩
  · intro fine
    rcases rest.reached fine with finished | reached | ⟨last, lastly, limit⟩
    · exact .inl finished
    · exact .inr (.inl reached)
    · refine .inr (.inr ⟨last, ?_, limit⟩)
      rw [List.getLast?_cons, lastly]
      rfl
  · intro message raised
    obtain ⟨other, member, unknown⟩ := rest.failed message raised
    exact ⟨other, List.mem_cons_of_mem _ member, unknown⟩

theorem Looped.idle {target : Nat} {server : Server} (roi : server.roiStarted = true)
    (stopped : ¬(server.curTick < target ∧ (!server.finished) = true)) :
    Looped target server [] (.ok ()) server := by
  constructor
  · exact roi
  · rfl
  · rfl
  · exact le_rfl
  · exact ⟨[], (List.append_nil _).symm, by simp, fun _ bounded => bounded⟩
  · exact id
  · exact .inl
  · intro _
    by_cases finished : server.finished = true
    · exact .inl finished
    · exact .inr (.inl (Nat.le_of_not_lt fun below => stopped ⟨below, by simp [finished]⟩))
  · intro message raised
    cases raised

/-- The loop of a step does what `Looped` says, by induction on the exits of its runs. -/
theorem stepLoop_looped {target : Nat} (roi : server.roiStarted = true)
    (looped : server.stepLoop target exits = some (outcome, after)) :
    Looped target server exits outcome after := by
  induction exits generalizing server with
  | nil =>
    unfold stepLoop at looped
    split_ifs at looped with goes
    obtain ⟨rfl, rfl⟩ := Prod.mk.inj (Option.some.inj looped)
    exact .idle roi goes
  | cons exit exits ih =>
    rw [stepLoop] at looped
    obtain ⟨goes, looped⟩ := Option.ite_none_right_eq_some.mp looped
    obtain ⟨translated, stepped⟩ := @runOnce_stepped
      { server with maxTicks := target - server.curTick } roi exit
    cases ran : { server with maxTicks := target - server.curTick }.runOnce exit with
    | mk result middle =>
      rw [ran] at translated stepped looped
      cases result with
      | error message =>
        simp only [Option.ite_none_right_eq_some, Option.some.injEq, Prod.mk.injEq] at looped
        obtain ⟨rfl, rfl, rfl⟩ := looped
        exact .single goes.1 stepped (fun fine => by cases fine)
          (fun other raised => by cases raised; exact translated.symm)
      | ok event =>
        by_cases limit : event = .maxTick
        · simp only [limit, if_true, Option.ite_none_right_eq_some, Option.some.injEq,
            Prod.mk.injEq] at looped
          obtain ⟨rfl, rfl, rfl⟩ := looped
          exact .single goes.1 stepped (fun _ => eventOf_of_outcomeOf (by rw [← translated, limit]))
            (fun other raised => by cases raised)
        · simp only [limit, if_false] at looped
          exact .cons goes.1 stepped (ih stepped.roi looped)

/-! ## Connections -/

structure Admits (server : Server) (ticks : Nat) : Prop where
  unfinished : server.finished = false
  bounded : ticks ≤ maxStepTicks
  inside : server.curTick + ticks < maxTick

inductive Answered (server : Server) : Except Line Request → List Exit → Line → Server → Prop
  | malformed (message : Line) :
      Answered server (.error message) [] (encodeReply (errorLine message))
        (server.record [.served])
  | status :
      Answered server (.ok .status) []
        (encodeReply (if server.finished then doneLine server.curTick
          else pausedLine server.curTick)) (server.record [.served])
  | quit :
      Answered server (.ok .quit) [] (encodeReply (text "BYE"))
        { server.record [.served, .dump] with exitRequested := true }
  | finished (ticks : Nat) (ended : server.finished = true) :
      Answered server (.ok (.step ticks)) [] (encodeReply (doneLine server.curTick))
        (server.record [.served])
  | refused (ticks : Nat) (unfinished : server.finished = false)
      (outside : ticks > maxStepTicks ∨ server.curTick + ticks ≥ maxTick) :
      Answered server (.ok (.step ticks)) []
        (encodeReply (errorLine (text "step exceeds one hour or the gem5 tick range")))
        (server.record [.served])
  | raised {ticks : Nat} {message : Line} {exits : List Exit} {after : Server}
      (admits : server.Admits ticks)
      (looped : Looped (server.curTick + ticks) (server.record [.served]) exits (.error message)
        after) :
      Answered server (.ok (.step ticks)) exits (encodeReply (errorLine message)) after
  | completed {ticks : Nat} {exits : List Exit} {after : Server} (admits : server.Admits ticks)
      (looped : Looped (server.curTick + ticks) (server.record [.served]) exits (.ok ()) after) :
      Answered server (.ok (.step ticks)) exits
        (encodeReply (if after.finished then doneLine after.curTick
          else okLine server.curTick after.curTick)) after

theorem runForTicks_answered {ticks : Nat} {result : Except Line Line}
    (roi : server.roiStarted = true)
    (ran : (server.record [.served]).runForTicks ticks exits = some (result, after)) :
    Answered server (.ok (.step ticks)) exits (encodeReply (replyLine result)) after := by
  unfold runForTicks at ran
  by_cases ended : server.finished = true
  · rw [if_pos (by exact ended)] at ran
    simp only [Option.ite_none_right_eq_some, Option.some.injEq, Prod.mk.injEq] at ran
    obtain ⟨rfl, rfl, rfl⟩ := ran
    exact .finished ticks ended
  · rw [if_neg (by exact ended)] at ran
    by_cases outside : ticks > maxStepTicks ∨ server.curTick + ticks ≥ maxTick
    · rw [if_pos (by exact outside)] at ran
      simp only [Option.ite_none_right_eq_some, Option.some.injEq, Prod.mk.injEq] at ran
      obtain ⟨rfl, rfl, rfl⟩ := ran
      exact .refused ticks (Bool.eq_false_iff.mpr ended) outside
    · rw [if_neg (by exact outside)] at ran
      have admits : server.Admits ticks := ⟨Bool.eq_false_iff.mpr ended, by omega, by omega⟩
      cases loop : (server.record [.served]).stepLoop (server.curTick + ticks) exits with
      | none =>
        rw [show (server.record [.served]).curTick = server.curTick from rfl, loop] at ran
        cases ran
      | some pair =>
        obtain ⟨outcome, last⟩ := pair
        have looped := @stepLoop_looped (server.record [.served]) _ _ _ _ roi loop
        rw [show (server.record [.served]).curTick = server.curTick from rfl, loop] at ran
        cases outcome with
        | error message =>
          obtain ⟨rfl, rfl⟩ := Prod.mk.inj (Option.some.inj ran)
          exact .raised admits looped
        | ok done =>
          have answer := Answered.completed admits looped
          by_cases complete : last.finished = true
          · simp only [complete, if_true, Option.some.injEq, Prod.mk.injEq] at ran
            obtain ⟨rfl, rfl⟩ := ran
            rwa [if_pos complete] at answer
          · simp only [complete, if_false, Option.some.injEq, Prod.mk.injEq, Bool.false_eq_true] at ran
            obtain ⟨rfl, rfl⟩ := ran
            rwa [if_neg complete] at answer

theorem connect_answered {connection : Connection} {reply : Line} (roi : server.roiStarted = true)
    (connected : server.connect connection exits = some (reply, after)) :
    Answered server connection.request exits reply after := by
  unfold connect at connected
  cases made : connection.request with
  | error message =>
    simp only [made, Option.ite_none_right_eq_some, Option.some.injEq, Prod.mk.injEq] at connected
    obtain ⟨rfl, rfl, rfl⟩ := connected
    exact .malformed message
  | ok request =>
    simp only [made] at connected
    cases request with
    | status =>
      unfold perform at connected
      by_cases unused : exits = []
      · simp only [unused, if_true, Option.some.injEq, Prod.mk.injEq] at connected
        obtain ⟨rfl, rfl⟩ := connected
        subst unused
        exact .status
      · simp only [unused, if_false] at connected
        cases connected
    | quit =>
      unfold perform at connected
      by_cases unused : exits = []
      · simp only [unused, if_true, Option.some.injEq, Prod.mk.injEq] at connected
        obtain ⟨rfl, rfl⟩ := connected
        subst unused
        have dumps := @Answered.quit server
        simp only [record_record, if_pos (show (server.record [.served]).roiStarted = true from roi)]
        exact dumps
      · simp only [unused, if_false] at connected
        cases connected
    | step ticks =>
      unfold perform at connected
      simp only at connected
      cases ran : (server.record [.served]).runForTicks ticks exits with
      | none =>
        rw [ran] at connected
        cases connected
      | some pair =>
        obtain ⟨result, last⟩ := pair
        have answer := runForTicks_answered roi ran
        rw [ran] at connected
        obtain ⟨rfl, rfl⟩ := Prod.mk.inj (Option.some.inj connected)
        exact answer

end Chimaera.Timing.Server
