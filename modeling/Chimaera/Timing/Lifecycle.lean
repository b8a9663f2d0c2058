import Chimaera.Base.Transition
import Chimaera.Timing.Commands

/-! The life of a timing server: `TimingServer.run` boots the guest until its `workbegin`
marker, then serves one connection after another until it is asked to exit. -/

namespace Chimaera.Timing
open Base.Text Base.Unsigned Base.Transition Server

inductive ServerPhase where
  | booting
  | serving
  | stopped
  | raised (message : Line)
  deriving DecidableEq, Repr

structure Process where
  server : Server
  phase : ServerPhase := .booting
  outdir : Line
  replies : List Line := []

inductive ProcessEvent where
  | boot (exit : Exit)
  | connection (connection : Connection) (exits : List Exit)

def ProcessEvent.exits : ProcessEvent → List Exit
  | .boot exit => [exit]
  | .connection _ exits => exits

def bootFailure (outdir : Line) (exit : Exit) : Line :=
  text "guest finished before its bridge was ready: " ++ exit.cause ++ text " (code " ++
    decimal exit.code ++ text "); see " ++ outdir ++ text "/board.pc.com_1.device"

namespace Process

def boot (process : Process) (exit : Exit) : Process :=
  match process.server.runOnce exit with
  | (.error message, server) => { process with server := server, phase := .raised message }
  | (.ok _, server) =>
      { process with
        server := server
        phase :=
          if server.finished then .raised (bootFailure process.outdir exit)
          else if server.roiStarted then .serving
          else .booting }

def serve (process : Process) (connection : Connection) (exits : List Exit) : Option Process :=
  match process.server.connect connection exits with
  | none => none
  | some (reply, server) =>
      some { process with
        server := server
        phase := if server.exitRequested then .stopped else .serving
        replies := process.replies ++ [reply] }

def step (process : Process) : ProcessEvent → Option Process
  | .boot exit => if process.phase = .booting then some (process.boot exit) else none
  | .connection connection exits =>
      if process.phase = .serving then process.serve connection exits else none

def initial (onReady : Bool) (tick : Nat) (outdir : Line) : Process where
  server := { onReady := onReady, curTick := tick }
  outdir := outdir

end Process

/-! ## What is seen of a life -/

def Effect.starting : Effect → Bool
  | .ready _ => true
  | .reset => true
  | _ => false

def runs (log : List Effect) : List (Nat × Nat) :=
  log.filterMap fun effect =>
    match effect with
    | .run budget advance => some (budget, advance)
    | _ => none

/-- The region of interest was started by a `workbegin`, once and in order, before the first
connection and never again. -/
structure Opened (server : Server) : Prop where
  roi : server.roiStarted = true
  once : ∃ before after, server.log = before ++ .workbegin :: startup server.onReady ++ after ∧
    (∀ effect ∈ before, effect.starting = false ∧ effect ≠ .served) ∧
    ∀ effect ∈ after, effect.starting = false

/-- A step hands out positive budgets. If no run exceeds its own, the step does not exceed
its interval. If the server takes the step up and every run of it returns at an exit with a known
cause, it falls short of it only at the end of the guest's work or at an early limit. -/
def Paced (server : Server) (ticks : Nat) (exits : List Exit) (after : Server) : Prop :=
  ∃ effects, after.log = server.log ++ effects ∧
    (∀ budget advance, .run budget advance ∈ effects → 0 < budget) ∧
    ((∀ budget advance, .run budget advance ∈ effects → advance ≤ budget) →
      after.curTick ≤ server.curTick + ticks ∧
        (ticks ≤ maxStepTicks → server.curTick + ticks < maxTick →
          (∀ exit ∈ exits, (outcomeOf exit).isOk = true) →
          after.finished = true ∨ after.curTick = server.curTick + ticks ∨
            after.curTick < server.curTick + ticks ∧
              ∃ last, exits.getLast? = some last ∧ eventOf last = .ok .maxTick))

/-! ## One run while booting -/

structure Waited (server : Server) (exit : Exit) (result : Except Line ExitEvent)
    (after : Server) : Prop where
  waiting : after.roiStarted = false
  callback : after.onReady = server.onReady
  ends : after.finished = true → Ends exit
  log : ∃ effects, after.log = server.log ++ effects ∧ (∀ effect ∈ effects, effect ≠ .served) ∧
    (result.isOk = true → ∀ effect ∈ effects, effect.starting = false)

structure Started (server : Server) (exit : Exit) (result : Except Line ExitEvent)
    (after : Server) : Prop where
  begins : result = .ok .workbegin
  returned : server.onReady = true → exit.callback = .ok ()
  roi : after.roiStarted = true
  callback : after.onReady = server.onReady
  unfinished : after.finished = false
  log : after.log = server.log ++ [.run server.maxTicks exit.advance] ++
    .workbegin :: startup server.onReady

theorem runOnce_cases (server : Server) {exit : Exit} (returned : exit.handled = .ok ()) :
    ∃ outcome middle, Handled (server.ran exit) exit outcome middle ∧
      ((∃ message, outcome = .error message ∧ server.runOnce exit = (.error message, middle)) ∨
        outcome = .ok () ∧
          ((∃ message, eventOf exit = .error message ∧
              server.runOnce exit = (.error message, middle)) ∨
            ∃ event, eventOf exit = .ok event ∧ server.runOnce exit =
              (.ok event, if boundary event then middle else { middle with finished := true }))) := by
  refine ⟨_, _, server.simulate_handled returned, ?_⟩
  unfold runOnce
  cases server.simulate exit with
  | mk outcome middle =>
    cases outcome with
    | error message => exact .inl ⟨message, rfl, rfl⟩
    | ok done =>
      refine .inr ⟨rfl, ?_⟩
      cases translated : eventOf exit with
      | error message => exact .inl ⟨message, rfl, rfl⟩
      | ok event => exact .inr ⟨event, rfl, rfl⟩

variable {server after : Server} {request : Except Line Request} {exits : List Exit}
  {reply : Line} {process : Process}

theorem Waited.of_marks {exit : Exit} {result : Except Line ExitEvent} {marks : List Effect}
    (waiting : after.roiStarted = false)
    (callback : after.onReady = server.onReady) (ends : after.finished = true → Ends exit)
    (log : after.log = server.log ++ .run server.maxTicks exit.advance :: marks)
    (marked : Marks marks) : Waited server exit result after := by
  have plain : ∀ effect ∈ .run server.maxTicks exit.advance :: marks,
      effect ≠ .served ∧ effect.starting = false := by
    intro effect member
    rcases List.mem_cons.mp member with rfl | member
    · exact ⟨by simp, rfl⟩
    · rcases marked effect member with rfl | rfl
      · exact ⟨by simp, rfl⟩
      · exact ⟨by simp, rfl⟩
  exact ⟨waiting, callback, ends, _, log, fun effect member => (plain effect member).1,
    fun _ effect member => (plain effect member).2⟩

theorem runOnce_returned {server : Server} (waiting : server.roiStarted = false)
    (unfinished : server.finished = false) {exit : Exit} (returned : exit.handled = .ok ()) :
    Waited server exit (server.runOnce exit).1 (server.runOnce exit).2 ∨
      Started server exit (server.runOnce exit).1 (server.runOnce exit).2 := by
  obtain ⟨outcome, middle, handled, next⟩ := runOnce_cases server returned
  have running : ∀ finished : server.finished = true, Ends exit := by simp [unfinished]
  cases handled with
  | quiet other =>
    rcases next with ⟨message, raised, -⟩ | ⟨-, ⟨message, unknown, ran⟩ | ⟨event, translated, ran⟩⟩
    · cases raised
    · rw [ran]
      exact .inl (.of_marks waiting rfl running rfl marks_nil)
    · rw [ran]
      cases goes : boundary event with
      | true => exact .inl (.of_marks waiting rfl running rfl marks_nil)
      | false =>
        exact .inl (.of_marks waiting rfl (fun _ => ⟨event, translated, .inr goes⟩) rfl marks_nil)
  | again begins started =>
    rw [show (server.ran exit).roiStarted = server.roiStarted from rfl, waiting] at started
    cases started
  | unready message begins _ =>
    rcases next with ⟨other, -, ran⟩ | ⟨fine, -⟩
    · rw [ran]
      refine .inl ⟨waiting, rfl, running, [.run server.maxTicks exit.advance, .workbegin,
        .ready false], ?_, by simp, fun fine => by cases fine⟩
      simp [Server.ran, record]
    · cases fine
  | started begins _ returned =>
    rcases next with ⟨message, raised, -⟩ | ⟨-, ⟨message, unknown, ran⟩ | ⟨event, translated, ran⟩⟩
    · cases raised
    · rw [begins] at unknown
      cases unknown
    · rw [begins] at translated
      cases translated
      rw [ran]
      exact .inr ⟨rfl, returned, rfl, rfl, unfinished, rfl⟩
  | ended ends =>
    rcases next with ⟨message, raised, -⟩ | ⟨-, ⟨message, unknown, ran⟩ | ⟨event, translated, ran⟩⟩
    · cases raised
    · rw [ends] at unknown
      cases unknown
    · rw [ends] at translated
      cases translated
      rw [ran]
      have dumped : Marks [.dump] := by simp [Marks]
      refine .inl (.of_marks waiting rfl (fun _ => ⟨.workend, ends, .inl rfl⟩) ?_ dumped)
      simp [boundary, Server.ran, record]

theorem runOnce_booting {server : Server} (waiting : server.roiStarted = false)
    (unfinished : server.finished = false) (exit : Exit) :
    Waited server exit (server.runOnce exit).1 (server.runOnce exit).2 ∨
      Started server exit (server.runOnce exit).1 (server.runOnce exit).2 := by
  cases returned : exit.handled with
  | ok done => exact runOnce_returned waiting unfinished returned
  | error message =>
    unfold runOnce
    rw [server.simulate_raised returned]
    exact .inl (.of_marks waiting rfl (by simp [Server.ran, record, unfinished]) rfl marks_nil)

/-! ## Connections -/

theorem Server.Answered.log (answered : Answered server request exits reply after) :
    ∃ effects, after.log = server.log ++ .served :: effects ∧
      ∀ effect ∈ effects, effect.starting = false := by
  have quiet : ∀ {target : Nat} {outcome : Except Line Unit} {last : Server},
      Looped target (server.record [.served]) exits outcome last →
      ∃ effects, last.log = server.log ++ .served :: effects ∧
        ∀ effect ∈ effects, effect.starting = false := by
    intro target outcome last looped
    obtain ⟨effects, log, shapes, -⟩ := looped.log
    refine ⟨effects, by rw [log]; simp [record], ?_⟩
    intro effect member
    rcases shapes effect member with rfl | rfl | ⟨budget, advance, rfl, -⟩ <;> rfl
  cases answered with
  | malformed message => exact ⟨[], rfl, by simp⟩
  | status => exact ⟨[], rfl, by simp⟩
  | quit => exact ⟨[.dump], by simp [record], by simp [Effect.starting]⟩
  | finished ticks ended => exact ⟨[], rfl, by simp⟩
  | refused ticks unfinished outside => exact ⟨[], rfl, by simp⟩
  | raised admits looped => exact quiet looped
  | completed admits looped => exact quiet looped

theorem Server.Answered.roi (roi : server.roiStarted = true)
    (answered : Answered server request exits reply after) :
    after.roiStarted = true ∧ after.onReady = server.onReady := by
  cases answered with
  | malformed message => exact ⟨roi, rfl⟩
  | status => exact ⟨roi, rfl⟩
  | quit => exact ⟨roi, rfl⟩
  | finished ticks ended => exact ⟨roi, rfl⟩
  | refused ticks unfinished outside => exact ⟨roi, rfl⟩
  | raised admits looped => exact ⟨looped.roi, looped.callback⟩
  | completed admits looped => exact ⟨looped.roi, looped.callback⟩

theorem Server.Answered.opened (opened : Opened server)
    (answered : Answered server request exits reply after) : Opened after := by
  obtain ⟨roi, callback⟩ := answered.roi opened.roi
  obtain ⟨before, later, log, waiting, never⟩ := opened.once
  obtain ⟨effects, added, quiet⟩ := answered.log
  refine ⟨roi, before, later ++ .served :: effects, ?_, waiting, ?_⟩
  · rw [added, log, callback, List.append_assoc]
  · intro effect member
    rcases List.mem_append.mp member with earlier | member
    · exact never effect earlier
    · rcases List.mem_cons.mp member with rfl | member
      · rfl
      · exact quiet effect member

theorem Server.Answered.still (ended : server.finished = true)
    (answered : Answered server request exits reply after) :
    after.finished = true ∧ after.curTick = server.curTick ∧ runs after.log = runs server.log := by
  cases answered with
  | malformed message => exact ⟨ended, rfl, by simp [runs, record]⟩
  | status => exact ⟨ended, rfl, by simp [runs, record]⟩
  | quit => exact ⟨ended, rfl, by simp [runs, record]⟩
  | finished ticks _ => exact ⟨ended, rfl, by simp [runs, record]⟩
  | refused ticks unfinished outside => exact ⟨ended, rfl, by simp [runs, record]⟩
  | raised admits looped =>
    rw [admits.unfinished] at ended
    cases ended
  | completed admits looped =>
    rw [admits.unfinished] at ended
    cases ended

theorem Server.Answered.ends (unfinished : server.finished = false)
    (answered : Answered server request exits reply after) (ended : after.finished = true) :
    ∃ exit ∈ exits, Ends exit := by
  have same : server.finished ≠ true := by simp [unfinished]
  cases answered with
  | malformed message => exact absurd ended same
  | status => exact absurd ended same
  | quit => exact absurd ended same
  | finished ticks _ => exact absurd ended same
  | refused ticks _ outside => exact absurd ended same
  | raised admits looped => exact (looped.ends ended).resolve_left same
  | completed admits looped => exact (looped.ends ended).resolve_left same

theorem Server.Looped.paced {ticks : Nat} {outcome : Except Line Unit}
    (looped : Looped (server.curTick + ticks) (server.record [.served]) exits outcome after) :
    Paced server ticks exits after := by
  obtain ⟨effects, log, shapes, bounded⟩ := looped.log
  refine ⟨.served :: effects, by rw [log]; simp [record], ?_, ?_⟩
  · intro budget advance member
    rcases List.mem_cons.mp member with other | member
    · cases other
    · rcases shapes _ member with other | other | ⟨_, _, same, positive⟩
      · cases other
      · cases other
      · cases same
        exact positive
  · intro within
    have inside := bounded (fun budget advance member =>
      within budget advance (List.mem_cons_of_mem _ member)) (Nat.le_add_right _ _)
    refine ⟨inside, fun _ _ known => ?_⟩
    have fine : outcome = .ok () := by
      cases outcome with
      | ok done => rfl
      | error message =>
        obtain ⟨exit, member, unknown⟩ := looped.failed message rfl
        have translated := known exit member
        rw [unknown] at translated
        cases translated
    rcases looped.reached fine with finished | reached | limit
    · exact .inl finished
    · exact .inr (.inl (Nat.le_antisymm inside reached))
    · rcases Nat.lt_or_eq_of_le inside with early | exactly
      · exact .inr (.inr ⟨early, limit⟩)
      · exact .inr (.inl exactly)

theorem Server.Answered.paced {ticks : Nat} (asked : request = .ok (.step ticks))
    (answered : Answered server request exits reply after) : Paced server ticks exits after := by
  cases answered with
  | malformed message => cases asked
  | status => cases asked
  | quit => cases asked
  | finished other ended =>
    exact ⟨[.served], rfl, by simp, fun _ => ⟨Nat.le_add_right _ _, fun _ _ _ => .inl ended⟩⟩
  | refused other unfinished outside =>
    cases asked
    exact ⟨[.served], rfl, by simp, fun _ => ⟨Nat.le_add_right _ _, fun _ _ _ => by omega⟩⟩
  | raised admits looped =>
    cases asked
    exact looped.paced
  | completed admits looped =>
    cases asked
    exact looped.paced

theorem Server.Answered.moved (moved : after.curTick ≠ server.curTick)
    (answered : Answered server request exits reply after) :
    ∃ ticks, request = .ok (.step ticks) := by
  cases answered with
  | malformed message => exact absurd rfl moved
  | status => exact absurd rfl moved
  | quit => exact absurd rfl moved
  | finished ticks ended => exact ⟨ticks, rfl⟩
  | refused ticks unfinished outside => exact ⟨ticks, rfl⟩
  | raised admits looped => exact ⟨_, rfl⟩
  | completed admits looped => exact ⟨_, rfl⟩

theorem Server.Answered.done (ended : server.finished = true)
    (asked : request = .ok .status ∨ ∃ ticks, request = .ok (.step ticks))
    (answered : Answered server request exits reply after) :
    reply = doneLine server.curTick ++ ['\n'] := by
  rw [← encodeReply_ascii (ascii_doneLine _)]
  cases answered with
  | malformed message => rcases asked with asked | ⟨_, asked⟩ <;> cases asked
  | status => rw [ended, if_pos rfl]
  | quit => rcases asked with asked | ⟨_, asked⟩ <;> cases asked
  | finished ticks _ => rfl
  | refused ticks unfinished outside =>
    rw [unfinished] at ended
    cases ended
  | raised admits looped =>
    rw [admits.unfinished] at ended
    cases ended
  | completed admits looped =>
    rw [admits.unfinished] at ended
    cases ended

/-! ## Whole lives -/

def Process.Proper (process : Process) : Prop :=
  match process.phase with
  | .booting =>
      process.server.roiStarted = false ∧ process.server.finished = false ∧
        ∀ effect ∈ process.server.log, effect.starting = false ∧ effect ≠ .served
  | .serving => Opened process.server
  | .stopped => Opened process.server
  | .raised _ => ∀ effect ∈ process.server.log, effect ≠ .served

theorem Process.Proper.boot (proper : process.Proper)
    (booting : process.phase = .booting) (exit : Exit) : (process.boot exit).Proper := by
  unfold Process.Proper at proper
  rw [booting] at proper
  obtain ⟨waiting, unfinished, quiet⟩ := proper
  have cases := runOnce_booting waiting unfinished exit
  unfold Process.boot
  cases ran : process.server.runOnce exit with
  | mk result server =>
    rw [ran] at cases
    rcases cases with waited | started
    · obtain ⟨effects, log, unserved, plain⟩ := waited.log
      have never : ∀ effect ∈ server.log, effect ≠ .served := by
        intro effect member
        rw [log] at member
        rcases List.mem_append.mp member with earlier | newest
        · exact (quiet effect earlier).2
        · exact unserved effect newest
      cases result with
      | error message => exact never
      | ok event =>
        cases ended : server.finished with
        | true =>
          simp only [Process.Proper, ended, if_true]
          exact never
        | false =>
          have still : server.roiStarted = false := waited.waiting
          simp only [Process.Proper, ended, still, Bool.false_eq_true, if_false]
          refine ⟨trivial, trivial, ?_⟩
          intro effect member
          refine ⟨?_, never effect member⟩
          rw [log] at member
          rcases List.mem_append.mp member with earlier | newest
          · exact (quiet effect earlier).1
          · exact plain rfl effect newest
    · have fine : result = .ok .workbegin := started.begins
      have unfinished : server.finished = false := started.unfinished
      have roi : server.roiStarted = true := started.roi
      subst fine
      simp only [Process.Proper, unfinished, roi, Bool.false_eq_true, if_false, if_true]
      refine ⟨roi, process.server.log ++ [.run process.server.maxTicks exit.advance], [], ?_,
        ?_, by simp⟩
      · rw [started.log, started.callback, List.append_nil]
      · intro effect member
        rcases List.mem_append.mp member with earlier | newest
        · exact quiet effect earlier
        · rw [List.mem_singleton.mp newest]
          exact ⟨rfl, by simp⟩

theorem serve_answered {process next : Process} {connection : Connection}
    (opened : Opened process.server) (served : process.serve connection exits = some next) :
    ∃ reply, Answered process.server connection.request exits reply next.server ∧
      next.replies = process.replies ++ [reply] ∧
      (next.phase = .serving ∨ next.phase = .stopped) := by
  unfold Process.serve at served
  cases connected : process.server.connect connection exits with
  | none =>
    rw [connected] at served
    cases served
  | some pair =>
    obtain ⟨reply, server⟩ := pair
    rw [connected] at served
    cases served
    refine ⟨reply, connect_answered opened.roi connected, rfl, ?_⟩
    cases server.exitRequested with
    | true => exact .inr rfl
    | false => exact .inl rfl

theorem Process.Proper.opened (proper : process.Proper)
    (serving : process.phase = .serving) : Opened process.server := by
  unfold Process.Proper at proper
  rwa [serving] at proper

theorem Process.Proper.connected {process next : Process} {connection : Connection}
    (proper : process.Proper) (taken : process.step (.connection connection exits) = some next) :
    Opened process.server ∧
      ∃ reply, Answered process.server connection.request exits reply next.server ∧
        next.replies = process.replies ++ [reply] ∧
        (next.phase = .serving ∨ next.phase = .stopped) := by
  obtain ⟨serving, served⟩ := Option.ite_none_right_eq_some.mp taken
  have opened := proper.opened serving
  exact ⟨opened, serve_answered opened served⟩

theorem Process.Proper.opened_of_served (proper : process.Proper)
    (seen : process.phase = .serving ∨ .served ∈ process.server.log) : Opened process.server := by
  unfold Process.Proper at proper
  cases phase : process.phase with
  | booting =>
    rw [phase] at proper seen
    rcases seen with serving | served
    · cases serving
    · exact absurd rfl (proper.2.2 _ served).2
  | serving => rwa [phase] at proper
  | stopped => rwa [phase] at proper
  | raised message =>
    rw [phase] at proper seen
    rcases seen with serving | served
    · cases serving
    · exact absurd rfl (proper _ served)

theorem boot_finished (process : Process) (exit : Exit) :
    (process.boot exit).server.finished = (process.server.runOnce exit).2.finished := by
  unfold Process.boot
  cases process.server.runOnce exit with
  | mk result server => cases result <;> rfl

theorem Process.Proper.boot_ends (proper : process.Proper) (booting : process.phase = .booting)
    {exit : Exit} (ended : (process.boot exit).server.finished = true) : Ends exit := by
  unfold Process.Proper at proper
  rw [booting] at proper
  rw [boot_finished] at ended
  rcases runOnce_booting proper.1 proper.2.1 exit with waited | started
  · exact waited.ends ended
  · rw [started.unfinished] at ended
    cases ended

theorem Process.Proper.step {process next : Process} {event : ProcessEvent}
    (proper : process.Proper) (taken : process.step event = some next) : next.Proper := by
  cases event with
  | boot exit =>
    obtain ⟨booting, made⟩ := Option.ite_none_right_eq_some.mp taken
    cases made
    exact proper.boot booting exit
  | connection connection exits =>
    obtain ⟨before, reply, answered, -, phase⟩ := proper.connected taken
    have opened := answered.opened before
    unfold Process.Proper
    rcases phase with phase | phase
    · rwa [phase]
    · rwa [phase]

theorem proper_initial (onReady : Bool) (tick : Nat) (outdir : Line) :
    (Process.initial onReady tick outdir).Proper := ⟨rfl, rfl, by simp [Process.initial]⟩

theorem run_still {process final : Process} {later : List ProcessEvent} (proper : process.Proper)
    (ended : process.server.finished = true) (ran : run Process.step process later = some final) :
    final.server.finished = true ∧ final.server.curTick = process.server.curTick ∧
      runs final.server.log = runs process.server.log := by
  have keep : ∀ (before : Process) (event : ProcessEvent) (after : Process),
      (before.Proper ∧ before.server.finished = true ∧
        before.server.curTick = process.server.curTick ∧
        runs before.server.log = runs process.server.log) →
      before.step event = some after →
      after.Proper ∧ after.server.finished = true ∧
        after.server.curTick = process.server.curTick ∧
        runs after.server.log = runs process.server.log := by
    rintro before event after ⟨inOrder, complete, tick, same⟩ taken
    refine ⟨inOrder.step taken, ?_⟩
    cases event with
    | boot exit =>
      obtain ⟨booting, -⟩ := Option.ite_none_right_eq_some.mp taken
      unfold Process.Proper at inOrder
      rw [booting] at inOrder
      rw [inOrder.2.1] at complete
      cases complete
    | connection connection exits =>
      obtain ⟨-, reply, answered, -, -⟩ := inOrder.connected taken
      obtain ⟨stays, still, unrun⟩ := answered.still complete
      exact ⟨stays, still.trans tick, unrun.trans same⟩
  exact (run_preserves keep ⟨proper, ended, rfl, rfl⟩ ran).2

structure Lifecycle (process : Process) : Prop where
  /-- The socket is served only after the region of interest has started. -/
  opened : process.phase = .serving ∨ .served ∈ process.server.log → Opened process.server
  /-- Only `workend` or an exit that is no boundary ends the guest's work. -/
  ends : ∀ event next, process.step event = some next → process.server.finished = false →
    next.server.finished = true → ∃ exit ∈ event.exits, Ends exit
  /-- Then the simulator is never run again, -/
  ended : process.server.finished = true → ∀ later final,
    run Process.step process later = some final →
      final.server.finished = true ∧ final.server.curTick = process.server.curTick ∧
        runs final.server.log = runs process.server.log
  /-- and every step and every status is answered by the same tick. -/
  answers : process.server.finished = true → ∀ connection exits next,
    process.step (.connection connection exits) = some next →
      (connection.request = .ok .status ∨ ∃ ticks, connection.request = .ok (.step ticks)) →
      next.replies = process.replies ++ [doneLine process.server.curTick ++ ['\n']]
  /-- Apart from the boot, ticks pass only inside steps. -/
  paused : process.phase ≠ .booting → ∀ event next, process.step event = some next →
    next.server.curTick ≠ process.server.curTick →
      ∃ connection exits ticks, event = .connection connection exits ∧
        connection.request = .ok (.step ticks)
  stepped : ∀ connection exits next ticks, process.step (.connection connection exits) = some next →
    connection.request = .ok (.step ticks) →
      Paced process.server ticks exits next.server

theorem timing_server_lifecycle {onReady : Bool} {tick : Nat} {outdir : Line}
    (reached : Reachable Process.step (Process.initial onReady tick outdir) process) :
    Lifecycle process := by
  have proper : process.Proper :=
    reached.invariant (fun _ _ _ inOrder taken => Process.Proper.step inOrder taken)
      (proper_initial onReady tick outdir)
  constructor
  case opened => exact proper.opened_of_served
  case ends =>
    intro event next taken unfinished ended
    cases event with
    | boot exit =>
      obtain ⟨booting, made⟩ := Option.ite_none_right_eq_some.mp taken
      cases made
      exact ⟨exit, List.mem_singleton.mpr rfl, proper.boot_ends booting ended⟩
    | connection connection exits =>
      obtain ⟨-, reply, answered, -, -⟩ := proper.connected taken
      exact answered.ends unfinished ended
  case ended =>
    intro ended later final ran
    exact run_still proper ended ran
  case answers =>
    intro ended connection exits next taken asked
    obtain ⟨-, reply, answered, replies, -⟩ := proper.connected taken
    rw [replies, answered.done ended asked]
  case paused =>
    intro notBooting event next taken moved
    cases event with
    | boot exit =>
      obtain ⟨booting, -⟩ := Option.ite_none_right_eq_some.mp taken
      exact absurd booting notBooting
    | connection connection exits =>
      obtain ⟨-, reply, answered, -, -⟩ := proper.connected taken
      obtain ⟨ticks, asked⟩ := answered.moved moved
      exact ⟨connection, exits, ticks, rfl, asked⟩
  case stepped =>
    intro connection exits next ticks taken asked
    obtain ⟨-, reply, answered, -, -⟩ := proper.connected taken
    exact answered.paced asked

/-- A boot with an exit of its own, a step with a second `workbegin` inside, and the end of
the guest's work. -/
def bootedLife : List ProcessEvent :=
  [.boot { cause := text "m5_exit instruction encountered", advance := 10 },
   .boot { cause := text "workbegin", advance := 10 },
   .connection { bytes := text "STEP_TICKS 100\n" }
     [{ cause := text "m5_exit instruction encountered", advance := 25 },
      { cause := text "workbegin", advance := 25 },
      { cause := text "simulate() limit reached", advance := 50 }],
   .connection { bytes := text "STEP_TICKS 100\n" } [{ cause := text "workend", advance := 7 }],
   .connection { bytes := text "STATUS\n" } []]

theorem timing_server_lifecycle_booted : ∃ process,
    run Process.step (Process.initial true 0 (text "m5out")) bootedLife = some process ∧
      process.replies = [text "OK 20 120\n", text "DONE 127\n", text "DONE 127\n"] ∧
      Lifecycle process := by
  have replies : (run Process.step (Process.initial true 0 (text "m5out")) bootedLife).map
      (fun process => process.replies) =
      some [text "OK 20 120\n", text "DONE 127\n", text "DONE 127\n"] := by decide +kernel
  obtain ⟨process, ran, printed⟩ := Option.map_eq_some_iff.mp replies
  exact ⟨process, ran, printed, timing_server_lifecycle ⟨bootedLife, ran⟩⟩

def commandLife (bytes : Line) (exits : List Exit) : List ProcessEvent :=
  [.boot { cause := text "workbegin", advance := 10 }, .connection { bytes := bytes } exits]

/-- Two steps that end early with the guest neither finished nor at an early limit: one of more
than an hour, which makes no run, and one whose run raises half way. -/
theorem steps_fall_short :
    (run Process.step (Process.initial false 0 (text "m5out"))
        (commandLife (text "STEP_TICKS 3600000000000001\n") [])).map
      (fun process => (process.server.curTick, process.server.finished,
        runs process.server.log)) = some (10, false, [(maxTick, 10)]) ∧
    (run Process.step (Process.initial false 0 (text "m5out"))
        (commandLife (text "STEP_TICKS 100\n")
          [{ cause := text "performance counter reset", advance := 40 }])).map
      (fun process => (process.server.curTick, process.server.finished,
        runs process.server.log)) = some (50, false, [(maxTick, 10), (100, 40)]) := by
  decide +kernel

end Chimaera.Timing
