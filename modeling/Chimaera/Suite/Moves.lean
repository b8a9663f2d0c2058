import Chimaera.Suite.Runner

/-! What a step of the suite can do. -/

namespace Chimaera.Suite.World
open Base.Text

inductive Move (world : World) (runner : Invocation) : World → Prop
  | opened (there : runner.location = .opening) :
      Move world runner ({ world with suite := some (.plan runner.plan) }.put
        (runner.goto (.next runner.plan.runs)))
  | recorded (key : Key) (rest : List RunId) (attempt : Attempt)
      (there : runner.location = .preparing key rest)
      (own : world.attempts.lookup key = some attempt) :
      Move world runner
        ((world.store key { attempt with file := some (.record { status := .running }) }).put
          (runner.goto (.launching key rest)))
  | closed (key : Key) (rest : List RunId) (verdict : Verdict) (attempt : Attempt)
      (there : runner.location = .closing key rest verdict)
      (own : world.attempts.lookup key = some attempt) :
      Move world runner
        ((world.store key { attempt with file := some (.record verdict.record) }).put
          (runner.goto (.deciding key rest verdict)))
  | stopped : Move world runner { world with runner := none }
  | tornSuite (there : runner.location = .opening) :
      Move world runner { world with runner := none, suite := some .torn }
  | tornFile (key : Key) (rest : List RunId) (attempt : Attempt)
      (there : runner.location = .preparing key rest ∨
        ∃ verdict, runner.location = .closing key rest verdict)
      (own : world.attempts.lookup key = some attempt) :
      Move world runner
        (({ world with runner := none } : World).store key { attempt with file := some .torn })
  | skipped (run : RunId) (rest : List RunId) (there : runner.location = .next (run :: rest))
      (attempt : Attempt) (found : attempt ∈ world.found run)
      (eligible : attempt.eligible = some true) :
      Move world runner (world.put (runner.goto (.next rest)))
  | retried (run : RunId) (rest : List RunId) (there : runner.location = .next (run :: rest))
      (none : ∀ attempt ∈ world.found run, attempt.eligible = some false) :
      Move world runner (world.put (runner.goto (.allocating run rest)))
  | allocated (run : RunId) (rest : List RunId) (number : Nat)
      (there : runner.location = .allocating run rest)
      (free : world.attempts.lookup (run, number) = none) :
      Move world runner ((world.store (run, number) { born := world.begun }).put
        (runner.goto (.preparing (run, number) rest)))
  | launched (key : Key) (rest : List RunId) (attempt : Attempt)
      (there : runner.location = .launching key rest)
      (own : world.attempts.lookup key = some attempt) :
      Move world runner ((world.store key { attempt with child := .alive }).put
        (runner.goto (.waiting key rest)))
  | waited (key : Key) (rest : List RunId) (attempt : Attempt) (code : Int) (good : Bool)
      (there : runner.location = .waiting key rest)
      (own : world.attempts.lookup key = some attempt) (exited : attempt.child = .exited code)
      (checked : attempt.succeeded code = some good) :
      Move world runner (world.put (runner.conclude key rest
        { record := { status := if good then .completed else .failed, returncode := some code } }))
  | caught (key : Key) (rest : List RunId) (verdict : Verdict)
      (there : runner.location = .launching key rest ∨ runner.location = .waiting key rest)
      (unfinished : verdict.record.status ≠ .completed) :
      Move world runner (world.put (runner.conclude key rest verdict))
  | timed (key : Key) (rest : List RunId) (verdict : Verdict) (failure : Option Line)
      (there : runner.location = .timing key rest verdict) :
      Move world runner (world.put (runner.goto
        (.stats key rest { verdict with record := verdict.record.timed failure })))
  | counted (key : Key) (rest : List RunId) (verdict : Verdict) (failure : Option Line)
      (there : runner.location = .stats key rest verdict) :
      Move world runner (world.put (runner.goto
        (.closing key rest { verdict with record := verdict.record.counted failure })))
  | finished (there : runner.location = .next []) :
      Move world runner (world.put (runner.goto .ended))
  | interrupted : Move world runner (world.leave (.returned 130))
  | succeeded (key : Key) (rest : List RunId) (verdict : Verdict)
      (there : runner.location = .deciding key rest verdict)
      (completed : verdict.record.status = .completed) :
      Move world runner (world.put (runner.goto (.next rest)))
  | failed (key : Key) (rest : List RunId) (verdict : Verdict)
      (there : runner.location = .deciding key rest verdict) :
      Move world runner (world.put (runner.fail rest))
  | left (failures : Nat) (there : runner.location = .ended)
      (counted : runner.failures ≤ failures) :
      Move world runner (world.leave (.returned (exitCode failures)))

section Inversion

variable {world after : World} {runner : Invocation}

theorem write_move (taken : world.write runner = some after) : Move world runner after := by
  unfold write at taken
  split at taken
  case h_1 there => cases taken; exact .opened there
  case h_2 key rest there =>
    obtain ⟨attempt, own, stored⟩ := Option.bind_eq_some_iff.mp taken
    cases stored
    exact .recorded key rest attempt there own
  case h_3 key rest verdict there =>
    obtain ⟨attempt, own, stored⟩ := Option.bind_eq_some_iff.mp taken
    cases stored
    exact .closed key rest verdict attempt there own
  case h_4 => cases taken

theorem stop_move (world : World) (runner : Invocation) (torn : Bool) :
    Move world runner (world.stop runner torn) := by
  unfold stop
  dsimp only
  split
  case h_1 there => exact .tornSuite there
  case h_2 key rest there =>
    split
    case h_1 attempt own => exact .tornFile key rest attempt (.inl there) own
    case h_2 => exact .stopped
  case h_3 key rest verdict there =>
    split
    case h_1 attempt own => exact .tornFile key rest attempt (.inr ⟨verdict, there⟩) own
    case h_2 => exact .stopped
  case h_4 => exact .stopped

theorem skip_move (taken : world.skip runner = some after) : Move world runner after := by
  unfold skip at taken
  split at taken
  case h_1 run rest there =>
    split_ifs at taken with found
    cases taken
    obtain ⟨attempt, member, eligible⟩ := List.any_eq_true.mp found
    exact .skipped run rest there attempt member (of_decide_eq_true eligible)
  case h_2 => cases taken

theorem retry_move (taken : world.retry runner = some after) : Move world runner after := by
  unfold retry at taken
  split at taken
  case h_1 run rest there =>
    split_ifs at taken with none
    cases taken
    refine .retried run rest there fun attempt member => ?_
    exact of_decide_eq_true (List.all_eq_true.mp none attempt member)
  case h_2 => cases taken

theorem allocate_move (taken : world.allocate runner = some after) : Move world runner after := by
  unfold allocate at taken
  split at taken
  case h_1 run rest there =>
    dsimp only at taken
    split_ifs at taken with occupied
    cases taken
    exact .allocated run rest _ there (Option.not_isSome_iff_eq_none.mp occupied)
  case h_2 => cases taken

theorem launch_move (taken : world.launch runner = some after) : Move world runner after := by
  unfold launch at taken
  split at taken
  case h_1 key rest there =>
    obtain ⟨attempt, own, stored⟩ := Option.bind_eq_some_iff.mp taken
    cases stored
    exact .launched key rest attempt there own
  case h_2 => cases taken

theorem wait_move (taken : world.wait runner = some after) : Move world runner after := by
  unfold wait at taken
  split at taken
  case h_1 key rest there =>
    obtain ⟨attempt, own, taken⟩ := Option.bind_eq_some_iff.mp taken
    split at taken
    case h_1 code exited =>
      obtain ⟨good, checked, taken⟩ := Option.bind_eq_some_iff.mp taken
      cases taken
      exact .waited key rest attempt code good there own exited checked
    case h_2 => cases taken
  case h_2 => cases taken

theorem caught_move {verdict : Verdict} (unfinished : verdict.record.status ≠ .completed)
    (taken : world.caught runner verdict = some after) : Move world runner after := by
  unfold caught at taken
  split at taken
  case h_1 key rest there => cases taken; exact .caught key rest verdict (.inl there) unfinished
  case h_2 key rest there => cases taken; exact .caught key rest verdict (.inr there) unfinished
  case h_3 => cases taken

theorem summarize_move {failure : Option Line}
    (taken : world.summarize runner failure = some after) :
    Move world runner after := by
  unfold summarize at taken
  split at taken
  case h_1 key rest verdict there => cases taken; exact .timed key rest verdict failure there
  case h_2 key rest verdict there => cases taken; exact .counted key rest verdict failure there
  case h_3 => cases taken

theorem advance_move (taken : world.advance runner = some after) : Move world runner after := by
  unfold advance at taken
  split at taken
  case h_1 there => cases taken; exact .finished there
  case h_2 key rest verdict there =>
    split_ifs at taken with interrupted completed <;> cases taken
    · exact .interrupted
    · exact .succeeded key rest verdict there completed
    · exact .failed key rest verdict there
  case h_3 there =>
    split_ifs at taken
    cases taken
    exact .left _ there (Nat.le_refl _)
  case h_4 => cases taken

theorem report_move {code : Int} (taken : world.report runner code = some after) :
    Move world runner after := by
  unfold report at taken
  split at taken
  case h_1 there =>
    split_ifs at taken <;> cases taken <;> exact .left _ there (Nat.le_add_right _ _)
  case h_2 => cases taken

theorem act_move {event : Event} (taken : world.act runner event = some after) :
    Move world runner after := by
  cases event with
  | write => exact write_move taken
  | skip => exact skip_move taken
  | retry => exact retry_move taken
  | allocate => exact allocate_move taken
  | launch => exact launch_move taken
  | wait => exact wait_move taken
  | timeout =>
    change world.timeout runner = some after at taken
    unfold timeout at taken
    split at taken
    · exact caught_move (by simp) taken
    · cases taken
  | interrupt => exact caught_move (by simp) taken
  | error what => exact caught_move (by simp) taken
  | summarize failure => exact summarize_move taken
  | advance => exact advance_move taken
  | report code => exact report_move taken
  | stop torn => cases taken; exact stop_move world runner torn
  | invoke | childWrites | childExits => cases taken

end Inversion

inductive Idle (world : World) : World → Prop
  | refused (what : Line) : Idle world (world.leave (.refused what))
  | fresh (plan : Plan) (keepGoing collectOnly : Bool) (absent : world.present = false) :
      Idle world (world.enter plan keepGoing collectOnly .opening)
  | resumed (plan : Plan) (keepGoing collectOnly : Bool)
      (saved : world.suite = some (.plan plan)) :
      Idle world (world.enter plan keepGoing collectOnly (.next plan.runs))

inductive ChildMove (world : World) : World → Prop
  | wrote (key : Key) (attempt : Attempt) (recording : Recording)
      (own : world.attempts.lookup key = some attempt) (alive : attempt.child = .alive) :
      ChildMove world (world.store key { attempt with recording := recording })
  | exited (key : Key) (attempt : Attempt) (code : Int)
      (own : world.attempts.lookup key = some attempt) (alive : attempt.child = .alive) :
      ChildMove world (world.store key { attempt with child := .exited code })

theorem invoke_idle (world : World) (plan : Plan) (resume keepGoing collectOnly : Bool) :
    Idle world (world.invoke plan resume keepGoing collectOnly) := by
  unfold invoke
  split_ifs with present resuming
  · split
    case h_1 previous saved =>
      split_ifs with same
      · subst same
        exact .resumed previous keepGoing collectOnly saved
      · exact .refused _
    case h_2 => exact .refused _
  · exact .refused _
  · exact .fresh plan keepGoing collectOnly (Bool.eq_false_iff.mpr present)

theorem step_cases {world after : World} {event : Event} (taken : world.step event = some after) :
    (event.byChild = true ∧ ChildMove world after) ∨
      event.byChild = false ∧
        ((∃ runner, world.runner = some runner ∧ Move world runner after) ∨
          world.runner = none ∧ Idle world after) := by
  unfold step at taken
  split at taken
  case h_1 key recording =>
    obtain ⟨attempt, own, taken⟩ := Option.bind_eq_some_iff.mp taken
    split_ifs at taken with alive
    cases taken
    exact .inl ⟨rfl, .wrote key attempt recording own alive⟩
  case h_2 key code =>
    obtain ⟨attempt, own, taken⟩ := Option.bind_eq_some_iff.mp taken
    split_ifs at taken with alive
    cases taken
    exact .inl ⟨rfl, .exited key attempt code own alive⟩
  case h_3 plan resume keepGoing collectOnly idle =>
    cases taken
    exact .inr ⟨rfl, .inr ⟨idle, invoke_idle world plan resume keepGoing collectOnly⟩⟩
  case h_4 event runner writes exits busy =>
    refine .inr ⟨?_, .inl ⟨runner, busy, act_move taken⟩⟩
    cases event <;> simp_all [Event.byChild]
  case h_5 => cases taken

end Chimaera.Suite.World
