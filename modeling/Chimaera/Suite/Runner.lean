import Mathlib.Data.List.AList
import Chimaera.Session.Values

/-! `run_experiments.py` on one output directory. An invocation goes through the runs of the
plan and makes a new attempt directory for each one that has no eligible attempt yet. Its
children are sessions of their own: they go on writing when the runner is killed. Whatever the
runner writes it writes in place, so that a kill can leave a file torn. -/

namespace Chimaera.Suite
open Base.Text Session

abbrev RunId := Line

abbrev Key := RunId × Nat

/-! ## Attempts -/

inductive Samples where
  | missing
  | undecodable
  | lines (count : Nat)
  deriving DecidableEq, Repr

/-- What the collector of an attempt leaves. There is no metadata if the file is missing or
not JSON. -/
structure Recording where
  metadata : Option Json := none
  poses : Bool := false
  samples : Samples := .missing

def equalsThree : Json → Bool
  | .int value => value = 3
  | .float (.finite value) => value = 3
  | _ => false

/-- `completed`, without a result where it raises: other JSON has no `get`. -/
def Recording.completed (recording : Recording) : Option Bool :=
  match recording.metadata with
  | none => some false
  | some (.object entries) => some <|
      (entries.lookup (text "schema_version")).any equalsThree &&
      (entries.lookup (text "completed")).any (fun value => value.isTrue) && recording.poses &&
      match recording.samples with
      | .lines count => 3 ≤ count
      | _ => false
  | some _ => none

inductive AttemptStatus where
  | running | completed | failed | timeout | interrupted
  deriving DecidableEq, Repr

inductive Summary where
  | absent
  | computed
  | error (what : Line)
  deriving DecidableEq, Repr

structure Record where
  status : AttemptStatus
  returncode : Option Int := none
  error : Option Line := none
  timing : Summary := .absent
  stats : Summary := .absent
  deriving DecidableEq, Repr

inductive StatusFile where
  | torn
  | record (record : Record)
  deriving DecidableEq, Repr

inductive Child where
  | unborn
  | alive
  | exited (code : Int)
  deriving DecidableEq, Repr

/-- An attempt directory with its child. The number of the invocation that made it is
history. -/
structure Attempt where
  born : Nat
  file : Option StatusFile := none
  recording : Recording := {}
  child : Child := .unborn

/-- `eligible`, without a result where it raises. -/
def Attempt.eligible (attempt : Attempt) : Option Bool :=
  match attempt.recording.completed with
  | some true =>
      match attempt.file with
      | none => some true
      | some .torn => some false
      | some (.record record) => some (record.status = .completed)
  | some false => some false
  | none => none

/-- The test behind `wait`: `completed` is only asked after the code 0. -/
def Attempt.succeeded (attempt : Attempt) (code : Int) : Option Bool :=
  if code = 0 then attempt.recording.completed else some false

/-! ## The runner -/

structure Plan where
  runs : List RunId
  gem5 : Bool
  settings : Line
  deriving DecidableEq

inductive SuiteFile where
  | torn
  | plan (plan : Plan)
  deriving DecidableEq

structure Verdict where
  record : Record
  interrupted : Bool := false
  deriving DecidableEq, Repr

inductive Location where
  | opening
  | next (rest : List RunId)
  | allocating (run : RunId) (rest : List RunId)
  | preparing (key : Key) (rest : List RunId)
  | launching (key : Key) (rest : List RunId)
  | waiting (key : Key) (rest : List RunId)
  | timing (key : Key) (rest : List RunId) (verdict : Verdict)
  | stats (key : Key) (rest : List RunId) (verdict : Verdict)
  | closing (key : Key) (rest : List RunId) (verdict : Verdict)
  | deciding (key : Key) (rest : List RunId) (verdict : Verdict)
  | ended
  deriving DecidableEq, Repr

structure Invocation where
  plan : Plan
  keepGoing : Bool
  collectOnly : Bool
  failures : Nat := 0
  location : Location

inductive Outcome where
  | returned (code : Int)
  | refused (what : Line)
  deriving DecidableEq, Repr

/-- The output directory and the invocation under way. The number of invocations begun and
the outcomes of those that ended by themselves are history. -/
structure World where
  present : Bool := false
  suite : Option SuiteFile := none
  attempts : AList fun _ : Key => Attempt := ∅
  runner : Option Invocation := none
  begun : Nat := 0
  outcomes : List Outcome := []

inductive Event where
  | invoke (plan : Plan) (resume keepGoing collectOnly : Bool)
  /-- A file of the runner is written to its end. -/
  | write
  /-- The run has an eligible attempt. -/
  | skip
  /-- It has none. -/
  | retry
  | allocate
  | launch
  | wait
  | timeout
  | interrupt
  | error (what : Line)
  | summarize (failure : Option Line)
  | advance
  | report (code : Int)
  /-- The runner is killed or ends by an exception that nobody catches. -/
  | stop (torn : Bool)
  | childWrites (key : Key) (recording : Recording)
  | childExits (key : Key) (code : Int)

def Event.byChild : Event → Bool
  | .childWrites _ _ | .childExits _ _ => true
  | _ => false

def firstFree (taken : Nat → Bool) : Nat → Nat → Nat
  | 0, attempt => attempt
  | fuel + 1, attempt => if taken attempt then firstFree taken fuel (attempt + 1) else attempt

namespace Record

def downgrade (record : Record) (failure : Option Line) : Record :=
  { record with
    status := if failure.isSome ∧ record.status = .completed then .failed else record.status }

def summary : Option Line → Summary
  | none => .computed
  | some what => .error what

def timed (record : Record) (failure : Option Line) : Record :=
  { record.downgrade failure with timing := summary failure }

def counted (record : Record) (failure : Option Line) : Record :=
  { record.downgrade failure with stats := summary failure }

end Record

namespace Invocation

def goto (runner : Invocation) (location : Location) : Invocation :=
  { runner with location := location }

def conclude (runner : Invocation) (key : Key) (rest : List RunId) (verdict : Verdict) :
    Invocation :=
  runner.goto (if runner.plan.gem5 then .timing key rest verdict else .closing key rest verdict)

/-- The failure of a run is counted and ends the loop unless `--keep-going` is given. -/
def fail (runner : Invocation) (rest : List RunId) : Invocation :=
  { runner with
    failures := runner.failures + 1
    location := if runner.keepGoing then .next rest else .ended }

end Invocation

namespace World

def put (world : World) (runner : Invocation) : World := { world with runner := some runner }

def leave (world : World) (outcome : Outcome) : World :=
  { world with runner := none, outcomes := world.outcomes ++ [outcome] }

def store (world : World) (key : Key) (attempt : Attempt) : World :=
  { world with attempts := world.attempts.insert key attempt }

def found (world : World) (run : RunId) : List Attempt :=
  (world.attempts.entries.filter fun entry => entry.1.1 = run).map fun entry => entry.2

def firstAttempt (world : World) (run : RunId) : Nat :=
  firstFree (fun attempt => (world.attempts.lookup (run, attempt)).isSome)
    world.attempts.entries.length 1

def enter (world : World) (plan : Plan) (keepGoing collectOnly : Bool) (location : Location) :
    World :=
  { world with
    present := true, begun := world.begun + 1
    runner := some
      { plan := plan, keepGoing := keepGoing, collectOnly := collectOnly, location := location } }

def invoke (world : World) (plan : Plan) (resume keepGoing collectOnly : Bool) : World :=
  if world.present then
    if resume then
      match world.suite with
      | some (.plan previous) =>
          if previous = plan then world.enter plan keepGoing collectOnly (.next plan.runs)
          else world.leave (.refused (text
            "Cannot resume: architecture or experiment settings differ from saved plan"))
      | _ => world.leave (.refused (text "Cannot resume: missing or invalid suite.json"))
    else world.leave (.refused (text
      "Output already exists; choose a fresh directory or use --resume"))
  else world.enter plan keepGoing collectOnly .opening

def write (world : World) (runner : Invocation) : Option World :=
  match runner.location with
  | .opening => some ({ world with suite := some (.plan runner.plan) }.put
      (runner.goto (.next runner.plan.runs)))
  | .preparing key rest => do
      let attempt ← world.attempts.lookup key
      some ((world.store key { attempt with file := some (.record { status := .running }) }).put
        (runner.goto (.launching key rest)))
  | .closing key rest verdict => do
      let attempt ← world.attempts.lookup key
      some ((world.store key { attempt with file := some (.record verdict.record) }).put
        (runner.goto (.deciding key rest verdict)))
  | _ => none

def stop (world : World) (runner : Invocation) (torn : Bool) : World :=
  let ended := { world with runner := none }
  match runner.location, torn with
  | .opening, true => { ended with suite := some .torn }
  | .preparing key _, true | .closing key _ _, true =>
      match world.attempts.lookup key with
      | some attempt => ended.store key { attempt with file := some .torn }
      | none => ended
  | _, _ => ended

def skip (world : World) (runner : Invocation) : Option World :=
  match runner.location with
  | .next (run :: rest) =>
      if (world.found run).any (fun attempt => attempt.eligible = some true) then
        some (world.put (runner.goto (.next rest)))
      else none
  | _ => none

def retry (world : World) (runner : Invocation) : Option World :=
  match runner.location with
  | .next (run :: rest) =>
      if (world.found run).all (fun attempt => attempt.eligible = some false) then
        some (world.put (runner.goto (.allocating run rest)))
      else none
  | _ => none

def allocate (world : World) (runner : Invocation) : Option World :=
  match runner.location with
  | .allocating run rest =>
      let key := (run, world.firstAttempt run)
      if (world.attempts.lookup key).isSome then none
      else some ((world.store key { born := world.begun }).put (runner.goto (.preparing key rest)))
  | _ => none

def launch (world : World) (runner : Invocation) : Option World :=
  match runner.location with
  | .launching key rest => do
      let attempt ← world.attempts.lookup key
      some ((world.store key { attempt with child := .alive }).put (runner.goto (.waiting key rest)))
  | _ => none

/-- The child has exited. Where `completed` raises, the runner stops. -/
def wait (world : World) (runner : Invocation) : Option World :=
  match runner.location with
  | .waiting key rest => do
      let attempt ← world.attempts.lookup key
      match attempt.child with
      | .exited code => do
          let good ← attempt.succeeded code
          let record : Record :=
            { status := if good then .completed else .failed, returncode := some code }
          some (world.put (runner.conclude key rest { record := record }))
      | _ => none
  | _ => none

def caught (world : World) (runner : Invocation) (verdict : Verdict) : Option World :=
  match runner.location with
  | .launching key rest | .waiting key rest =>
      some (world.put (runner.conclude key rest verdict))
  | _ => none

def timeout (world : World) (runner : Invocation) : Option World :=
  match runner.location with
  | .waiting _ _ => world.caught runner { record := { status := .timeout } }
  | _ => none

def summarize (world : World) (runner : Invocation) (failure : Option Line) : Option World :=
  match runner.location with
  | .timing key rest verdict =>
      some (world.put (runner.goto
        (.stats key rest { verdict with record := verdict.record.timed failure })))
  | .stats key rest verdict =>
      some (world.put (runner.goto
        (.closing key rest { verdict with record := verdict.record.counted failure })))
  | _ => none

def exitCode (failures : Nat) : Int := if failures = 0 then 0 else 1

def advance (world : World) (runner : Invocation) : Option World :=
  match runner.location with
  | .next [] => some (world.put (runner.goto .ended))
  | .deciding _ rest verdict =>
      if verdict.interrupted then some (world.leave (.returned 130))
      else if verdict.record.status = .completed then some (world.put (runner.goto (.next rest)))
      else some (world.put (runner.fail rest))
  | .ended =>
      if runner.collectOnly then some (world.leave (.returned (exitCode runner.failures))) else none
  | _ => none

def report (world : World) (runner : Invocation) (code : Int) : Option World :=
  match runner.location with
  | .ended =>
      if runner.collectOnly then none
      else some (world.leave (.returned
        (exitCode (runner.failures + if code = 0 then 0 else 1))))
  | _ => none

def childWrites (world : World) (key : Key) (recording : Recording) : Option World := do
  let attempt ← world.attempts.lookup key
  if attempt.child = .alive then some (world.store key { attempt with recording := recording })
  else none

def childExits (world : World) (key : Key) (code : Int) : Option World := do
  let attempt ← world.attempts.lookup key
  if attempt.child = .alive then some (world.store key { attempt with child := .exited code })
  else none

def act (world : World) (runner : Invocation) : Event → Option World
  | .write => world.write runner
  | .skip => world.skip runner
  | .retry => world.retry runner
  | .allocate => world.allocate runner
  | .launch => world.launch runner
  | .wait => world.wait runner
  | .timeout => world.timeout runner
  | .interrupt => world.caught runner { record := { status := .interrupted }, interrupted := true }
  | .error what => world.caught runner { record := { status := .failed, error := some what } }
  | .summarize failure => world.summarize runner failure
  | .advance => world.advance runner
  | .report code => world.report runner code
  | .stop torn => some (world.stop runner torn)
  | _ => none

def step (world : World) (event : Event) : Option World :=
  match event, world.runner with
  | .childWrites key recording, _ => world.childWrites key recording
  | .childExits key code, _ => world.childExits key code
  | .invoke plan resume keepGoing collectOnly, none =>
      some (world.invoke plan resume keepGoing collectOnly)
  | event, some runner => world.act runner event
  | _, none => none

end World

end Chimaera.Suite
