import Mathlib.Logic.Function.Basic
import Chimaera.Base.Text

/-! The runner of `containers/run.py`: its loop over pending and active jobs, the cleanup
behind it, and the file `run.json` from which the next invocation resumes. The world around
one output directory is a state machine. A step is what the runner does between two points
at which something else can happen: a signal, an exit, an exception or a kill. -/

namespace Chimaera.Containers
open Base.Text

abbrev Name := Line

abbrev Container := Nat

def containerName (container : Container) : Line :=
  let hex := Nat.toDigits 16 container
  text "chimaera-" ++ List.replicate (32 - hex.length) '0' ++ hex

inductive JobStatus where
  | queued | running | completed | failed | interrupted
  deriving DecidableEq, Repr

structure Record where
  status : JobStatus
  container : Option Container := none
  exitCode : Option Int := none
  error : Option Line := none
  deriving DecidableEq, Repr

def Record.suspect (record : Record) : Option Container :=
  if record.status = .completed then none else record.container

/-- What has to be the same to resume: the image and the configuration, whose jobs `load`
has found to be named differently. -/
structure Identity where
  jobs : List Name
  unique : jobs.Nodup
  settings : Line
  image : Line
  deriving DecidableEq

inductive RunStatus where
  | running | completed | failed | interrupted | cleanupFailed
  deriving DecidableEq, Repr

structure RunState where
  identity : Identity
  jobs : Name → Record
  status : RunStatus := .running
  error : Option Line := none
  errors : List Line := []

def RunState.set (state : RunState) (name : Name) (record : Record) : RunState :=
  { state with jobs := Function.update state.jobs name record }

inductive Signal where
  | sigint | sigterm
  deriving DecidableEq, Repr

def Signal.number : Signal → Int
  | .sigint => 2
  | .sigterm => 15

/-- Where the runner is. The lists are what remains of a loop. -/
inductive Location where
  | inspecting (rest : List Name)
  | opening
  | head
  | polling (rest : List (Name × Container))
  | removing (name : Name) (container : Container) (code : Int) (rest : List (Name × Container))
  | removed (name : Name) (container : Container) (code : Int) (rest : List (Name × Container))
  | recorded (rest : List (Name × Container))
  | starting
  | preparing (name : Name)
  | spawning (name : Name) (container : Container)
  | spawned
  | progress
  | ended
  | cleaning (rest : List (Name × Container))
  | closing
  deriving DecidableEq, Repr

def Location.guarded : Location → Bool
  | .inspecting _ | .cleaning _ | .closing => false
  | _ => true

def Location.handled : Location → Bool
  | .inspecting _ | .closing => false
  | _ => true

def Location.saving : Location → Bool
  | .opening | .recorded _ | .spawned | .closing => true
  | _ => false

/-- An invocation that holds the lock. The last three fields are history: the records it
began with, the jobs it has taken from the queue and those it has given to `Popen`. -/
structure Runner where
  state : RunState
  workers : Nat
  pending : List Name
  active : List (Name × Container) := []
  interrupted : Option Signal := none
  location : Location
  raised : Option Line := none
  cleanupErrors : List Line := []
  initial : Name → Record
  dequeued : List Name := []
  started : List Name := []

inductive Outcome where
  | returned (code : Int)
  | raised (what : Line)
  deriving DecidableEq, Repr

/-- The output directory, the containers that are alive, and the invocation under way.
The rest is history: numbers drawn, exit codes polled, containers removed by `docker rm`,
invocations begun and the outcomes of those that ended. -/
structure World where
  saved : Option RunState := none
  temporary : Bool := false
  live : List (Container × Name) := []
  runner : Option Runner := none
  drawn : List Container := []
  exits : List (Container × Int) := []
  removed : List Container := []
  begun : Nat := 0
  outcomes : List Outcome := []

/-- The answer of `docker container inspect`. -/
inductive Inspection where
  | found
  | noSuch
  | failed (stderr : Line)
  deriving DecidableEq, Repr

inductive Event where
  | invoke (identity : Identity) (workers : Int) (resume : Bool)
  | inspect (answer : Inspection)
  /-- The runner goes on without an effect outside of it. -/
  | advance
  | write
  | poll (code : Option Int)
  /-- `docker rm --force`, with what it complains about. -/
  | remove (stderr : Option Line)
  /-- The directory of the job is made and the command line built. -/
  | prepare (container : Container)
  /-- `Popen` returns; the command may fail before it has made a container. -/
  | spawn (created : Bool)
  | spawnError (what : Line)
  | clean (code : Int)
  | cleanError (what : Line)
  /-- Any other exception; one in `save` may leave its temporary file. -/
  | raise (what : Line) (torn : Bool)
  | signal (signal : Signal)
  | kill (torn : Bool)
  /-- A container ends, or somebody else removes it. -/
  | exit (container : Container)

namespace Runner

def unfinished (identity : Identity) (records : Name → Record) : List Name :=
  identity.jobs.filter fun name => (records name).status ≠ .completed

def goto (runner : Runner) (location : Location) : Runner := { runner with location := location }

def begin (identity : Identity) (workers : Nat) (records : Name → Record) (location : Location) :
    Runner where
  state := { identity := identity, jobs := records }
  workers := workers
  pending := unfinished identity records
  location := location
  initial := records

def caught (runner : Runner) (what : Line) : Runner :=
  { runner with
    state := { runner.state with status := .failed, error := some what }
    raised := some what
    location := .cleaning runner.active }

def finish (runner : Runner) (name : Name) (code : Int) (rest : List (Name × Container)) : Runner :=
  { runner with
    state := runner.state.set name
      { runner.state.jobs name with
        status := if code = 0 then .completed else .failed, exitCode := some code }
    active := runner.active.filter fun entry => entry.1 ≠ name
    location := .recorded rest }

def dequeue (runner : Runner) : Runner :=
  match runner.pending with
  | [] => runner.goto .progress
  | name :: rest =>
      if runner.active.length < runner.workers ∧ runner.interrupted = none then
        { runner with
          pending := rest, dequeued := runner.dequeued ++ [name], location := .preparing name }
      else runner.goto .progress

def prepare (runner : Runner) (name : Name) (container : Container) : Runner :=
  { runner with
    state := runner.state.set name { status := .running, container := some container }
    location := .spawning name container }

def spawn (runner : Runner) (name : Name) (container : Container) : Runner :=
  { runner with
    active := runner.active ++ [(name, container)]
    started := runner.started ++ [name]
    location := .spawned }

def spawnError (runner : Runner) (name : Name) (what : Line) : Runner :=
  { runner with
    state := runner.state.set name
      { runner.state.jobs name with status := .failed, exitCode := some 2, error := some what }
    started := runner.started ++ [name] }

def allCompleted (runner : Runner) : Bool :=
  runner.state.identity.jobs.all fun name => (runner.state.jobs name).status = .completed

def conclude (runner : Runner) : Runner :=
  { runner with
    state := { runner.state with
      status := if runner.interrupted.isSome then .interrupted
        else if runner.allCompleted then .completed else .failed }
    location := .cleaning runner.active }

def cleaned (runner : Runner) (name : Name) (code : Int) (rest : List (Name × Container)) :
    Runner :=
  { runner with
    state := runner.state.set name
      { runner.state.jobs name with status := .interrupted, exitCode := some code }
    location := .cleaning rest }

def settle (runner : Runner) : Runner :=
  { runner with
    state :=
      if runner.cleanupErrors ≠ [] then
        { runner.state with status := .cleanupFailed, errors := runner.cleanupErrors }
      else if runner.active ≠ [] then
        { runner.state with
          status := if runner.interrupted.isSome then .interrupted else .failed }
      else runner.state
    location := .closing }

def outcome (runner : Runner) : Outcome :=
  if runner.cleanupErrors ≠ [] then .raised (List.intercalate (text "; ") runner.cleanupErrors)
  else match runner.raised with
    | some what => .raised what
    | none => .returned <|
        match runner.interrupted with
        | some signal => 128 + signal.number
        | none => if runner.state.status = .completed then 0 else 1

def advance (runner : Runner) : Option Runner :=
  match runner.location with
  | .inspecting [] => some (runner.goto .opening)
  | .inspecting (name :: rest) =>
      if (runner.state.jobs name).suspect = none then some (runner.goto (.inspecting rest)) else none
  | .head =>
      if runner.pending = [] ∧ runner.active = [] then some (runner.goto .ended)
      else if runner.interrupted.isSome then some (runner.goto .ended)
      else some (runner.goto (.polling runner.active))
  | .polling [] => some (runner.goto .starting)
  | .removed name _ code rest => some (runner.finish name code rest)
  | .starting => some runner.dequeue
  | .progress => some (runner.goto .head)
  | .ended => some runner.conclude
  | .cleaning [] => some runner.settle
  | _ => none

end Runner

namespace World

def put (world : World) (runner : Runner) : World := { world with runner := some runner }

def leave (world : World) (outcome : Outcome) : World :=
  { world with runner := none, outcomes := world.outcomes ++ [outcome] }

def refuse (world : World) (what : Line) : World :=
  { world with outcomes := world.outcomes ++ [.raised what] }

def enter (world : World) (runner : Runner) : World :=
  { world with runner := some runner, begun := world.begun + 1 }

def invoke (world : World) (identity : Identity) (workers : Int) (resume : Bool) : World :=
  if workers < 1 then world.refuse (text "workers and progress-interval must be positive")
  else if world.runner.isSome then world.refuse (text "another runner owns this output")
  else if resume then
    match world.saved with
    | none => world.refuse (text "No such file or directory")
    | some previous =>
        if previous.identity ≠ identity then
          world.refuse (text "cannot resume with different configuration or image")
        else world.enter
          (.begin identity workers.toNat previous.jobs (.inspecting identity.jobs))
  else if world.saved.isSome ∨ world.temporary then
    world.refuse (text "output is not empty; choose a new directory or use --resume")
  else world.enter (.begin identity workers.toNat (fun _ => { status := .queued }) .opening)

def isLive (world : World) (container : Container) : Bool :=
  world.live.any fun entry => entry.1 = container

def gone (world : World) (container : Container) : World :=
  { world with live := world.live.filter fun entry => entry.1 ≠ container }

def inspect (world : World) (runner : Runner) (answer : Inspection) : Option World :=
  match runner.location with
  | .inspecting (name :: rest) =>
      match (runner.state.jobs name).suspect, answer with
      | some container, .found =>
          if world.isLive container then
            some (world.leave (.raised (text "old container still owns results: " ++
              containerName container ++ text "; stop/remove it before resuming")))
          else none
      | some container, .noSuch =>
          if world.isLive container then none
          else some (world.put (runner.goto (.inspecting rest)))
      | some _, .failed stderr => some (world.leave (.raised stderr))
      | none, _ => none
  | _ => none

def save (world : World) (runner : Runner) : World :=
  { world with saved := some runner.state, temporary := false }

def write (world : World) (runner : Runner) : Option World :=
  match runner.location with
  | .opening => some ((world.save runner).put (runner.goto .head))
  | .recorded rest => some ((world.save runner).put (runner.goto (.polling rest)))
  | .spawned => some ((world.save runner).put (runner.goto .starting))
  | .closing => some ((world.save runner).leave runner.outcome)
  | _ => none

def poll (world : World) (runner : Runner) (code : Option Int) : Option World :=
  match runner.location, code with
  | .polling (_ :: rest), none => some (world.put (runner.goto (.polling rest)))
  | .polling ((name, container) :: rest), some code =>
      some ({ world with exits := world.exits ++ [(container, code)] }.put
        (runner.goto (.removing name container code rest)))
  | _, _ => none

def remove (world : World) (runner : Runner) (stderr : Option Line) : Option World :=
  match runner.location, stderr with
  | .removing name container code rest, none =>
      some ({ world.gone container with removed := world.removed ++ [container] }.put
        (runner.goto (.removed name container code rest)))
  | .removing _ container _ _, some stderr =>
      some (world.put (runner.caught (text "container cleanup failed for " ++
        containerName container ++ text ": " ++ stderr)))
  | _, _ => none

def prepare (world : World) (runner : Runner) (container : Container) : Option World :=
  match runner.location with
  | .preparing name =>
      -- `uuid4` never draws a number twice
      if container ∈ world.drawn then none
      else some ({ world with drawn := world.drawn ++ [container] }.put
        (runner.prepare name container))
  | _ => none

def spawn (world : World) (runner : Runner) (created : Bool) : Option World :=
  match runner.location with
  | .spawning name container =>
      some ({ world with
        live := if created then world.live ++ [(container, name)] else world.live }.put
          (runner.spawn name container))
  | _ => none

def spawnError (world : World) (runner : Runner) (what : Line) : Option World :=
  match runner.location with
  | .spawning name _ => some (world.put ((runner.spawnError name what).caught what))
  | _ => none

def clean (world : World) (runner : Runner) (code : Int) : Option World :=
  match runner.location with
  | .cleaning ((name, container) :: rest) =>
      some ({ world.gone container with removed := world.removed ++ [container] }.put
        (runner.cleaned name code rest))
  | _ => none

def cleanError (world : World) (runner : Runner) (what : Line) : Option World :=
  match runner.location with
  | .cleaning (_ :: rest) =>
      some (world.put { runner with
        cleanupErrors := runner.cleanupErrors ++ [what], location := .cleaning rest })
  | _ => none

def tear (world : World) (runner : Runner) (torn : Bool) : World :=
  { world with temporary := (torn && runner.location.saving) || world.temporary }

def raise (world : World) (runner : Runner) (what : Line) (torn : Bool) : World :=
  if runner.location.guarded then (world.tear runner torn).put (runner.caught what)
  else (world.tear runner torn).leave (.raised what)

def kill (world : World) (runner : Runner) (torn : Bool) : World :=
  { world.tear runner torn with runner := none }

def signal (world : World) (runner : Runner) (signal : Signal) : Option World :=
  if runner.location.handled then some (world.put { runner with interrupted := some signal })
  else none

def act (world : World) (runner : Runner) : Event → Option World
  | .invoke identity workers resume => some (world.invoke identity workers resume)
  | .inspect answer => world.inspect runner answer
  | .advance => runner.advance.map world.put
  | .write => world.write runner
  | .poll code => world.poll runner code
  | .remove stderr => world.remove runner stderr
  | .prepare container => world.prepare runner container
  | .spawn created => world.spawn runner created
  | .spawnError what => world.spawnError runner what
  | .clean code => world.clean runner code
  | .cleanError what => world.cleanError runner what
  | .raise what torn => some (world.raise runner what torn)
  | .signal signal => world.signal runner signal
  | .kill torn => some (world.kill runner torn)
  | .exit container => some (world.gone container)

def step (world : World) (event : Event) : Option World :=
  match world.runner, event with
  | some runner, event => world.act runner event
  | none, .invoke identity workers resume => some (world.invoke identity workers resume)
  | none, .exit container => some (world.gone container)
  | none, _ => none

end World

end Chimaera.Containers
