import Mathlib.Data.BitVec
import Chimaera.Base.Segments
import Chimaera.Base.Text

/-! `chimaera_ros_bridge::TimingController`: each step advances gem5, reads the Gazebo clock,
requests physics steps and verifies the clock they lead to. World statistics arrive on
another thread, so a step is cut where it takes the lock or waits, and the statistics are
events between the parts. What gem5, the bridge and the control service do is the outcome
of an event. -/

namespace Chimaera.Gazebo
open Base.Segments Base.Text Base.Unsigned

/-- Iterations and simulated nanoseconds. Iterations wrap at 64 bits. -/
abbrev Stamp := BitVec 64 × Int

structure Statistics where
  iterations : BitVec 64
  seconds : Int
  nanoseconds : Int
  paused : Bool
  deriving DecidableEq, Repr

structure PhysicsStep where
  duration : Int
  positive : 0 < duration

/-- Where a call stands: outside of any, in the startup wait, in the gem5 phase of `start`
up to the end of its settling, at the step request, in the loop of `wait`, and in the
settling after the verification. -/
inductive Location where
  | idle
  | readying
  | guest
  | requesting
  | waiting
  | settling
  deriving DecidableEq, Repr

/-- The last five fields are history: the values of `multi_step`, what each `step` returned,
the clock at the last target and verification, and the segments of the completed steps. -/
structure Controller where
  physicsStep : PhysicsStep
  interval : Int := 0
  pending : Bool := false
  seen : Bool := false
  paused : Bool := false
  iterations : BitVec 64 := 0
  target : BitVec 64 := 0
  timeNs : Int := 0
  targetTime : Int := 0
  location : Location := .idle
  startup : Option (Except Line Unit) := none
  requests : List Nat := []
  results : List (Except Line Unit) := []
  base : Stamp := 0
  verified : Stamp := 0
  completed : List (Segment Stamp) := []

inductive RequestOutcome where
  | unsent
  | undeliverable
  | cancelled
  | late
  | refused
  | accepted
  deriving DecidableEq, Repr

/-- What happens to the controller. `ready` and `guest` end a gem5 operation, `request` the
exchange with the control service; `look` and `check` are rounds of the waiting loops, with
what the cancellation and the clock say. -/
inductive Event where
  | stats (message : Statistics)
  | ready (gem5 : Except Line Unit)
  | look (cancelled late : Bool)
  | step (interval : Int)
  | guest (result : Except Line Unit)
  | request (outcome : RequestOutcome)
  | check (cancelled late : Bool)
  | settled (result : Except Line Unit)

def uint32Max : Int := 4294967295

namespace Controller

def create (physicsStep : Int) (world : Line) : Except Line Controller :=
  if positive : 0 < physicsStep then
    if world = [] then
      .error (text "physics_step_ns must be positive and gazebo_world nonempty")
    else .ok { physicsStep := ⟨physicsStep, positive⟩ }
  else .error (text "physics_step_ns must be positive and gazebo_world nonempty")

def now (controller : Controller) : Stamp := (controller.iterations, controller.timeNs)

def steps (controller : Controller) (interval : Int) : Int :=
  interval.tdiv controller.physicsStep.duration

def requested (controller : Controller) (interval : Int) : Stamp :=
  (BitVec.ofInt 64 (controller.steps interval), interval)

def stats (controller : Controller) (message : Statistics) : Controller :=
  { controller with
    seen := true
    paused := message.paused
    iterations := message.iterations
    timeNs := message.seconds * 1000000000 + message.nanoseconds }

/-- `step` returns failed. Only `wait` clears `pending`. -/
def fail (controller : Controller) (message : Line) : Controller :=
  { controller with location := .idle, results := controller.results ++ [.error message] }

def ready (controller : Controller) : Except Line Unit → Controller
  | .error message => { controller with startup := some (.error message) }
  | .ok _ => { controller with location := .readying }

def look (controller : Controller) (cancelled late : Bool) : Controller :=
  if controller.seen then
    { controller with
      location := .idle
      startup := some (if controller.paused then .ok ()
        else .error (text "Gazebo must start paused (omit -r)")) }
  else if cancelled then
    { controller with location := .idle, startup := some (.error (text "Startup cancelled")) }
  else if late then
    { controller with
      location := .idle
      startup := some (.error (text "Timed out waiting for Gazebo statistics")) }
  else controller

def Refuses (controller : Controller) (interval : Int) : Prop :=
  controller.pending ∨ interval ≤ 0 ∨ interval > hour ∨
    interval.tmod controller.physicsStep.duration ≠ 0 ∨
    controller.steps interval > uint32Max

instance (controller : Controller) (interval : Int) : Decidable (controller.Refuses interval) := by
  unfold Refuses
  infer_instance

def refusal : Line :=
  text "Interval must be an integral number of physics steps, <= 1 hour; no overlapping steps"

def start (controller : Controller) (interval : Int) : Controller :=
  if controller.Refuses interval then controller.fail refusal
  else { controller with interval := interval, pending := true, location := .guest }

/-- The end of the gem5 phase: the target is computed from the statistics of this moment. -/
def aim (controller : Controller) : Except Line Unit → Controller
  | .error message => controller.fail message
  | .ok _ =>
      if !controller.seen || !controller.paused then controller.fail (text "Gazebo is not paused")
      else
        { controller with
          target := controller.iterations + BitVec.ofInt 64 (controller.steps controller.interval)
          targetTime := controller.timeNs + controller.interval
          base := controller.now
          location := .requesting }

def send (controller : Controller) : Controller :=
  { controller with
    requests := controller.requests ++ [(controller.steps controller.interval).toNat % 4294967296] }

def request (controller : Controller) : RequestOutcome → Controller
  | .unsent => controller.fail (text "Physics request cancelled")
  | .undeliverable => controller.fail (text "Gazebo rejected a step request")
  | .cancelled => controller.send.fail (text "Physics request cancelled")
  | .late => controller.send.fail (text "Gazebo timed out accepting a step")
  | .refused => controller.send.fail (text "Gazebo rejected a step")
  | .accepted => { controller.send with location := .waiting }

def check (controller : Controller) (cancelled late : Bool) : Controller :=
  if controller.target ≤ controller.iterations ∧ controller.paused then
    if controller.iterations ≠ controller.target ∨ controller.timeNs ≠ controller.targetTime then
      controller.fail
        (text "Gazebo step mismatch: check physics_step_ns and exclusive world control")
    else
      { controller with location := .settling, verified := controller.now }
  else if cancelled then controller.fail (text "Physics wait cancelled")
  else if late then
    controller.fail (text "Gazebo did not finish the requested physics steps")
  else controller

def finish (controller : Controller) : Except Line Unit → Controller
  | .error message => controller.fail message
  | .ok _ =>
      { controller with
        pending := false
        location := .idle
        results := controller.results ++ [.ok ()]
        completed := controller.completed ++
          [⟨controller.base, controller.requested controller.interval, controller.verified⟩] }

def step (controller : Controller) (event : Event) : Option Controller :=
  match controller.location, event with
  | _, .stats message => some (controller.stats message)
  | .idle, .ready gem5 => some (controller.ready gem5)
  | .readying, .look cancelled late => some (controller.look cancelled late)
  | .idle, .step interval => some (controller.start interval)
  | .guest, .guest result => some (controller.aim result)
  | .requesting, .request outcome => some (controller.request outcome)
  | .waiting, .check cancelled late => some (controller.check cancelled late)
  | .settling, .settled result => some (controller.finish result)
  | _, _ => none

end Controller

end Chimaera.Gazebo
