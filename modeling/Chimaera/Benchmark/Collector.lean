import Chimaera.Benchmark.Recording

/-! `Collector` of the host: the callbacks of its five subscriptions. A method that raises leaves
what it has changed so far, and `main` then finishes the recording. -/

namespace Chimaera.Benchmark
open Base.Text Session

structure Stamp where
  sec : Int
  nanosec : Nat
  deriving DecidableEq, Repr

def Stamp.seconds (stamp : Stamp) : Rat := stamp.sec + stamp.nanosec / 1000000000

structure Collector where
  finished : Bool := false
  success : Bool := false
  /-- The stamp of the last scan. -/
  scan : Option Rat := none
  havePose : Bool := false
  sim : Option Rat := none
  lastCommand : Option Rat := none
  recorder : Recorder
  duration : Rat
  commandTimeout : Rat

structure ParameterValue where
  type : Nat
  integerValue : Int
  doubleValue : FloatValue
  deriving DecidableEq, Repr

inductive Event where
  | clock (stamp : Stamp)
  | scan (stamp : Stamp)
  | pose (stamp : Stamp) (x y : FloatValue)
  | command (wall : Rat) (linear angular : FloatValue)
  | parameters (node : Line) (values : List (Line × ParameterValue))
  deriving DecidableEq, Repr

namespace Collector

def override (parameters : Parameters) (updates : List (Parameter × Json)) : Parameters :=
  updates.foldl (fun current update => Function.update current update.1 update.2) parameters

def create (duration commandTimeout : FloatValue) (configured : List (Line × Json)) :
    Except Line Collector :=
  match commandTimeout with
  | .finite timeout =>
      if timeout ≤ 0 then .error (text "command_timeout must be positive and finite")
      else do
        let parameters := override defaults <| configured.filterMap fun (name, value) =>
          (Parameter.ofName name).map fun parameter => (parameter, value)
        validate parameters
        let recorder ← Recorder.create parameters duration
        .ok { recorder := recorder, duration := recorder.duration, commandTimeout := timeout }
  | _ => .error (text "command_timeout must be positive and finite")

def finish (collector : Collector) (success : Bool) (reason : Line) : Collector :=
  if collector.finished then collector
  else
    let gap := match collector.sim, collector.lastCommand with
      | some sim, some last => some (sim - last)
      | _, _ => none
    let status : CollectionStatus :=
      { finishSimTime := collector.sim
        lastCommandSimTime := collector.lastCommand
        commandGap := gap
        commandTimeout := collector.commandTimeout }
    let recorder := { collector.recorder with
      metadata := { collector.recorder.metadata with collectionStatus := some status } }
    let recorder := recorder.finish success reason
    { collector with finished := true, success := recorder.metadata.completed, recorder := recorder }

def record (method : EStateM Line Recorder Unit) : EStateM Line Collector Unit := fun collector =>
  match method.run collector.recorder with
  | .ok _ recorder => .ok () { collector with recorder := recorder }
  | .error what recorder => .error what { collector with recorder := recorder }

def onScan (stamp : Stamp) (collector : Collector) : Collector :=
  { collector with scan := some stamp.seconds }

def onPose (stamp : Stamp) (x y : FloatValue) : EStateM Line Collector Unit := do
  let collector ← get
  match collector.sim with
  | none => pure ()
  | some sim =>
      if collector.finished then pure ()
      else
        modify fun collector => { collector with havePose := true }
        record (Recorder.recordPose sim stamp.seconds x y)

def watch (collector : Collector) (sim : Rat) : Collector :=
  if collector.finished then collector
  else match collector.recorder.start with
    | none => collector
    | some start =>
        if collector.lastCommand.any (fun last => collector.commandTimeout < sim - last) then
          collector.finish false (text "robot command timeout")
        else if collector.duration ≤ sim - start then
          collector.finish true (text "duration reached")
        else collector

def onClock (stamp : Stamp) (collector : Collector) : Collector :=
  let sim := stamp.seconds
  if collector.sim.any (fun last => sim < last) then
    collector.finish false (text "simulation clock moved backwards")
  else { collector with sim := some sim }.watch sim

def onCommand (wall : Rat) (linear angular : FloatValue) : EStateM Line Collector Unit := do
  let collector ← get
  match collector.sim, collector.scan with
  | some sim, some scan =>
      if collector.finished || decide (sim ≤ 0) || !collector.havePose then pure ()
      else
        modify fun collector => { collector with lastCommand := some sim }
        record (Recorder.recordCommand sim wall linear angular scan)
  | _, _ => pure ()

def updates (values : List (Line × ParameterValue)) : List (Parameter × Json) :=
  values.filterMap fun (name, value) => (Parameter.ofName name).map fun parameter =>
    (parameter, if value.type = 2 then .int value.integerValue else .float value.doubleValue)

def sameParameters (first second : Parameters) : Bool :=
  Parameter.all.all fun k => finiteNumber (first k) = finiteNumber (second k)

def onParameters (node : Line) (values : List (Line × ParameterValue)) :
    EStateM Line Collector Unit := do
  let collector ← get
  if node ≠ text "/wall_follower" ∨ collector.finished then pure ()
  else if (updates values).isEmpty then pure ()
  else
    let candidate := override collector.recorder.parameters (updates values)
    match validate candidate with
    | .error what => throw what
    | .ok _ =>
        if sameParameters candidate collector.recorder.parameters then pure ()
        else modify fun collector => { collector with
          recorder := collector.recorder.updateParameters candidate (collector.sim.getD 0) }

def handle : Event → EStateM Line Collector Unit
  | .clock stamp => modify (onClock stamp)
  | .scan stamp => modify (onScan stamp)
  | .pose stamp x y => onPose stamp x y
  | .command wall linear angular => onCommand wall linear angular
  | .parameters node values => onParameters node values

def shutdown (collector : Collector) : Collector := collector.finish false (text "interrupted")

def spin (collector : Collector) (event : Event) : Collector :=
  match (handle event).run collector with
  | .ok _ after => after
  | .error _ after => after.shutdown

def spinAll (collector : Collector) (events : List Event) : Collector := events.foldl spin collector

end Collector

end Chimaera.Benchmark
