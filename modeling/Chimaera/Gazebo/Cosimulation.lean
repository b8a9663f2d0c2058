import Chimaera.Gazebo.Lockstep
import Chimaera.Ros.Programs
import Chimaera.Timing.Drift

/-! The program `gazebo_host_bridge`: its main function over the Gazebo controller and the gem5
session that the controller holds. The call of `step` is cut at the phases of `start` and `wait`;
each event says how much time the steady clock shows since the one before. What the bridge node
and the queues of the host controller do is the outcome of an event. -/

namespace Chimaera.Gazebo
open Base.Text Base.Transition Base.Unsigned
open Timing (Client Attempt Arrival Delivery Fault)

structure Settings extends Ros.HostSettings where
  timeout : Int
  logs : Bool
  patient : 0 < timeout

def Settings.Refuses (interval poll steps timeout : Int) : Prop :=
  interval < 1 ∨ interval > 3600000000 ∨ poll < 1 ∨ poll ≥ interval ∨ steps < 0 ∨ timeout < 1

instance (interval poll steps timeout : Int) :
    Decidable (Settings.Refuses interval poll steps timeout) := by
  unfold Settings.Refuses
  infer_instance

theorem Settings.of_not_refuses {interval poll steps timeout : Int}
    (accepted : ¬Settings.Refuses interval poll steps timeout) :
    0 < poll ∧ poll < interval ∧ interval ≤ 3600000000 ∧ 0 ≤ steps ∧ 0 < timeout := by
  unfold Settings.Refuses at accepted
  omega

/-- The checks. `reports` says that `report_seconds` is finite and positive; `opened` is what
creating the folder and opening the timing file come to. -/
def Settings.ofParameters (interval poll steps timeout : Int) (reports : Bool) (timingFile : Line)
    (opened : Except Line Bool) : Except Line Settings :=
  if refused : Settings.Refuses interval poll steps timeout then
    .error (text "require 0 < poll_us < interval_us <= 3600000000, " ++
      text "steps >= 0 and startup_timeout_s > 0")
  else if !reports then .error (text "report_seconds must be finite and positive")
  else
    let settings : Settings :=
      { interval := interval, poll := poll, steps := steps, timeout := timeout, logs := false
        polls := (Settings.of_not_refuses refused).1
        shorter := (Settings.of_not_refuses refused).2.1
        hourly := (Settings.of_not_refuses refused).2.2.1
        counted := (Settings.of_not_refuses refused).2.2.2.1
        patient := (Settings.of_not_refuses refused).2.2.2.2 }
    if timingFile = [] then .ok settings
    else
      match opened with
      | .error what => .error what
      | .ok false => .error (text "Cannot open timing_file: " ++ timingFile)
      | .ok true => .ok { settings with logs := true }

def Settings.duration (settings : Settings) : Int := settings.interval * 1000

/-- One line of the timing file. The interval is in microseconds, gem5's progress in ticks and
wall times in nanoseconds. -/
structure Row where
  step : Nat
  interval : Int
  ticks : Nat
  gem5Wall : Nat
  gazeboWall : Nat
  otherWall : Nat
  wall : Nat
  elapsedWall : Nat
  startupWall : Nat
  deriving DecidableEq, Repr

/-- Where the main function stands. Inside of `step` it is in the first exchange, in the step of
gem5, in the second exchange and the settling, or at the physics; `before` is `ticks_before`. -/
inductive Place where
  | waiting
  | readying
  | started
  | loop
  | entering (before : Nat)
  | sending (before : Nat)
  | running (before : Nat)
  | returning (before : Nat)
  | physics (before : Nat)
  | returned (before : Nat)
  | stopping (thrown : Option Line)
  | ended (reported : Option Line)
  deriving DecidableEq, Repr

def Place.live : Place → Bool
  | .stopping _ => false
  | .ended _ => false
  | _ => true

/-- The clock starts where the wait for gem5 does. `taken` is the history of gem5's steps. -/
structure Cosimulation where
  gazebo : Controller
  gem5 : Client
  place : Place := .waiting
  clock : Nat := 0
  startupWall : Nat := 0
  runBegin : Nat := 0
  stepBegin : Nat := 0
  gem5Begin : Nat := 0
  gem5Wall : Nat := 0
  gazeboBegin : Nat := 0
  gazeboWall : Nat := 0
  count : Int := 0
  completedSteps : Nat := 0
  rows : List Row := []
  taken : List Timing.Step := []

/-- What happens to the program. `gem5` is a pair of `start` and `wait` that completes, with what
the queues make of the batch; `gem5Fails` is one that throws; `refused` is a failure that the
host controller finds before it. `returns` is the rest of a round behind `step`, with the value of
`rclcpp::ok()`, the outcome of `spin_some` and whether the row was written. -/
inductive Action where
  | stats (message : Statistics)
  | ready (attempts : List Attempt) (arrival : Arrival)
  | look (cancelled late : Bool)
  | begin
  | check (running : Bool)
  | start
  | exchange (result : Except Line Unit)
  | refused (failure : Line)
  | gem5 (reply : Timing.Step) (appended : Except Line Unit)
  | gem5Fails (delivery : Delivery) (arrival : Arrival)
  | deliver (result : Except Line Unit)
  | request (outcome : RequestOutcome)
  | verify (cancelled late : Bool)
  | settled (result : Except Line Unit)
  | returns (running : Bool) (spun : Except Line Unit) (written : Bool)
  | stop (waiting : Arrival) (delivery : Delivery) (arrival : Arrival)

structure Tick where
  passed : Nat
  action : Action

/-- A machine word; the machine's reading of an operation never traps. -/
def word : Except String Nat → Nat
  | .ok value => value
  | .error _ => 0

def ticks (client : Client) : Nat := word (client.elapsedTicks .machine)

def attempt (client : Client) (interval : Int) (delivery : Delivery) (arrival : Arrival) :
    Except Fault Unit × Client :=
  match client.start .machine interval delivery with
  | (.error fault, client) => (.error fault, client)
  | (.ok _, client) => client.wait .machine arrival

namespace Cosimulation

/-- The constructors of the controllers; `subscribed` is the subscription of the statistics. -/
def create (settings : Settings) (socket : Line) (physicsStep : Int) (world : Line)
    (subscribed : Bool) : Except Line Cosimulation := do
  let gem5 ← (Client.create socket settings.timeout).mapError Fault.message
  let gazebo ← Controller.create physicsStep world
  if subscribed then .ok { gazebo := gazebo, gem5 := gem5 }
  else .error (text "Cannot subscribe to Gazebo world statistics")

/-- `step` goes on, or it has returned with the result that the controller has recorded. -/
def proceed (state : Cosimulation) (before : Nat) (next : Place) (gazebo : Controller) :
    Cosimulation :=
  { state with
    gazebo := gazebo
    place := if gazebo.location = .idle then .returned before else next }

def beginGem5 (state : Cosimulation) : Cosimulation := { state with gem5Begin := state.clock }

def beginGazebo (state : Cosimulation) : Cosimulation := { state with gazeboBegin := state.clock }

def measureGazebo (state : Cosimulation) (gazebo : Controller) : Cosimulation :=
  if gazebo.location = .settling then
    { state with gazeboWall := state.clock - state.gazeboBegin }
  else state

def throws (state : Cosimulation) (before : Nat) (message : Line) : Option Cosimulation :=
  (state.gazebo.step (.guest (.error message))).map (state.proceed before (.returning before))

def ready (settings : Settings) (state : Cosimulation) (attempts : List Attempt)
    (arrival : Arrival) : Option Cosimulation :=
  match state.gem5.waitUntilReady settings.timeout attempts arrival with
  | none => none
  | some (.error fault, gem5) =>
      (state.gazebo.step (.ready (.error fault.message))).map fun gazebo =>
        { state with gem5 := gem5, gazebo := gazebo, place := .stopping (some fault.message) }
  | some (.ok _, gem5) =>
      (state.gazebo.step (.ready (.ok ()))).map fun gazebo =>
        { state with gem5 := gem5, gazebo := gazebo, place := .readying }

def look (state : Cosimulation) (gazebo : Controller) : Cosimulation :=
  match gazebo.location, gazebo.startup with
  | .idle, some (.ok _) =>
      { state with gazebo := gazebo, startupWall := state.clock, place := .started }
  | .idle, some (.error message) =>
      { state with gazebo := gazebo, place := .stopping (some message) }
  | _, _ => { state with gazebo := gazebo }

def continues (settings : Settings) (state : Cosimulation) (running : Bool) : Bool :=
  running && (settings.steps == 0 || decide (state.count < settings.steps))

def measure (state : Cosimulation) (gem5 : Client) : Cosimulation :=
  { state with gem5 := gem5, gem5Wall := state.clock - state.gem5Begin }

def take (state : Cosimulation) (reply : Timing.Step) : Cosimulation :=
  { state with taken := state.taken ++ [reply] }

def tooManyPolls : Line :=
  text "require 0 < poll <= interval <= 1 hour, at most 100000 polls"

def polled (settings : Settings) : Bool :=
  Control.valid settings.duration settings.pollInterval.duration

def refuse (settings : Settings) (state : Cosimulation) (before : Nat) (failure : Line) :
    Option Cosimulation :=
  if !polled settings then (state.measure state.gem5).throws before tooManyPolls
  else if failure ≠ [] then (state.measure state.gem5).throws before failure
  else none

/-- The ticks of a reply are read as machine words; a larger number is a failure. -/
def advance (settings : Settings) (state : Cosimulation) (before : Nat) (reply : Timing.Step)
    (appended : Except Line Unit) : Option Cosimulation :=
  if polled settings ∧ reply.interval = settings.duration ∧ reply.start < modulus ∧
      reply.finish < modulus then
    match Timing.pair .machine state.gem5 reply with
    | none => none
    | some gem5 =>
        match appended with
        | .error message => ((state.measure gem5).take reply).throws before message
        | .ok _ => some { (state.measure gem5).take reply with place := .returning before }
  else none

def failGem5 (settings : Settings) (state : Cosimulation) (before : Nat) (delivery : Delivery)
    (arrival : Arrival) : Option Cosimulation :=
  if polled settings then
    match attempt state.gem5 settings.duration delivery arrival with
    | (.ok _, _) => none
    | (.error fault, gem5) => (state.measure gem5).throws before fault.message
  else none

def row (settings : Settings) (state : Cosimulation) (before : Nat) : Row :=
  { step := state.completedSteps
    interval := settings.interval
    ticks := word (Mode.machine.sub (Gazebo.ticks state.gem5) before)
    gem5Wall := state.gem5Wall
    gazeboWall := state.gazeboWall
    otherWall := state.clock - state.stepBegin - state.gem5Wall - state.gazeboWall
    wall := state.clock - state.stepBegin
    elapsedWall := state.clock - state.runBegin
    startupWall := state.startupWall }

def finishRound (settings : Settings) (state : Cosimulation) (before : Nat)
    (spun : Except Line Unit) (written : Bool) : Cosimulation :=
  let state := { state with completedSteps := state.completedSteps + 1 }
  match spun with
  | .error message => { state with place := .stopping (some message) }
  | .ok _ =>
      if !settings.logs then { state with place := .loop, count := state.count + 1 }
      else if written then
        { state with
          place := .loop, count := state.count + 1
          rows := state.rows ++ [row settings state before] }
      else { state with place := .stopping (some (text "Failed writing timing_file")) }

def returns (settings : Settings) (state : Cosimulation) (before : Nat) (running : Bool)
    (spun : Except Line Unit) (written : Bool) : Option Cosimulation :=
  match state.gazebo.results.getLast? with
  | none => none
  | some (.error message) =>
      some { state with place := .stopping (if running then some message else none) }
  | some (.ok _) => some (finishRound settings state before spun written)

/-- `stop` of the host controller; an exception in flight comes before its failure. -/
def stop (state : Cosimulation) (thrown : Option Line) (waiting : Arrival) (delivery : Delivery)
    (arrival : Arrival) : Cosimulation :=
  match state.gem5.shutdown .machine waiting delivery arrival with
  | (.ok _, gem5) => { state with gem5 := gem5, place := .ended thrown }
  | (.error fault, gem5) =>
      { state with gem5 := gem5, place := .ended (some (thrown.getD fault.message)) }

def act (settings : Settings) (state : Cosimulation) (action : Action) : Option Cosimulation :=
  match state.place, action with
  | _, .stats message => some { state with gazebo := state.gazebo.stats message }
  | .waiting, .ready attempts arrival => state.ready settings attempts arrival
  | .readying, .look cancelled late =>
      (state.gazebo.step (.look cancelled late)).map state.look
  | .started, .begin => some { state with runBegin := state.clock, place := .loop }
  | .loop, .check running =>
      if state.continues settings running then
        some { state with stepBegin := state.clock, place := .entering (ticks state.gem5) }
      else some { state with place := .stopping none }
  | .entering before, .start =>
      (state.gazebo.step (.step settings.duration)).map
        (state.beginGem5.proceed before (.sending before))
  | .sending before, .exchange (.ok _) => some { state with place := .running before }
  | .sending before, .exchange (.error message) => state.throws before message
  | .running before, .refused failure => state.refuse settings before failure
  | .running before, .gem5 reply appended => state.advance settings before reply appended
  | .running before, .gem5Fails delivery arrival => state.failGem5 settings before delivery arrival
  | .returning before, .deliver result =>
      (state.gazebo.step (.guest result)).map
        (state.beginGazebo.proceed before (.physics before))
  | .physics before, .request outcome =>
      (state.gazebo.step (.request outcome)).map (state.proceed before (.physics before))
  | .physics before, .verify cancelled late =>
      (state.gazebo.step (.check cancelled late)).map fun gazebo =>
        (state.measureGazebo gazebo).proceed before (.physics before) gazebo
  | .physics before, .settled result =>
      (state.gazebo.step (.settled result)).map (state.proceed before (.physics before))
  | .returned before, .returns running spun written =>
      state.returns settings before running spun written
  | .stopping thrown, .stop waiting delivery arrival =>
      some (state.stop thrown waiting delivery arrival)
  | _, _ => none

def step (settings : Settings) (state : Cosimulation) (tick : Tick) : Option Cosimulation :=
  act settings { state with clock := state.clock + tick.passed } tick.action

end Cosimulation

/-! ## What a step can do -/

/-- Where a call of the controller stands when it takes an event; statistics come at any time. -/
def Event.location? : Event → Option Location
  | .stats _ => none
  | .ready _ => some .idle
  | .look _ _ => some .readying
  | .step _ => some .idle
  | .guest _ => some .guest
  | .request _ => some .requesting
  | .check _ _ => some .waiting
  | .settled _ => some .settling

namespace Controller

def effect (controller : Controller) : Event → Controller
  | .stats message => controller.stats message
  | .ready gem5 => controller.ready gem5
  | .look cancelled late => controller.look cancelled late
  | .step interval => controller.start interval
  | .guest result => controller.aim result
  | .request outcome => controller.request outcome
  | .check cancelled late => controller.check cancelled late
  | .settled result => controller.finish result

theorem step_eq_some {controller next : Controller} {event : Event} :
    controller.step event = some next ↔
      (∀ location ∈ event.location?, controller.location = location) ∧
        controller.effect event = next := by
  unfold Controller.step
  cases event <;> cases location : controller.location <;>
    simp [Event.location?, effect]

structure Failed (controller next : Controller) : Prop where
  location : next.location = .idle
  result : ∃ message, next.results.getLast? = some (.error message)
  completed : next.completed = controller.completed

theorem failed_fail (controller : Controller) (message : Line) :
    controller.Failed (controller.fail message) :=
  ⟨rfl, ⟨message, List.getLast?_concat⟩, rfl⟩

theorem failed_send (controller : Controller) (message : Line) :
    controller.Failed (controller.send.fail message) :=
  ⟨rfl, ⟨message, List.getLast?_concat⟩, rfl⟩

structure Goes (controller next : Controller) (location : Location) : Prop where
  location : next.location = location
  interval : next.interval = controller.interval
  completed : next.completed = controller.completed

theorem aim_cases (controller : Controller) (result : Except Line Unit) :
    controller.Failed (controller.aim result) ∨
      controller.Goes (controller.aim result) .requesting := by
  cases result with
  | error message => exact .inl (failed_fail controller message)
  | ok done =>
    unfold aim
    by_cases refused : (!controller.seen || !controller.paused) = true
    · simp only [refused, if_true]
      exact .inl (failed_fail controller _)
    · simp only [refused]
      exact .inr ⟨rfl, rfl, rfl⟩

theorem request_cases (controller : Controller) (outcome : RequestOutcome) :
    controller.Failed (controller.request outcome) ∨
      controller.Goes (controller.request outcome) .waiting := by
  cases outcome with
  | unsent => exact .inl (failed_fail controller _)
  | undeliverable => exact .inl (failed_fail controller _)
  | cancelled => exact .inl (failed_send controller _)
  | late => exact .inl (failed_send controller _)
  | refused => exact .inl (failed_send controller _)
  | accepted => exact .inr ⟨rfl, rfl, rfl⟩

theorem check_cases (controller : Controller) (cancelled late : Bool) :
    controller.Failed (controller.check cancelled late) ∨
      controller.Goes (controller.check cancelled late) .settling ∨
      controller.check cancelled late = controller := by
  unfold check
  split_ifs
  · exact .inl (failed_fail controller _)
  · exact .inr (.inl ⟨rfl, rfl, rfl⟩)
  · exact .inl (failed_fail controller _)
  · exact .inl (failed_fail controller _)
  · exact .inr (.inr rfl)

end Controller

namespace Cosimulation

structure Keeps (state after : Cosimulation) : Prop where
  startupWall : after.startupWall = state.startupWall
  rows : after.rows = state.rows
  taken : state.taken <+: after.taken

inductive Move (settings : Settings) (state : Cosimulation) : Cosimulation → Prop
  | heard (message : Statistics) :
      Move settings state { state with gazebo := state.gazebo.stats message }
  | connects {attempts arrival gem5} (place : state.place = .waiting)
      (ready : state.gem5.waitUntilReady settings.timeout attempts arrival = some (.ok (), gem5)) :
      Move settings state
        { state with gem5 := gem5, gazebo := state.gazebo.ready (.ok ()), place := .readying }
  | looks (place : state.place = .readying) : Move settings state state
  | readies {startup} (place : state.place = .readying) :
      Move settings state { state with
        gazebo := { state.gazebo with location := .idle, startup := startup }
        startupWall := state.clock
        place := .started }
  | begins (place : state.place = .started) :
      Move settings state { state with runBegin := state.clock, place := .loop }
  | enters (place : state.place = .loop) :
      Move settings state
        { state with stepBegin := state.clock, place := .entering (ticks state.gem5) }
  | starts {before} (place : state.place = .entering before) :
      Move settings state { state with
        gazebo := { state.gazebo with
          interval := settings.duration, pending := true, location := .guest }
        gem5Begin := state.clock
        place := .sending before }
  | sends {before} (place : state.place = .sending before) :
      Move settings state { state with place := .running before }
  | advances {before reply gem5} (place : state.place = .running before)
      (interval : reply.interval = settings.duration) (start : reply.start < modulus)
      (finish : reply.finish < modulus)
      (paired : Timing.pair .machine state.gem5 reply = some gem5) :
      Move settings state { state with
        gem5 := gem5
        gem5Wall := state.clock - state.gem5Begin
        taken := state.taken ++ [reply]
        place := .returning before }
  | aims {before gazebo} (place : state.place = .returning before)
      (goes : state.gazebo.Goes gazebo .requesting) :
      Move settings state
        { state with gazebo := gazebo, gazeboBegin := state.clock, place := .physics before }
  | waits {before gazebo} (place : state.place = .physics before)
      (goes : state.gazebo.Goes gazebo .waiting) :
      Move settings state { state with gazebo := gazebo, place := .physics before }
  | verifies {before gazebo} (place : state.place = .physics before)
      (waiting : state.gazebo.location = .waiting) (goes : state.gazebo.Goes gazebo .settling) :
      Move settings state { state with
        gazebo := gazebo
        gazeboWall := state.clock - state.gazeboBegin
        place := .physics before }
  | completes {before} (place : state.place = .physics before)
      (settling : state.gazebo.location = .settling) :
      Move settings state
        { state with gazebo := state.gazebo.finish (.ok ()), place := .returned before }
  | fails {after before message} (place : after.place = .returned before)
      (result : after.gazebo.results.getLast? = some (.error message)) (keeps : state.Keeps after)
      (completed : after.gazebo.completed = state.gazebo.completed) : Move settings state after
  | skips {before} (place : state.place = .returned before)
      (result : state.gazebo.results.getLast? = some (.ok ())) (silent : settings.logs = false) :
      Move settings state { state with
        completedSteps := state.completedSteps + 1, place := .loop, count := state.count + 1 }
  | logs {before} (place : state.place = .returned before)
      (result : state.gazebo.results.getLast? = some (.ok ())) (logging : settings.logs = true) :
      Move settings state { state with
        completedSteps := state.completedSteps + 1
        place := .loop
        count := state.count + 1
        rows := state.rows ++ [row settings
          { state with completedSteps := state.completedSteps + 1 } before] }
  | leaves {after} (place : after.place.live = false) (keeps : state.Keeps after)
      (completed : after.gazebo.completed = state.gazebo.completed) : Move settings state after

section Moves

variable {settings : Settings} {state after : Cosimulation} {before : Nat}

theorem proceed_fails {next : Place} {gazebo : Controller} {middle : Cosimulation}
    (failed : state.gazebo.Failed gazebo) (keeps : state.Keeps middle) :
    Move settings state (middle.proceed before next gazebo) := by
  obtain ⟨message, result⟩ := failed.result
  have place : (middle.proceed before next gazebo).place = .returned before :=
    if_pos failed.location
  exact .fails place result ⟨keeps.startupWall, keeps.rows, keeps.taken⟩ failed.completed

theorem proceed_goes {next : Place} {gazebo : Controller} {location : Location}
    (goes : state.gazebo.Goes gazebo location) (inside : location ≠ .idle) :
    state.proceed before next gazebo = { state with gazebo := gazebo, place := next } := by
  rw [proceed, goes.location, if_neg inside]

theorem throws_moves {message : Line} {middle : Cosimulation}
    (taken : middle.throws before message = some after) (keeps : state.Keeps middle)
    (same : middle.gazebo = state.gazebo) : Move settings state after := by
  obtain ⟨gazebo, stepped, rfl⟩ := Option.map_eq_some_iff.mp taken
  have failed : middle.gazebo.fail message = gazebo := (Controller.step_eq_some.mp stepped).2
  refine proceed_fails ?_ keeps
  rw [← failed, same]
  exact Controller.failed_fail state.gazebo message

theorem ready_moves {attempts : List Attempt} {arrival : Arrival} (place : state.place = .waiting)
    (taken : state.ready settings attempts arrival = some after) : Move settings state after := by
  unfold ready at taken
  split at taken
  · cases taken
  · obtain ⟨gazebo, stepped, rfl⟩ := Option.map_eq_some_iff.mp taken
    obtain ⟨-, rfl⟩ := Controller.step_eq_some.mp stepped
    exact .leaves rfl ⟨rfl, rfl, List.prefix_rfl⟩ rfl
  · next reached =>
    obtain ⟨gazebo, stepped, rfl⟩ := Option.map_eq_some_iff.mp taken
    obtain ⟨-, rfl⟩ := Controller.step_eq_some.mp stepped
    exact .connects place reached

theorem look_moves {cancelled late : Bool} (place : state.place = .readying)
    (taken : (state.gazebo.step (.look cancelled late)).map state.look = some after) :
    Move settings state after := by
  obtain ⟨gazebo, stepped, rfl⟩ := Option.map_eq_some_iff.mp taken
  obtain ⟨location, rfl⟩ := Controller.step_eq_some.mp stepped
  have readying : state.gazebo.location = .readying := location _ rfl
  show Move settings state (state.look (state.gazebo.look cancelled late))
  unfold Controller.look
  split_ifs
  · exact .readies place
  · exact .leaves rfl ⟨rfl, rfl, List.prefix_rfl⟩ rfl
  · exact .leaves rfl ⟨rfl, rfl, List.prefix_rfl⟩ rfl
  · exact .leaves rfl ⟨rfl, rfl, List.prefix_rfl⟩ rfl
  · unfold look
    rw [readying]
    exact .looks place

theorem start_moves (place : state.place = .entering before)
    (taken : (state.gazebo.step (.step settings.duration)).map
      (state.beginGem5.proceed before (.sending before)) = some after) :
    Move settings state after := by
  obtain ⟨gazebo, stepped, rfl⟩ := Option.map_eq_some_iff.mp taken
  have effect : state.gazebo.start settings.duration = gazebo :=
    (Controller.step_eq_some.mp stepped).2
  unfold Controller.start at effect
  by_cases refused : state.gazebo.Refuses settings.duration
  · rw [if_pos refused] at effect
    subst effect
    exact proceed_fails (Controller.failed_fail state.gazebo _) ⟨rfl, rfl, List.prefix_rfl⟩
  · rw [if_neg refused] at effect
    subst effect
    exact .starts place

theorem refuse_moves {failure : Line} (taken : state.refuse settings before failure = some after) :
    Move settings state after := by
  unfold refuse at taken
  split_ifs at taken
  · exact throws_moves taken ⟨rfl, rfl, List.prefix_rfl⟩ rfl
  · exact throws_moves taken ⟨rfl, rfl, List.prefix_rfl⟩ rfl

theorem advance_moves {reply : Timing.Step} {appended : Except Line Unit}
    (place : state.place = .running before)
    (taken : state.advance settings before reply appended = some after) :
    Move settings state after := by
  unfold advance at taken
  split_ifs at taken with guards
  obtain ⟨-, interval, start, finish⟩ := guards
  split at taken
  · cases taken
  · next paired =>
    cases appended with
    | error message => exact throws_moves taken ⟨rfl, rfl, List.prefix_append _ _⟩ rfl
    | ok done =>
      cases taken
      exact .advances place interval start finish paired

theorem failGem5_moves {delivery : Delivery} {arrival : Arrival}
    (taken : state.failGem5 settings before delivery arrival = some after) :
    Move settings state after := by
  unfold failGem5 at taken
  split_ifs at taken
  split at taken
  · cases taken
  · exact throws_moves taken ⟨rfl, rfl, List.prefix_rfl⟩ rfl

theorem deliver_moves {result : Except Line Unit} (place : state.place = .returning before)
    (taken : (state.gazebo.step (.guest result)).map
      (state.beginGazebo.proceed before (.physics before)) = some after) :
    Move settings state after := by
  obtain ⟨gazebo, stepped, rfl⟩ := Option.map_eq_some_iff.mp taken
  have effect : state.gazebo.aim result = gazebo := (Controller.step_eq_some.mp stepped).2
  subst effect
  rcases state.gazebo.aim_cases result with failed | goes
  · exact proceed_fails failed ⟨rfl, rfl, List.prefix_rfl⟩
  · have beginning : state.beginGazebo.gazebo.Goes _ _ := goes
    rw [proceed_goes beginning (by decide)]
    exact .aims place goes

theorem request_moves {outcome : RequestOutcome} (place : state.place = .physics before)
    (taken : (state.gazebo.step (.request outcome)).map
      (state.proceed before (.physics before)) = some after) : Move settings state after := by
  obtain ⟨gazebo, stepped, rfl⟩ := Option.map_eq_some_iff.mp taken
  have effect : state.gazebo.request outcome = gazebo := (Controller.step_eq_some.mp stepped).2
  subst effect
  rcases state.gazebo.request_cases outcome with failed | goes
  · exact proceed_fails failed ⟨rfl, rfl, List.prefix_rfl⟩
  · rw [proceed_goes goes (by decide)]
    exact .waits place goes

theorem verify_moves {cancelled late : Bool} (place : state.place = .physics before)
    (taken : ((state.gazebo.step (.check cancelled late)).map fun gazebo =>
      (state.measureGazebo gazebo).proceed before (.physics before) gazebo) = some after) :
    Move settings state after := by
  obtain ⟨gazebo, stepped, rfl⟩ := Option.map_eq_some_iff.mp taken
  obtain ⟨location, effect⟩ := Controller.step_eq_some.mp stepped
  have waiting : state.gazebo.location = .waiting := location _ rfl
  have checked : state.gazebo.check cancelled late = gazebo := effect
  have cases := state.gazebo.check_cases cancelled late
  rw [checked] at cases
  unfold measureGazebo
  rcases cases with failed | goes | same
  · rw [if_neg (by rw [failed.location]; decide)]
    exact proceed_fails failed ⟨rfl, rfl, List.prefix_rfl⟩
  · rw [if_pos goes.location, proceed, goes.location, if_neg (by decide)]
    exact .verifies place waiting goes
  · have goes : state.gazebo.Goes gazebo .waiting := by
      rw [same]
      exact ⟨waiting, rfl, rfl⟩
    rw [if_neg (by rw [goes.location]; decide), proceed_goes goes (by decide)]
    exact .waits place goes

theorem settled_moves {result : Except Line Unit} (place : state.place = .physics before)
    (taken : (state.gazebo.step (.settled result)).map
      (state.proceed before (.physics before)) = some after) : Move settings state after := by
  obtain ⟨gazebo, stepped, rfl⟩ := Option.map_eq_some_iff.mp taken
  obtain ⟨location, rfl⟩ := Controller.step_eq_some.mp stepped
  cases result with
  | error message => exact proceed_fails (Controller.failed_fail _ message) ⟨rfl, rfl, List.prefix_rfl⟩
  | ok done => exact .completes place (location _ rfl)

theorem returns_moves {running written : Bool} {spun : Except Line Unit}
    (place : state.place = .returned before)
    (taken : state.returns settings before running spun written = some after) :
    Move settings state after := by
  unfold returns at taken
  split at taken
  · cases taken
  · cases taken
    exact .leaves rfl ⟨rfl, rfl, List.prefix_rfl⟩ rfl
  · next result =>
    cases taken
    unfold finishRound
    cases spun with
    | error message => exact .leaves rfl ⟨rfl, rfl, List.prefix_rfl⟩ rfl
    | ok done =>
      cases logging : settings.logs with
      | false => exact .skips place result logging
      | true =>
        cases written with
        | false => exact .leaves rfl ⟨rfl, rfl, List.prefix_rfl⟩ rfl
        | true => exact .logs place result logging

theorem stop_leaves (thrown : Option Line) (waiting : Arrival) (delivery : Delivery)
    (arrival : Arrival) : Move settings state (state.stop thrown waiting delivery arrival) := by
  unfold stop
  split <;> exact .leaves rfl ⟨rfl, rfl, List.prefix_rfl⟩ rfl

theorem act_moves {action : Action} (taken : act settings state action = some after) :
    Move settings state after := by
  unfold act at taken
  split at taken
  · cases taken
    exact .heard _
  · next place => exact ready_moves place taken
  · next place => exact look_moves place taken
  · next place =>
    cases taken
    exact .begins place
  · next place =>
    split_ifs at taken
    · cases taken
      exact .enters place
    · cases taken
      exact .leaves rfl ⟨rfl, rfl, List.prefix_rfl⟩ rfl
  · next place => exact start_moves place taken
  · next place =>
    cases taken
    exact .sends place
  · exact throws_moves taken ⟨rfl, rfl, List.prefix_rfl⟩ rfl
  · exact refuse_moves taken
  · next place => exact advance_moves place taken
  · exact failGem5_moves taken
  · next place => exact deliver_moves place taken
  · next place => exact request_moves place taken
  · next place => exact verify_moves place taken
  · next place => exact settled_moves place taken
  · next place => exact returns_moves place taken
  · cases taken
    exact stop_leaves _ _ _ _
  · cases taken

end Moves

end Cosimulation

end Chimaera.Gazebo
