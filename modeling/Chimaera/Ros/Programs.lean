import Chimaera.Control.Application
import Chimaera.Ros.Exchange

/-! The programs `host_bridge` and `guest_bridge` over the two controllers. Each main loop is
cut where it calls its controller, so the worker of the host, the transport and the other
program can move between any two of these calls; `exchange` in particular is cut at each
frame. Parameters are in the units of the source, microseconds and seconds. -/

namespace Chimaera.Ros
open Base.BigEndian Base.Unsigned Base.Transition Control

variable {γ : Type}

inductive Stage where
  | receive
  | pump
  | transmit
  deriving DecidableEq, Repr

inductive Progress where
  | goes (stage : Stage)
  | returned
  | threw (what : ByteString)
  deriving DecidableEq, Repr

namespace Bridge

def advance (controller : DataController γ) : Stage → Bridge × γ → Progress × (Bridge × γ)
  | .receive, (bridge, state) =>
      match controller.take state with
      | .error what => (.threw (literal what), (bridge, state))
      | .ok (none, state) => (.goes .pump, (bridge, state))
      | .ok (some bytes, state) =>
          match (submit bytes).run bridge with
          | .error what bridge => (.threw what, (bridge, state))
          | .ok _ bridge => (.goes .receive, (bridge, state))
  | .pump, start => (.goes .transmit, start)
  | .transmit, (bridge, state) =>
      match bridge.take with
      | (none, bridge) => (.returned, (bridge, state))
      | (some bytes, bridge) =>
          match controller.submit state bytes with
          | .error what => (.threw (literal what), (bridge, state))
          | .ok state => (.goes .transmit, (bridge, state))

def arrive (key payload : ByteString) (bridge : Bridge) : Progress × Bridge :=
  match (callback key payload).run bridge with
  | .error what bridge => (.threw what, bridge)
  | .ok _ bridge => (.goes .pump, bridge)

inductive Uninterrupted (controller : DataController γ) :
    Stage → List (ByteString × ByteString) → Bridge × γ → Outcome γ → Prop
  | goes {stage next arrivals start middle outcome} (pumped : stage = .pump → arrivals = [])
      (step : advance controller stage start = (.goes next, middle))
      (rest : Uninterrupted controller next arrivals middle outcome) :
      Uninterrupted controller stage arrivals start outcome
  | returned {start last} (step : advance controller .transmit start = (.returned, last)) :
      Uninterrupted controller .transmit [] start (.ok () last)
  | threw {stage arrivals start what last}
      (step : advance controller stage start = (.threw what, last)) :
      Uninterrupted controller stage arrivals start (.error what last)
  | arrived {key payload arrivals bridge next state outcome}
      (step : arrive key payload bridge = (.goes .pump, next))
      (rest : Uninterrupted controller .pump arrivals (next, state) outcome) :
      Uninterrupted controller .pump ((key, payload) :: arrivals) (bridge, state) outcome
  | refused {key payload arrivals bridge last state what}
      (step : arrive key payload bridge = (.threw what, last)) :
      Uninterrupted controller .pump ((key, payload) :: arrivals) (bridge, state)
        (.error what (last, state))

variable {controller : DataController γ}

variable {arrivals : List (ByteString × ByteString)}

theorem receiveLoop_uninterrupted {fuel : Nat} {start : Bridge × γ} {outcome final : Outcome γ}
    (ran : receiveLoop controller fuel start = some outcome)
    (later : ∀ last, outcome = .ok () last → Uninterrupted controller .pump arrivals last final)
    (thrown : ∀ what last, outcome = .error what last → final = .error what last) :
    Uninterrupted controller .receive arrivals start final := by
  induction fuel generalizing start with
  | zero => cases ran
  | succ fuel ih =>
    obtain ⟨bridge, state⟩ := start
    simp only [receiveLoop] at ran
    cases given : controller.take state with
    | error what =>
      simp only [given, Option.some.injEq] at ran
      rw [thrown _ _ ran.symm]
      exact .threw (by simp only [advance, given])
    | ok result =>
      obtain ⟨message, next⟩ := result
      cases message with
      | none =>
        simp only [given, Option.some.injEq] at ran
        exact .goes (by simp) (by simp only [advance, given]) (later _ ran.symm)
      | some bytes =>
        cases published : (submit bytes).run bridge with
        | error what after =>
          simp only [given, published, Option.some.injEq] at ran
          rw [thrown _ _ ran.symm]
          exact .threw (by simp only [advance, given, published])
        | ok _ after =>
          simp only [given, published] at ran
          exact .goes (by simp) (by simp only [advance, given, published]) (ih ran)

theorem pump_uninterrupted {bridge : Bridge} {state : γ} {final : Outcome γ}
    (later : ∀ last, (pump arrivals).run bridge = .ok () last →
      Uninterrupted controller .transmit [] (last, state) final)
    (thrown : ∀ what last, (pump arrivals).run bridge = .error what last →
      final = .error what (last, state)) :
    Uninterrupted controller .pump arrivals (bridge, state) final := by
  induction arrivals generalizing bridge with
  | nil => exact .goes (fun _ => rfl) rfl (later bridge rfl)
  | cons arrival rest ih =>
    obtain ⟨key, payload⟩ := arrival
    simp only [pump, EStateM.run_bind] at later thrown
    cases heard : (callback key payload).run bridge with
    | error what last =>
      simp only [heard] at thrown
      rw [thrown what last rfl]
      exact .refused (by rw [arrive, heard])
    | ok _ next =>
      simp only [heard] at later thrown
      exact .arrived (by rw [arrive, heard]) (ih later thrown)

theorem transmitLoop_uninterrupted {fuel : Nat} {start : Bridge × γ} {outcome : Outcome γ}
    (ran : transmitLoop controller fuel start = some outcome) :
    Uninterrupted controller .transmit [] start outcome := by
  induction fuel generalizing start with
  | zero => cases ran
  | succ fuel ih =>
    obtain ⟨bridge, state⟩ := start
    simp only [transmitLoop] at ran
    cases waiting : bridge.take with
    | mk message next =>
      cases message with
      | none =>
        simp only [waiting, Option.some.injEq] at ran
        subst ran
        exact .returned (by simp only [advance, waiting])
      | some bytes =>
        cases offered : controller.submit state bytes with
        | error what =>
          simp only [waiting, offered, Option.some.injEq] at ran
          subst ran
          exact .threw (by simp only [advance, waiting, offered])
        | ok after =>
          simp only [waiting, offered] at ran
          exact .goes (by simp) (by simp only [advance, waiting, offered]) (ih ran)

/-- `exchange` in one go is the cut version without an interruption. -/
theorem exchange_uninterrupted {fuel : Nat} {start : Bridge × γ} {outcome : Outcome γ}
    (ran : exchange controller arrivals fuel start = some outcome) :
    Uninterrupted controller .receive arrivals start outcome := by
  simp only [exchange] at ran
  cases received : receiveLoop controller fuel start with
  | none => simp only [received, reduceCtorEq] at ran
  | some result =>
    cases result with
    | error what last =>
      simp only [received, Option.some.injEq] at ran
      refine receiveLoop_uninterrupted received (by simp) ?_
      intro other rest same
      rw [← ran, same]
    | ok _ last =>
      obtain ⟨bridge, state⟩ := last
      simp only [received] at ran
      refine receiveLoop_uninterrupted received ?_ (by simp)
      intro last same
      cases same
      apply pump_uninterrupted
      · intro next pumped
        simp only [pumped] at ran
        exact transmitLoop_uninterrupted ran
      · intro what next thrown
        simp only [thrown, Option.some.injEq] at ran
        exact ran.symm

def keys (bridge : Bridge) : List ByteString := bridge.subscriptions.map Subscription.key

end Bridge

/-! ## The host -/

structure HostSettings where
  interval : Int
  poll : Int
  steps : Int
  polls : 0 < poll
  shorter : poll < interval
  hourly : interval ≤ 3600000000
  counted : 0 ≤ steps
  deriving Repr

/-- The checks, where `reports` says that `report_seconds` is finite and positive. -/
def HostSettings.ofParameters (interval poll steps timeout : Int) (reports : Bool) :
    Except ByteString HostSettings :=
  if refused : interval < 1 ∨ interval > 3600000000 ∨ poll < 1 ∨ poll ≥ interval ∨ steps < 0 ∨
      timeout < 1 then
    .error (literal ("require 0 < poll_us < interval_us <= 3600000000, " ++
      "steps >= 0, startup_timeout_s > 0"))
  else if !reports then .error (literal "report_seconds must be finite and positive")
  else .ok ⟨interval, poll, steps, by omega, by omega, by omega, by omega⟩

/-- `std::chrono::microseconds(poll)`; the constructor of the controller accepts it. -/
def HostSettings.pollInterval (settings : HostSettings) : PollInterval where
  duration := settings.poll * 1000
  positive := by
    have positive := settings.polls
    omega
  bounded := by
    have bounded := settings.hourly
    have shorter := settings.shorter
    unfold hour
    omega

/-- Where the main function stands: in `wait_until_ready`, at the loop condition, in the
exchange before or after a step, in the step, before the call of `stop` with the exception
that is in flight, in that call, or behind its return with what it has reported. -/
inductive HostMain where
  | waiting
  | loop
  | exchange (second : Bool) (stage : Stage)
  | stepping
  | stopping (thrown : Option ByteString)
  | stopped (thrown : Option ByteString)
  | ended (reported : Option ByteString)
  deriving DecidableEq, Repr

/-- What happens to the main function: `ready` ends the startup wait, `check` is the loop
condition with the value of `rclcpp::ok()`, `returns` is the return of `step` or `stop`. -/
inductive HostAction where
  | ready (result : Except ByteString Unit)
  | check (running : Bool)
  | advance
  | arrive (key payload : ByteString)
  | stop (shutdown : Except String Unit)
  | returns

/-! ## The guest -/

/-- Where the main function stands: in `wait_for_local_routes`, at the loop condition, in
`run_next`, in an exchange, or behind its end. -/
inductive GuestMain where
  | waiting
  | loop
  | running
  | exchange (stage : Stage)
  | ended (reported : Option ByteString)
  deriving DecidableEq, Repr

/-- `look` is a round of the wait for local routes, `check` the loop condition, `returns` the
return of `run_next`. -/
inductive GuestAction where
  | look (ready cancelled late : Bool)
  | check (running : Bool)
  | advance
  | arrive (key payload : ByteString)
  | returns

def GuestMain.ofParameters (timeout : Int) (waits : Bool) (ops : ByteString) :
    Except ByteString GuestMain :=
  if timeout < 1 then .error (literal "startup_timeout_s must be positive")
  else if ops ≠ literal "address" ∧ ops ≠ literal "instruction" then
    .error (literal "m5ops must be address or instruction")
  else .ok (if waits then .waiting else .loop)

/-! ## Both -/

/-- The system of both programs. `hostHeard` and `guestHeard` are the messages that the
callbacks of each side have accepted, `calls` counts the calls of `stop`. -/
structure World where
  system : System
  hostNode : Bridge
  guestNode : Bridge
  hostMain : HostMain := .waiting
  guestMain : GuestMain
  count : Int := 0
  calls : Nat := 0
  hostHeard : List (ByteString × ByteString) := []
  guestHeard : List (ByteString × ByteString) := []

inductive WorldEvent where
  | host (event : HostEvent)
  | guest (event : GuestEvent)
  | hostMain (action : HostAction)
  | guestMain (action : GuestAction)

namespace World

def setHost (world : World) (host : Host) : World :=
  { world with system := { world.system with host := host } }

def setGuest (world : World) (guest : Guest) : World :=
  { world with system := { world.system with guest := guest } }

def continues (settings : HostSettings) (world : World) (running : Bool) : Bool :=
  running && (settings.steps == 0 || decide (world.count < settings.steps))

def hostProceeds (settings : HostSettings) (world : World) (second : Bool) : Progress → World
  | .goes stage => { world with hostMain := .exchange second stage }
  | .threw what => { world with hostMain := .stopping (some what) }
  | .returned =>
      if second then { world with hostMain := .loop, count := world.count + 1 }
      else
        { world with hostMain := .stepping }.setHost
          (world.system.host.stepInterval (settings.interval * 1000))

def afterStep (result : ControllerResult) : HostMain :=
  if result.state = .completed then .exchange true .receive
  else .stopping (some (literal result.message))

/-- What the caller finds in the result of `stop`; an exception in flight comes first. -/
def afterStop (thrown : Option ByteString) (result : ControllerResult) : HostMain :=
  match thrown with
  | some what => .ended (some what)
  | none => .ended (if result.state = .failed then some (literal result.message) else none)

def hostStep (settings : HostSettings) (world : World) : HostAction → Option World
  | .ready result =>
      if world.hostMain = .waiting then
        match result with
        | .ok _ => some { world with hostMain := .loop }
        | .error what => some { world with hostMain := .stopping (some what) }
      else none
  | .check running =>
      if world.hostMain = .loop then
        some { world with
          hostMain := if world.continues settings running then .exchange false .receive
            else .stopping none }
      else none
  | .advance =>
      match world.hostMain with
      | .exchange second stage =>
          let (progress, node, host) :=
            Bridge.advance gem5HostController stage (world.hostNode, world.system.host)
          some (({ world with hostNode := node }.setHost host).hostProceeds settings second progress)
      | _ => none
  | .arrive key payload =>
      match world.hostMain with
      | .exchange second .pump =>
          if world.hostNode.keys.contains key then
            match Bridge.arrive key payload world.hostNode with
            | (.goes _, node) => some { world with
                hostNode := node
                hostHeard := world.hostHeard ++ [(key, payload)] }
            | (progress, node) =>
                some ({ world with hostNode := node }.hostProceeds settings second progress)
          else none
      | _ => none
  | .stop shutdown =>
      match world.hostMain with
      | .stopping thrown =>
          some ({ world with hostMain := .stopped thrown, calls := world.calls + 1 }.setHost
            (world.system.host.stop shutdown))
      | _ => none
  | .returns =>
      match world.hostMain, world.system.host.app, world.system.host.results.getLast? with
      | .stepping, .idle, some result => some { world with hostMain := afterStep result }
      | .stopped thrown, .idle, some result => some { world with hostMain := afterStop thrown result }
      | _, _, _ => none

def guestProceeds (world : World) : Progress → World
  | .goes stage => { world with guestMain := .exchange stage }
  | .threw what => { world with guestMain := .ended (some what) }
  | .returned => { world with guestMain := .loop }

def afterRun (result : ControllerResult) : GuestMain :=
  match result.state with
  | .stopped => .ended none
  | .completed => .exchange .receive
  | .failed => .ended (some (literal result.message))

def guestStep (world : World) : GuestAction → Option World
  | .look ready cancelled late =>
      if world.guestMain = .waiting then
        if ready then some { world with guestMain := .loop }
        else if cancelled then
          some { world with
            guestMain := .ended (some (literal "Guest application startup cancelled")) }
        else if late then
          some { world with
            guestMain := .ended
              (some (literal "Timed out waiting for guest application ROS endpoints")) }
        else some world
      else none
  | .check running =>
      if world.guestMain = .loop then
        if running then some ({ world with guestMain := .running }.setGuest world.system.guest.runNext)
        else some { world with guestMain := .ended none }
      else none
  | .advance =>
      match world.guestMain with
      | .exchange stage =>
          let (progress, node, guest) :=
            Bridge.advance gem5GuestController stage (world.guestNode, world.system.guest)
          some (({ world with guestNode := node }.setGuest guest).guestProceeds progress)
      | _ => none
  | .arrive key payload =>
      match world.guestMain with
      | .exchange .pump =>
          if world.guestNode.keys.contains key then
            match Bridge.arrive key payload world.guestNode with
            | (.goes _, node) => some { world with
                guestNode := node
                guestHeard := world.guestHeard ++ [(key, payload)] }
            | (progress, node) => some ({ world with guestNode := node }.guestProceeds progress)
          else none
      | _ => none
  | .returns =>
      match world.guestMain, world.system.guest.location, world.system.guest.results.getLast? with
      | .running, .idle, some result => some { world with guestMain := afterRun result }
      | _, _, _ => none

/-- Events of a controller are those inside of its calls; the main functions make the calls. -/
def step (settings : HostSettings) (world : World) : WorldEvent → Option World
  | .host event =>
      if innerHost event then
        (world.system.step (.host event)).map fun system => { world with system := system }
      else none
  | .guest event =>
      if innerGuest event then
        (world.system.step (.guest event)).map fun system => { world with system := system }
      else none
  | .hostMain action => world.hostStep settings action
  | .guestMain action => world.guestStep action

def initial (settings : HostSettings) (host guest : Bridge) (start : GuestMain) : World where
  system := System.initial settings.pollInterval
  hostNode := host
  guestNode := guest
  guestMain := start

end World

end Chimaera.Ros
