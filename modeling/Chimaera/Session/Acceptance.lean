import Mathlib.Algebra.Order.Group.Int
import Chimaera.Base.Unsigned
import Chimaera.Control.Host
import Chimaera.Gazebo.Controller
import Chimaera.Session.Parameters
import Chimaera.Timing.Client

/-! The checks that the host executables make on their parameters, from `rclcpp::init` up to each
step, and what they demand of a manifest that `load` has accepted. The ranges of `load` leave out
the wall timeout of the timing controller, the number of polls in an interval, the length of the
socket path and the number of physics steps in 32 bits; and whatever `load` calls a string or a
number has to be read by ROS as the string or the double that the executable declares. -/

namespace Chimaera.Session
open Base.Text Base.Unsigned

def require (condition : Prop) [Decidable condition] (message : Line) : Except Line Unit :=
  if condition then .ok () else .error message

structure HostParameters where
  intervalUs : Int
  pollUs : Int
  steps : Int
  startupTimeoutS : Int
  timingSocket : Line

section Checks

variable (ros : Ros) (overrides : Parameters)

def openBridge : Except Line Unit := do
  let path ← declare Value.asString ros overrides "config_file" []
  require (path ≠ []) (text "config_file is required")
  let byteLimit ← declare Value.asInt ros overrides "max_serialized_bytes" 4096
  let queueLimit ← declare Value.asInt ros overrides "max_pending_messages" 128
  require (4 ≤ byteLimit ∧ byteLimit ≤ 67106808 ∧ 1 ≤ queueLimit ∧ queueLimit ≤ 1000000)
    (text "invalid serialized byte or pending message limit")

/-- What both executables do up to the timing controller. The message of their range test is not
the same. -/
def opening (message : Line) : Except Line HostParameters := do
  openBridge ros overrides
  let intervalUs ← declare Value.asInt ros overrides "interval_us" 100000
  let pollUs ← declare Value.asInt ros overrides "poll_us" 10000
  let steps ← declare Value.asInt ros overrides "steps" 0
  let startupTimeoutS ← declare Value.asInt ros overrides "startup_timeout_s" 300
  let timingSocket ← declare Value.asString ros overrides "timing_socket"
    (text "/tmp/chimaera_time.sock")
  require (1 ≤ intervalUs ∧ intervalUs ≤ 3600000000 ∧ 1 ≤ pollUs ∧ pollUs < intervalUs ∧
    0 ≤ steps ∧ 1 ≤ startupTimeoutS) message
  let reportSeconds ← declare Value.asDouble ros overrides "report_seconds" 1
  require (0 < reportSeconds) (text "report_seconds must be finite and positive")
  let _ ← declare Value.asBool ros overrides "status_bar" true
  .ok ⟨intervalUs, pollUs, steps, startupTimeoutS, timingSocket⟩

def timingController (host : HostParameters) : Except Line Timing.Client :=
  (Timing.Client.create host.timingSocket host.startupTimeoutS).mapError Timing.Fault.message

def hostController (host : HostParameters) : Except Line Control.PollInterval :=
  (Control.PollInterval.ofDuration (host.pollUs * 1000)).mapError text

def readiness (client : Timing.Client) (host : HostParameters) : Except Line Unit := do
  require (Timing.timeoutInRange host.startupTimeoutS)
    (text "startup timeout must be positive and at most 24 hours")
  require client.validEndpoint (text "invalid timing socket path")

def stepping (host : HostParameters) (poll : Control.PollInterval) : Except Line Unit := do
  require (Control.valid (host.intervalUs * 1000) poll.duration)
    (text "require 0 < poll <= interval <= 1 hour, at most 100000 polls")
  require (0 < host.intervalUs * 1000 ∧ host.intervalUs * 1000 ≤ hour)
    (text "interval must be positive and at most one hour")

def hostBridge : Except Line Unit := do
  let host ← opening ros overrides
    (text "require 0 < poll_us < interval_us <= 3600000000, steps >= 0, startup_timeout_s > 0")
  let client ← timingController host
  let poll ← hostController host
  readiness client host
  stepping host poll

def gazeboHostBridge : Except Line Unit := do
  let host ← opening ros overrides
    (text "require 0 < poll_us < interval_us <= 3600000000, steps >= 0 and startup_timeout_s > 0")
  let _ ← declare Value.asString ros overrides "timing_file" []
  let gazeboWorld ← declare Value.asString ros overrides "gazebo_world" []
  let physicsStepNs ← declare Value.asInt ros overrides "physics_step_ns" 1000000
  let client ← timingController host
  let poll ← hostController host
  let controller ← Gazebo.Controller.create physicsStepNs gazeboWorld
  readiness client host
  require (¬ controller.Refuses (host.intervalUs * 1000)) Gazebo.Controller.refusal
  stepping host poll

end Checks

def Ros.Reads (ros : Ros) (written : Line) (acceptable : Line → Prop) : Prop :=
  ∃ read, ros.scalar written = some (.string read) ∧ acceptable read

def Seconds.Reported (ros : Ros) (repr : Rat → Line) (seconds : Seconds) : Prop :=
  ∃ read, ros.scalar (seconds.value.argument repr) = some (.float read) ∧ 0 < read

def Settings.sent (bridge : Settings) (socket : Line) : HostParameters :=
  ⟨bridge.intervalUs, bridge.pollUs, bridge.steps, bridge.startupTimeoutS, socket⟩

section Opened

variable {ros : Ros} {repr : Rat → Line} {manifest : Manifest} {overrides : Parameters}

end Opened

section Sent

variable (bridge : Settings)

def Fits (path : Line) : Prop := path ≠ [] ∧ path.length < 108 ∧ '\x00' ∉ path

def Settings.poll : Control.PollInterval where
  duration := bridge.pollUs * 1000
  positive := by
    have bounds := bridge.pollUs.property
    omega
  bounded := by
    have interval := bridge.intervalUs.property
    have bounds := bridge.pollUs.property
    unfold hour
    omega

end Sent

/-- What the host executables ask of a manifest beyond what `load` has checked. -/
structure Manifest.Admissible (manifest : Manifest) (ros : Ros) (repr : Rat → Line) : Prop where
  timeout : manifest.bridge.startupTimeoutS.val ≤ 86400
  polls : manifest.bridge.intervalUs.val ≤ 100000 * manifest.bridge.pollUs
  report : manifest.bridge.reportSeconds.Reported ros repr
  routes : ros.Reads manifest.routes (· ≠ [])
  socket : ros.Reads manifest.bridge.timingSocket.val Fits
  gazebo : ∀ world integral, manifest.bridge.timingBackend = .gazebo world integral →
    manifest.bridge.intervalUs.val * 1000 ≤ 4294967295 * manifest.bridge.physicsStepNs ∧
      ros.Reads world (· ≠ []) ∧ ros.Reads manifest.bridge.timingFile fun _ => True

section Bridges

variable {ros : Ros} {repr : Rat → Line} {manifest : Manifest} {overrides : Parameters}

/-- An admissible manifest gets through `rclcpp::init`. -/
theorem Manifest.Admissible.init (admissible : manifest.Admissible ros repr) :
    ∃ overrides, ros.init repr (manifest.parameters .host) = .ok overrides := by
  have bytes := manifest.bridge.maxSerializedBytes.property
  have pending := manifest.bridge.maxPendingMessages.property
  have interval := manifest.bridge.intervalUs.property
  have poll := manifest.bridge.pollUs.property
  have steps := manifest.bridge.steps.property
  have timeout := manifest.bridge.startupTimeoutS.property
  obtain ⟨routes, named, -⟩ := admissible.routes
  obtain ⟨socket, placed, -⟩ := admissible.socket
  obtain ⟨seconds, reported, -⟩ := admissible.report
  have physics := manifest.bridge.physicsStepNs.property
  have whole {n : Int} (bounds : 0 ≤ n ∧ n < 2 ^ 63) :
      ∃ read, ros.scalar (Value.argument repr (.int n)) = some read := ⟨_, scalar_int ros bounds⟩
  apply init_of_read
  refine List.forall_mem_append.mpr ⟨?_, List.forall_mem_append.mpr ⟨?_, ?_⟩⟩
  · simp only [List.forall_mem_cons]
    exact ⟨⟨_, named⟩, whole (by omega), whole (by omega), nofun⟩
  · simp only [List.forall_mem_cons]
    exact ⟨whole (by omega), whole (by omega), whole (by omega), whole (by omega), ⟨_, placed⟩,
      ⟨_, ros.flag manifest.bridge.statusBar⟩, ⟨_, reported⟩, nofun⟩
  · unfold Settings.gazeboParameters
    split
    · exact nofun
    · next world integral backend =>
      obtain ⟨-, ⟨name, spelled, -⟩, path, written, -⟩ := admissible.gazebo world integral backend
      simp only [List.forall_mem_cons]
      exact ⟨⟨_, spelled⟩, whole (by omega), ⟨_, written⟩, nofun⟩

end Bridges

end Chimaera.Session
