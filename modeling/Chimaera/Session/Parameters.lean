import Chimaera.Base.Checked
import Chimaera.Session.Manifest

/-! The bridge parameters that `runner.plan` puts on a command line, and how the bridge
executables get them back. A parameter goes over as a printed text, and ROS finds its type again
from that text alone. -/

namespace Chimaera.Session
open Base.Text Base.Unsigned Base.Checked

inductive Value where
  | int (value : Int)
  | float (value : Rat)
  | bool (value : Bool)
  | string (value : Line)
  deriving DecidableEq, Repr

abbrev Parameters := List (Line × Value)

inductive HostExecutable where
  | hostBridge
  | gazeboHostBridge
  deriving DecidableEq, Repr

def Seconds.value : Seconds → Value
  | .int value _ => .int value
  | .float value _ => .float value

def M5Ops.name : M5Ops → Line
  | .address => text "address"
  | .instruction => text "instruction"

def Settings.executable (bridge : Settings) : HostExecutable :=
  match bridge.timingBackend with
  | .gem5 _ => .hostBridge
  | .gazebo _ _ => .gazeboHostBridge

def Settings.gazeboParameters (bridge : Settings) : Parameters :=
  match bridge.timingBackend with
  | .gem5 _ => []
  | .gazebo world _ =>
      [(text "gazebo_world", .string world), (text "physics_step_ns", .int bridge.physicsStepNs),
       (text "timing_file", .string bridge.timingFile)]

def Manifest.parameters (manifest : Manifest) (side : Side) : Parameters :=
  let bridge := manifest.bridge
  [(text "config_file", .string manifest.routes),
   (text "max_serialized_bytes", .int bridge.maxSerializedBytes),
   (text "max_pending_messages", .int bridge.maxPendingMessages)] ++
  match side with
  | .host =>
      [(text "interval_us", .int bridge.intervalUs), (text "poll_us", .int bridge.pollUs),
       (text "steps", .int bridge.steps), (text "startup_timeout_s", .int bridge.startupTimeoutS),
       (text "timing_socket", .string bridge.timingSocket.val),
       (text "status_bar", .bool bridge.statusBar),
       (text "report_seconds", bridge.reportSeconds.value)] ++ bridge.gazeboParameters
  | .guest =>
      [(text "m5ops", .string bridge.m5ops.name),
       (text "wait_for_application", .bool bridge.waitForApplication),
       (text "startup_timeout_s", .int bridge.startupTimeoutS)]

/-- A value between `key:=` and the end of the argument. `repr` is that of a float. -/
def Value.argument (repr : Rat → Line) : Value → Line
  | .int value => Session.printed value
  | .float value => repr value
  | .bool value => if value then text "true" else text "false"
  | .string value => value

/-- What is known of ROS: `scalar` is the value that `rcl` finds in a text, where it finds one;
decimal numbers of 64 bits are integers, and strings are those of C++, lists of bytes. The texts
of its exceptions are open. -/
structure Ros where
  scalar : Line → Option Value
  whole : ∀ n : Nat, n < 2 ^ 63 → scalar (decimal n) = some (.int n)
  flag : ∀ value, scalar (if value then text "true" else text "false") = some (.bool value)
  invalid : Line → Line
  mistyped : Line → Line

/-- The parameter overrides that `rclcpp::init` finds on the command line. -/
def Ros.init (ros : Ros) (repr : Rat → Line) (parameters : Parameters) : Except Line Parameters :=
  parameters.mapM fun entry =>
    match ros.scalar (entry.2.argument repr) with
    | none => .error (ros.invalid (entry.1 ++ text ":=" ++ entry.2.argument repr))
    | some value => .ok (entry.1, value)

/-- `declare_parameter` of the type that `kind` selects. An override of another type is not
converted, not even an integer to a double. -/
def declare {τ : Type} (kind : Value → Option τ) (ros : Ros) (overrides : Parameters)
    (name : String) (default : τ) : Except Line τ :=
  match overrides.lookup (text name) with
  | none => .ok default
  | some value =>
      match kind value with
      | some declared => .ok declared
      | none => .error (ros.mistyped (text name))

def Value.asInt : Value → Option Int
  | .int value => some value
  | _ => none

def Value.asDouble : Value → Option Rat
  | .float value => some value
  | _ => none

def Value.asBool : Value → Option Bool
  | .bool value => some value
  | _ => none

def Value.asString : Value → Option Line
  | .string value => some value
  | _ => none

section Overrides

variable {ros : Ros} {repr : Rat → Line} {parameters overrides : Parameters}

theorem init_of_read
    (read : ∀ entry ∈ parameters, ∃ value, ros.scalar (entry.2.argument repr) = some value) :
    ∃ overrides, ros.init repr parameters = .ok overrides := by
  obtain ⟨overrides, made, -⟩ : Returns (ros.init repr parameters)
      (List.Forall₂ (fun _ _ => True) parameters) := by
    apply Returns.mapM
    intro entry member
    obtain ⟨value, found⟩ := read entry member
    rw [found]
    exact Returns.ok trivial
  exact ⟨overrides, made⟩

theorem scalar_int (ros : Ros) {value : Int} (bounds : 0 ≤ value ∧ value < 2 ^ 63) :
    ros.scalar (Value.argument repr (.int value)) = some (.int value) := by
  obtain ⟨n, rfl⟩ := Int.eq_ofNat_of_zero_le bounds.1
  have printed : Value.argument repr (.int n) = decimal n := by
    simp [Value.argument, Session.printed]
  rw [printed]
  exact ros.whole n (by omega)

end Overrides

end Chimaera.Session
