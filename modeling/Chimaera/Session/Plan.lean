import Chimaera.Base.Dictionary
import Chimaera.Session.Parameters

/-! `runner.plan`: the processes of one side of a session, with their environment. -/

namespace Chimaera.Session
open Base.Text Base.Dictionary

structure Command where
  name : Line
  command : List Line
  deriving DecidableEq, Repr

structure Plan where
  side : Side
  setup : List Line
  env : List (Line × Line)
  processes : List Command
  deriving DecidableEq, Repr

def Side.name : Side → Line
  | .host => text "host"
  | .guest => text "guest"

def Manifest.config (manifest : Manifest) : Side → Participant
  | .host => manifest.host
  | .guest => manifest.guest

def setDefault (entries : List (Line × Line)) (key value : Line) : List (Line × Line) :=
  if (entries.lookup key).isSome then entries else entries ++ [(key, value)]

/-- The session's own variables come after those of the manifest. -/
def Participant.environment (config : Participant) (side : Side) : List (Line × Line) :=
  let env := config.env.map fun entry => (entry.1.val, entry.2.val)
  let env := assign env (text "ROS_DOMAIN_ID") (printed config.domainId)
  let env := assign env (text "ROS_LOCALHOST_ONLY") (text "1")
  match side with
  | .host => env
  | .guest => setDefault env (text "ROS_LOG_DIR") (text "/tmp/chimaera-guest-logs")

def parameterArguments (repr : Rat → Line) (parameters : Parameters) : List Line :=
  parameters.flatMap fun entry => [text "-p", entry.1 ++ text ":=" ++ entry.2.argument repr]

def Manifest.executable (manifest : Manifest) (side : Side) : Line :=
  match side, manifest.bridge.executable with
  | .host, .gazeboHostBridge => text "gazebo_host_bridge"
  | side, _ => side.name ++ text "_bridge"

def Manifest.bridgeStart (manifest : Manifest) (side : Side) (package : Path) : List Line :=
  [((package.join (Path.parse (text "lib/chimaera_ros_bridge"))).join
      (Path.parse (manifest.executable side))).printed, text "--ros-args"]

def Process.planned (process : Process) : Command :=
  ⟨process.name, process.command.map Subtype.val⟩

def Manifest.simulation (manifest : Manifest) (simulator : Simulator) (package cwd : Path) :
    Command :=
  let root := Path.parse simulator.gem5Root
  ⟨text "gem5",
    [(root.join (Path.parse (text "build/X86/gem5.opt"))).printed,
      text "--outdir=" ++
        simulator.outdir.getD (cwd.join (Path.parse (text "m5out-chimaera"))).printed,
      text "-p", (package.join (Path.parse (text "share/chimaera_ros_bridge/config"))).printed,
      simulator.config, text "--gem5-root", root.printed,
      text "--socket-path", manifest.bridge.timingSocket.val,
      text "--guest-command", manifest.deploy.guestRoot.val ++ text "/guest_start",
      text "--managed-shutdown"] ++ simulator.args.map Subtype.val⟩

def plan (repr : Rat → Line) (cwd : Path) (manifest : Manifest) (side : Side) (package : Path)
    (simulate : Bool) : Except Line Plan := do
  let config := manifest.config side
  let bridge : Command := ⟨side.name ++ text "_bridge",
    manifest.bridgeStart side package ++ parameterArguments repr (manifest.parameters side)⟩
  let processes := bridge :: config.processes.val.map Process.planned
  let processes ←
    if simulate then
      match manifest.simulator with
      | none => .error (text "bringup requires simulator.gem5_root")
      | some simulator => .ok (processes ++ [manifest.simulation simulator package cwd])
    else .ok processes
  .ok { side := side, setup := config.setup, env := config.environment side,
        processes := processes }

end Chimaera.Session
