import Chimaera.Session.Values

/-! The `bridge` section of a session manifest, as `manifest.load` checks it. A section that
is accepted carries the checks it has passed in its type. -/

namespace Chimaera.Session
open Base.Text

inductive Seconds where
  | int (value : Int) (positive : 0 < value)
  | float (value : Rat) (positive : 0 < value)

def floatOverflow : Int := Nat.pow 2 1024 - Nat.pow 2 970

/-- `math.isfinite` converts an integer first, which raises an error of its own. -/
def reportSeconds : Json → Except Line Seconds
  | .int n =>
      if floatOverflow ≤ n ∨ n ≤ -floatOverflow then
        .error (text "int too large to convert to float")
      else if positive : 0 < n then .ok (.int n positive)
      else .error (text "report_seconds must be finite and positive")
  | .float (.finite q) =>
      if positive : 0 < q then .ok (.float q positive)
      else .error (text "report_seconds must be finite and positive")
  | _ => .error (text "report_seconds must be finite and positive")

inductive M5Ops where
  | address
  | instruction
  deriving DecidableEq, Repr

inductive Backend (interval : Int) (physicsStep : Int) where
  | gem5 (world : Line)
  | gazebo (world : Plain) (integral : interval * 1000 % physicsStep = 0)

abbrev AbsolutePath := { path : Plain // (Path.parse path).isAbsolute }

structure Settings where
  maxSerializedBytes : Bounded 4 67106808
  maxPendingMessages : Bounded 1 1000000
  intervalUs : Bounded 2 3600000000
  pollUs : Bounded 1 (intervalUs - 1)
  steps : Bounded 0 9223372036854775807
  startupTimeoutS : Bounded 1 2147483647
  reportSeconds : Seconds
  statusBar : Bool
  timingSocket : AbsolutePath
  waitForApplication : Bool
  m5ops : M5Ops
  physicsStepNs : Bounded 1 3600000000000
  timingBackend : Backend intervalUs physicsStepNs
  timingFile : Line

def defaults : Entries :=
  [(text "interval_us", .int 100000), (text "poll_us", .int 10000), (text "steps", .int 0),
   (text "startup_timeout_s", .int 300), (text "status_bar", .bool true),
   (text "report_seconds", .float (.finite 1)),
   (text "timing_socket", .string (text "/tmp/chimaera_time.sock")),
   (text "max_serialized_bytes", .int 4096), (text "max_pending_messages", .int 128),
   (text "m5ops", .string (text "address")), (text "wait_for_application", .bool false),
   (text "timing_backend", .string (text "gem5")), (text "gazebo_world", .string []),
   (text "physics_step_ns", .int 1000000), (text "timing_file", .string [])]

def bridgeFields : List Line :=
  [text "gazebo_world", text "interval_us", text "m5ops", text "max_pending_messages",
   text "max_serialized_bytes", text "physics_step_ns", text "poll_us", text "report_seconds",
   text "startup_timeout_s", text "status_bar", text "steps", text "timing_backend",
   text "timing_file", text "timing_socket", text "wait_for_application"]

def setting (entries : Entries) (name : String) : Json := item (entries ++ defaults) name

def absolute (value : Json) (refusal : Line) : Except Line AbsolutePath := do
  let path ← string value
  if rooted : (Path.parse path).isAbsolute then .ok ⟨path, rooted⟩ else .error refusal

def m5ops : Json → Except Line M5Ops
  | .string name =>
      if name = text "address" then .ok .address
      else if name = text "instruction" then .ok .instruction
      else .error (text "m5ops must be address or instruction")
  | _ => .error (text "m5ops must be address or instruction")

def isGazebo : Json → Except Line Bool
  | .string name =>
      if name = text "gem5" then .ok false
      else if name = text "gazebo" then .ok true
      else .error (text "timing_backend must be gem5 or gazebo")
  | _ => .error (text "timing_backend must be gem5 or gazebo")

def backend (gazebo : Bool) (world : Json) (interval physicsStep : Int) :
    Except Line (Backend interval physicsStep) :=
  if gazebo then
    match string world with
    | .error message => .error message
    | .ok name =>
        if integral : interval * 1000 % physicsStep = 0 then
          .ok (.gazebo name integral)
        else .error (text "interval_us must contain an integral number of physics steps")
  else
    match world with
    | .string name => .ok (.gem5 name)
    | _ => .error (text "gazebo_world must be a string")

def timingFile : Json → Except Line Line
  | .string path =>
      if '\x00' ∈ path then .error (text "timing_file must be a path string") else .ok path
  | _ => .error (text "timing_file must be a path string")

/-- The bridge section of `load`. `place` makes a path of the manifest absolute. -/
def loadBridge (place : Json → Except Line Line) (bridge : Json) : Except Line Settings := do
  let entries ← fields bridge bridgeFields []
  let maxSerializedBytes ← integer (setting entries "max_serialized_bytes") 4 67106808
  let maxPendingMessages ← integer (setting entries "max_pending_messages") 1 1000000
  let intervalUs ← integer (setting entries "interval_us") 2 3600000000
  let pollUs ← integer (setting entries "poll_us") 1 (intervalUs - 1)
  let steps ← integer (setting entries "steps") 0 9223372036854775807
  let startupTimeoutS ← integer (setting entries "startup_timeout_s") 1 2147483647
  let seconds ← reportSeconds (setting entries "report_seconds")
  let statusBar ← boolean (setting entries "status_bar") (text "Invalid status_bar or timing_socket")
  let timingSocket ← absolute (setting entries "timing_socket")
    (text "Invalid status_bar or timing_socket")
  let waitForApplication ← boolean (setting entries "wait_for_application")
    (text "wait_for_application must be boolean")
  let operations ← m5ops (setting entries "m5ops")
  let gazebo ← isGazebo (setting entries "timing_backend")
  let physicsStepNs ← integer (setting entries "physics_step_ns") 1 3600000000000
  let timingBackend ← backend gazebo (setting entries "gazebo_world") intervalUs physicsStepNs
  let written ← timingFile (setting entries "timing_file")
  let file ← if written = [] then .ok [] else place (.string written)
  .ok {
    maxSerializedBytes := maxSerializedBytes
    maxPendingMessages := maxPendingMessages
    intervalUs := intervalUs
    pollUs := pollUs
    steps := steps
    startupTimeoutS := startupTimeoutS
    reportSeconds := seconds
    statusBar := statusBar
    timingSocket := timingSocket
    waitForApplication := waitForApplication
    m5ops := operations
    physicsStepNs := physicsStepNs
    timingBackend := timingBackend
    timingFile := file }

end Chimaera.Session
