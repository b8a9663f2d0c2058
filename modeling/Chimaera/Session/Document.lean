import Chimaera.Base.Checked
import Chimaera.Base.Dictionary
import Chimaera.Session.Manifest

/-! The document that `load` leaves in the dictionary it was given: every default is filled in and
every path of the host is absolute. Loading such a document accepts it again and moves its host
paths, and nothing else. A section lists its names in the order in which `load` comes to them. -/

namespace Chimaera.Session
open Base.Text Base.Unsigned Base.Checked Base.Dictionary

def stringItems (values : List Line) : Json := .array (values.map .string)

def Process.document (process : Process) : Json :=
  .object [(text "name", .string process.name),
    (text "command", stringItems (process.command.map Subtype.val))]

def Participant.document (config : Participant) : Json :=
  .object [(text "domain_id", .int config.domainId), (text "setup", stringItems config.setup),
    (text "env", .object (config.env.map fun entry => (entry.1.val, .string entry.2.val))),
    (text "processes", .array (config.processes.val.map Process.document))]

def Seconds.document : Seconds → Json
  | .int value _ => .int value
  | .float value _ => .float (.finite value)

def M5Ops.document : M5Ops → Json
  | .address => .string (text "address")
  | .instruction => .string (text "instruction")

def Backend.document {interval physicsStep : Int} : Backend interval physicsStep → Json
  | .gem5 _ => .string (text "gem5")
  | .gazebo _ _ => .string (text "gazebo")

def Backend.world {interval physicsStep : Int} : Backend interval physicsStep → Line
  | .gem5 world => world
  | .gazebo world _ => world

def Settings.document (bridge : Settings) : Json :=
  .object [(text "interval_us", .int bridge.intervalUs), (text "poll_us", .int bridge.pollUs),
    (text "steps", .int bridge.steps), (text "startup_timeout_s", .int bridge.startupTimeoutS),
    (text "status_bar", .bool bridge.statusBar),
    (text "report_seconds", bridge.reportSeconds.document),
    (text "timing_socket", .string bridge.timingSocket.val),
    (text "max_serialized_bytes", .int bridge.maxSerializedBytes),
    (text "max_pending_messages", .int bridge.maxPendingMessages),
    (text "m5ops", bridge.m5ops.document),
    (text "wait_for_application", .bool bridge.waitForApplication),
    (text "timing_backend", bridge.timingBackend.document),
    (text "gazebo_world", .string bridge.timingBackend.world),
    (text "physics_step_ns", .int bridge.physicsStepNs),
    (text "timing_file", .string bridge.timingFile)]

def Simulator.document (simulator : Simulator) : Json :=
  .object ([(text "gem5_root", .string simulator.gem5Root),
      (text "config", .string simulator.config)] ++
    simulator.outdir.toList.map (fun outdir => (text "outdir", .string outdir)) ++
    [(text "args", stringItems (simulator.args.map Subtype.val))])

def Tree.document (tree : Tree) : Json :=
  .object [(text "source", .string tree.source), (text "destination", .string tree.destination)]

def Deploy.document (deploy : Deploy) (trees : List Tree) : Json :=
  .object [(text "guest_root", .string deploy.guestRoot),
    (text "install_trees", .array (trees.map Tree.document))]

def Build.document (build : Build) : Json :=
  .object [(text "sources", stringItems build.sources), (text "output", .string build.output),
    (text "setup", stringItems build.setup),
    (text "colcon_args", stringItems (build.colconArgs.map Subtype.val))]

def Manifest.entries (manifest : Manifest) : Entries :=
  [(text "version", .int 1), (text "routes", .string manifest.routes),
    (text "host", manifest.host.document), (text "guest", manifest.guest.document),
    (text "bridge", manifest.bridge.document)] ++
  manifest.simulator.toList.map (fun simulator => (text "simulator", simulator.document)) ++
  [(text "deploy", manifest.deploy.document manifest.deploy.installTrees),
    (text "builds", .array (manifest.builds.map Build.document))]

def Manifest.staged (manifest : Manifest) : Entries :=
  let guest := assign manifest.entries (text "routes") (.string (text "routes.json"))
  let guest := guest.filter fun entry => entry.1 ≠ text "simulator"
  let guest := guest.filter fun entry => entry.1 ≠ text "builds"
  assign guest (text "deploy") (manifest.deploy.document [])

theorem Manifest.staged_eq (manifest : Manifest) :
    manifest.staged =
      [(text "version", .int 1), (text "routes", .string (text "routes.json")),
        (text "host", manifest.host.document), (text "guest", manifest.guest.document),
        (text "bridge", manifest.bridge.document),
        (text "deploy", manifest.deploy.document [])] := by
  rw [Manifest.staged, Manifest.entries]
  cases manifest.simulator <;> rfl

/-! ## The paths of the host -/

structure Manifest.EveryPath (property : Line → Prop) (manifest : Manifest) : Prop where
  routes : property manifest.routes
  setup : ∀ path ∈ manifest.host.setup, property path
  timingFile : manifest.bridge.timingFile ≠ [] → property manifest.bridge.timingFile
  simulator : ∀ simulator ∈ manifest.simulator, property simulator.gem5Root ∧
    property simulator.config ∧ ∀ outdir ∈ simulator.outdir, property outdir
  sources : ∀ tree ∈ manifest.deploy.installTrees.val, property tree.source
  builds : ∀ build ∈ manifest.builds, (∀ path ∈ build.sources, property path) ∧
    property build.output ∧ ∀ path ∈ build.setup, property path

theorem Manifest.EveryPath.mono {manifest : Manifest} {property weaker : Line → Prop}
    (every : manifest.EveryPath property) (weaken : ∀ path, property path → weaker path) :
    manifest.EveryPath weaker where
  routes := weaken _ every.routes
  setup path member := weaken path (every.setup path member)
  timingFile filled := weaken _ (every.timingFile filled)
  simulator found present := by
    obtain ⟨root, config, outdir⟩ := every.simulator found present
    exact ⟨weaken _ root, weaken _ config, fun path some => weaken path (outdir path some)⟩
  sources tree member := weaken _ (every.sources tree member)
  builds build member := by
    obtain ⟨sources, output, setup⟩ := every.builds build member
    exact ⟨fun path some => weaken path (sources path some), weaken _ output,
      fun path some => weaken path (setup path some)⟩

section Relocation

variable (place : Line → Line)

def Settings.relocate (bridge : Settings) : Settings :=
  { bridge with timingFile := if bridge.timingFile = [] then [] else place bridge.timingFile }

def Simulator.relocate (simulator : Simulator) : Simulator :=
  { simulator with
    gem5Root := place simulator.gem5Root
    config := place simulator.config
    outdir := simulator.outdir.map place }

def Tree.relocate (tree : Tree) : Tree := { tree with source := place tree.source }

theorem relocated_apart {trees : List Tree}
    (apart : trees.Pairwise fun previous tree => ¬ tree.path.Overlaps previous.path) :
    (trees.map (Tree.relocate place)).Pairwise fun previous tree =>
      ¬ tree.path.Overlaps previous.path := by
  rw [List.pairwise_map]
  exact apart

def Deploy.relocate (deploy : Deploy) : Deploy :=
  { deploy with
    installTrees := ⟨deploy.installTrees.val.map (Tree.relocate place),
      relocated_apart place deploy.installTrees.property⟩ }

def Build.relocate (build : Build) : Build where
  sources := build.sources.map place
  output := place build.output
  setup := build.setup.map place
  colconArgs := build.colconArgs
  nonempty := fun empty => build.nonempty (List.map_eq_nil_iff.mp empty)

def Manifest.relocate (manifest : Manifest) : Manifest :=
  { manifest with
    routes := place manifest.routes
    host := { manifest.host with setup := manifest.host.setup.map place }
    bridge := manifest.bridge.relocate place
    simulator := manifest.simulator.map (Simulator.relocate place)
    deploy := manifest.deploy.relocate place
    builds := manifest.builds.map (Build.relocate place)
    isolated := manifest.isolated }

end Relocation

/-! ## What an accepted manifest satisfies -/

def Platform.Produces (platform : Platform) (value : Line) : Prop :=
  ∃ path found, platform.resolve path = .ok found ∧ value = found.printed

def Permitted (isIdentifier : Line → Bool) (key : Line) : Prop :=
  isIdentifier key = true ∧ key ≠ text "ROS_DOMAIN_ID" ∧ key ≠ text "ROS_LOCALHOST_ONLY"

/-- The checks of `load` that the types of the manifest do not carry, and where its paths come
from. -/
structure Accepted (platform : Platform) (manifest : Manifest) : Prop where
  topics : ∃ routes, platform.read (Path.parse manifest.routes) = .ok routes ∧
    checkRoutes routes = .ok ()
  hostEnv : ∀ entry ∈ manifest.host.env, Permitted platform.isIdentifier entry.1
  guestEnv : ∀ entry ∈ manifest.guest.env, Permitted platform.isIdentifier entry.1
  guestSetup : ∃ setup : List Plain, manifest.guest.setup = setup.map Subtype.val ∧
    setup.all (fun path => (Path.parse path).isAbsolute) = true
  seconds : reportSeconds manifest.bridge.reportSeconds.document =
    .ok manifest.bridge.reportSeconds
  args : ∀ simulator ∈ manifest.simulator,
    (simulator.args.any fun arg => reservedFlags.contains (arg.val.takeWhile (· ≠ '='))) = false
  colcon : ∀ build ∈ manifest.builds,
    (build.colconArgs.any fun arg => baseFlags.any fun flag => flag.isPrefixOf arg.val) = false
  resolved : manifest.EveryPath platform.Produces

section Inversion

variable {platform : Platform} {parent : Path} {value : Json}

theorem localPath_produces {placed : Line}
    (made : localPath platform parent value = .ok placed) : platform.Produces placed := by
  obtain ⟨path, -, made⟩ := bind_eq_ok.mp made
  obtain ⟨found, resolved, made⟩ := bind_eq_ok.mp made
  cases made
  exact ⟨_, found, resolved, rfl⟩

theorem localPaths_produces {paths : List Plain} {placed : List Line}
    (made : localPaths platform parent paths = .ok placed) :
    ∀ path ∈ placed, platform.Produces path := by
  intro path member
  obtain ⟨written, -, resolved⟩ := mem_of_mapM made path member
  exact localPath_produces resolved

theorem loadVariable_ok {entry : Line × Json} {checked : Plain × Plain}
    (loaded : loadVariable platform entry = .ok checked) :
    Permitted platform.isIdentifier checked.1 := by
  obtain ⟨key, -, loaded⟩ := bind_eq_ok.mp loaded
  obtain ⟨content, -, loaded⟩ := bind_eq_ok.mp loaded
  split_ifs at loaded with refused
  · cases loaded
    simp only [Bool.or_eq_true, not_or, Bool.not_eq_true, Bool.not_eq_false',
      decide_eq_true_eq] at refused
    exact ⟨refused.1.1, refused.1.2, refused.2⟩

theorem loadEnv_ok {env : List (Plain × Plain)} (loaded : loadEnv platform value = .ok env) :
    ∀ entry ∈ env, Permitted platform.isIdentifier entry.1 := by
  cases value with
  | object entries =>
    intro entry member
    obtain ⟨written, -, checked⟩ := mem_of_mapM loaded entry member
    exact loadVariable_ok checked
  | _ => cases loaded

theorem loadParticipant_ok {side : Side} {config : Participant}
    (loaded : loadParticipant platform parent side value = .ok config) :
    (∀ entry ∈ config.env, Permitted platform.isIdentifier entry.1) ∧
      ∃ written, loadSetup platform parent side written = .ok config.setup := by
  obtain ⟨entries, -, loaded⟩ := bind_eq_ok.mp loaded
  obtain ⟨domainId, -, loaded⟩ := bind_eq_ok.mp loaded
  obtain ⟨setup, placed, loaded⟩ := bind_eq_ok.mp loaded
  obtain ⟨env, checked, loaded⟩ := bind_eq_ok.mp loaded
  obtain ⟨processes, -, loaded⟩ := bind_eq_ok.mp loaded
  cases loaded
  exact ⟨loadEnv_ok checked, _, placed⟩

theorem loadSetup_host {setup : List Line}
    (loaded : loadSetup platform parent .host value = .ok setup) :
    ∀ path ∈ setup, platform.Produces path := by
  obtain ⟨written, -, loaded⟩ := bind_eq_ok.mp loaded
  exact localPaths_produces loaded

theorem loadSetup_guest {setup : List Line}
    (loaded : loadSetup platform parent .guest value = .ok setup) :
    ∃ written : List Plain, setup = written.map Subtype.val ∧
      written.all (fun path => (Path.parse path).isAbsolute) = true := by
  obtain ⟨written, -, loaded⟩ := bind_eq_ok.mp loaded
  simp only at loaded
  split_ifs at loaded with absolute
  · cases loaded
    exact ⟨written, rfl, absolute⟩

theorem reportSeconds_ok {seconds : Seconds} (loaded : reportSeconds value = .ok seconds) :
    reportSeconds seconds.document = .ok seconds := by
  have same : value = seconds.document := by
    cases value with
    | int n =>
      simp only [reportSeconds] at loaded
      split_ifs at loaded
      · cases loaded
        rfl
    | float number =>
      cases number with
      | finite q =>
        simp only [reportSeconds] at loaded
        split_ifs at loaded
        · cases loaded
          rfl
      | _ => cases loaded
    | _ => cases loaded
  rw [← same]
  exact loaded

theorem loadBridge_ok {place : Json → Except Line Line} {bridge : Settings}
    (loaded : loadBridge place value = .ok bridge) :
    reportSeconds bridge.reportSeconds.document = .ok bridge.reportSeconds ∧
      (bridge.timingFile = [] ∨ ∃ written, place written = .ok bridge.timingFile) := by
  obtain ⟨entries, -, loaded⟩ := bind_eq_ok.mp loaded
  obtain ⟨maxSerializedBytes, -, loaded⟩ := bind_eq_ok.mp loaded
  obtain ⟨maxPendingMessages, -, loaded⟩ := bind_eq_ok.mp loaded
  obtain ⟨intervalUs, -, loaded⟩ := bind_eq_ok.mp loaded
  obtain ⟨pollUs, -, loaded⟩ := bind_eq_ok.mp loaded
  obtain ⟨steps, -, loaded⟩ := bind_eq_ok.mp loaded
  obtain ⟨startupTimeoutS, -, loaded⟩ := bind_eq_ok.mp loaded
  obtain ⟨seconds, reported, loaded⟩ := bind_eq_ok.mp loaded
  obtain ⟨statusBar, -, loaded⟩ := bind_eq_ok.mp loaded
  obtain ⟨timingSocket, -, loaded⟩ := bind_eq_ok.mp loaded
  obtain ⟨waitForApplication, -, loaded⟩ := bind_eq_ok.mp loaded
  obtain ⟨operations, -, loaded⟩ := bind_eq_ok.mp loaded
  obtain ⟨gazebo, -, loaded⟩ := bind_eq_ok.mp loaded
  obtain ⟨physicsStepNs, -, loaded⟩ := bind_eq_ok.mp loaded
  obtain ⟨timingBackend, -, loaded⟩ := bind_eq_ok.mp loaded
  obtain ⟨written, -, loaded⟩ := bind_eq_ok.mp loaded
  simp only at loaded
  split_ifs at loaded with empty
  · cases loaded
    exact ⟨reportSeconds_ok reported, Or.inl rfl⟩
  · obtain ⟨file, placed, loaded⟩ := bind_eq_ok.mp loaded
    cases loaded
    exact ⟨reportSeconds_ok reported, Or.inr ⟨_, placed⟩⟩

theorem loadSimulator_ok {simulator : Simulator}
    (loaded : loadSimulator platform parent value = .ok simulator) :
    (simulator.args.any fun arg => reservedFlags.contains (arg.val.takeWhile (· ≠ '='))) = false ∧
      platform.Produces simulator.gem5Root ∧ platform.Produces simulator.config ∧
        ∀ outdir ∈ simulator.outdir, platform.Produces outdir := by
  obtain ⟨entries, -, loaded⟩ := bind_eq_ok.mp loaded
  obtain ⟨gem5Root, root, loaded⟩ := bind_eq_ok.mp loaded
  obtain ⟨config, configured, loaded⟩ := bind_eq_ok.mp loaded
  obtain ⟨outdir, directed, loaded⟩ := bind_eq_ok.mp loaded
  obtain ⟨args, -, loaded⟩ := bind_eq_ok.mp loaded
  split_ifs at loaded with reserved
  · cases loaded
    refine ⟨Bool.eq_false_iff.mpr reserved, localPath_produces root,
      localPath_produces configured, ?_⟩
    intro path present
    obtain ⟨written, made⟩ := mem_of_optionMapM directed path present
    exact localPath_produces made

theorem addTree_ok {trees next : Trees} (known : ∀ tree ∈ trees.val, platform.Produces tree.source)
    (added : addTree platform parent trees value = .ok next) :
    ∀ tree ∈ next.val, platform.Produces tree.source := by
  obtain ⟨entries, -, added⟩ := bind_eq_ok.mp added
  obtain ⟨source, placed, added⟩ := bind_eq_ok.mp added
  obtain ⟨destination, -, added⟩ := bind_eq_ok.mp added
  split_ifs at added with inside overlap apart
  · cases added
    intro tree member
    rcases List.mem_append.mp member with earlier | last
    · exact known tree earlier
    · rw [List.mem_singleton.mp last]
      exact localPath_produces placed

theorem loadDeploy_ok {deploy : Deploy} (loaded : loadDeploy platform parent value = .ok deploy) :
    ∀ tree ∈ deploy.installTrees.val, platform.Produces tree.source := by
  obtain ⟨entries, -, loaded⟩ := bind_eq_ok.mp loaded
  obtain ⟨guestRoot, -, loaded⟩ := bind_eq_ok.mp loaded
  split_ifs at loaded with proper
  · obtain ⟨items, -, loaded⟩ := bind_eq_ok.mp loaded
    obtain ⟨trees, folded, loaded⟩ := bind_eq_ok.mp loaded
    cases loaded
    refine foldlM_preserves (fun state item next known added => addTree_ok known added) ?_ folded
    exact fun tree member => absurd member List.not_mem_nil

theorem loadBuild_ok {build : Build} (loaded : loadBuild platform parent value = .ok build) :
    (build.colconArgs.any fun arg => baseFlags.any fun flag => flag.isPrefixOf arg.val) = false ∧
      (∀ path ∈ build.sources, platform.Produces path) ∧ platform.Produces build.output ∧
        ∀ path ∈ build.setup, platform.Produces path := by
  obtain ⟨entries, -, loaded⟩ := bind_eq_ok.mp loaded
  obtain ⟨written, -, loaded⟩ := bind_eq_ok.mp loaded
  obtain ⟨sources, placed, loaded⟩ := bind_eq_ok.mp loaded
  split_ifs at loaded with empty
  · obtain ⟨output, directed, loaded⟩ := bind_eq_ok.mp loaded
    obtain ⟨files, -, loaded⟩ := bind_eq_ok.mp loaded
    obtain ⟨setup, prepared, loaded⟩ := bind_eq_ok.mp loaded
    obtain ⟨colconArgs, -, loaded⟩ := bind_eq_ok.mp loaded
    split_ifs at loaded with overrides
    · cases loaded
      exact ⟨Bool.eq_false_iff.mpr overrides, localPaths_produces placed,
        localPath_produces directed, localPaths_produces prepared⟩

end Inversion

theorem load_accepted {platform : Platform} {path : Path} {manifest : Manifest}
    (loaded : load platform path = .ok manifest) : Accepted platform manifest := by
  obtain ⟨file, -, loaded⟩ := bind_eq_ok.mp loaded
  obtain ⟨data, -, loaded⟩ := bind_eq_ok.mp loaded
  obtain ⟨entries, -, loaded⟩ := bind_eq_ok.mp loaded
  obtain ⟨_, -, loaded⟩ := bind_eq_ok.mp loaded
  obtain ⟨routes, placed, loaded⟩ := bind_eq_ok.mp loaded
  obtain ⟨topics, read, loaded⟩ := bind_eq_ok.mp loaded
  obtain ⟨_, checked, loaded⟩ := bind_eq_ok.mp loaded
  obtain ⟨host, hosted, loaded⟩ := bind_eq_ok.mp loaded
  obtain ⟨guest, guested, loaded⟩ := bind_eq_ok.mp loaded
  split_ifs at loaded with isolated
  · obtain ⟨bridge, bridged, loaded⟩ := bind_eq_ok.mp loaded
    obtain ⟨simulator, simulated, loaded⟩ := bind_eq_ok.mp loaded
    obtain ⟨deploy, deployed, loaded⟩ := bind_eq_ok.mp loaded
    obtain ⟨items, -, loaded⟩ := bind_eq_ok.mp loaded
    obtain ⟨builds, built, loaded⟩ := bind_eq_ok.mp loaded
    cases loaded
    obtain ⟨hostEnv, hostSetup, hostPlaced⟩ := loadParticipant_ok hosted
    obtain ⟨guestEnv, guestSetup, guestPlaced⟩ := loadParticipant_ok guested
    obtain ⟨seconds, timing⟩ := loadBridge_ok bridged
    have simulators : ∀ found ∈ simulator, ∃ written,
        loadSimulator platform file.parent written = .ok found := mem_of_optionMapM simulated
    have every : ∀ build ∈ builds, ∃ item, loadBuild platform file.parent item = .ok build := by
      intro build member
      obtain ⟨item, -, loaded⟩ := mem_of_mapM built build member
      exact ⟨item, loaded⟩
    have args : ∀ found ∈ simulator, _ := fun found present =>
      (loadSimulator_ok (simulators found present).choose_spec)
    have colcon : ∀ build ∈ builds, _ := fun build member =>
      (loadBuild_ok (every build member).choose_spec)
    exact {
      topics := ⟨topics, read, checked⟩
      hostEnv := hostEnv
      guestEnv := guestEnv
      guestSetup := loadSetup_guest guestPlaced
      seconds := seconds
      args := fun found present => (args found present).1
      colcon := fun build member => (colcon build member).1
      resolved := {
        routes := localPath_produces placed
        setup := loadSetup_host hostPlaced
        timingFile := fun filled => by
          obtain ⟨written, made⟩ := timing.resolve_left filled
          exact localPath_produces made
        simulator := fun found present => (args found present).2
        sources := loadDeploy_ok deployed
        builds := fun build member => (colcon build member).2 } }

end Chimaera.Session
