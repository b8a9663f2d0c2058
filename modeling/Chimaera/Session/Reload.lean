import Chimaera.Session.Document

/-! Loading what `load` has left. Each section of the document passes its checks again, and only
the paths of the host are placed anew: by another directory, or by the file system of the guest. -/

namespace Chimaera.Session
open Base.Text Base.Unsigned Base.Checked Base.Dictionary

theorem string_val (value : Plain) : string
    (.string value.val) = .ok value := dif_pos value.property

theorem string_ok {value : Line} {plain : Plain} (checked : string (.string value) = .ok plain) :
    plain.val = value := by
  simp only [string] at checked
  split_ifs at checked
  · cases checked
    rfl

theorem strings_items (values : List Plain) :
    strings (stringItems (values.map Subtype.val)) = .ok values := by
  have each : ∀ value ∈ values, (string ∘ fun plain : Plain => .string plain.val) value =
      .ok (id value) := fun value _ => string_val value
  have all := mapM_returns each
  rw [List.map_id] at all
  unfold strings stringItems
  rw [List.map_map]
  change (values.map fun plain : Plain => (.string plain.val : Json)).mapM string = .ok values
  rw [List.mapM_map]
  exact all

theorem integer_val {low high : Int} (n : Bounded low high) :
    integer (.int n.val) low high = .ok n := dif_pos n.property

section Sections

variable (platform : Platform) (parent : Path) (place : Line → Line)

def Placed (value : Line) : Prop := localPath platform parent (.string value) = .ok (place value)

variable {platform parent place}

theorem Placed.plain {value : Line} (placed : Placed platform parent place value) :
    value ≠ [] ∧ '\x00' ∉ value := by
  obtain ⟨plain, checked, -⟩ := bind_eq_ok.mp placed
  rw [← string_ok checked]
  exact plain.property

theorem placed_items {values : List Line}
    (each : ∀ value ∈ values, Placed platform parent place value) :
    ∃ plains, strings (stringItems values) = .ok plains ∧
      localPaths platform parent plains = .ok (values.map place) := by
  let plains : List Plain := values.attachWith _ fun value member => (each value member).plain
  have written : plains.map Subtype.val = values := List.attachWith_map_subtype_val _
  rw [← written] at each ⊢
  refine ⟨plains, strings_items plains, ?_⟩
  have coerced : (plains >>= fun plain => pure plain.val) = plains.map Subtype.val :=
    List.flatMap_pure_eq_map Subtype.val plains
  rw [localPaths, coerced]
  exact mapM_returns each

theorem loadSetup_host_items {setup : List Line}
    (each : ∀ path ∈ setup, Placed platform parent place path) :
    loadSetup platform parent .host (stringItems setup) = .ok (setup.map place) := by
  obtain ⟨plains, read, placed⟩ := placed_items each
  rw [loadSetup, read, ok_bind]
  exact placed

theorem loadSetup_guest_items {setup : List Plain}
    (absolute : setup.all (fun path => (Path.parse path).isAbsolute) = true) :
    loadSetup platform parent .guest (stringItems (setup.map Subtype.val)) =
      .ok (setup.map Subtype.val) := by
  rw [loadSetup, strings_items, ok_bind]
  exact if_pos absolute

theorem loadEnv_items {env : List (Plain × Plain)}
    (permitted : ∀ entry ∈ env, Permitted platform.isIdentifier entry.1) :
    loadEnv platform (.object (env.map fun entry => (entry.1.val, .string entry.2.val))) =
      .ok env := by
  have each : ∀ entry ∈ env, loadVariable platform (entry.1.val, .string entry.2.val) =
      .ok (id entry) := by
    intro entry member
    obtain ⟨identifier, domain, localhost⟩ := permitted entry member
    rw [loadVariable, string_val, ok_bind, string_val, ok_bind, if_neg]
    · rfl
    · simp [identifier, domain, localhost]
  have all := mapM_returns each
  rw [List.map_id] at all
  rw [loadEnv, List.mapM_map]
  exact all

theorem addProcess_document (processes : Processes) (process : Process)
    (fresh : process.name ∉ processes.val.map Process.name) :
    addProcess processes process.document =
      .ok ⟨processes.val ++ [process], distinct_append processes fresh⟩ := by
  have read : addProcess processes process.document = (do
      let name ← string (.string process.name)
      if fresh : name ∈ processes.val.map Process.name then
        .error (text "Duplicate process name: " ++ name)
      else
        let command ← strings (stringItems (process.command.map Subtype.val))
        if nonempty : command = [] then .error (text "Process command cannot be empty")
        else
          .ok ⟨processes.val ++ [⟨name, command, nonempty⟩], distinct_append processes fresh⟩) := rfl
  rw [read, string_val, ok_bind, dif_neg fresh, strings_items, ok_bind, dif_neg process.nonempty]

theorem loadProcesses_items (processes : Processes) :
    loadProcesses (.array (processes.val.map Process.document)) = .ok processes := by
  suffices fold : ∀ (items done : List Process) (distinct : (done.map Process.name).Nodup)
      (all : ((done ++ items).map Process.name).Nodup),
      (items.map Process.document).foldlM addProcess ⟨done, distinct⟩ = .ok ⟨done ++ items, all⟩ from
    fold processes.val [] List.nodup_nil processes.property
  intro items
  induction items with
  | nil =>
    intro done distinct all
    simp only [List.append_nil]
    rfl
  | cons process items ih =>
    intro done distinct all
    have fresh : process.name ∉ done.map Process.name := by
      rw [List.map_append, List.map_cons, List.nodup_append] at all
      intro member
      exact all.2.2 process.name member process.name List.mem_cons_self rfl
    have step := addProcess_document ⟨done, distinct⟩ process fresh
    have grouped : done ++ [process] ++ items = done ++ process :: items := by
      rw [List.append_assoc, List.singleton_append]
    rw [List.map_cons, List.foldlM_cons, step, ok_bind]
    simp only [← grouped] at all ⊢
    exact ih (done ++ [process]) _ all

/-- One side is accepted again. Only the setup files of the host are placed. -/
theorem loadParticipant_document {side : Side} {config : Participant} {setup : List Line}
    (permitted : ∀ entry ∈ config.env, Permitted platform.isIdentifier entry.1)
    (placed : loadSetup platform parent side (stringItems config.setup) = .ok setup) :
    loadParticipant platform parent side config.document = .ok { config with setup := setup } := by
  have read : loadParticipant platform parent side config.document = (do
      let domainId ← integer (.int config.domainId) 0 232
      let setup ← loadSetup platform parent side (stringItems config.setup)
      let env ← loadEnv platform
        (.object (config.env.map fun entry => (entry.1.val, .string entry.2.val)))
      let processes ← loadProcesses (.array (config.processes.val.map Process.document))
      .ok { domainId := domainId, setup := setup, env := env, processes := processes }) := rfl
  rw [read, integer_val, ok_bind, placed, ok_bind, loadEnv_items permitted, ok_bind,
    loadProcesses_items, ok_bind]

theorem m5ops_document (operations : M5Ops) : m5ops operations.document = .ok operations := by
  cases operations <;> rfl

theorem backend_document {interval physicsStep : Int} (timing : Backend interval physicsStep) :
    ∃ gazebo, isGazebo timing.document = .ok gazebo ∧
      backend gazebo (.string timing.world) interval physicsStep = .ok timing := by
  cases timing with
  | gem5 world => exact ⟨false, rfl, rfl⟩
  | gazebo world integral =>
    refine ⟨true, rfl, ?_⟩
    rw [backend, if_pos rfl, Backend.world, string_val]
    exact dif_pos integral

theorem absolute_val (path : AbsolutePath) (refusal : Line) :
    absolute (.string path.val.val) refusal = .ok path := by
  rw [absolute, string_val, ok_bind]
  exact dif_pos path.property

theorem loadBridge_document {bridge : Settings}
    (seconds : reportSeconds bridge.reportSeconds.document = .ok bridge.reportSeconds)
    (timing : bridge.timingFile ≠ [] → Placed platform parent place bridge.timingFile) :
    loadBridge (localPath platform parent) bridge.document = .ok (bridge.relocate place) := by
  obtain ⟨gazebo, chosen, made⟩ := backend_document bridge.timingBackend
  have file : timingFile (.string bridge.timingFile) = .ok bridge.timingFile := by
    by_cases empty : bridge.timingFile = []
    · rw [empty]
      rfl
    · exact if_neg (timing empty).plain.2
  have read : loadBridge (localPath platform parent) bridge.document = (do
      let maxSerializedBytes ← integer (.int bridge.maxSerializedBytes) 4 67106808
      let maxPendingMessages ← integer (.int bridge.maxPendingMessages) 1 1000000
      let intervalUs ← integer (.int bridge.intervalUs) 2 3600000000
      let pollUs ← integer (.int bridge.pollUs) 1 (intervalUs - 1)
      let steps ← integer (.int bridge.steps) 0 9223372036854775807
      let startupTimeoutS ← integer (.int bridge.startupTimeoutS) 1 2147483647
      let seconds ← reportSeconds bridge.reportSeconds.document
      let timingSocket ← absolute (.string bridge.timingSocket.val)
        (text "Invalid status_bar or timing_socket")
      let operations ← m5ops bridge.m5ops.document
      let gazebo ← isGazebo bridge.timingBackend.document
      let physicsStepNs ← integer (.int bridge.physicsStepNs) 1 3600000000000
      let timingBackend ← backend gazebo (.string bridge.timingBackend.world) intervalUs
        physicsStepNs
      let written ← timingFile (.string bridge.timingFile)
      let file ← if written = [] then .ok [] else localPath platform parent (.string written)
      .ok {
        maxSerializedBytes := maxSerializedBytes
        maxPendingMessages := maxPendingMessages
        intervalUs := intervalUs
        pollUs := pollUs
        steps := steps
        startupTimeoutS := startupTimeoutS
        reportSeconds := seconds
        statusBar := bridge.statusBar
        timingSocket := timingSocket
        waitForApplication := bridge.waitForApplication
        m5ops := operations
        physicsStepNs := physicsStepNs
        timingBackend := timingBackend
        timingFile := file }) := rfl
  rw [read, integer_val, ok_bind, integer_val, ok_bind, integer_val, ok_bind, integer_val,
    ok_bind, integer_val, ok_bind, integer_val, ok_bind, seconds, ok_bind, absolute_val, ok_bind,
    m5ops_document, ok_bind, chosen, ok_bind, integer_val, ok_bind, made, ok_bind, file, ok_bind]
  unfold Settings.relocate
  by_cases empty : bridge.timingFile = []
  · simp only [if_pos empty, ok_bind]
  · have moved := timing empty
    unfold Placed at moved
    simp only [if_neg empty, moved, ok_bind]

theorem loadSimulator_read (simulator : Simulator) :
    loadSimulator platform parent simulator.document = (do
      let gem5Root ← localPath platform parent (.string simulator.gem5Root)
      let config ← localPath platform parent (.string simulator.config)
      let outdir ← (simulator.outdir.map fun path => (.string path : Json)).mapM
        (localPath platform parent)
      let args ← strings (stringItems (simulator.args.map Subtype.val))
      if args.any fun arg => reservedFlags.contains (arg.val.takeWhile (· ≠ '=')) then
        .error (text "Simulator args cannot override session transport/startup flags")
      else .ok { gem5Root := gem5Root, config := config, args := args, outdir := outdir }) := by
  cases simulator with
  | mk gem5Root config args outdir => cases outdir <;> rfl

theorem loadSimulator_document {simulator : Simulator}
    (free : (simulator.args.any fun arg =>
      reservedFlags.contains (arg.val.takeWhile (· ≠ '='))) = false)
    (root : Placed platform parent place simulator.gem5Root)
    (config : Placed platform parent place simulator.config)
    (outdir : ∀ path ∈ simulator.outdir, Placed platform parent place path) :
    loadSimulator platform parent simulator.document = .ok (simulator.relocate place) := by
  have directed : (simulator.outdir.map fun path => (.string path : Json)).mapM
      (localPath platform parent) =
      .ok (simulator.outdir.map place) := by
    cases written : simulator.outdir with
    | none => rfl
    | some path =>
      have moved := outdir path written
      unfold Placed at moved
      rw [Option.map_some, Option.mapM_some, moved]
      rfl
  unfold Placed at root config
  rw [loadSimulator_read, root, ok_bind, config, ok_bind, directed, ok_bind, strings_items, ok_bind,
    if_neg (Bool.eq_false_iff.mp free)]
  rfl

theorem addTree_document (trees : Trees) (tree : Tree)
    (placed : Placed platform parent place tree.source)
    (clear : ¬ ∃ previous ∈ trees.val, tree.path.Overlaps previous.path) :
    addTree platform parent trees tree.document =
      .ok ⟨trees.val ++ [tree.relocate place], apart_append trees (tree.relocate place) clear⟩ := by
  have read : addTree platform parent trees tree.document = (do
      let source ← localPath platform parent (.string tree.source)
      let destination ← string (.string tree.destination)
      if inside : (Path.parse destination).Inside then
        if overlap : ∃ previous ∈ trees.val, (Path.parse destination).Overlaps previous.path then
          .error (text "Overlapping install destinations")
        else if apart : ∀ name ∈ (Path.parse destination).parts.head?, name ∉ runtimeNames then
          let tree : Tree := ⟨source, destination, inside, apart⟩
          .ok ⟨trees.val ++ [tree], apart_append trees tree overlap⟩
        else .error (text "Install destination overlaps session runtime")
      else .error (text "Install destination must be relative to guest_root")) := rfl
  have apart : ¬ ∃ previous ∈ trees.val,
      (Path.parse tree.destination).Overlaps previous.path := clear
  unfold Placed at placed
  rw [read, placed, ok_bind, string_val, ok_bind, dif_pos tree.inside, dif_neg apart,
    dif_pos tree.apart]
  rfl

theorem loadTrees_document (trees : Trees)
    (placed : ∀ tree ∈ trees.val, Placed platform parent place tree.source) :
    (trees.val.map Tree.document).foldlM (addTree platform parent) ⟨[], List.Pairwise.nil⟩ =
      .ok ⟨trees.val.map (Tree.relocate place), relocated_apart place trees.property⟩ := by
  suffices fold : ∀ (items done : List Tree)
      (apart : done.Pairwise fun previous tree => ¬ tree.path.Overlaps previous.path)
      (all : (done ++ items.map (Tree.relocate place)).Pairwise fun previous tree =>
        ¬ tree.path.Overlaps previous.path),
      (∀ tree ∈ items, Placed platform parent place tree.source) →
      (items.map Tree.document).foldlM (addTree platform parent) ⟨done, apart⟩ =
        .ok ⟨done ++ items.map (Tree.relocate place), all⟩ from
    fold trees.val [] List.Pairwise.nil (relocated_apart place trees.property) placed
  intro items
  induction items with
  | nil =>
    intro done apart all _
    simp only [List.map_nil, List.append_nil]
    rfl
  | cons tree items ih =>
    intro done apart all placed
    obtain ⟨first, later⟩ := List.forall_mem_cons.mp placed
    have clear : ¬ ∃ previous ∈ done, tree.path.Overlaps previous.path := by
      rintro ⟨previous, member, overlaps⟩
      rw [List.map_cons, List.pairwise_append] at all
      exact all.2.2 previous member (tree.relocate place) List.mem_cons_self overlaps
    have step := addTree_document ⟨done, apart⟩ tree first clear
    have grouped : done ++ [tree.relocate place] ++ items.map (Tree.relocate place) =
        done ++ (tree :: items).map (Tree.relocate place) := by
      rw [List.append_assoc, List.singleton_append, List.map_cons]
    rw [List.map_cons, List.foldlM_cons, step, ok_bind]
    simp only [← grouped] at all ⊢
    exact ih (done ++ [tree.relocate place]) _ all later

theorem loadDeploy_document (deploy : Deploy) {trees : List Tree} {moved : Trees}
    (folded : (trees.map Tree.document).foldlM (addTree platform parent) ⟨[], List.Pairwise.nil⟩ =
      .ok moved) :
    loadDeploy platform parent (deploy.document trees) =
      .ok { deploy with installTrees := moved } := by
  have read : loadDeploy platform parent (deploy.document trees) = (do
      let guestRoot ← string (.string deploy.guestRoot)
      if proper : (Path.parse guestRoot).isAbsolute ∧ text ".." ∉ (Path.parse guestRoot).parts ∧
          Path.parse guestRoot ≠ ⟨.slash, []⟩ then
        let trees ← (trees.map Tree.document).foldlM (addTree platform parent)
          ⟨[], List.Pairwise.nil⟩
        .ok ⟨guestRoot, proper.1, proper.2.1, proper.2.2, trees⟩
      else .error (text "guest_root must be an absolute non-root guest path")) := rfl
  rw [read, string_val, ok_bind, dif_pos ⟨deploy.absolute, deploy.straight, deploy.proper⟩, folded,
    ok_bind]

theorem loadBuild_document {build : Build}
    (free : (build.colconArgs.any fun arg =>
      baseFlags.any fun flag => flag.isPrefixOf arg.val) = false)
    (sources : ∀ path ∈ build.sources, Placed platform parent place path)
    (output : Placed platform parent place build.output)
    (setup : ∀ path ∈ build.setup, Placed platform parent place path) :
    loadBuild platform parent build.document = .ok (build.relocate place) := by
  obtain ⟨written, readSources, placedSources⟩ := placed_items sources
  obtain ⟨files, readSetup, placedSetup⟩ := placed_items setup
  have read : loadBuild platform parent build.document = (do
      let written ← strings (stringItems build.sources)
      let sources ← localPaths platform parent written
      if nonempty : sources = [] then .error (text "Build sources cannot be empty")
      else
        let output ← localPath platform parent (.string build.output)
        let setup ← strings (stringItems build.setup)
        let setup ← localPaths platform parent setup
        let colconArgs ← strings (stringItems (build.colconArgs.map Subtype.val))
        if colconArgs.any fun arg => baseFlags.any fun flag => flag.isPrefixOf arg.val then
          .error (text "Build output/source overrides belong in the manifest")
        else .ok ⟨sources, output, setup, colconArgs, nonempty⟩) := rfl
  unfold Placed at output
  rw [read, readSources, ok_bind, placedSources, ok_bind,
    dif_neg (fun empty => build.nonempty (List.map_eq_nil_iff.mp empty)), output, ok_bind,
    readSetup, ok_bind, placedSetup, ok_bind, strings_items, ok_bind,
    if_neg (Bool.eq_false_iff.mp free)]
  rfl

end Sections

/-! ## The whole document -/

section Whole

variable {platform : Platform} {file path : Path} {entries : Entries}

theorem load_sections {routes : Line} {topics : Json} {host guest : Participant} {bridge : Settings}
    {simulator : Option Simulator} {deploy : Deploy} {items : List Json} {builds : List Build}
    (resolved : platform.resolve file = .ok path)
    (read : platform.read path = .ok (.object entries))
    (known : fields (.object entries) manifestFields
      [text "guest", text "host", text "routes", text "version"] = .ok entries)
    (version : item entries "version" = .int 1)
    (placed : localPath platform path.parent (item entries "routes") = .ok routes)
    (topicsRead : platform.read (Path.parse routes) = .ok topics)
    (checked : checkRoutes topics = .ok ())
    (hosted : loadParticipant platform path.parent .host (item entries "host") = .ok host)
    (guested : loadParticipant platform path.parent .guest (item entries "guest") = .ok guest)
    (isolated : host.domainId ≠ guest.domainId)
    (bridged : loadBridge (localPath platform path.parent)
      (itemOr entries "bridge" (.object [])) = .ok bridge)
    (simulated : (entries.lookup (text "simulator")).mapM (loadSimulator platform path.parent) =
      .ok simulator)
    (deployed : loadDeploy platform path.parent (itemOr entries "deploy" (.object [])) = .ok deploy)
    (listed : itemOr entries "builds" (.array []) = .array items)
    (built : items.mapM (loadBuild platform path.parent) = .ok builds) :
    load platform file = .ok
      { routes := routes, host := host, guest := guest, bridge := bridge, simulator := simulator,
        deploy := deploy, builds := builds, isolated := isolated } := by
  have versioned : checkVersion (item entries "version") = .ok () := by
    rw [version]
    rfl
  rw [load, resolved, ok_bind, read, ok_bind, known, ok_bind, versioned, ok_bind, placed, ok_bind,
    topicsRead, ok_bind, checked, ok_bind, hosted, ok_bind, guested, ok_bind, dif_neg isolated,
    bridged, ok_bind, simulated, ok_bind, deployed, ok_bind, listed, array, ok_bind, built, ok_bind]

variable {original : Platform} {manifest : Manifest} {place : Line → Line}

/-- What `load` finds in its own document. -/
theorem entries_sections (manifest : Manifest) :
    fields (.object manifest.entries) manifestFields
        [text "guest", text "host", text "routes", text "version"] = .ok manifest.entries ∧
      manifest.entries.lookup (text "simulator") = manifest.simulator.map Simulator.document ∧
      itemOr manifest.entries "deploy" (.object []) =
        manifest.deploy.document manifest.deploy.installTrees ∧
      itemOr manifest.entries "builds" (.array []) =
        .array (manifest.builds.map Build.document) := by
  rw [Manifest.entries]
  cases manifest.simulator with
  | none => exact ⟨rfl, rfl, rfl, rfl⟩
  | some simulator => exact ⟨rfl, rfl, rfl, rfl⟩

section Accepted

variable (accepted : Accepted original manifest)
include accepted

section Participants

variable (interpreter : platform.isIdentifier = original.isIdentifier)
include interpreter

theorem loadHost_document (placed : manifest.EveryPath (Placed platform path.parent place)) :
    loadParticipant platform path.parent .host manifest.host.document =
      .ok (manifest.relocate place).host :=
  loadParticipant_document (interpreter ▸ accepted.hostEnv) (loadSetup_host_items placed.setup)

theorem loadGuest_document (parent : Path) :
    loadParticipant platform parent .guest manifest.guest.document = .ok manifest.guest := by
  obtain ⟨setup, written, absolute⟩ := accepted.guestSetup
  apply loadParticipant_document (interpreter ▸ accepted.guestEnv)
  rw [written]
  exact loadSetup_guest_items absolute

end Participants

theorem loadSimulators_document (placed : manifest.EveryPath (Placed platform path.parent place)) :
    (manifest.simulator.map Simulator.document).mapM (loadSimulator platform path.parent) =
      .ok (manifest.simulator.map (Simulator.relocate place)) := by
  cases some : manifest.simulator with
  | none => rfl
  | some simulator =>
    obtain ⟨root, config, outdir⟩ := placed.simulator simulator some
    rw [Option.map_some, Option.mapM_some,
      loadSimulator_document (accepted.args simulator some) root config outdir]
    rfl

theorem loadBuilds_document (placed : manifest.EveryPath (Placed platform path.parent place)) :
    (manifest.builds.map Build.document).mapM (loadBuild platform path.parent) =
      .ok (manifest.builds.map (Build.relocate place)) := by
  rw [List.mapM_map]
  apply mapM_returns
  intro build member
  obtain ⟨sources, output, files⟩ := placed.builds build member
  exact loadBuild_document (accepted.colcon build member) sources output files

/-- `load` accepts the document it has left and moves the paths of the host in it. -/
theorem load_entries (interpreter : platform.isIdentifier = original.isIdentifier)
    (resolved : platform.resolve file = .ok path)
    (read : platform.read path = .ok (.object manifest.entries))
    (placed : manifest.EveryPath (Placed platform path.parent place))
    {topics : Json} (topicsRead : platform.read (Path.parse (place manifest.routes)) = .ok topics)
    (checked : checkRoutes topics = .ok ()) :
    load platform file = .ok (manifest.relocate place) := by
  obtain ⟨known, simulator, deploy, listed⟩ := entries_sections manifest
  have hosted := loadHost_document accepted interpreter placed
  have guested := loadGuest_document accepted interpreter path.parent
  have bridged := loadBridge_document accepted.seconds placed.timingFile
  have simulated := loadSimulators_document accepted placed
  have folded := loadTrees_document manifest.deploy.installTrees placed.sources
  have deployed := loadDeploy_document manifest.deploy folded
  have built := loadBuilds_document accepted placed
  exact load_sections resolved read known rfl placed.routes topicsRead checked hosted guested
    manifest.isolated bridged (simulator ▸ simulated) (deploy ▸ deployed) listed built

theorem load_staged (interpreter : platform.isIdentifier = original.isIdentifier)
    (resolved : platform.resolve file = .ok path)
    (read : platform.read path = .ok (.object manifest.staged))
    (placed : manifest.EveryPath (Placed platform path.parent place)) {routes : Line}
    (found : localPath platform path.parent (.string (text "routes.json")) = .ok routes)
    {topics : Json} (topicsRead : platform.read (Path.parse routes) = .ok topics)
    (checked : checkRoutes topics = .ok ()) :
    load platform file = .ok
      { manifest.relocate place with
        routes := routes
        simulator := none
        deploy := { manifest.deploy with installTrees := ⟨[], List.Pairwise.nil⟩ }
        builds := [] } := by
  rw [manifest.staged_eq] at read
  have hosted := loadHost_document accepted interpreter placed
  have guested := loadGuest_document accepted interpreter path.parent
  have bridged := loadBridge_document accepted.seconds placed.timingFile
  have deployed : loadDeploy platform path.parent (manifest.deploy.document []) = _ :=
    loadDeploy_document manifest.deploy rfl
  exact load_sections resolved read rfl rfl found topicsRead checked hosted guested
    manifest.isolated bridged rfl deployed rfl rfl

end Accepted

end Whole
end Chimaera.Session
