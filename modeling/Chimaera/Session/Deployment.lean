import Chimaera.Session.Plan
import Chimaera.Session.Reload
import Chimaera.Session.Staging

/-! A staged session in the guest. The guest loads the document that `stage` has written, from
below the guest root, and plans the same processes as the original would on the guest side. -/

namespace Chimaera.Session
open Base.Text Base.Unsigned Base.Folders

/-- `Path.resolve` on a file system that does not change: the path it returns is absolute and
without `..`, and resolving it again leads to it. -/
structure Platform.Resolves (platform : Platform) : Prop where
  normal : ∀ path found, platform.resolve path = .ok found → found.Normal
  stable : ∀ path found, platform.resolve path = .ok found → platform.resolve found = .ok found

def Content.read (host : Platform) : Content → Except Line Json
  | .copied source => host.read source
  | .session document => .ok (.object document)
  | .script _ => .error (text "Expecting value: line 1 column 1 (char 0)")

structure Deployed (host : Platform) (output : Path) (disk : Disk Line Content)
    (guest : Platform) : Prop where
  resolve : ∀ path, path.Normal → guest.resolve path = .ok path
  read : ∀ path content, path.Normal → (output.parts ++ path.parts, content) ∈ disk.writes →
    guest.read path = content.read host
  interpreter : guest.isIdentifier = host.isIdentifier

def Manifest.inGuest (manifest : Manifest) (name : Line) : Path :=
  ⟨.slash, (Path.parse manifest.deploy.guestRoot).parts ++ [name]⟩

structure SameButRoutes (before after : Plan) (old new : Line) : Prop where
  side : after.side = before.side
  setup : after.setup = before.setup
  env : after.env = before.env
  names : after.processes.map Command.name = before.processes.map Command.name
  commands : ∃ start rest others,
    before.processes.map Command.command =
      (start ++ text "-p" :: (text "config_file:=" ++ old) :: rest) :: others ∧
    after.processes.map Command.command =
      (start ++ text "-p" :: (text "config_file:=" ++ new) :: rest) :: others

section Paths

variable {platform : Platform} {parent path : Path}

/-- A path that is absolute already does not depend on the directory of the manifest. -/
theorem localPath_normal (normal : path.Normal) (resolved : platform.resolve path = .ok path) :
    localPath platform parent (.string path.printed) = .ok path.printed := by
  have whole : path.printed = '/' :: (text "/").intercalate path.parts := by
    rw [Path.printed, normal.root]
    rfl
  have clear : '\x00' ∉ path.printed := by
    rw [whole]
    intro member
    rcases List.mem_cons.mp member with same | inside
    · revert same
      decide
    · rcases Path.mem_intercalate inside with between | ⟨part, listed, nul⟩
      · revert between
        decide
      · exact normal.clear part listed nul
  have absolute : path.isAbsolute = true := by
    rw [Path.isAbsolute, normal.root]
    decide
  have checked := string_val ⟨path.printed, by rw [whole]; exact List.cons_ne_nil _ _, clear⟩
  rw [localPath, checked, ok_bind, Path.parse_printed normal, Path.join, if_pos absolute, resolved,
    ok_bind]

theorem Manifest.inGuest_normal (manifest : Manifest) {name : Line}
    (component : Path.Component name)
    (straight : name ≠ text "..") (clear : '\x00' ∉ name) : (manifest.inGuest name).Normal where
  root := rfl
  components part member := by
    rcases List.mem_append.mp member with inside | last
    · exact Path.component_of_parse inside
    · exact List.mem_singleton.mp last ▸ component
  straight := by
    intro member
    rcases List.mem_append.mp member with inside | last
    · exact manifest.deploy.straight inside
    · exact straight (List.mem_singleton.mp last).symm
  clear part member := by
    rcases List.mem_append.mp member with inside | last
    · exact fun nul => manifest.deploy.guestRoot.property.2 (Path.subset_of_parse inside nul)
    · exact List.mem_singleton.mp last ▸ clear

end Paths

/-- On the guest side a plan reads the guest section, three settings of the bridge and the
routes. -/
theorem plan_guest (repr : Rat → Line) (cwd package : Path) {original reloaded : Manifest}
    (guest : reloaded.guest = original.guest)
    (bytes : reloaded.bridge.maxSerializedBytes = original.bridge.maxSerializedBytes)
    (pending : reloaded.bridge.maxPendingMessages = original.bridge.maxPendingMessages)
    (operations : reloaded.bridge.m5ops = original.bridge.m5ops)
    (waits : reloaded.bridge.waitForApplication = original.bridge.waitForApplication)
    (startup : reloaded.bridge.startupTimeoutS = original.bridge.startupTimeoutS) :
    ∃ before after, plan repr cwd original .guest package false = .ok before ∧
      plan repr cwd reloaded .guest package false = .ok after ∧
      SameButRoutes before after original.routes reloaded.routes := by
  have arguments : ∀ manifest : Manifest,
      parameterArguments repr (manifest.parameters .guest) =
        text "-p" :: (text "config_file:=" ++ manifest.routes) ::
          parameterArguments repr (manifest.parameters .guest).tail := fun _ => rfl
  have settings : (reloaded.parameters .guest).tail = (original.parameters .guest).tail := by
    simp only [Manifest.parameters, bytes, pending, operations, waits, startup]
    rfl
  refine ⟨_, _, rfl, rfl, ?_⟩
  exact {
    side := rfl
    setup := congrArg Participant.setup guest
    env := congrArg (Participant.environment · .guest) guest
    names := by
      simp only [Manifest.config, guest]
      rfl
    commands := by
      refine ⟨original.bridgeStart .guest package,
        parameterArguments repr (original.parameters .guest).tail,
        (original.guest.processes.val.map Process.planned).map Command.command, ?_, ?_⟩
      · rw [← arguments original]
        rfl
      · rw [← settings, ← arguments reloaded, ← guest]
        rfl }

theorem noTrees :
    ([] : List Tree).Pairwise fun previous tree => ¬ tree.path.Overlaps previous.path :=
  List.Pairwise.nil

def Manifest.reloaded (manifest : Manifest) : Manifest :=
  { manifest with
    routes := (manifest.inGuest (text "routes.json")).printed
    simulator := none
    deploy := { manifest.deploy with installTrees := ⟨[], noTrees⟩ }
    builds := [] }

section

variable {host : Platform} {manifest : Manifest}

/-- The paths of an accepted manifest stay where they are on any file system that resolves them
to themselves. -/
theorem placed_id (accepted : Accepted host manifest) (resolves : host.Resolves)
    {platform : Platform} (parent : Path)
    (fixed : ∀ path found, host.resolve path = .ok found → platform.resolve found = .ok found) :
    manifest.EveryPath (Placed platform parent id) := by
  have each : ∀ value, host.Produces value → Placed platform parent id value := by
    rintro value ⟨path, found, resolved, rfl⟩
    exact localPath_normal (resolves.normal path found resolved) (fixed path found resolved)
  exact accepted.resolved.mono each

theorem Settings.relocate_id (bridge : Settings) : bridge.relocate id = bridge := by
  have file : (if bridge.timingFile = [] then [] else id bridge.timingFile) =
      bridge.timingFile := by
    split_ifs with empty
    · exact empty.symm
    · rfl
  rw [Settings.relocate, file]

theorem Simulator.relocate_id (simulator : Simulator) : simulator.relocate id = simulator := by
  rw [Simulator.relocate, Option.map_id]
  rfl

theorem Build.relocate_id (build : Build) : build.relocate id = build := by
  have sources : build.sources.map id = build.sources := List.map_id _
  have setup : build.setup.map id = build.setup := List.map_id _
  simp only [Build.relocate, sources, setup]
  rfl

theorem Deploy.relocate_id (deploy : Deploy) : deploy.relocate id = deploy := by
  have trees : deploy.installTrees.val.map (Tree.relocate id) = deploy.installTrees.val :=
    List.map_id _
  simp only [Deploy.relocate, trees]

theorem Manifest.relocate_id (manifest : Manifest) : manifest.relocate id = manifest := by
  have setup : manifest.host.setup.map id = manifest.host.setup := List.map_id _
  have simulator : manifest.simulator.map (Simulator.relocate id) = manifest.simulator := by
    rw [show Simulator.relocate id = id from funext Simulator.relocate_id, Option.map_id]
    rfl
  have builds : manifest.builds.map (Build.relocate id) = manifest.builds := by
    rw [show Build.relocate id = id from funext Build.relocate_id, List.map_id]
  simp only [Manifest.relocate, setup, simulator, builds, Settings.relocate_id,
    Deploy.relocate_id, id]

/-- The files of the session that `stage` has written, by their place in the guest. -/
theorem staged_files {sources : Sources} {module package output resolved root : Path}
    {disk final : Disk Line Content} (rooted : disk.Rooted) (unwritten : disk.writes = [])
    (staged : stage sources module package manifest host output disk = (final, .ok root))
    (placed : host.resolve output = .ok resolved) :
    (resolved.parts ++ (manifest.inGuest (text "session.json")).parts,
        .session manifest.staged) ∈ final.writes ∧
      (resolved.parts ++ (manifest.inGuest (text "routes.json")).parts,
        .copied (Path.parse manifest.routes)) ∈ final.writes := by
  rcases stage_cases sources module package manifest host output rooted unwritten with
    ⟨failure, failed, -⟩ | ⟨found, all, same, ran, -, writes⟩
  · rw [staged] at failed
    cases failed
  · rw [staged] at ran
    obtain ⟨rfl, -⟩ := Prod.mk.inj ran
    rw [placed] at same
    obtain rfl := Except.ok.inj same
    have below : ∀ name, resolved.parts ++ (manifest.inGuest name).parts =
        (stageRoot manifest resolved).parts ++ [name] := by
      intro name
      rw [stageRoot_parts, List.append_assoc]
      rfl
    rw [writes, below, below]
    constructor
    · apply List.mem_flatMap_of_mem
      · exact List.mem_append_right _ List.mem_cons_self
      · exact List.mem_cons_self
    · apply List.mem_flatMap_of_mem
      · exact List.mem_append_left _ (List.mem_append_left _
          (List.mem_cons_of_mem _ (List.mem_cons_of_mem _ List.mem_cons_self)))
      · exact List.mem_cons_self

theorem load_deployed {path : Path} (loaded : load host path = .ok manifest)
    (resolves : host.Resolves) {sources : Sources} {module package output resolved root : Path}
    {disk final : Disk Line Content} (rooted : disk.Rooted) (unwritten : disk.writes = [])
    (staged : stage sources module package manifest host output disk = (final, .ok root))
    (placed : host.resolve output = .ok resolved) {guest : Platform}
    (deployed : Deployed host resolved final guest) {file : Path}
    (found : guest.resolve file = .ok (manifest.inGuest (text "session.json"))) :
    load guest file = .ok manifest.reloaded := by
  have accepted := load_accepted loaded
  obtain ⟨session, routes⟩ := staged_files rooted unwritten staged placed
  have sessionNormal : (manifest.inGuest (text "session.json")).Normal :=
    manifest.inGuest_normal ⟨by decide, by decide, by decide⟩ (by decide) (by decide)
  have routesNormal : (manifest.inGuest (text "routes.json")).Normal :=
    manifest.inGuest_normal ⟨by decide, by decide, by decide⟩ (by decide) (by decide)
  have moved := placed_id accepted resolves (manifest.inGuest (text "session.json")).parent
    (fun path found resolved => deployed.resolve found (resolves.normal path found resolved))
  have beside : localPath guest (manifest.inGuest (text "session.json")).parent
      (.string (text "routes.json")) = .ok (manifest.inGuest (text "routes.json")).printed := by
    have joined : (manifest.inGuest (text "session.json")).parent.join
        (Path.parse (text "routes.json")) = manifest.inGuest (text "routes.json") := by
      simp only [Path.parent, Manifest.inGuest, List.dropLast_concat]
      rfl
    have checked : string (.string (text "routes.json")) = .ok ⟨text "routes.json", by decide⟩ :=
      rfl
    rw [localPath, checked, ok_bind, joined, deployed.resolve _ routesNormal, ok_bind]
  obtain ⟨topics, read, checked⟩ := accepted.topics
  have topicsRead : guest.read (Path.parse (manifest.inGuest (text "routes.json")).printed) =
      .ok topics := by
    rw [Path.parse_printed routesNormal, deployed.read _ _ routesNormal routes]
    exact read
  have again := load_staged accepted deployed.interpreter found
    (deployed.read _ _ sessionNormal session) moved beside topicsRead checked
  rw [manifest.relocate_id] at again
  exact again

end

/-- The guest loads what was staged and plans the same processes, but for the routes of the
bridge. Loading the document that `load` has left moves the paths of the host in it and changes
nothing else; on the same file system it changes nothing. -/
theorem staging_preserves_guest (host : Platform) (resolves : host.Resolves) (path : Path)
    (manifest : Manifest) (loaded : load host path = .ok manifest) :
    (∀ (sources : Sources) (module package output resolved root : Path)
        (disk final : Disk Line Content), disk.Rooted → disk.writes = [] →
      stage sources module package manifest host output disk = (final, .ok root) →
      host.resolve output = .ok resolved →
      ∀ (guest : Platform) (file : Path), Deployed host resolved final guest →
        guest.resolve file = .ok (manifest.inGuest (text "session.json")) →
        ∃ reloaded, load guest file = .ok reloaded ∧
          reloaded.routes = (manifest.inGuest (text "routes.json")).printed ∧
          ∀ (repr : Rat → Line) (cwd install : Path), ∃ before after,
            plan repr cwd manifest .guest install false = .ok before ∧
            plan repr cwd reloaded .guest install false = .ok after ∧
            SameButRoutes before after manifest.routes reloaded.routes) ∧
    (∀ (platform : Platform) (file found : Path) (place : Line → Line) (topics : Json),
      platform.isIdentifier = host.isIdentifier →
      platform.resolve file = .ok found →
      platform.read found = .ok (.object manifest.entries) →
      manifest.EveryPath (Placed platform found.parent place) →
      platform.read (Path.parse (place manifest.routes)) = .ok topics →
      checkRoutes topics = .ok () →
      load platform file = .ok (manifest.relocate place)) ∧
    ∀ file found, host.resolve file = .ok found →
      host.read found = .ok (.object manifest.entries) → load host file = .ok manifest := by
  have accepted := load_accepted loaded
  refine ⟨?_, ?_, ?_⟩
  · intro sources module package output resolved root disk final rooted unwritten staged placed
      guest file deployed found
    refine ⟨manifest.reloaded,
      load_deployed loaded resolves rooted unwritten staged placed deployed found, rfl, ?_⟩
    intro repr cwd install
    exact plan_guest repr cwd install rfl rfl rfl rfl rfl rfl
  · intro platform file found place topics interpreter resolved read placed topicsRead checked
    exact load_entries accepted interpreter resolved read placed topicsRead checked
  · intro file found resolved read
    obtain ⟨topics, topicsRead, checked⟩ := accepted.topics
    have again := load_entries accepted rfl resolved read
      (placed_id accepted resolves found.parent resolves.stable) topicsRead checked
    rw [manifest.relocate_id] at again
    exact again

def withoutLinks (path : Path) : Except Line Path :=
  if path.Normal then .ok path else .error (text "not a normal path")

theorem withoutLinks_normal {path : Path} (normal : path.Normal) :
    withoutLinks path = .ok path := if_pos normal

theorem withoutLinks_ok {path found : Path} (resolved : withoutLinks path = .ok found) :
    found = path ∧ path.Normal := by
  unfold withoutLinks at resolved
  split_ifs at resolved with normal
  · exact ⟨(Except.ok.inj resolved).symm, normal⟩

def deploy (host : Platform) (output : Path) (disk : Disk Line Content) : Platform where
  resolve := withoutLinks
  read path :=
    match disk.writes.lookup (output.parts ++ path.parts) with
    | some content => content.read host
    | none => .error (text "No such file or directory")
  isIdentifier := host.isIdentifier

theorem deploy_deployed (host : Platform) (output : Path) {disk : Disk Line Content}
    (distinct : (disk.writes.map Prod.fst).Nodup) :
    Deployed host output disk (deploy host output disk) where
  resolve path normal := withoutLinks_normal normal
  read path content _ member := by
    have found := Base.Dictionary.lookup_of_mem distinct member
    simp only [deploy, found]
  interpreter := rfl

def plainSession : Platform := { sharedFolder with resolve := withoutLinks }

theorem plainSession_resolves : plainSession.Resolves where
  normal path found resolved := by
    obtain ⟨rfl, normal⟩ := withoutLinks_ok resolved
    exact normal
  stable path found resolved := by
    obtain ⟨rfl, normal⟩ := withoutLinks_ok resolved
    exact withoutLinks_normal normal

theorem plainSession_transfers :
    ∃ manifest, load plainSession (Path.parse (text "/session.json")) = .ok manifest ∧
      ∃ guest reloaded,
        load guest (manifest.inGuest (text "session.json")) = .ok reloaded ∧
        ∃ before after,
          plan (fun _ => []) ⟨.slash, []⟩ manifest .guest ⟨.slash, []⟩ false = .ok before ∧
          plan (fun _ => []) ⟨.slash, []⟩ reloaded .guest ⟨.slash, []⟩ false = .ok after ∧
          SameButRoutes before after manifest.routes
            (text "/opt/chimaera/session/routes.json") := by
  have ran : (load plainSession (Path.parse (text "/session.json"))).toOption.map (fun manifest =>
      ((stage singleFiles (Path.parse (text "/module")) (Path.parse (text "/package")) manifest
        plainSession (Path.parse (text "/out")) emptyDisk).2.toOption.isSome,
        (manifest.inGuest (text "routes.json")).printed)) =
      some (true, text "/opt/chimaera/session/routes.json") := by decide +kernel
  obtain ⟨manifest, accepted, facts⟩ := Option.map_eq_some_iff.mp ran
  obtain ⟨finished, routes⟩ := Prod.mk.inj facts
  have loaded := eq_ok_of_toOption accepted
  obtain ⟨root, ended⟩ := Option.isSome_iff_exists.mp finished
  have staged : stage singleFiles (Path.parse (text "/module")) (Path.parse (text "/package"))
      manifest plainSession (Path.parse (text "/out")) emptyDisk =
        (_, .ok root) := Prod.ext rfl (eq_ok_of_toOption ended)
  have output : plainSession.resolve (Path.parse (text "/out")) =
      .ok (Path.parse (text "/out")) := by
    have normal : (Path.parse (text "/out")).Normal := by decide +kernel
    exact withoutLinks_normal normal
  have distinct := stage_distinct emptyDisk_rooted rfl staged
  have preserved := staging_preserves_guest plainSession plainSession_resolves _ manifest loaded
  obtain ⟨reloaded, again, moved, plans⟩ := preserved.1 _ _ _ _ _ _ _ _ emptyDisk_rooted rfl staged
    output _ (manifest.inGuest (text "session.json"))
    (deploy_deployed plainSession (Path.parse (text "/out")) distinct)
    (withoutLinks_normal
      (manifest.inGuest_normal ⟨by decide, by decide, by decide⟩ (by decide) (by decide)))
  rw [moved, routes] at plans
  exact ⟨manifest, loaded, _, reloaded, again, plans _ _ _⟩

end Chimaera.Session
