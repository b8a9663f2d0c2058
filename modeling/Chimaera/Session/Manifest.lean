import Chimaera.Session.Bridge

/-! `manifest.load`: the strict reading of a session manifest. The loaded manifest carries what
the checks establish, so that later stages need not check it again. The file system and the
classes of Unicode characters are a parameter. -/

namespace Chimaera.Session
open Base.Text

/-- What `load` asks of the file system and of the interpreter. `read` is `json.loads` of the
text of a file. -/
structure Platform where
  resolve : Path → Except Line Path
  read : Path → Except Line Json
  isIdentifier : Line → Bool

inductive Side where
  | host
  | guest
  deriving DecidableEq, Repr

structure Process where
  name : Plain
  command : List Plain
  nonempty : command ≠ []

abbrev Processes := { items : List Process // (items.map Process.name).Nodup }

structure Participant where
  domainId : Bounded 0 232
  setup : List Line
  env : List (Plain × Plain)
  processes : Processes

structure Simulator where
  gem5Root : Line
  config : Line
  args : List Plain
  outdir : Option Line

def Path.Inside (path : Path) : Prop :=
  path.root = .relative ∧ text ".." ∉ path.parts ∧ path.parts ≠ []

instance (path : Path) : Decidable path.Inside := by
  unfold Path.Inside
  infer_instance

def runtimeNames : List Line :=
  [text "runtime", text "session.json", text "routes.json", text "guest_start"]

structure Tree where
  source : Line
  destination : Plain
  inside : (Path.parse destination).Inside
  apart : ∀ name ∈ (Path.parse destination).parts.head?, name ∉ runtimeNames

def Tree.path (tree : Tree) : Path := Path.parse tree.destination

def Path.Overlaps (path previous : Path) : Prop :=
  path = previous ∨ path ∈ previous.parents ∨ previous ∈ path.parents

instance (path previous : Path) : Decidable (path.Overlaps previous) := by
  unfold Path.Overlaps
  infer_instance

abbrev Trees :=
  { trees : List Tree // trees.Pairwise fun previous tree => ¬ tree.path.Overlaps previous.path }

structure Deploy where
  guestRoot : Plain
  absolute : (Path.parse guestRoot).isAbsolute
  straight : text ".." ∉ (Path.parse guestRoot).parts
  proper : Path.parse guestRoot ≠ ⟨.slash, []⟩
  installTrees : Trees

structure Build where
  sources : List Line
  output : Line
  setup : List Line
  colconArgs : List Plain
  nonempty : sources ≠ []

structure Manifest where
  routes : Line
  host : Participant
  guest : Participant
  bridge : Settings
  simulator : Option Simulator
  deploy : Deploy
  builds : List Build
  isolated : host.domainId ≠ guest.domainId

/-- `data.get(name, default)`, as `setdefault` then leaves it. -/
def itemOr (entries : Entries) (name : String) (default : Json) : Json :=
  (entries.lookup (text name)).getD default

def localPath (platform : Platform) (parent : Path) (value : Json) : Except Line Line := do
  let path ← string value
  let resolved ← platform.resolve (parent.join (Path.parse path))
  .ok resolved.printed

def localPaths (platform : Platform) (parent : Path) (paths : List Plain) :
    Except Line (List Line) :=
  paths.mapM fun path => localPath platform parent (.string path)

def checkVersion : Json → Except Line Unit
  | .int n => if n = 1 then .ok () else .error (text "Unsupported session version")
  | _ => .error (text "Unsupported session version")

def checkRoutes (routes : Json) : Except Line Unit :=
  let refused : Except Line Unit := .error (text "Expected version 1 topic route config")
  match routes with
  | .object entries =>
      if (item entries "version").equalsOne && (item entries "topics").truthy then .ok ()
      else refused
  | _ => refused

def loadSetup (platform : Platform) (parent : Path) (side : Side) (value : Json) :
    Except Line (List Line) := do
  let setup ← strings value
  match side with
  | .host => localPaths platform parent setup
  | .guest =>
      if setup.all fun path => (Path.parse path).isAbsolute then .ok (setup.map Subtype.val)
      else .error (text "Guest setup paths must be absolute guest paths")

def loadVariable (platform : Platform) (entry : Line × Json) : Except Line (Plain × Plain) := do
  let key ← string (.string entry.1)
  let value ← string entry.2
  if !platform.isIdentifier key || key.val = text "ROS_DOMAIN_ID" ||
      key.val = text "ROS_LOCALHOST_ONLY" then
    .error (text "Invalid or reserved environment key: " ++ key)
  else .ok (key, value)

def loadEnv (platform : Platform) : Json → Except Line (List (Plain × Plain))
  | .object entries => entries.mapM (loadVariable platform)
  | _ => .error (text "env must be an object")

theorem distinct_append (processes : Processes) {process : Process}
    (fresh : process.name ∉ processes.val.map Process.name) :
    ((processes.val ++ [process]).map Process.name).Nodup := by
  rw [List.map_append, List.nodup_append]
  refine ⟨processes.property, List.pairwise_singleton _ _, ?_⟩
  intro name member other added same
  rw [List.map_singleton, List.mem_singleton] at added
  rw [same, added] at member
  exact fresh member

def addProcess (processes : Processes) (value : Json) : Except Line Processes := do
  let entries ← fields value [text "command", text "name"] [text "command", text "name"]
  let name ← string (item entries "name")
  if fresh : name ∈ processes.val.map Process.name then
    .error (text "Duplicate process name: " ++ name)
  else
    let command ← strings (item entries "command")
    if nonempty : command = [] then .error (text "Process command cannot be empty")
    else
      .ok ⟨processes.val ++ [⟨name, command, nonempty⟩], distinct_append processes fresh⟩

def loadProcesses (value : Json) : Except Line Processes := do
  let items ← array value (text "processes must be an array")
  items.foldlM addProcess ⟨[], List.nodup_nil⟩

def loadParticipant (platform : Platform) (parent : Path) (side : Side) (value : Json) :
    Except Line Participant := do
  let entries ← fields value [text "domain_id", text "env", text "processes", text "setup"]
    [text "domain_id", text "processes"]
  let domainId ← integer (item entries "domain_id") 0 232
  let setup ← loadSetup platform parent side (itemOr entries "setup" (.array []))
  let env ← loadEnv platform (itemOr entries "env" (.object []))
  let processes ← loadProcesses (item entries "processes")
  .ok { domainId := domainId, setup := setup, env := env, processes := processes }

def reservedFlags : List Line :=
  [text "--gem5-root", text "--socket-path", text "--guest-command", text "--managed-shutdown"]

def loadSimulator (platform : Platform) (parent : Path) (value : Json) :
    Except Line Simulator := do
  let entries ← fields value [text "args", text "config", text "gem5_root", text "outdir"]
    [text "config", text "gem5_root"]
  let gem5Root ← localPath platform parent (item entries "gem5_root")
  let config ← localPath platform parent (item entries "config")
  let outdir ← (entries.lookup (text "outdir")).mapM (localPath platform parent)
  let args ← strings (itemOr entries "args" (.array []))
  if args.any fun arg => reservedFlags.contains (arg.val.takeWhile (· ≠ '=')) then
    .error (text "Simulator args cannot override session transport/startup flags")
  else .ok { gem5Root := gem5Root, config := config, args := args, outdir := outdir }

theorem apart_append (trees : Trees) (tree : Tree)
    (clear : ¬ ∃ previous ∈ trees.val, tree.path.Overlaps previous.path) :
    (trees.val ++ [tree]).Pairwise fun previous tree => ¬ tree.path.Overlaps previous.path := by
  apply pairwise_snoc trees.property
  intro previous member overlaps
  exact clear ⟨previous, member, overlaps⟩

def addTree (platform : Platform) (parent : Path) (trees : Trees) (value : Json) :
    Except Line Trees := do
  let entries ← fields value [text "destination", text "source"]
    [text "destination", text "source"]
  let source ← localPath platform parent (item entries "source")
  let destination ← string (item entries "destination")
  if inside : (Path.parse destination).Inside then
    if overlap : ∃ previous ∈ trees.val, (Path.parse destination).Overlaps previous.path then
      .error (text "Overlapping install destinations")
    else if apart : ∀ name ∈ (Path.parse destination).parts.head?, name ∉ runtimeNames then
      let tree : Tree := ⟨source, destination, inside, apart⟩
      .ok ⟨trees.val ++ [tree], apart_append trees tree overlap⟩
    else .error (text "Install destination overlaps session runtime")
  else .error (text "Install destination must be relative to guest_root")

def loadDeploy (platform : Platform) (parent : Path) (value : Json) : Except Line Deploy := do
  let entries ← fields value [text "guest_root", text "install_trees"] []
  let guestRoot ← string
    (itemOr entries "guest_root" (.string (text "/opt/chimaera/session")))
  if proper : (Path.parse guestRoot).isAbsolute ∧ text ".." ∉ (Path.parse guestRoot).parts ∧
      Path.parse guestRoot ≠ ⟨.slash, []⟩ then
    let items ← array (itemOr entries "install_trees" (.array []))
      (text "install_trees must be an array")
    let trees ← items.foldlM (addTree platform parent) ⟨[], List.Pairwise.nil⟩
    .ok ⟨guestRoot, proper.1, proper.2.1, proper.2.2, trees⟩
  else .error (text "guest_root must be an absolute non-root guest path")

def baseFlags : List Line :=
  [text "--install-base", text "--build-base", text "--log-base", text "--base-paths"]

def loadBuild (platform : Platform) (parent : Path) (value : Json) : Except Line Build := do
  let entries ← fields value
    [text "colcon_args", text "output", text "setup", text "sources"]
    [text "output", text "setup", text "sources"]
  let written ← strings (item entries "sources")
  let sources ← localPaths platform parent written
  if nonempty : sources = [] then .error (text "Build sources cannot be empty")
  else
    let output ← localPath platform parent (item entries "output")
    let setup ← strings (item entries "setup")
    let setup ← localPaths platform parent setup
    let colconArgs ← strings (itemOr entries "colcon_args" (.array []))
    if colconArgs.any fun arg => baseFlags.any fun flag => flag.isPrefixOf arg.val then
      .error (text "Build output/source overrides belong in the manifest")
    else .ok ⟨sources, output, setup, colconArgs, nonempty⟩

def manifestFields : List Line :=
  [text "bridge", text "builds", text "deploy", text "guest", text "host", text "routes",
   text "simulator", text "version"]

def load (platform : Platform) (path : Path) : Except Line Manifest := do
  let path ← platform.resolve path
  let data ← platform.read path
  let entries ← fields data manifestFields
    [text "guest", text "host", text "routes", text "version"]
  checkVersion (item entries "version")
  let routes ← localPath platform path.parent (item entries "routes")
  let topics ← platform.read (Path.parse routes)
  checkRoutes topics
  let host ← loadParticipant platform path.parent .host (item entries "host")
  let guest ← loadParticipant platform path.parent .guest (item entries "guest")
  if isolated : host.domainId = guest.domainId then
    .error (text "Host and guest ROS domains must differ")
  else
    let bridge ← loadBridge (localPath platform path.parent) (itemOr entries "bridge" (.object []))
    let simulator ← (entries.lookup (text "simulator")).mapM (loadSimulator platform path.parent)
    let deploy ← loadDeploy platform path.parent (itemOr entries "deploy" (.object []))
    let items ← array (itemOr entries "builds" (.array [])) (text "builds must be an array")
    let builds ← items.mapM (loadBuild platform path.parent)
    .ok {
      routes := routes
      host := host
      guest := guest
      bridge := bridge
      simulator := simulator
      deploy := deploy
      builds := builds
      isolated := isolated }

end Chimaera.Session
