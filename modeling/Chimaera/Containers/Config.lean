import Chimaera.Session.Manifest
import Chimaera.Containers.Runner

/-! `load` of the container runner: the checks of a configuration in their order. What the
file system makes of a mount source is a parameter. -/

namespace Chimaera.Containers
open Base.Text Base.Unsigned Session

structure Job where
  name : Name
  args : List Line
  env : List (Line × Line)

structure Mount where
  source : Line
  target : Line
  deriving DecidableEq, Repr

structure Config where
  image : Line
  command : List Line
  cpus : Json
  memory : Line
  workdir : Option Line
  jobs : List Job
  mounts : List Mount
  devices : List Line
  env : List (Line × Line)

def cleanString : Json → Option Line
  | .string value => if '\x00' ∈ value then none else some value
  | _ => none

def strings (value : Json) (label : String) (nonempty : Bool) : Except Line (List Line) :=
  let refused : Except Line (List Line) := .error (text label ++ text " must be an array of strings")
  match value with
  | .array items =>
      if nonempty && items.isEmpty then refused
      else
        match items.mapM cleanString with
        | some values => .ok values
        | none => refused
  | _ => refused

/-- `re.fullmatch` with one class for the first character and one for the others. -/
def fullmatch (first later : Char → Bool) : Line → Bool
  | [] => false
  | c :: rest => first c && rest.all later

def isWord (c : Char) : Bool := c.isAlphanum || c = '_'

def isName : Line → Bool := fullmatch Char.isAlphanum fun c => isWord c || c = '.' || c = '-'

def isVariable : Line → Bool := fullmatch (fun c => c.isAlpha || c = '_') isWord

def isSize (value : Line) : Bool :=
  let digits := fullmatch (fun c => c.isDigit && c ≠ '0') Char.isDigit
  digits value || (digits value.dropLast && value.getLast?.any (· ∈ text "bkmgBKMG"))

def configKeys : List Line :=
  [text "command", text "cpus", text "devices", text "env", text "image", text "jobs",
    text "memory", text "mounts", text "workdir"]

def loadImage : Json → Except Line Line
  | .string value =>
      if value = [] ∨ (text "-").isPrefixOf value then
        .error (text "image must be a local Docker image tag or ID")
      else .ok value
  | _ => .error (text "image must be a local Docker image tag or ID")

def floatOverflow : Nat := 2 ^ 1024 - 2 ^ 970

def loadCpus (value : Json) : Except Line Json :=
  let refused : Except Line Json := .error (text "cpus must be positive and finite")
  match value with
  | .int n =>
      if n.natAbs ≥ floatOverflow then .error (text "int too large to convert to float")
      else if n ≤ 0 then refused else .ok value
  | .float (.finite x) => if x ≤ 0 then refused else .ok value
  | _ => refused

def loadMemory (value : Json) : Except Line Line :=
  let refused : Except Line Line := .error (text "memory must be a Docker size such as 8g")
  match value with
  | .string size => if isSize size then .ok size else refused
  | _ => refused

def loadWorkdir (value : Option Json) : Except Line (Option Line) :=
  let refused : Except Line (Option Line) :=
    .error (text "workdir must be an absolute container path")
  match value with
  | none => .ok none
  | some (.string path) => if (text "/").isPrefixOf path then .ok (some path) else refused
  | some _ => refused

structure JobEntry where
  name : Name
  args : List Line
  env : Json

def loadJob (names : List Name) (job : Json) : Except Line JobEntry :=
  match job with
  | .object entries =>
      if !entries.all fun entry => [text "name", text "args", text "env"].contains entry.1 then
        .error (text "each job accepts name, args, and env")
      else
        match item entries "name" with
        | .string name =>
            if isName name && !names.contains name then do
              let args ← strings (itemOr entries "args" (.array [])) "job args" false
              .ok ⟨name, args, itemOr entries "env" (.object [])⟩
            else .error (text "job names must be unique simple names")
        | _ => .error (text "job names must be unique simple names")
  | _ => .error (text "each job accepts name, args, and env")

def loadJobs (names : List Name) : List Json → Except Line (List JobEntry)
  | [] => .ok []
  | job :: rest => do
      let entry ← loadJob names job
      let entries ← loadJobs (names ++ [entry.name]) rest
      .ok (entry :: entries)

def loadEnv (value : Json) : Except Line (List (Line × Line)) :=
  let refused : Except Line (List (Line × Line)) :=
    .error (text "env must map environment variable names to strings")
  match value with
  | .object entries =>
      match entries.mapM fun (key, value) =>
        if isVariable key then (cleanString value).map (key, ·) else none with
      | some env => .ok env
      | none => refused
  | _ => refused

def JobEntry.load (entry : JobEntry) : Except Line Job := do
  let env ← loadEnv entry.env
  .ok ⟨entry.name, entry.args, env⟩

def outputPath : Path := Path.parse (text "/output")

def loadMount (resolve : Line → Except Line Line) (targets : List Path) (mount : Json) :
    Except Line (Path × Mount) :=
  match mount with
  | .object entries =>
      if !(entries.all (fun entry => [text "source", text "target"].contains entry.1) &&
          [text "source", text "target"].all fun name => entries.any fun entry => entry.1 == name)
      then .error (text "each read-only mount requires source and target")
      else
        match item entries "source", item entries "target" with
        | .string source, .string spelled => do
            let source ← resolve source
            let target := Path.parse spelled
            if !target.isAbsolute ∨ target.parts.contains (text "..") ∨
                target = Path.parse (text "/") then
              .error (text "mount targets must be absolute paths below /")
            else if target = outputPath ∨ outputPath ∈ target.parents ∨ target ∈ outputPath.parents
            then .error (text "/output is reserved for job results")
            else if ∃ other ∈ targets, target.Overlaps other then
              .error (text "mount targets must not overlap")
            else if [source, target.printed].any fun value => ',' ∈ value ∨ '\x00' ∈ value then
              .error (text "mount paths cannot contain commas or NUL")
            else .ok (target, ⟨source, target.printed⟩)
        | _, _ => .error (text "mount paths must be strings")
  | _ => .error (text "each read-only mount requires source and target")

def loadMounts (resolve : Line → Except Line Line) (targets : List Path) :
    List Json → Except Line (List Mount)
  | [] => .ok []
  | mount :: rest => do
      let (target, mount) ← loadMount resolve targets mount
      let mounts ← loadMounts resolve (targets ++ [target]) rest
      .ok (mount :: mounts)

def load (resolve : Line → Except Line Line) (config : Json) : Except Line Config :=
  let refused : Except Line Config :=
    .error (text "configuration keys must be one of " ++ printedNames configKeys)
  match config with
  | .object entries =>
      if !entries.all fun entry => configKeys.contains entry.1 then refused
      else do
        let image ← loadImage (item entries "image")
        let command ← strings (item entries "command") "command" true
        let cpus ← loadCpus (itemOr entries "cpus" (.int 2))
        let memory ← loadMemory (itemOr entries "memory" (.string (text "8g")))
        let workdir ← loadWorkdir (entries.lookup (text "workdir"))
        let jobs ← array (item entries "jobs") (text "jobs must be a nonempty array")
        if jobs.isEmpty then .error (text "jobs must be a nonempty array")
        else
          let jobs ← loadJobs [] jobs
          let env ← loadEnv (itemOr entries "env" (.object []))
          let jobs ← jobs.mapM JobEntry.load
          let mounts ← array (itemOr entries "mounts" (.array [])) (text "mounts must be an array")
          let mounts ← loadMounts resolve [] mounts
          let devices ← strings (itemOr entries "devices" (.array [])) "devices" false
          if !devices.all (text "/").isPrefixOf then
            .error (text "devices must be absolute host paths")
          else .ok { image, command, cpus, memory, workdir, jobs, mounts, devices, env }
  | _ => refused

/-! ## Mounts -/

def spelledTarget : Json → Line
  | .object entries =>
      match item entries "target" with
      | .string target => target
      | _ => []
  | _ => []

def spelledTargets : Json → List Line
  | .object entries =>
      match itemOr entries "mounts" (.array []) with
      | .array mounts => mounts.map spelledTarget
      | _ => []
  | _ => []

structure Admitted (target : Path) : Prop where
  absolute : target.isAbsolute = true
  proper : target ≠ Path.parse (text "/")
  reserved : ¬target.Overlaps outputPath

variable {resolve : Line → Except Line Line}

theorem loadMount_ok {targets : List Path} {value : Json} {target : Path} {mount : Mount}
    (loaded : loadMount resolve targets value = .ok (target, mount)) :
    target = Path.parse (spelledTarget value) ∧ mount.target = target.printed ∧ Admitted target ∧
      ∀ other ∈ targets, ¬target.Overlaps other := by
  cases value with
  | object entries =>
    simp only [loadMount] at loaded
    split_ifs at loaded with keys
    split at loaded
    next source spelled _ named =>
      obtain ⟨resolved, -, loaded⟩ := bind_eq_ok.mp loaded
      split_ifs at loaded with below reserved overlapping unclean
      obtain ⟨rfl, rfl⟩ := Prod.mk.inj (Except.ok.inj loaded)
      obtain ⟨absolute, straight⟩ := not_or.mp below
      refine ⟨by simp only [spelledTarget, named], rfl, ⟨?_, ?_, ?_⟩, ?_⟩
      · simpa using absolute
      · exact (not_or.mp straight).2
      · rintro (same | above | inside)
        · exact reserved (.inl same)
        · exact reserved (.inr (.inr above))
        · exact reserved (.inr (.inl inside))
      · intro other member overlaps
        exact overlapping ⟨other, member, overlaps⟩
    next => cases loaded
  | _ => cases loaded

theorem loadMounts_ok {targets : List Path} {values : List Json} {mounts : List Mount}
    (apart : targets.Pairwise fun previous target => ¬target.Overlaps previous)
    (loaded : loadMounts resolve targets values = .ok mounts) :
    mounts.map Mount.target = values.map (fun value => (Path.parse (spelledTarget value)).printed) ∧
      (∀ value ∈ values, Admitted (Path.parse (spelledTarget value))) ∧
      (targets ++ values.map fun value => Path.parse (spelledTarget value)).Pairwise
        fun previous target => ¬target.Overlaps previous := by
  induction values generalizing targets mounts with
  | nil =>
    cases loaded
    exact ⟨rfl, nofun, by simpa using apart⟩
  | cons value rest ih =>
    obtain ⟨⟨target, mount⟩, first, loaded⟩ := bind_eq_ok.mp loaded
    obtain ⟨others, later, loaded⟩ := bind_eq_ok.mp loaded
    cases loaded
    obtain ⟨rfl, printed, admitted, clear⟩ := loadMount_ok first
    have extended := pairwise_snoc apart clear
    obtain ⟨texts, all, pairwise⟩ := ih extended later
    refine ⟨?_, List.forall_mem_cons.mpr ⟨admitted, all⟩, ?_⟩
    · rw [List.map_cons, List.map_cons, printed, texts]
    · rwa [List.map_cons, List.append_cons]

theorem load_mounts {value : Json} {config : Config} (loaded : load resolve value = .ok config) :
    ∃ values, spelledTargets value = values.map spelledTarget ∧
      loadMounts resolve [] values = .ok config.mounts := by
  cases value with
  | object entries =>
    simp only [load] at loaded
    split_ifs at loaded with keys
    obtain ⟨image, -, loaded⟩ := bind_eq_ok.mp loaded
    obtain ⟨command, -, loaded⟩ := bind_eq_ok.mp loaded
    obtain ⟨cpus, -, loaded⟩ := bind_eq_ok.mp loaded
    obtain ⟨memory, -, loaded⟩ := bind_eq_ok.mp loaded
    obtain ⟨workdir, -, loaded⟩ := bind_eq_ok.mp loaded
    obtain ⟨jobValues, -, loaded⟩ := bind_eq_ok.mp loaded
    split_ifs at loaded with empty
    obtain ⟨jobEntries, -, loaded⟩ := bind_eq_ok.mp loaded
    obtain ⟨env, -, loaded⟩ := bind_eq_ok.mp loaded
    obtain ⟨jobs, -, loaded⟩ := bind_eq_ok.mp loaded
    obtain ⟨values, listed, loaded⟩ := bind_eq_ok.mp loaded
    obtain ⟨mounts, read, loaded⟩ := bind_eq_ok.mp loaded
    obtain ⟨devices, -, loaded⟩ := bind_eq_ok.mp loaded
    split_ifs at loaded with relative
    cases loaded
    refine ⟨values, ?_, read⟩
    rw [spelledTargets]
    cases kind : itemOr entries "mounts" (.array []) with
    | array items =>
      rw [kind] at listed
      cases listed
      rfl
    | _ =>
      rw [kind] at listed
      cases listed
  | _ => cases loaded

end Chimaera.Containers
