import Chimaera.Base.Cartesian
import Chimaera.Base.Dictionary
import Chimaera.Benchmark.Configuration
import Chimaera.Session.Manifest
import Mathlib.Data.Char
import Mathlib.Data.List.Lex

/-! `make_plan` of `run_experiments.py` with the checks it makes on every case, what `main` asks
of its options and of the runs that `--run-id` selects before it executes any, and the jobs that
`configure.py` makes of a plan. -/

namespace Chimaera.Suite.Sweep
open Base.Text Base.Dictionary Base.Cartesian Session Benchmark

/-- What floats do: the conversion of an integer, unless it is too large, and of the digits of a
frequency, and the product with `1e9`. -/
structure Conversion where
  ofInt : Int → Option Rat
  ofDigits : Line → Rat
  nanoseconds : Rat → Rat

def launchDefaults : Entries :=
  Parameter.all.map (fun parameter => (parameter.name, Benchmark.defaults parameter)) ++
    [(text "duration", real 120), (text "gui", .bool false), (text "lidar_hz", real 20),
      (text "lidar_samples", .int 720), (text "noise_std", real 0),
      (text "physics_step", real (1 / 1000)), (text "wall_timeout", real 600),
      (text "arena_width", real 12), (text "arena_height", real 8)]

def hardwareDefaults : Entries :=
  [(text "cpu_type", .string (text "timing")), (text "cpu_clock", .string (text "3GHz")),
    (text "num_cores", .int 2), (text "l1d_size", .string (text "16KiB")),
    (text "l1i_size", .string (text "16KiB")), (text "l2_size", .string (text "256KiB")),
    (text "l1_assoc", .int 8), (text "l2_assoc", .int 16)]

def defaultsFor (gem5 : Bool) : Entries :=
  launchDefaults ++ if gem5 then hardwareDefaults else []

/-! ## The configuration -/

structure Dimension where
  name : Line
  bundles : List Entries

structure Input where
  fixed : Entries
  dimensions : List Dimension
  repetitions : Nat

def names (entries : Entries) : List Line := entries.map Prod.fst

def asObject : Json → Option Entries
  | .object entries => some entries
  | _ => none

/-- The choices of a dimension; those that are not objects set the parameter it is named
after. -/
def bundlesOf (name : Line) (first : Json) (rest : List Json) : List Json :=
  match first with
  | .object _ => first :: rest
  | _ => (first :: rest).map fun value => .object [(name, value)]

def sameNames (entries other : Entries) : Bool :=
  (names entries).all (names other).contains && (names other).all (names entries).contains

def readDimension (defaults : Entries) (used : List Line) (name : Line) (choices : Json) :
    Except Line Dimension :=
  match choices with
  | .array (first :: rest) =>
      let uneven : Except Line Dimension :=
        .error (name ++ text ": all bundles must set the same nonempty parameter set")
      match (bundlesOf name first rest).mapM asObject with
      | some (bundle :: bundles) =>
          if bundle.isEmpty || !(bundle :: bundles).all fun other => sameNames other bundle then uneven
          else if !(names bundle).all (names defaults).contains then
            .error (name ++ text ": unknown launch parameter")
          else if (names bundle).any used.contains then
            .error (text
              "A parameter cannot appear in both fixed and sweep or in multiple dimensions")
          else .ok ⟨name, bundle :: bundles⟩
      | _ => uneven
  | _ => .error (text "Each sweep dimension requires a nonempty list")

def Dimension.parameters (dimension : Dimension) : List Line :=
  names (dimension.bundles.head?.getD [])

def readDimensions (defaults : Entries) (used : List Line) : Entries → Except Line (List Dimension)
  | [] => .ok []
  | (name, choices) :: rest => do
      let dimension ← readDimension defaults used name choices
      let dimensions ← readDimensions defaults (used ++ dimension.parameters) rest
      .ok (dimension :: dimensions)

def readRepetitions : Json → Except Line Nat
  | .int count =>
      if count < 1 then .error (text "repetitions must be a positive integer") else .ok count.toNat
  | _ => .error (text "repetitions must be a positive integer")

/-- The first half of `make_plan`. What is not an object has no `get`. -/
def readInput (defaults : Entries) (config : Json) : Except Line Input :=
  match config with
  | .object entries =>
      let unknown := (names entries).filter fun name =>
        !List.contains [text "fixed", text "sweep", text "repetitions"] name
      if !unknown.isEmpty then
        .error (text "Unknown configuration keys: " ++
          printedNames (unknown.mergeSort fun first second => decide (first ≤ second)))
      else do
        let repetitions ← readRepetitions (itemOr entries "repetitions" (.int 3))
        match itemOr entries "fixed" (.object []), itemOr entries "sweep" (.object []) with
        | .object fixed, .object sweep => do
            if !(names fixed).all (names defaults).contains then
              .error (text "Unknown launch parameter in fixed")
            else
              let dimensions ← readDimensions defaults (names fixed) sweep
              .ok { fixed, dimensions, repetitions }
        | _, _ => .error (text "fixed and sweep must be objects")
  | _ => .error (text "object has no attribute 'get'")

/-! ## The checks on a case -/

/-- A value by the type of its default; an integer for a real parameter becomes a float. -/
def coerce (conversion : Conversion) (key : Line) (default value : Json) : Except Line Json :=
  match default with
  | .bool _ =>
      match value with
      | .bool _ => .ok value
      | _ => .error (key ++ text " must be a JSON boolean")
  | .int _ =>
      match value with
      | .int _ => .ok value
      | _ => .error (key ++ text " must be a JSON integer")
  | .string _ =>
      match value with
      | .string _ => .ok value
      | _ => .error (key ++ text " must be a JSON string")
  | _ =>
      match value with
      | .int n =>
          match conversion.ofInt n with
          | some x => .ok (.float (.finite x))
          | none => .error (text "int too large to convert to float")
      | .float (.finite _) => .ok value
      | _ => .error (key ++ text " must be a finite number")

def stringAt (params : Entries) (name : Line) : Line :=
  match params.lookup name with
  | some (.string value) => value
  | _ => []

def intAt (params : Entries) (name : String) : Int :=
  match params.lookup (text name) with
  | some (.int value) => value
  | _ => 0

def numberAt (params : Entries) (name : String) : Rat :=
  ((params.lookup (text name)).bind finiteNumber).getD 0

def unitOf (first second : String) (value : Line) : Option (Line × Bool) :=
  let body := value.take (value.length - 3)
  let unit := value.drop (value.length - 3)
  if unit = text first then some (body, true)
  else if unit = text second then some (body, false)
  else none

def isFrequency (value : Line) : Bool :=
  match value.splitOn '.' with
  | [whole] => !whole.isEmpty && whole.all Char.isDigit
  | [whole, fraction] =>
      !whole.isEmpty && whole.all Char.isDigit && !fraction.isEmpty && fraction.all Char.isDigit
  | _ => false

def checkClock (conversion : Conversion) (value : Line) : Bool :=
  match unitOf "MHz" "GHz" value with
  | some (digits, _) => isFrequency digits && 0 < conversion.ofDigits digits
  | none => false

def cacheSize (value : Line) : Option Nat :=
  match unitOf "KiB" "MiB" value with
  | some (digits, kibi) =>
      if !digits.isEmpty && digits.all Char.isDigit && digits.head? ≠ some '0' then
        some (number digits * if kibi then 1024 else 1024 ^ 2)
      else none
  | none => none

def checkCache (params : Entries) (level : String) (assoc : String) : Except Line Unit :=
  match cacheSize (stringAt params (text level ++ text "_size")) with
  | none => .error (text level ++ text "_size must be a positive KiB or MiB size")
  | some size =>
      let ways := intAt params assoc
      let sets := size / (64 * ways.toNat)
      require (0 < ways && size % (64 * ways.toNat) = 0 && 1 ≤ sets && sets &&& (sets - 1) = 0)
        (text level ++
          text " requires positive associativity and a power-of-two number of 64-byte sets")

def validateHardware (conversion : Conversion) (params : Entries) : Except Line Unit := do
  require ([text "timing", text "o3"].contains (stringAt params (text "cpu_type")))
    (text "cpu_type must be timing or o3 (KVM is used only for boot)")
  require (checkClock conversion (stringAt params (text "cpu_clock")))
    (text "cpu_clock must be a positive MHz or GHz frequency")
  require (1 ≤ intAt params "num_cores" && intAt params "num_cores" ≤ 64)
    (text "num_cores must be in [1, 64]")
  checkCache params "l1d" "l1_assoc"
  checkCache params "l1i" "l1_assoc"
  checkCache params "l2" "l2_assoc"

def checkWorld (params : Entries) : Except Line Unit := do
  require (4 ≤ numberAt params "arena_width" && 4 ≤ numberAt params "arena_height")
    (text "arena_width and arena_height must be finite and at least 4 metres")
  require (0 < numberAt params "lidar_hz" && numberAt params "lidar_hz" ≤ 500 &&
      32 ≤ intAt params "lidar_samples" && intAt params "lidar_samples" ≤ 8192 &&
      0 ≤ numberAt params "noise_std" && 0 < numberAt params "physics_step" &&
      numberAt params "physics_step" ≤ 1 / 100)
    (text "Invalid sensor or physics configuration")

def checkCase (conversion : Conversion) (gem5 : Bool) (params : Entries) : Except Line Unit := do
  if gem5 then validateHardware conversion params else .ok ()
  validate fun parameter => (params.lookup parameter.name).getD .null
  checkWorld params
  require (0 < numberAt params "duration" && 0 < numberAt params "wall_timeout")
    (text "duration and wall_timeout must be positive")

def coerceFrom (conversion : Conversion) (params : Entries) (key : Line) (default : Json) :
    Except Line Json :=
  coerce conversion key default ((params.lookup key).getD .null)

def caseParameters (conversion : Conversion) (gem5 : Bool) (defaults fixed : Entries)
    (values : List Entries) : Except Line Entries := do
  let params := values.foldl override (override defaults fixed)
  let params ← defaults.mapM fun (key, default) => do
    let value ← coerceFrom conversion params key default
    .ok (key, value)
  checkCase conversion gem5 params
  .ok params

/-! ## The plan -/

structure Run where
  id : Line
  parameters : Entries
  sweep : List (Line × Entries)
  repetition : Nat

structure Plan where
  architecture : Line
  dimensions : List (Line × List Line)
  runs : List Run

def padded (width n : Nat) : Line :=
  List.replicate (width - (decimal n).length) '0' ++ decimal n

def runId (case repetition : Nat) : Line :=
  text "case_" ++ padded 3 case ++ text "_rep_" ++ padded 2 repetition

def repetitionsOf (input : Input) : List Nat := (List.range input.repetitions).map (· + 1)

def runsOf (input : Input) (case : Nat) (values : List Entries) (params : Entries) : List Run :=
  (repetitionsOf input).map fun repetition =>
    { id := runId case repetition
      parameters := params
      sweep := (input.dimensions.map Dimension.name).zip values
      repetition := repetition }

def planCases (conversion : Conversion) (gem5 : Bool) (input : Input) (case : Nat) :
    List (List Entries) → Except Line (List Run)
  | [] => .ok []
  | values :: rest => do
      let params ← caseParameters conversion gem5 (defaultsFor gem5) input.fixed values
      let runs ← planCases conversion gem5 input (case + 1) rest
      .ok (runsOf input case values params ++ runs)

def makePlan (conversion : Conversion) (config : Json) (architecture : Line) (gem5 : Bool) :
    Except Line Plan := do
  let input ← readInput (defaultsFor gem5) config
  let runs ← planCases conversion gem5 input 1 (product (input.dimensions.map Dimension.bundles))
  .ok { architecture
        dimensions := input.dimensions.map fun dimension => (dimension.name, dimension.parameters)
        runs }

/-- What `main` makes of the values of `--run-id`; without the option all runs stay. -/
def select (plan : Plan) (ids : List Line) : Except Line Plan :=
  if ids.isEmpty then .ok plan
  else
    let selected := plan.runs.filter fun run => ids.contains run.id
    if selected.map Run.id ≠ ids then
      .error (text "run IDs must be distinct known IDs in original plan order")
    else .ok { plan with runs := selected }

/-! ## The invocation -/

/-- The options of `main` that it checks. An empty architecture counts as none; `resources` are
the resolved paths of the simulator, the image and the kernel. -/
structure Options where
  architecture : Line := []
  gem5 : Bool := false
  resources : List Line := []
  intervalUs : Int := 50000
  pollUs : Int := 10000
  startupTimeout : Int := 300
  dryRun : Bool := false
  warmup : FloatValue := .finite 0

def Options.label (options : Options) : Line :=
  if options.architecture ≠ [] then options.architecture
  else if options.gem5 then text "gem5" else text "local"

def isLabel (label : Line) : Bool :=
  !label.isEmpty && label.all fun c => c.isAlphanum || c = '_' || c = '.' || c = '-'

def isWarmup : FloatValue → Bool
  | .finite seconds => 0 ≤ seconds
  | _ => false

def roundEven (x : Rat) : Int :=
  let rest := x - x.floor
  if rest < 1 / 2 then x.floor
  else if 1 / 2 < rest then x.floor + 1
  else if x.floor % 2 = 0 then x.floor else x.floor + 1

def stepTolerance : Rat := 4722366482869645 / 4722366482869645213696

def wholeSteps (conversion : Conversion) (intervalUs : Int) (params : Entries) : Bool :=
  let ns := conversion.nanoseconds (numberAt params "physics_step")
  1 ≤ roundEven ns && |ns - roundEven ns| ≤ stepTolerance && intervalUs * 1000 % roundEven ns = 0

def checkResources (isFile : Line → Bool) (options : Options) : Except Line Unit :=
  match if options.dryRun then none else options.resources.find? fun path => !isFile path with
  | some path => .error (text "Missing gem5 resource: " ++ path)
  | none => .ok ()

def checkGem5 (conversion : Conversion) (isFile : Line → Bool) (options : Options)
    (runs : List Run) : Except Line Unit := do
  require (0 < options.pollUs && options.pollUs < options.intervalUs &&
      options.intervalUs ≤ 3600000000)
    (text "require 0 < poll-us < interval-us <= 3600000000")
  require (0 < options.startupTimeout) (text "startup-timeout must be positive")
  require (runs.all fun run => wholeSteps conversion options.intervalUs run.parameters)
    (text "gem5 interval must be an integral number of nanosecond physics steps")
  checkResources isFile options

def plannedRuns (conversion : Conversion) (isFile : Line → Bool) (config : Json)
    (options : Options) (ids : List Line) : Except Line Plan := do
  require (isLabel options.label)
    (text "architecture must contain only letters, digits, underscores, dots or hyphens")
  require (isWarmup options.warmup) (text "warmup must be finite and nonnegative")
  let plan ← makePlan conversion config options.label options.gem5
  let plan ← select plan ids
  (if options.gem5 then checkGem5 conversion isFile options plan.runs else .ok ())
  .ok plan

def jobsOf (plan : Plan) : Except Line (List (Line × List Line)) :=
  if plan.runs.any fun run => ((run.parameters.lookup (text "gui")).getD .null).truthy then
    .error (text "container sweeps require gui=false")
  else .ok (plan.runs.map fun run => (run.id, [text "--run-id", run.id]))

def runIds : List Line → List Line
  | option :: value :: rest =>
      if option = text "--run-id" then value :: runIds rest else runIds (value :: rest)
  | _ => []

end Chimaera.Suite.Sweep
