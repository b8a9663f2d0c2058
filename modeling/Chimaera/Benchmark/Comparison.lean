import Chimaera.Base.JsonText

/-! The comparison of recorded runs: a run's documents are gathered into one record, its
configuration and provenance are flattened to dotted names, and runs with one identity are
pooled. Python's floats, its `==`, `str` and the `g` format, and the metrics of the runs are
parameters. -/

namespace Chimaera.Benchmark.Comparison
open Base.Text Base.Dictionary Base.Buckets Base.JsonText

inductive Failure where
  | attributeError
  | indexError
  | keyError (name : Line)
  | typeError
  | valueError (message : Line)
  deriving DecidableEq, Repr

/-- The interpreter: its floats and the integers in their range, `==`, `str`, the `g` format of
numbers and a digest in hexadecimal. -/
structure Python (F : Type) extends FloatText F where
  ofNat : Nat → F
  inRange : Int → Bool
  equals : Json F → Json F → Bool
  str : Json F → Line
  general : Json F → Except Failure Line
  sha256 : Line → Line
  finite_ofNat : ∀ n, n < 2 ^ 53 → finite (ofNat n) = true
  general_float : ∀ f, finite f = true → ∃ line, general (.float f) = .ok line
  general_int : ∀ n, inRange n = true → ∃ line, general (.int n) = .ok line

section

variable {F μ σ : Type}

/-! ## Documents -/

mutual

def clean (finite : F → Bool) : Json F → Json F
  | .object entries => .object (cleanEntries finite entries)
  | .array items => .array (cleanItems finite items)
  | .float value => if finite value then .float value else .null
  | value => value

def cleanItems (finite : F → Bool) : List (Json F) → List (Json F)
  | [] => []
  | item :: rest => clean finite item :: cleanItems finite rest

def cleanEntries (finite : F → Bool) : Entries F → Entries F
  | [] => []
  | (name, value) :: rest => (name, clean finite value) :: cleanEntries finite rest

end

def dotted (parent key : Line) : Line := if parent.isEmpty then key else parent ++ '.' :: key

mutual

def flattenItem (name : Line) (result : Entries F) : Json F → Entries F
  | .object entries => update result (flattenFrom name [] entries)
  | item => assign result name item

def flattenFrom (parent : Line) (result : Entries F) : Entries F → Entries F
  | [] => result
  | (key, item) :: rest => flattenFrom parent (flattenItem (dotted parent key) result item) rest

end

def flatten (value : Entries F) (parent : Line) : Entries F := flattenFrom parent [] value

def truthy (python : Python F) (value : Json F) : Bool :=
  value.truthy fun number => python.equals (.float number) (.int 0)

def entriesOf : Json F → Except Failure (Entries F)
  | .object entries => .ok entries
  | _ => .error .attributeError

def get (entries : Entries F) (name : Line) (default : Json F) : Json F :=
  (entries.lookup name).getD default

/-! ## A run -/

structure Measurement (μ : Type) where
  sampleCount : Nat
  taskNote : Option Line
  metrics : μ
  deriving DecidableEq, Repr

/-- The files of a run. The samples are read and checked first, and the metrics are derived
from them once the arena is known. -/
structure Files (F μ : Type) where
  name : Line
  path : Line
  metadata : Json F
  experiment : Option (Json F)
  attempt : Option (Json F)
  samples : Except Failure (Json F → Except Failure (Measurement μ))

structure Run (F μ : Type) where
  name : Line
  path : Line
  completed : Bool
  config : Entries F
  sweep : Json F
  provenance : Entries F
  events : Json F
  arena : Json F
  finalParameters : Json F
  measured : Measurement μ

def defaultArena (python : Python F) : Json F := .object
  [(text "arena_width", .float (python.ofNat 12)), (text "arena_height", .float (python.ofNat 8))]

def configuration (python : Python F) (metadata experiment : Entries F) (arena : Json F) :
    Entries F :=
  let controller := get metadata (text "parameters") (.object [])
  let config := update experiment
    [(text "controller", controller), (text "arena", arena),
      (text "duration", get metadata (text "duration") .null)]
  let final := get metadata (text "final_parameters") controller
  if python.equals final controller then config
  else assign config (text "final_controller") final

def provenance (metadata : Entries F) : Entries F :=
  [(text "robot_source", get metadata (text "provenance") (.object [])),
    (text "host_source", get metadata (text "host_source_sha256") (.object [])),
    (text "host", get metadata (text "host") (.object []))]

def isString (line : Line) : Json F → Bool
  | .string value => value = line
  | _ => false

/-- `metadata.get('completed') is True and (attempt is None or …)` -/
def completed (metadata : Entries F) (attempt : Option (Json F)) : Except Failure Bool :=
  if (get metadata (text "completed") .null).isTrue then
    match attempt with
    | none => .ok true
    | some document => do
        let record ← entriesOf document
        .ok (isString (text "completed") (get record (text "status") .null))
  else .ok false

def gather (python : Python F) (files : Files F μ) : Except Failure (Run F μ) := do
  let metadata ← entriesOf files.metadata
  if python.equals (get metadata (text "schema_version") .null) (.int 3) then
    let derive ← files.samples
    let experiment ← entriesOf (files.experiment.getD (.object []))
    let arena := get experiment (text "arena") (defaultArena python)
    let measured ← derive arena
    let rest := experiment.filter fun entry => entry.1 ≠ text "sweep"
    let done ← completed metadata files.attempt
    .ok { name := files.name
          path := files.path
          completed := done
          config := configuration python metadata rest arena
          sweep := get experiment (text "sweep") (.object [])
          provenance := provenance metadata
          events := get metadata (text "parameter_events") (.array [])
          arena := arena
          finalParameters := get metadata (text "final_parameters") (.object [])
          measured := measured }
  else .error (.valueError
    (text "Unsupported results schema: expected version 3 host observations"))

def Run.flat (run : Run F μ) : Run F μ :=
  { run with config := flatten run.config [], provenance := flatten run.provenance [] }

def loadRun (python : Python F) (files : Files F μ) : Except Failure (Run F μ) := do
  let run ← gather python files
  .ok run.flat

/-! ## Groups -/

def Run.signature (run : Run F μ) : Json F := .object
  [(text "config", .object run.config), (text "provenance", .object run.provenance),
    (text "events", run.events), (text "completed", .bool run.completed)]

def identity (python : Python F) (run : Run F μ) : Except Failure Line :=
  match (clean python.finite run.signature).dumps python.toFloatText with
  | some line => .ok line
  | none => .error (.valueError (text "Out of range float values are not JSON compliant"))

def grouping (python : Python F) (runs : List (Run F μ)) :
    Except Failure (List (Line × List (Run F μ))) := do
  let buckets ← runs.foldlM (fun buckets run => do
    let signature ← identity python run
    .ok (collect buckets signature run)) []
  .ok (sortByName buckets)

structure Member (μ : Type) where
  name : Line
  path : Line
  completed : Bool
  measured : Measurement μ
  deriving DecidableEq, Repr

def Run.member (run : Run F μ) : Member μ where
  name := run.name
  path := run.path
  completed := run.completed
  measured := run.measured

structure Group (F μ σ : Type) where
  id : Line
  name : Line
  count : Nat
  path : Line
  completed : Bool
  config : Entries F
  sweep : Json F
  provenance : Entries F
  events : Json F
  finalParameters : Json F
  arena : Json F
  sampleCount : Nat
  taskNotes : List Line
  statistics : σ
  members : List (Member μ)

def subscript (value : Json F) (name : Line) : Except Failure (Json F) :=
  match value with
  | .object entries =>
      match entries.lookup name with
      | some item => .ok item
      | none => .error (.keyError name)
  | _ => .error .typeError

def sortedSet (lines : List Line) : List Line :=
  (sortByName (lines.dedup.map fun line => (line, ()))).map Prod.fst

def join (separator : Line) (lines : List Line) : Line := separator.intercalate lines

def group (python : Python F) (pool : List μ → σ) (bucket : Line × List (Run F μ)) :
    Except Failure (Group F μ σ) :=
  match bucket.2 with
  | [] => .error .indexError
  | first :: _ => do
      let width ← subscript first.arena (text "arena_width")
      let height ← subscript first.arena (text "arena_height")
      let wide ← python.general width
      let high ← python.general height
      .ok
        { id := (python.sha256 bucket.1).take 12
          name := python.str (get first.config (text "architecture") (.string (text "unknown"))) ++
            text " · " ++
            python.str (get first.config (text "controller.control_hz") (.string (text "?"))) ++
            text " Hz · " ++ wide ++ text "×" ++ high ++ text " m"
          count := bucket.2.length
          path := join ['\n'] (bucket.2.map Run.path)
          completed := first.completed
          config := cleanEntries python.finite first.config
          sweep := clean python.finite
            (((bucket.2.map Run.sweep).find? (truthy python)).getD (.object []))
          provenance := cleanEntries python.finite first.provenance
          events := clean python.finite first.events
          finalParameters := clean python.finite first.finalParameters
          arena := clean python.finite first.arena
          sampleCount := (bucket.2.map fun run => run.measured.sampleCount).sum
          taskNotes := sortedSet ((bucket.2.filterMap fun run => run.measured.taskNote).filter
            fun note => !note.isEmpty)
          statistics := pool (bucket.2.map fun run => run.measured.metrics)
          members := bucket.2.map Run.member }

def varying (python : Python F) (groups : List (Group F μ σ)) : List Line :=
  (sortedSet (groups.flatMap fun group => group.config.map Prod.fst)).filter fun name =>
    name ≠ text "architecture" && !(text "source_sha256.").isPrefixOf name &&
      decide (1 < ((groups.map fun group =>
        (get group.config name .null).render python.repr).dedup).length)

def removePrefix (start line : Line) : Line :=
  if start.isPrefixOf line then line.drop start.length else line

def label (python : Python F) (names : List Line) (group : Group F μ σ) : Line :=
  let unknown := Json.string (text "unknown")
  join (text " · ") (python.str (get group.config (text "architecture") unknown) ::
    names.map fun name =>
      removePrefix (text "sensor.") (removePrefix (text "controller.")
        (removePrefix (text "hardware.") name)) ++ '=' ::
          python.str (get group.config name unknown))

def aggregateRuns (python : Python F) (pool : List μ → σ) (runs : List (Run F μ)) :
    Except Failure (List (Group F μ σ)) := do
  let buckets ← grouping python runs
  let groups ← buckets.mapM (group python pool)
  .ok (groups.map fun group => { group with name := label python (varying python groups) group })

end
end Chimaera.Benchmark.Comparison
