import Chimaera.Benchmark.Configuration
import Chimaera.Suite.Runner

/-! `Recorder` of the host, and the two readers of what it leaves: `results.completed` and the
checks of `comparison.load_run`. Time stamps are exact; the other numbers of a row are kept as
they come. -/

namespace Chimaera.Benchmark
open Base.Text Session

structure PoseRow where
  simTime : Rat
  stamp : Rat
  x : FloatValue
  y : FloatValue
  deriving DecidableEq, Repr

/-- The last pose, which every sample repeats; `none` stands for the `NAN` of a stamp. -/
structure Pose where
  stamp : Option Rat := none
  x : FloatValue := .nan
  y : FloatValue := .nan
  deriving DecidableEq, Repr

structure Sample where
  simTime : Rat
  elapsed : Rat
  wallElapsed : Rat
  dtSim : Option Rat
  dtWall : Option Rat
  controlHz : Json
  targetDistance : Json
  pose : Pose
  linearCmd : FloatValue
  angularCmd : FloatValue
  hostScanStamp : Rat
  hostScanAge : Rat

structure CollectionStatus where
  finishSimTime : Option Rat
  lastCommandSimTime : Option Rat
  commandGap : Option Rat
  commandTimeout : Rat
  deriving DecidableEq, Repr

structure Metadata where
  parameters : Parameters
  finalParameters : Parameters
  duration : Rat
  completed : Bool := false
  parameterEvents : List (Rat × Parameters) := []
  finishReason : Option Line := none
  sampleCount : Option Nat := none
  collectionStatus : Option CollectionStatus := none

/-- A `Recorder` with its two files and, as `saved`, the contents of `metadata.json`. -/
structure Recorder where
  parameters : Parameters
  duration : Rat
  start : Option Rat := none
  wallStart : Option Rat := none
  lastSim : Option Rat := none
  lastWall : Option Rat := none
  pose : Pose := {}
  count : Nat := 0
  closed : Bool := false
  samples : List Sample := []
  poses : List PoseRow := []
  metadata : Metadata
  saved : Metadata

namespace Recorder

def create (parameters : Parameters) (duration : FloatValue) : Except Line Recorder :=
  match duration with
  | .finite duration =>
      if duration ≤ 0 then .error (text "duration must be positive and finite")
      else
        let metadata : Metadata :=
          { parameters := parameters, finalParameters := parameters, duration := duration }
        .ok { parameters := parameters, duration := duration, metadata := metadata,
              saved := metadata }
  | _ => .error (text "duration must be positive and finite")

def updateParameters (recorder : Recorder) (parameters : Parameters) (sim : Rat) : Recorder :=
  let metadata := { recorder.metadata with
    finalParameters := parameters
    parameterEvents := recorder.metadata.parameterEvents ++ [(sim, parameters)] }
  { recorder with parameters := parameters, metadata := metadata, saved := metadata }

def writeRow (write : Recorder → Recorder) : EStateM Line Recorder Unit := do
  if (← get).closed then throw (text "I/O operation on closed file.") else modify write

def recordPose (sim stamp : Rat) (x y : FloatValue) : EStateM Line Recorder Unit := do
  modify fun recorder => { recorder with pose := { stamp := some stamp, x := x, y := y } }
  writeRow fun recorder =>
    { recorder with poses := recorder.poses ++ [{ simTime := sim, stamp := stamp, x := x, y := y }] }

def row (recorder : Recorder) (start wallStart sim wall : Rat) (linear angular : FloatValue)
    (hostScanStamp : Rat) : Sample where
  simTime := sim
  elapsed := sim - start
  wallElapsed := wall - wallStart
  dtSim := recorder.lastSim.map fun last => sim - last
  dtWall := recorder.lastWall.map fun last => wall - last
  controlHz := recorder.parameters .controlHz
  targetDistance := recorder.parameters .targetDistance
  pose := recorder.pose
  linearCmd := linear
  angularCmd := angular
  hostScanStamp := hostScanStamp
  hostScanAge := sim - hostScanStamp

def begin (recorder : Recorder) (sim wall : Rat) : Recorder :=
  if recorder.start.isNone then { recorder with start := some sim, wallStart := some wall }
  else recorder

def recordCommand (sim wall : Rat) (linear angular : FloatValue) (hostScanStamp : Rat) :
    EStateM Line Recorder Unit := do
  modify fun recorder => recorder.begin sim wall
  if (← get).lastSim.any (fun last => sim < last) then
    throw (text "Simulation clock moved backwards; start a new attempt")
  let recorder ← get
  let sample := recorder.row (recorder.start.getD sim) (recorder.wallStart.getD wall) sim wall linear
    angular hostScanStamp
  writeRow fun recorder => { recorder with samples := recorder.samples ++ [sample] }
  modify fun recorder =>
    { recorder with lastSim := some sim, lastWall := some wall, count := recorder.count + 1 }

def finish (recorder : Recorder) (completed : Bool) (reason : Line) : Recorder :=
  if recorder.closed then recorder
  else
    let later := match recorder.start, recorder.lastSim with
      | some start, some last => decide (start < last)
      | _, _ => false
    let metadata := { recorder.metadata with
      completed := completed && decide (2 ≤ recorder.count) && later
      finishReason := some reason
      sampleCount := some recorder.count }
    { recorder with metadata := metadata, saved := metadata, closed := true }

end Recorder

/-! ## Readers -/

def Parameters.json (parameters : Parameters) : Json :=
  .object (Parameter.all.map fun k => (k.name, parameters k))

def optional : Option Rat → Json
  | none => .null
  | some value => real value

def CollectionStatus.json (status : CollectionStatus) : Json := .object
  [(text "finish_sim_time", optional status.finishSimTime),
    (text "last_command_sim_time", optional status.lastCommandSimTime),
    (text "command_gap_sim_seconds", optional status.commandGap),
    (text "command_timeout_sim_seconds", real status.commandTimeout)]

def Metadata.entries (metadata : Metadata) : Entries :=
  [(text "schema_version", .int 3),
    (text "parameters", metadata.parameters.json),
    (text "final_parameters", metadata.finalParameters.json),
    (text "duration", real metadata.duration),
    (text "completed", .bool metadata.completed),
    (text "parameter_events", .array (metadata.parameterEvents.map fun (sim, parameters) =>
      .object [(text "sim_time", real sim), (text "parameters", parameters.json)]))] ++
  (metadata.collectionStatus.map fun status => (text "collection_status", status.json)).toList ++
  (metadata.finishReason.map fun reason => (text "finish_reason", .string reason)).toList ++
  (metadata.sampleCount.map fun count => (text "sample_count", .int count)).toList

/-- The directory as a later invocation finds it; `samples.csv` starts with a header. -/
def Recorder.recording (recorder : Recorder) : Suite.Recording where
  metadata := some (.object recorder.saved.entries)
  poses := true
  samples := .lines (recorder.samples.length + 1)

def finiteValue : FloatValue → Option Rat
  | .finite value => some value
  | _ => none

def loadTimes (metadata : Entries) (elapsed : List FloatValue) : Except Line (List Rat) :=
  if !(metadata.lookup (text "schema_version")).any Suite.equalsThree then
    .error (text "Unsupported results schema: expected version 3 host observations")
  else if elapsed.length < 2 then .error (text "requires at least two samples")
  else
    let malformed := text "elapsed times must be finite and increasing (equal receipt times allowed)"
    match elapsed.mapM finiteValue with
    | none => .error malformed
    | some times =>
        if (times.zip times.tail).any (fun (a, b) => decide (b < a)) ||
            decide (times.getLastD 0 ≤ times.headD 0) then
          .error malformed
        else .ok times

def Recorder.loadTimes (recorder : Recorder) : Except Line (List Rat) :=
  Benchmark.loadTimes recorder.saved.entries
    (recorder.samples.map fun sample => .finite sample.elapsed)

/-! ## What the methods do -/

namespace Recorder

def commanded (recorder : Recorder) (sim wall : Rat) (linear angular : FloatValue)
    (hostScanStamp : Rat) : Recorder :=
  let begun := recorder.begin sim wall
  let sample := begun.row (begun.start.getD sim) (begun.wallStart.getD wall) sim wall linear angular
    hostScanStamp
  { begun with
    samples := begun.samples ++ [sample]
    lastSim := some sim
    lastWall := some wall
    count := begun.count + 1 }

def posed (recorder : Recorder) (sim stamp : Rat) (x y : FloatValue) : Recorder :=
  { recorder with
    pose := { stamp := some stamp, x := x, y := y }
    poses := recorder.poses ++ [{ simTime := sim, stamp := stamp, x := x, y := y }] }

theorem begin_eq (recorder : Recorder) (sim wall : Rat) :
    recorder.begin sim wall = { recorder with
      start := some (recorder.start.getD sim)
      wallStart := if recorder.start.isNone then some wall else recorder.wallStart } := by
  unfold begin
  cases recorder with
  | mk parameters duration start => cases start <;> rfl

variable {recorder : Recorder}

theorem recordPose_run (opened : recorder.closed = false) (sim stamp : Rat) (x y : FloatValue) :
    (recordPose sim stamp x y).run recorder = .ok () (recorder.posed sim stamp x y) := by
  simp only [recordPose, writeRow, posed, EStateM.run_bind, EStateM.run_modify, EStateM.run_get,
    opened, Bool.false_eq_true, if_false]

theorem recordCommand_run {sim : Rat} (opened : recorder.closed = false)
    (later : ∀ last ∈ recorder.lastSim, last ≤ sim) (wall : Rat) (linear angular : FloatValue)
    (hostScanStamp : Rat) :
    (recordCommand sim wall linear angular hostScanStamp).run recorder =
      .ok () (recorder.commanded sim wall linear angular hostScanStamp) := by
  have forward : ¬ (recorder.lastSim.any (fun last => decide (sim < last)) = true) := by
    intro backward
    obtain ⟨last, known, earlier⟩ := (Option.any_eq_true _ _).mp backward
    exact absurd (of_decide_eq_true earlier) (Rat.not_lt.mpr (later last known))
  simp only [recordCommand, writeRow, commanded, EStateM.run_bind, EStateM.run_modify,
    EStateM.run_get, begin_eq, if_neg forward, opened, Bool.false_eq_true, if_false]

/-! ## Validity -/

structure Valid (recorder : Recorder) : Prop where
  count : recorder.count = recorder.samples.length
  start : recorder.start = recorder.samples.head?.map Sample.simTime
  last : recorder.lastSim = recorder.samples.getLast?.map Sample.simTime
  elapsed : ∀ sample ∈ recorder.samples, recorder.start = some (sample.simTime - sample.elapsed)
  ordered : recorder.samples.Pairwise fun first second => first.simTime ≤ second.simTime
  posed : recorder.poses.Pairwise fun first second => first.simTime ≤ second.simTime

namespace Valid

variable {recorder : Recorder} {sim : Rat}

theorem commanded (valid : recorder.Valid)
    (later : ∀ sample ∈ recorder.samples, sample.simTime ≤ sim) (wall : Rat)
    (linear angular : FloatValue) (hostScanStamp : Rat) :
    (recorder.commanded sim wall linear angular hostScanStamp).Valid where
  count := by simp only [Recorder.commanded, begin_eq, valid.count, List.length_append,
    List.length_singleton]
  start := by
    simp only [Recorder.commanded, begin_eq, valid.start, List.head?_append]
    cases recorder.samples.head? <;> rfl
  last := by simp only [Recorder.commanded, begin_eq, row, List.getLast?_concat, Option.map_some]
  elapsed := by
    intro sample member
    simp only [Recorder.commanded, begin_eq, List.mem_append, List.mem_singleton] at member ⊢
    rcases member with old | rfl
    · rw [valid.elapsed sample old, Option.getD_some]
    · simp only [row, Option.getD_some, sub_sub_cancel]
  ordered := by
    simp only [Recorder.commanded, begin_eq, List.pairwise_append, List.mem_singleton]
    refine ⟨valid.ordered, List.pairwise_singleton _ _, ?_⟩
    rintro first member second rfl
    exact later first member
  posed := by simpa only [Recorder.commanded, begin_eq] using valid.posed

theorem addPose (valid : recorder.Valid) (later : ∀ pose ∈ recorder.poses, pose.simTime ≤ sim)
    (stamp : Rat) (x y : FloatValue) : (recorder.posed sim stamp x y).Valid where
  __ := valid
  posed := by
    simp only [Recorder.posed, List.pairwise_append, List.mem_singleton]
    refine ⟨valid.posed, List.pairwise_singleton _ _, ?_⟩
    rintro first member second rfl
    exact later first member

end Valid

/-! ## What the readers accept -/

theorem entries_schema (metadata : Metadata) :
    metadata.entries.lookup (text "schema_version") = some (.int 3) := rfl

theorem entries_completed (metadata : Metadata) :
    metadata.entries.lookup (text "completed") = some (.bool metadata.completed) := rfl

theorem recording_completed (completed : recorder.saved.completed = true)
    (enough : 2 ≤ recorder.samples.length) : recorder.recording.completed = some true := by
  have lines : 3 ≤ recorder.samples.length + 1 := by omega
  simp only [Suite.Recording.completed, recording, entries_schema, entries_completed, completed,
    Option.any_some, Suite.equalsThree, Base.JsonText.Json.isTrue, lines, decide_true, Bool.and_true]

theorem mapM_finite (times : List Rat) :
    (times.map FloatValue.finite).mapM finiteValue = some times := by
  induction times with
  | nil => rfl
  | cons time times ih => simp only [List.map_cons, List.mapM_cons, ih, finiteValue]; rfl

theorem zip_tail_ordered {times : List Rat} (ordered : times.Pairwise (· ≤ ·)) :
    ∀ pair ∈ times.zip times.tail, pair.1 ≤ pair.2 := by
  induction times with
  | nil => simp
  | cons first rest ih =>
    cases rest with
    | nil => simp
    | cons second rest =>
      obtain ⟨below, later⟩ := List.pairwise_cons.mp ordered
      intro pair member
      rcases List.mem_cons.mp member with rfl | further
      · exact below second List.mem_cons_self
      · exact ih later pair further

theorem Valid.elapsed_eq (valid : recorder.Valid) {start : Rat}
    (started : recorder.start = some start) :
    ∀ sample ∈ recorder.samples, sample.elapsed = sample.simTime - start := by
  intro sample member
  have same := Option.some.inj (started.symm.trans (valid.elapsed sample member))
  rw [same, sub_sub_cancel]

theorem Valid.loadTimes_ok (valid : recorder.Valid)
    (enough : 2 ≤ recorder.samples.length) {start last : Rat}
    (started : recorder.start = some start) (ended : recorder.lastSim = some last)
    (later : start < last) : recorder.loadTimes = .ok (recorder.samples.map Sample.elapsed) := by
  have elapsed := valid.elapsed_eq started
  have ordered : (recorder.samples.map Sample.elapsed).Pairwise (· ≤ ·) := by
    apply List.pairwise_map.mpr
    apply valid.ordered.imp_of_mem
    intro first second one two before
    rw [elapsed first one, elapsed second two]
    exact sub_le_sub_right before start
  obtain ⟨first, head, same⟩ := Option.map_eq_some_iff.mp (valid.start.symm.trans started)
  obtain ⟨final, tail, close⟩ := Option.map_eq_some_iff.mp (valid.last.symm.trans ended)
  have increasing : ¬ (recorder.samples.map Sample.elapsed).getLastD 0 ≤
      (recorder.samples.map Sample.elapsed).headD 0 := by
    rw [List.getLastD_eq_getLast?, List.headD_eq_head?_getD, List.getLast?_map, List.head?_map, head,
      tail, Option.map_some, Option.map_some, Option.getD_some, Option.getD_some,
      elapsed first (List.mem_of_head? head), elapsed final (List.mem_of_getLast? tail), same, close,
      not_le]
    exact sub_lt_sub_right later start
  have sorted : (((recorder.samples.map Sample.elapsed).zip
      (recorder.samples.map Sample.elapsed).tail).any fun (a, b) => decide (b < a)) = false := by
    apply List.any_eq_false.mpr
    intro pair member
    simpa only [decide_eq_true_eq, not_lt] using zip_tail_ordered ordered pair member
  have values : recorder.samples.map (fun sample => FloatValue.finite sample.elapsed) =
      (recorder.samples.map Sample.elapsed).map FloatValue.finite := (List.map_map ..).symm
  unfold loadTimes Benchmark.loadTimes
  rw [values, mapM_finite, entries_schema, List.length_map, List.length_map,
    if_neg (Nat.not_lt.mpr enough)]
  simp only [sorted, increasing, decide_false, Bool.or_false, Bool.false_eq_true, if_false]
  rfl

end Recorder

end Chimaera.Benchmark
