import Mathlib.Data.List.Chain
import Chimaera.Benchmark.Collector

/-! What a recording guarantees after any sequence of callbacks, and what its readers make of one
that is marked as completed. -/

namespace Chimaera.Benchmark
open Base.Text Base.Unsigned Session

namespace Collector

/-! ## What a callback does -/

structure Ticks (collector : Collector) (sim : Rat) : Prop where
  forward : ∀ last ∈ collector.sim, last ≤ sim
  quiet : collector.finished = false → ∀ last ∈ collector.lastCommand,
    sim - last ≤ collector.commandTimeout

inductive Move (collector : Collector) : Collector → Prop where
  | scanned (scan : Option Rat) : Move collector { collector with scan := scan }
  | ticked (sim : Rat) (ticks : collector.Ticks sim) :
      Move collector { collector with sim := some sim }
  | posed (sim stamp : Rat) (x y : FloatValue) (opened : collector.finished = false)
      (known : collector.sim = some sim) :
      Move collector { collector with
        havePose := true
        recorder := collector.recorder.posed sim stamp x y }
  | commanded (sim wall : Rat) (linear angular : FloatValue) (scan : Rat)
      (opened : collector.finished = false) (known : collector.sim = some sim) :
      Move collector { collector with
        lastCommand := some sim
        recorder := collector.recorder.commanded sim wall linear angular scan }
  | updated (parameters : Parameters) (sim : Rat) (opened : collector.finished = false) :
      Move collector { collector with
        recorder := collector.recorder.updateParameters parameters sim }
  | stopped (reason : Line) : Move collector (collector.finish false reason)
  | overdue (sim : Rat) (forward : ∀ last ∈ collector.sim, last ≤ sim) (reason : Line) :
      Move collector ({ collector with sim := some sim }.finish false reason)
  | reached (sim start : Rat) (ticks : collector.Ticks sim)
      (started : collector.recorder.start = some start) (enough : collector.duration ≤ sim - start)
      (reason : Line) :
      Move collector ({ collector with sim := some sim }.finish true reason)

/-! ## The invariant -/

structure Consistent (collector : Collector) : Prop where
  positive : 0 < collector.commandTimeout
  valid : collector.recorder.Valid
  closed : collector.recorder.closed = collector.finished
  command : collector.lastCommand = collector.recorder.lastSim
  recorded : ∀ sample ∈ collector.recorder.samples, ∃ sim ∈ collector.sim, sample.simTime ≤ sim
  seen : ∀ pose ∈ collector.recorder.poses, ∃ sim ∈ collector.sim, pose.simTime ≤ sim
  spaced : collector.recorder.samples.IsChain fun first second =>
    second.simTime - first.simTime ≤ collector.commandTimeout
  pending : collector.finished = false →
    collector.recorder.metadata.completed = false ∧ collector.recorder.saved.completed = false
  complete : collector.recorder.saved.completed = true →
    2 ≤ collector.recorder.samples.length ∧ ∃ start last, collector.recorder.start = some start ∧
      collector.recorder.lastSim = some last ∧ start < last ∧
      collector.duration - collector.commandTimeout ≤ last - start

structure Watched (collector : Collector) : Prop extends Consistent collector where
  watched : collector.finished = false → ∀ sim ∈ collector.sim, ∀ last ∈ collector.lastCommand,
    sim - last ≤ collector.commandTimeout

variable {collector : Collector}

theorem Consistent.tick (consistent : collector.Consistent) {sim : Rat}
    (forward : ∀ last ∈ collector.sim, last ≤ sim) :
    { collector with sim := some sim }.Consistent where
  __ := consistent
  recorded := by
    intro sample member
    obtain ⟨last, known, before⟩ := consistent.recorded sample member
    exact ⟨sim, rfl, before.trans (forward last known)⟩
  seen := by
    intro pose member
    obtain ⟨last, known, before⟩ := consistent.seen pose member
    exact ⟨sim, rfl, before.trans (forward last known)⟩

theorem Watched.tick (watched : collector.Watched) {sim : Rat} (ticks : collector.Ticks sim) :
    { collector with sim := some sim }.Watched where
  __ := watched.toConsistent.tick ticks.forward
  watched := by
    rintro opened _ ⟨⟩
    exact ticks.quiet opened

theorem Consistent.unmarked (consistent : collector.Consistent)
    (opened : collector.finished = false)
    {P : Prop} (completed : collector.recorder.saved.completed = true) : P := by
  rw [(consistent.pending opened).2] at completed
  cases completed

theorem Watched.posed (watched : collector.Watched) {sim : Rat} (stamp : Rat) (x y : FloatValue)
    (opened : collector.finished = false) (known : collector.sim = some sim) :
    { collector with
      havePose := true
      recorder := collector.recorder.posed sim stamp x y }.Watched where
  __ := watched
  valid := by
    apply watched.valid.addPose
    intro pose member
    obtain ⟨now, same, before⟩ := watched.seen pose member
    cases known.symm.trans same
    exact before
  seen := by
    intro pose member
    rcases List.mem_append.mp member with old | new
    · exact watched.seen pose old
    · cases List.mem_singleton.mp new
      exact ⟨sim, known, le_refl sim⟩
  complete := watched.unmarked opened

theorem Watched.commanded (watched : collector.Watched) {sim : Rat} (wall : Rat)
    (linear angular : FloatValue) (scan : Rat) (opened : collector.finished = false)
    (known : collector.sim = some sim) :
    { collector with
      lastCommand := some sim
      recorder := collector.recorder.commanded sim wall linear angular scan }.Watched where
  __ := watched
  valid := by
    apply watched.valid.commanded
    intro sample member
    obtain ⟨now, same, before⟩ := watched.recorded sample member
    cases known.symm.trans same
    exact before
  closed := by simpa only [Recorder.commanded, Recorder.begin_eq] using watched.closed
  command := rfl
  recorded := by
    intro sample member
    simp only [Recorder.commanded, Recorder.begin_eq, List.mem_append, List.mem_singleton] at member
    rcases member with old | rfl
    · exact watched.recorded sample old
    · exact ⟨sim, known, le_refl sim⟩
  seen := by simpa only [Recorder.commanded, Recorder.begin_eq] using watched.seen
  spaced := by
    simp only [Recorder.commanded, Recorder.begin_eq]
    apply List.isChain_append.mpr
    refine ⟨watched.spaced, List.isChain_singleton _, ?_⟩
    intro previous last sample new
    cases new
    apply watched.watched opened sim known previous.simTime
    rw [watched.command, watched.valid.last, Option.mem_def.mp last]
    rfl
  pending := by simpa only [Recorder.commanded, Recorder.begin_eq] using watched.pending
  complete := by
    simp only [Recorder.commanded, Recorder.begin_eq]
    exact watched.unmarked opened
  watched := by
    intro _ now same last new
    cases known.symm.trans same
    cases new
    rw [sub_self]
    exact watched.positive.le

theorem Watched.updated (watched : collector.Watched) (parameters : Parameters) (sim : Rat)
    (opened : collector.finished = false) :
    { collector with
      recorder := collector.recorder.updateParameters parameters sim }.Watched where
  __ := watched
  valid := { watched.valid with }
  pending := fun _ => ⟨(watched.pending opened).1, (watched.pending opened).1⟩
  complete := by
    intro completed
    change collector.recorder.metadata.completed = true at completed
    rw [(watched.pending opened).1] at completed
    cases completed

/-! ## Finishing -/

@[simp] theorem finish_finished (collector : Collector) (success : Bool) (reason : Line) :
    (collector.finish success reason).finished = true := by
  unfold finish
  split
  · assumption
  · rfl

theorem finish_of_finished (finished : collector.finished = true) (success : Bool) (reason : Line) :
    collector.finish success reason = collector := by
  unfold finish
  rw [if_pos finished]

theorem finish_frozen (collector : Collector) (finished : collector.finished = true)
    (success : Bool) (reason : Line) :
    (collector.finish success reason).finished = true ∧
      (collector.finish success reason).recorder = collector.recorder := by
  rw [finish_of_finished finished]
  exact ⟨finished, rfl⟩

/-- The metadata say completed only with two samples, the last of them after the start. -/
theorem finish_open (opened : collector.finished = false)
    (writable : collector.recorder.closed = false) (success : Bool) (reason : Line) :
    ∃ metadata : Metadata, collector.finish success reason = { collector with
        finished := true
        success := metadata.completed
        recorder := { collector.recorder with
          metadata := metadata
          saved := metadata
          closed := true } } ∧
      (metadata.completed = true → success = true ∧ 2 ≤ collector.recorder.count ∧
        ∃ start last, collector.recorder.start = some start ∧
          collector.recorder.lastSim = some last ∧ start < last) := by
  refine ⟨(collector.finish success reason).recorder.metadata, ?_, ?_⟩
  · simp only [finish, Recorder.finish, opened, writable, Bool.false_eq_true, if_false]
  intro completed
  simp only [finish, Recorder.finish, opened, writable, Bool.false_eq_true, if_false,
    Bool.and_eq_true, decide_eq_true_eq] at completed
  obtain ⟨⟨successful, enough⟩, later⟩ := completed
  refine ⟨successful, enough, ?_⟩
  split at later
  · next start last started ended =>
    exact ⟨start, last, started, ended, of_decide_eq_true later⟩
  · cases later

/-- A clock that ends the recording with success is not too late after the last command. -/
theorem Consistent.finish (consistent : collector.Consistent) (success : Bool) (reason : Line)
    (reached : success = true → collector.finished = false → ∃ sim,
      (∀ last ∈ collector.lastCommand, sim - last ≤ collector.commandTimeout) ∧
      ∀ start ∈ collector.recorder.start, collector.duration ≤ sim - start) :
    (collector.finish success reason).Watched := by
  cases finished : collector.finished with
  | true =>
    rw [finish_of_finished finished]
    exact { consistent with watched := by simp [finished] }
  | false =>
    obtain ⟨metadata, eq, marked⟩ :=
      finish_open finished (consistent.closed.trans finished) success reason
    rw [eq]
    refine { consistent with
      valid := { consistent.valid with }
      closed := rfl
      pending := by simp
      watched := by simp
      complete := ?_ }
    intro completed
    obtain ⟨successful, enough, start, last, started, ended, later⟩ := marked completed
    obtain ⟨sim, quiet, full⟩ := reached successful finished
    refine ⟨consistent.valid.count ▸ enough, start, last, started, ended, later, ?_⟩
    have recent := quiet last (consistent.command.trans ended)
    have long := full start started
    change collector.duration - collector.commandTimeout ≤ last - start
    linarith

/-! ## Runs -/

theorem Move.watched {after : Collector} (move : Move collector after)
    (watched : collector.Watched) : after.Watched := by
  cases move with
  | scanned scan => exact { watched with }
  | ticked sim ticks => exact watched.tick ticks
  | posed sim stamp x y opened known => exact watched.posed stamp x y opened known
  | commanded sim wall linear angular scan opened known =>
    exact watched.commanded wall linear angular scan opened known
  | updated parameters sim opened => exact watched.updated parameters sim opened
  | stopped reason => exact watched.toConsistent.finish false reason (by simp)
  | overdue sim forward reason =>
    exact (watched.toConsistent.tick forward).finish false reason (by simp)
  | reached sim start ticks started enough reason =>
    apply (watched.toConsistent.tick ticks.forward).finish true reason
    intro _ opened
    refine ⟨sim, ticks.quiet opened, ?_⟩
    intro same known
    cases started.symm.trans known
    exact enough

theorem finish_settings (collector : Collector) (success : Bool) (reason : Line) :
    (collector.finish success reason).duration = collector.duration ∧
      (collector.finish success reason).commandTimeout = collector.commandTimeout := by
  unfold finish
  split <;> exact ⟨rfl, rfl⟩

theorem Move.settings {after : Collector} (move : Move collector after) :
    after.duration = collector.duration ∧ after.commandTimeout = collector.commandTimeout := by
  cases move with
  | stopped reason => exact finish_settings ..
  | overdue sim forward reason => exact finish_settings ..
  | reached sim start ticks started enough reason => exact finish_settings ..
  | _ => exact ⟨rfl, rfl⟩

theorem Move.frozen {after : Collector} (move : Move collector after)
    (finished : collector.finished = true) :
    after.finished = true ∧ after.recorder = collector.recorder := by
  cases move with
  | scanned scan => exact ⟨finished, rfl⟩
  | ticked sim ticks => exact ⟨finished, rfl⟩
  | posed sim stamp x y opened known => cases finished.symm.trans opened
  | commanded sim wall linear angular scan opened known => cases finished.symm.trans opened
  | updated parameters sim opened => cases finished.symm.trans opened
  | stopped reason => exact finish_frozen collector finished false reason
  | overdue sim forward reason =>
    exact finish_frozen { collector with sim := some sim } finished false reason
  | reached sim start ticks started enough reason =>
    exact finish_frozen { collector with sim := some sim } finished true reason

theorem Consistent.uncommanded (consistent : collector.Consistent)
    (unstarted : collector.recorder.start = none) : collector.lastCommand = none := by
  have none := consistent.valid.start.symm.trans unstarted
  rw [consistent.command, consistent.valid.last]
  rw [Option.map_eq_none_iff, List.head?_eq_none_iff] at none
  rw [none]
  rfl

theorem watch_cases (collector : Collector) (sim : Rat) :
    (collector.watch sim = collector ∧ (collector.finished = false →
      collector.recorder.start = none ∨
        ∀ last ∈ collector.lastCommand, sim - last ≤ collector.commandTimeout)) ∨
    (∃ reason, collector.watch sim = collector.finish false reason) ∨
    (∃ start reason, collector.watch sim = collector.finish true reason ∧
      collector.recorder.start = some start ∧
      (∀ last ∈ collector.lastCommand, sim - last ≤ collector.commandTimeout) ∧
      collector.duration ≤ sim - start) := by
  unfold watch
  split
  case isTrue finished => exact .inl ⟨rfl, by simp [finished]⟩
  case isFalse opened =>
    split
    case h_1 unstarted => exact .inl ⟨rfl, fun _ => .inl unstarted⟩
    case h_2 start started =>
      split
      case isTrue late => exact .inr (.inl ⟨_, rfl⟩)
      case isFalse prompt =>
        have quiet : ∀ last ∈ collector.lastCommand, sim - last ≤ collector.commandTimeout := by
          intro last known
          simpa [Option.mem_def.mp known] using prompt
        split
        case isTrue enough => exact .inr (.inr ⟨start, _, rfl, started, quiet, enough⟩)
        case isFalse short => exact .inl ⟨rfl, fun _ => .inr quiet⟩

theorem onClock_move (consistent : collector.Consistent) (stamp : Stamp) :
    Move collector (collector.onClock stamp) := by
  simp only [onClock]
  split
  case isTrue backward => exact .stopped _
  case isFalse ahead =>
    have forward : ∀ last ∈ collector.sim, last ≤ stamp.seconds := by
      intro last known
      simpa [Option.mem_def.mp known] using ahead
    rcases watch_cases { collector with sim := some stamp.seconds } stamp.seconds with
      ⟨eq, calm⟩ | ⟨reason, eq⟩ | ⟨start, reason, eq, started, quiet, enough⟩
    · rw [eq]
      refine .ticked _ ⟨forward, ?_⟩
      intro opened
      rcases calm opened with unstarted | quiet
      · simp [consistent.uncommanded unstarted]
      · exact quiet
    · rw [eq]
      exact .overdue _ forward reason
    · rw [eq]
      exact .reached _ start ⟨forward, fun _ => quiet⟩ started enough reason

theorem run_record {method : EStateM Line Recorder Unit} {recorder : Recorder}
    (ran : method.run collector.recorder = .ok () recorder) :
    (record method).run collector = .ok () { collector with recorder := recorder } := by
  change record method collector = _
  rw [record, ran]

/-- `record_command` does not raise: the clock it is given has not moved backwards. -/
theorem onCommand_move (consistent : collector.Consistent) (wall : Rat)
    (linear angular : FloatValue) :
    ∃ after, (onCommand wall linear angular).run collector = .ok () after ∧
      Move collector after := by
  have unchanged : Move collector collector := .scanned collector.scan
  simp only [onCommand, EStateM.run_bind, EStateM.run_get]
  split
  case h_1 sim scan known heard =>
    split
    case isTrue unready => exact ⟨collector, rfl, unchanged⟩
    case isFalse ready =>
      have opened : collector.finished = false := by
        cases finished : collector.finished with
        | false => rfl
        | true => simp [finished] at ready
      have later : ∀ last ∈ collector.recorder.lastSim, last ≤ sim := by
        intro last before
        rw [consistent.valid.last] at before
        obtain ⟨sample, final, rfl⟩ := Option.map_eq_some_iff.mp before
        obtain ⟨now, same, bound⟩ := consistent.recorded sample (List.mem_of_getLast? final)
        cases known.symm.trans same
        exact bound
      have ran := Recorder.recordCommand_run (consistent.closed.trans opened) later wall linear angular
        scan
      refine ⟨_, ?_, .commanded sim wall linear angular scan opened known⟩
      simp only [EStateM.run_bind, EStateM.run_modify]
      exact run_record ran
  case h_2 => exact ⟨collector, rfl, unchanged⟩

theorem onPose_move (consistent : collector.Consistent) (stamp : Stamp) (x y : FloatValue) :
    ∃ after, (onPose stamp x y).run collector = .ok () after ∧ Move collector after := by
  have unchanged : Move collector collector := .scanned collector.scan
  simp only [onPose, EStateM.run_bind, EStateM.run_get]
  cases known : collector.sim with
  | none => exact ⟨collector, rfl, unchanged⟩
  | some sim =>
    cases opened : collector.finished with
    | true => exact ⟨collector, rfl, unchanged⟩
    | false =>
      have ran := Recorder.recordPose_run (consistent.closed.trans opened) sim stamp.seconds x y
      refine ⟨_, ?_, .posed sim stamp.seconds x y opened known⟩
      simp only [Bool.false_eq_true, if_false, EStateM.run_bind, EStateM.run_modify]
      exact run_record ran

/-- A parameter that `validate` refuses raises before anything has changed. -/
theorem onParameters_move (collector : Collector) (node : Line)
    (values : List (Line × ParameterValue)) :
    (∃ after, (onParameters node values).run collector = .ok () after ∧ Move collector after) ∨
      ∃ what, (onParameters node values).run collector = .error what collector := by
  have unchanged : Move collector collector := .scanned collector.scan
  simp only [onParameters, EStateM.run_bind, EStateM.run_get]
  split
  case isTrue elsewhere => exact .inl ⟨collector, rfl, unchanged⟩
  case isFalse concerned =>
    have opened : collector.finished = false := by
      simpa using (not_or.mp concerned).2
    split
    case isTrue nothing => exact .inl ⟨collector, rfl, unchanged⟩
    case isFalse some =>
      split
      case h_1 what refused => exact .inr ⟨what, rfl⟩
      case h_2 accepted =>
        split
        case isTrue same => exact .inl ⟨collector, rfl, unchanged⟩
        case isFalse different => exact .inl ⟨_, rfl, .updated _ _ opened⟩

theorem spin_move (consistent : collector.Consistent) (event : Event) :
    Move collector (collector.spin event) := by
  unfold spin
  cases event with
  | clock stamp => exact onClock_move consistent stamp
  | scan stamp => exact .scanned (some stamp.seconds)
  | pose stamp x y =>
    obtain ⟨after, ran, move⟩ := onPose_move consistent stamp x y
    rw [handle, ran]
    exact move
  | command wall linear angular =>
    obtain ⟨after, ran, move⟩ := onCommand_move consistent wall linear angular
    rw [handle, ran]
    exact move
  | parameters node values =>
    rcases onParameters_move collector node values with ⟨after, ran, move⟩ | ⟨what, ran⟩
    · rw [handle, ran]
      exact move
    · rw [handle, ran]
      exact .stopped _

theorem Watched.spinAll (watched : collector.Watched) (events : List Event) :
    (collector.spinAll events).Watched := by
  induction events generalizing collector with
  | nil => exact watched
  | cons event events ih => exact ih ((spin_move watched.toConsistent event).watched watched)

theorem Watched.settings (watched : collector.Watched) (events : List Event) :
    (collector.spinAll events).duration = collector.duration ∧
      (collector.spinAll events).commandTimeout = collector.commandTimeout := by
  induction events generalizing collector with
  | nil => exact ⟨rfl, rfl⟩
  | cons event events ih =>
    have move := spin_move watched.toConsistent event
    obtain ⟨duration, timeout⟩ := ih (move.watched watched)
    exact ⟨duration.trans move.settings.1, timeout.trans move.settings.2⟩

theorem Watched.frozen (watched : collector.Watched) (finished : collector.finished = true)
    (events : List Event) : (collector.spinAll events).recorder = collector.recorder := by
  induction events generalizing collector with
  | nil => rfl
  | cons event events ih =>
    have move := spin_move watched.toConsistent event
    obtain ⟨still, same⟩ := move.frozen finished
    exact (ih (move.watched watched) still).trans same

theorem Watched.fresh {duration timeout : Rat} (positive : 0 < timeout) (parameters : Parameters)
    (metadata : Metadata) (incomplete : metadata.completed = false) :
    Watched
      { recorder := {
          parameters := parameters
          duration := duration
          metadata := metadata
          saved := metadata }
        duration := duration
        commandTimeout := timeout } where
  positive := positive
  valid := ⟨rfl, rfl, rfl, by simp, .nil, .nil⟩
  closed := rfl
  command := rfl
  recorded := by simp
  seen := by simp
  spaced := .nil
  pending := fun _ => ⟨incomplete, incomplete⟩
  complete := by simp [incomplete]
  watched := by simp

theorem create_ok {duration commandTimeout : FloatValue} {configured : List (Line × Json)}
    {fresh : Collector} (created : create duration commandTimeout configured = .ok fresh) :
    duration = .finite fresh.duration ∧ commandTimeout = .finite fresh.commandTimeout ∧
      fresh.Watched := by
  unfold create at created
  split at created
  case h_2 => cases created
  case h_1 timeout =>
    split at created
    case isTrue => cases created
    case isFalse positive =>
      obtain ⟨_, _, created⟩ := bind_eq_ok.mp created
      obtain ⟨recorder, made, created⟩ := bind_eq_ok.mp created
      cases created
      unfold Recorder.create at made
      split at made
      case h_2 => cases made
      case h_1 duration =>
        split at made
        case isTrue => cases made
        case isFalse long =>
          cases made
          exact ⟨rfl, rfl, .fresh (not_le.mp positive) _ _ rfl⟩

end Collector

/-! ## The guarantee -/

structure Recorder.Complete (recorder : Recorder) (duration commandTimeout : Rat) : Prop where
  enough : 2 ≤ recorder.samples.length
  later : ∃ first last, recorder.samples.head? = some first ∧
    recorder.samples.getLast? = some last ∧ first.simTime < last.simTime ∧
    duration - commandTimeout ≤ last.elapsed
  spaced : recorder.samples.IsChain fun first second =>
    second.simTime - first.simTime ≤ commandTimeout
  accepted : recorder.recording.completed = some true
  loaded : recorder.loadTimes = .ok (recorder.samples.map Sample.elapsed)

structure Recorder.Guarantee (recorder : Recorder) (duration commandTimeout : Rat) : Prop where
  poses : (recorder.poses.map PoseRow.simTime).Pairwise (· ≤ ·)
  samples : (recorder.samples.map Sample.simTime).Pairwise (· ≤ ·)
  complete : recorder.saved.completed = true → recorder.Complete duration commandTimeout

namespace Collector

variable {collector : Collector}

theorem Consistent.guarantee (consistent : collector.Consistent) :
    collector.recorder.Guarantee collector.duration collector.commandTimeout where
  poses := List.pairwise_map.mpr consistent.valid.posed
  samples := List.pairwise_map.mpr consistent.valid.ordered
  complete := by
    intro completed
    obtain ⟨enough, start, last, started, ended, later, long⟩ := consistent.complete completed
    have valid := consistent.valid
    refine ⟨enough, ?_, consistent.spaced, Recorder.recording_completed completed enough,
      valid.loadTimes_ok enough started ended later⟩
    obtain ⟨first, head, same⟩ := Option.map_eq_some_iff.mp (valid.start.symm.trans started)
    obtain ⟨final, tail, close⟩ := Option.map_eq_some_iff.mp (valid.last.symm.trans ended)
    refine ⟨first, final, head, tail, ?_, ?_⟩
    · rw [same, close]
      exact later
    · rw [valid.elapsed_eq started final (List.mem_of_getLast? tail), close]
      exact long

/-- After any callbacks, and after `main` has ended, the recording keeps what it promises. -/
theorem recording_guaranteed {duration commandTimeout : FloatValue}
    {configured : List (Line × Json)} {fresh : Collector}
    (created : create duration commandTimeout configured = .ok fresh) (events : List Event) :
    ∃ span limit : Rat, duration = .finite span ∧ commandTimeout = .finite limit ∧
      (∀ wall linear angular, ∃ after,
        (onCommand wall linear angular).run (fresh.spinAll events) = .ok () after) ∧
      ((fresh.spinAll events).finished = true → ∀ later,
        (fresh.spinAll (events ++ later)).recorder = (fresh.spinAll events).recorder) ∧
      (∀ later, ((fresh.spinAll events).shutdown.spinAll later).recorder =
        (fresh.spinAll events).shutdown.recorder) ∧
      (fresh.spinAll events).recorder.Guarantee span limit ∧
      (fresh.spinAll events).shutdown.recorder.Guarantee span limit := by
  obtain ⟨long, patient, initial⟩ := create_ok created
  have watched := initial.spinAll events
  obtain ⟨sameDuration, sameTimeout⟩ := initial.settings events
  have stopped := watched.toConsistent.finish false (text "interrupted") (by simp)
  refine ⟨fresh.duration, fresh.commandTimeout, long, patient, ?_, ?_, ?_, ?_, ?_⟩
  · intro wall linear angular
    obtain ⟨after, ran, _⟩ := onCommand_move watched.toConsistent wall linear angular
    exact ⟨after, ran⟩
  · intro finished later
    unfold spinAll
    rw [List.foldl_append]
    exact watched.frozen finished later
  · exact stopped.frozen (finish_finished ..)
  · rw [← sameDuration, ← sameTimeout]
    exact watched.guarantee
  · have guarantee := stopped.guarantee
    rw [(finish_settings ..).1, (finish_settings ..).2, sameDuration, sameTimeout] at guarantee
    exact guarantee

def sampleEvents : List Event :=
  [.clock ⟨1, 0⟩, .scan ⟨0, 900000000⟩, .pose ⟨1, 0⟩ (.finite 0) (.finite 0),
    .command 10 (.finite 1) (.finite 0), .clock ⟨2, 0⟩, .command 11 (.finite 1) (.finite 0),
    .clock ⟨3, 0⟩]

theorem recording_guaranteed_shortest : ∃ fresh,
    create (.finite 2) (.finite 1) [] = .ok fresh ∧
      (fresh.spinAll sampleEvents).recorder.saved.completed = true ∧
      (fresh.spinAll sampleEvents).recorder.Complete 2 1 := by
  have ran : (create (.finite 2) (.finite 1) []).toOption.map (fun fresh =>
      (fresh.spinAll sampleEvents).recorder.saved.completed) = some true := by decide +kernel
  cases created : create (.finite 2) (.finite 1) [] with
  | error what =>
    rw [created] at ran
    cases ran
  | ok fresh =>
    rw [created] at ran
    have completed := Option.some.inj ran
    obtain ⟨_, _, ⟨⟩, ⟨⟩, _, _, _, guarantee, _⟩ := recording_guaranteed created sampleEvents
    exact ⟨fresh, rfl, completed, guarantee.complete completed⟩

end Collector

end Chimaera.Benchmark
