import Chimaera.Suite.Moves

/-! The invariant of the output directory and of the invocation under way. A status
`completed` is written once, last and for an attempt whose child has exited, so nothing can
change such an attempt any more. -/

namespace Chimaera.Suite
open Base.Text

def Attempt.Finished (attempt : Attempt) : Prop :=
  ∃ record, attempt.file = some (.record record) ∧ record.status = .completed

def Attempt.Running (attempt : Attempt) : Prop :=
  attempt.file = some (.record { status := .running })

theorem Attempt.Running.unfinished {attempt : Attempt} (running : attempt.Running) :
    ¬attempt.Finished := by
  rintro ⟨record, written, completed⟩
  rw [running] at written
  cases written
  cases completed

structure Returned (attempt : Attempt) (record : Record) : Prop where
  code : record.returncode = some 0
  exited : attempt.child = .exited 0
  completed : attempt.recording.completed = some true

structure Proven (gem5 : Bool) (attempt : Attempt) (record : Record) : Prop where
  returned : Returned attempt record
  summaries : gem5 = true → record.timing = .computed ∧ record.stats = .computed

structure Attempt.Sound (gem5 : Bool) (attempt : Attempt) : Prop where
  untold : attempt.file = none → attempt.child = .unborn
  unborn : attempt.child = .unborn → attempt.recording = {}
  proven : ∀ record, attempt.file = some (.record record) → record.status = .completed →
    Proven gem5 attempt record

theorem Attempt.Sound.eligible_iff {gem5 : Bool} {attempt : Attempt} (sound : attempt.Sound gem5) :
    attempt.eligible = some true ↔ attempt.Finished := by
  constructor
  · intro accepted
    unfold eligible at accepted
    split at accepted
    case h_1 completed =>
      split at accepted
      case h_1 untold =>
        -- without a status file no child was started, and nothing was recorded
        rw [sound.unborn (sound.untold untold)] at completed
        cases completed
      case h_2 => cases accepted
      case h_3 record written =>
        exact ⟨record, written, of_decide_eq_true (Option.some.inj accepted)⟩
    case h_2 => cases accepted
    case h_3 => cases accepted
  · rintro ⟨record, written, completed⟩
    have complete := (sound.proven record written completed).returned.completed
    simp only [eligible, complete, written, completed, decide_true]

namespace Location

def key : Location → Option Key
  | .preparing key _ | .launching key _ | .waiting key _ | .timing key _ _ | .stats key _ _
  | .closing key _ _ | .deciding key _ _ => some key
  | _ => none

def run : Location → Option RunId
  | .allocating run _ => some run
  | .preparing key _ | .launching key _ | .waiting key _ | .timing key _ _ | .stats key _ _
  | .closing key _ _ | .deciding key _ _ => some key.1
  | _ => none

def ahead (plan : Plan) : Location → List RunId
  | .opening => plan.runs
  | .next rest => rest
  | .allocating run rest => run :: rest
  | .preparing key rest | .launching key rest | .waiting key rest | .timing key rest _
  | .stats key rest _ | .closing key rest _ | .deciding key rest _ => key.1 :: rest
  | .ended => []

def Known (gem5 : Bool) (attempt : Attempt) : Location → Prop
  | .preparing _ _ => attempt.file = none
  | .launching _ _ | .waiting _ _ => attempt.Running
  | .timing _ _ verdict => attempt.Running ∧
      (verdict.record.status = .completed → Returned attempt verdict.record)
  | .stats _ _ verdict => attempt.Running ∧
      (verdict.record.status = .completed → Returned attempt verdict.record ∧
        verdict.record.timing = .computed)
  | .closing _ _ verdict => attempt.Running ∧
      (verdict.record.status = .completed → Proven gem5 attempt verdict.record)
  | .deciding _ _ verdict => attempt.file = some (.record verdict.record)
  | _ => True

end Location

namespace World

def Covered (world : World) (run : RunId) : Prop :=
  ∃ number attempt, world.attempts.lookup (run, number) = some attempt ∧ attempt.Finished

def gem5 (world : World) : Bool :=
  match world.suite with
  | some (.plan plan) => plan.gem5
  | _ => false

structure Filed (world : World) : Prop where
  absent : world.present = false → world.suite = none
  bare : (∀ plan, world.suite ≠ some (.plan plan)) → ∀ key, world.attempts.lookup key = none
  attempts : ∀ key attempt, world.attempts.lookup key = some attempt →
    attempt.Sound world.gem5 ∧ attempt.born ≤ world.begun

structure Placed (world : World) (runner : Invocation) : Prop where
  present : world.present = true
  opening : runner.location = .opening → world.suite = none
  suite : runner.location ≠ .opening → world.suite = some (.plan runner.plan)
  own : ∀ key, runner.location.key = some key → ∃ attempt,
    world.attempts.lookup key = some attempt ∧ attempt.born = world.begun ∧
    runner.location.Known runner.plan.gem5 attempt
  ahead : runner.failures = 0 → ∀ run ∈ runner.plan.runs,
    run ∈ runner.location.ahead runner.plan ∨ world.Covered run

structure Valid (world : World) : Prop where
  filed : world.Filed
  runner : ∀ runner, world.runner = some runner → world.Placed runner

theorem lookup_store (world : World) (key other : Key) (attempt : Attempt) :
    (world.store key attempt).attempts.lookup other =
      if other = key then some attempt else world.attempts.lookup other := by
  split_ifs with same
  · rw [same]
    exact AList.lookup_insert _
  · exact AList.lookup_insert_ne same

/-! ## Histories -/

/-- How a later world goes on from an earlier one: an attempt stays the attempt of the
invocation that made it, and a completed one stays as it is. -/
structure Follows (world after : World) : Prop where
  begun : world.begun ≤ after.begun
  kept : ∀ key attempt, world.attempts.lookup key = some attempt → ∃ later,
    after.attempts.lookup key = some later ∧ later.born = attempt.born ∧
    (attempt.Finished → later = attempt)

theorem Follows.same {world after : World} (attempts : after.attempts = world.attempts)
    (begun : world.begun ≤ after.begun) : Follows world after where
  begun := begun
  kept key attempt found := ⟨attempt, by rw [attempts, found], rfl, fun _ => rfl⟩

theorem Follows.trans {first second third : World} (earlier : Follows first second)
    (later : Follows second third) : Follows first third where
  begun := earlier.begun.trans later.begun
  kept := by
    intro key attempt found
    obtain ⟨middle, between, born, kept⟩ := earlier.kept key attempt found
    obtain ⟨last, final, still, keeping⟩ := later.kept key middle between
    refine ⟨last, final, still.trans born, fun finished => ?_⟩
    have same := kept finished
    rw [← same] at finished
    exact (keeping finished).trans same

theorem Follows.covered {world after : World} (follows : Follows world after) {run : RunId}
    (covered : world.Covered run) : after.Covered run := by
  obtain ⟨number, attempt, found, finished⟩ := covered
  obtain ⟨later, final, -, kept⟩ := follows.kept _ attempt found
  exact ⟨number, later, final, kept finished ▸ finished⟩

theorem Follows.store {world : World} {key : Key} {attempt : Attempt}
    (found : ∀ before, world.attempts.lookup key = some before →
      attempt.born = before.born ∧ ¬before.Finished) : Follows world (world.store key attempt) where
  begun := Nat.le_refl _
  kept := by
    intro other before member
    rw [lookup_store]
    split_ifs with same
    · subst same
      obtain ⟨born, unfinished⟩ := found before member
      exact ⟨attempt, rfl, born, fun finished => absurd finished unfinished⟩
    · exact ⟨before, member, rfl, fun _ => rfl⟩

section Steps

variable {world after : World} {runner : Invocation}

theorem Filed.store (filed : world.Filed) (key : Key) {attempt : Attempt} {plan : Plan}
    (suite : world.suite = some (.plan plan)) (sound : attempt.Sound world.gem5)
    (born : attempt.born ≤ world.begun) : (world.store key attempt).Filed where
  absent := filed.absent
  bare none := absurd suite (none plan)
  attempts := by
    intro other found member
    rw [lookup_store] at member
    split_ifs at member
    · cases member
      exact ⟨sound, born⟩
    · exact filed.attempts other found member

theorem Valid.put (valid : world.Valid) {next : Invocation} (placed : world.Placed next) :
    (world.put next).Valid ∧ Follows world (world.put next) := by
  refine ⟨⟨⟨valid.filed.absent, valid.filed.bare, valid.filed.attempts⟩, ?_⟩,
    .same rfl (Nat.le_refl _)⟩
  intro other found
  cases found
  exact ⟨placed.present, placed.opening, placed.suite, placed.own, placed.ahead⟩

theorem Valid.end (valid : world.Valid) (outcomes : List Outcome) :
    World.Valid { world with runner := none, outcomes := outcomes } ∧
      Follows world { world with runner := none, outcomes := outcomes } :=
  ⟨⟨⟨valid.filed.absent, valid.filed.bare, valid.filed.attempts⟩, fun _ found => by cases found⟩,
    .same rfl (Nat.le_refl _)⟩

/-- A step of the invocation to another place, with what is then known of its attempt. -/
theorem Placed.goto (placed : world.Placed runner) (past : runner.location ≠ .opening)
    {location : Location} (target : location ≠ .opening)
    (own : ∀ key, location.key = some key → ∃ attempt, world.attempts.lookup key = some attempt ∧
      attempt.born = world.begun ∧ location.Known runner.plan.gem5 attempt)
    (ahead : ∀ run ∈ runner.location.ahead runner.plan,
      run ∈ location.ahead runner.plan ∨ world.Covered run) :
    world.Placed (runner.goto location) where
  present := placed.present
  opening there := absurd there target
  suite _ := placed.suite past
  own := own
  ahead none run member := by
    rcases placed.ahead none run member with waiting | covered
    · exact ahead run waiting
    · exact .inr covered

theorem Valid.store (valid : world.Valid) (busy : world.runner = some runner)
    (past : runner.location ≠ .opening) {key : Key} {attempt : Attempt} {location : Location}
    (before : ∀ old, world.attempts.lookup key = some old →
      attempt.born = old.born ∧ ¬old.Finished)
    (sound : attempt.Sound runner.plan.gem5) (born : attempt.born = world.begun)
    (here : location.key = some key) (known : location.Known runner.plan.gem5 attempt)
    (ahead : location.ahead runner.plan = runner.location.ahead runner.plan) :
    ((world.store key attempt).put (runner.goto location)).Valid ∧
      Follows world ((world.store key attempt).put (runner.goto location)) := by
  have placed := valid.runner runner busy
  have suite := placed.suite past
  have follows : Follows world (world.store key attempt) := .store before
  have same : world.gem5 = runner.plan.gem5 := by rw [gem5, suite]
  have filed := valid.filed.store key suite (same ▸ sound) born.le
  have target : location ≠ .opening := by
    rintro rfl
    cases here
  refine ⟨⟨⟨filed.absent, filed.bare, filed.attempts⟩, ?_⟩, ⟨follows.begun, follows.kept⟩⟩
  intro other found
  cases found
  constructor
  case present => exact placed.present
  case opening => exact fun there => absurd there target
  case suite => exact fun _ => suite
  case own =>
    intro other at_
    cases here.symm.trans at_
    exact ⟨attempt, AList.lookup_insert _, born, known⟩
  case ahead =>
    intro none run member
    rcases placed.ahead none run member with waiting | covered
    · exact .inl (ahead ▸ waiting)
    · exact .inr (follows.covered covered)

theorem Valid.own (valid : world.Valid) (busy : world.runner = some runner) {key : Key}
    {attempt : Attempt} (here : runner.location.key = some key)
    (own : world.attempts.lookup key = some attempt) :
    runner.location ≠ .opening ∧ attempt.Sound runner.plan.gem5 ∧ attempt.born = world.begun ∧
      runner.location.Known runner.plan.gem5 attempt := by
  have placed := valid.runner runner busy
  have past : runner.location ≠ .opening := by
    intro opening
    rw [opening] at here
    cases here
  have sound := (valid.filed.attempts key attempt own).1
  rw [gem5, placed.suite past] at sound
  obtain ⟨other, found, born, known⟩ := placed.own key here
  cases own.symm.trans found
  exact ⟨past, sound, born, known⟩

theorem Placed.conclude (placed : world.Placed runner) {key : Key} {rest : List RunId}
    {verdict : Verdict} {attempt : Attempt} (past : runner.location ≠ .opening)
    (own : world.attempts.lookup key = some attempt) (born : attempt.born = world.begun)
    (running : attempt.Running) (ahead : runner.location.ahead runner.plan = key.1 :: rest)
    (returned : verdict.record.status = .completed → Returned attempt verdict.record) :
    world.Placed (runner.conclude key rest verdict) := by
  unfold Invocation.conclude
  apply placed.goto past
  · split_ifs <;> simp
  · intro other here
    split_ifs at here ⊢ with gem5
    · cases here
      exact ⟨attempt, own, born, running, returned⟩
    · cases here
      refine ⟨attempt, own, born, running, fun completed => ⟨returned completed, ?_⟩⟩
      intro timed
      exact absurd timed gem5
  · intro run member
    rw [ahead] at member
    left
    split_ifs <;> exact member

theorem Placed.fail (placed : world.Placed runner) (past : runner.location ≠ .opening)
    (rest : List RunId) : world.Placed (runner.fail rest) where
  present := placed.present
  opening there := by
    unfold Invocation.fail at there
    dsimp only at there
    split_ifs at there
  suite _ := placed.suite past
  own key here := by
    unfold Invocation.fail at here
    dsimp only at here
    split_ifs at here <;> cases here
  ahead none := by cases none

/-- Before `suite.json` is written there are no attempts. -/
theorem Valid.empty (valid : world.Valid) (busy : world.runner = some runner)
    (there : runner.location = .opening) : ∀ key, world.attempts.lookup key = none := by
  apply valid.filed.bare
  intro plan
  rw [(valid.runner runner busy).opening there]
  simp

theorem Valid.opened (valid : world.Valid) (busy : world.runner = some runner)
    (there : runner.location = .opening) :
    ({ world with suite := some (.plan runner.plan) }.put
        (runner.goto (.next runner.plan.runs))).Valid ∧
      Follows world ({ world with suite := some (.plan runner.plan) }.put
        (runner.goto (.next runner.plan.runs))) := by
  have present := (valid.runner runner busy).present
  refine ⟨⟨⟨?_, ?_, ?_⟩, ?_⟩, .same rfl (Nat.le_refl _)⟩
  · intro absent
    exact absurd (present.symm.trans absent) (by simp)
  · exact fun all => absurd rfl (all runner.plan)
  · intro key attempt found
    exact absurd ((valid.empty busy there key).symm.trans found) (by simp)
  · intro other found
    cases found
    constructor
    case present => exact present
    case opening => exact fun there => by cases there
    case suite => exact fun _ => rfl
    case own => exact fun key here => by cases here
    case ahead => exact fun _ run member => .inl member

theorem Valid.tornSuite (valid : world.Valid) (busy : world.runner = some runner)
    (there : runner.location = .opening) :
    World.Valid { world with runner := none, suite := some .torn } ∧
      Follows world { world with runner := none, suite := some .torn } := by
  have present := (valid.runner runner busy).present
  refine ⟨⟨⟨?_, fun _ => valid.empty busy there, ?_⟩, fun _ found => by cases found⟩,
    .same rfl (Nat.le_refl _)⟩
  · intro absent
    exact absurd (present.symm.trans absent) (by simp)
  · intro key attempt found
    exact absurd ((valid.empty busy there key).symm.trans found) (by simp)

theorem Valid.recorded (valid : world.Valid) (busy : world.runner = some runner) {key : Key}
    {rest : List RunId} {attempt : Attempt} (there : runner.location = .preparing key rest)
    (own : world.attempts.lookup key = some attempt) :
    ((world.store key { attempt with file := some (.record { status := .running }) }).put
        (runner.goto (.launching key rest))).Valid ∧
      Follows world ((world.store key
        { attempt with file := some (.record { status := .running }) }).put
          (runner.goto (.launching key rest))) := by
  obtain ⟨past, sound, born, known⟩ := valid.own busy (by rw [there]; rfl) own
  rw [there] at known
  refine valid.store busy past ?_ ⟨by simp, sound.unborn, ?_⟩ born rfl rfl (by rw [there]; rfl)
  · intro old found
    cases own.symm.trans found
    refine ⟨rfl, fun ⟨record, written, _⟩ => ?_⟩
    rw [known] at written
    cases written
  · intro record written completed
    cases written
    cases completed

theorem Valid.closed (valid : world.Valid) (busy : world.runner = some runner) {key : Key}
    {rest : List RunId} {verdict : Verdict} {attempt : Attempt}
    (there : runner.location = .closing key rest verdict)
    (own : world.attempts.lookup key = some attempt) :
    ((world.store key { attempt with file := some (.record verdict.record) }).put
        (runner.goto (.deciding key rest verdict))).Valid ∧
      Follows world ((world.store key { attempt with file := some (.record verdict.record) }).put
        (runner.goto (.deciding key rest verdict))) := by
  obtain ⟨past, sound, born, known⟩ := valid.own busy (by rw [there]; rfl) own
  rw [there] at known
  refine valid.store busy past ?_ ⟨by simp, sound.unborn, ?_⟩ born rfl rfl (by rw [there]; rfl)
  · intro old found
    cases own.symm.trans found
    exact ⟨rfl, known.1.unfinished⟩
  · intro record written completed
    cases written
    obtain ⟨returned, summaries⟩ := known.2 completed
    exact ⟨⟨returned.code, returned.exited, returned.completed⟩, summaries⟩

theorem Valid.launched (valid : world.Valid) (busy : world.runner = some runner) {key : Key}
    {rest : List RunId} {attempt : Attempt} (there : runner.location = .launching key rest)
    (own : world.attempts.lookup key = some attempt) :
    ((world.store key { attempt with child := .alive }).put
        (runner.goto (.waiting key rest))).Valid ∧
      Follows world ((world.store key { attempt with child := .alive }).put
        (runner.goto (.waiting key rest))) := by
  obtain ⟨past, sound, born, known⟩ := valid.own busy (by rw [there]; rfl) own
  rw [there] at known
  have running : attempt.Running := known
  refine valid.store busy past ?_ ⟨?_, by simp, ?_⟩ born rfl running (by rw [there]; rfl)
  · intro old found
    cases own.symm.trans found
    exact ⟨rfl, running.unfinished⟩
  · intro untold
    rw [running] at untold
    cases untold
  · intro record written completed
    exact absurd ⟨record, written, completed⟩ running.unfinished

theorem Valid.tornFile (valid : world.Valid) (busy : world.runner = some runner) {key : Key}
    {rest : List RunId} {attempt : Attempt}
    (there : runner.location = .preparing key rest ∨
      ∃ verdict, runner.location = .closing key rest verdict)
    (own : world.attempts.lookup key = some attempt) :
    (({ world with runner := none } : World).store key
        { attempt with file := some .torn }).Valid ∧
      Follows world (({ world with runner := none } : World).store key
        { attempt with file := some .torn }) := by
  have here : runner.location.key = some key := by
    rcases there with there | ⟨verdict, there⟩ <;> rw [there] <;> rfl
  obtain ⟨past, sound, born, known⟩ := valid.own busy here own
  have unfinished : ¬attempt.Finished := by
    rcases there with there | ⟨verdict, there⟩
    · rw [there] at known
      rintro ⟨record, written, -⟩
      rw [known] at written
      cases written
    · rw [there] at known
      exact known.1.unfinished
  have suite := (valid.runner runner busy).suite past
  have torn : ({ attempt with file := some .torn } : Attempt).Sound world.gem5 := by
    rw [gem5, suite]
    exact ⟨by simp, sound.unborn, by simp⟩
  have filed := valid.filed.store key suite torn born.le
  have follows : Follows world (world.store key { attempt with file := some .torn }) := by
    apply Follows.store
    intro old found
    cases own.symm.trans found
    exact ⟨rfl, unfinished⟩
  exact ⟨⟨⟨filed.absent, filed.bare, filed.attempts⟩, fun _ found => by cases found⟩,
    ⟨follows.begun, follows.kept⟩⟩

theorem Valid.allocated (valid : world.Valid) (busy : world.runner = some runner) {run : RunId}
    {rest : List RunId} {number : Nat} (there : runner.location = .allocating run rest)
    (free : world.attempts.lookup (run, number) = none) :
    ((world.store (run, number) { born := world.begun }).put
        (runner.goto (.preparing (run, number) rest))).Valid ∧
      Follows world ((world.store (run, number) { born := world.begun }).put
        (runner.goto (.preparing (run, number) rest))) := by
  have past : runner.location ≠ .opening := by rw [there]; simp
  refine valid.store busy past ?_ ⟨fun _ => rfl, fun _ => rfl, by simp⟩ rfl rfl rfl
    (by rw [there]; rfl)
  intro old found
  rw [free] at found
  cases found

theorem mem_found {run : RunId} {attempt : Attempt} :
    attempt ∈ world.found run ↔ ∃ number, world.attempts.lookup (run, number) = some attempt := by
  simp only [found, List.mem_map, List.mem_filter, decide_eq_true_eq]
  constructor
  · rintro ⟨⟨⟨_, number⟩, _⟩, ⟨member, rfl⟩, rfl⟩
    exact ⟨number, AList.mem_lookup_iff.mpr member⟩
  · rintro ⟨number, member⟩
    exact ⟨⟨(run, number), attempt⟩, ⟨AList.mem_lookup_iff.mp member, rfl⟩, rfl⟩

theorem Valid.eligible_iff (valid : world.Valid) {key : Key} {attempt : Attempt}
    (found : world.attempts.lookup key = some attempt) :
    attempt.eligible = some true ↔ attempt.Finished :=
  (valid.filed.attempts key attempt found).1.eligible_iff

theorem downgrade_completed {record : Record} {failure : Option Line}
    (completed : (record.downgrade failure).status = .completed) :
    failure = none ∧ record.status = .completed := by
  unfold Record.downgrade at completed
  dsimp only at completed
  split_ifs at completed with failed
  refine ⟨?_, completed⟩
  cases failure with
  | none => rfl
  | some what => exact absurd ⟨rfl, completed⟩ failed

theorem move_placed (valid : world.Valid) (busy : world.runner = some runner)
    (move : Move world runner after) :
    (∃ next, after = world.put next ∧ world.Placed next) ∨ after.Valid ∧ Follows world after := by
  have placed := valid.runner runner busy
  cases move with
  | recorded key rest attempt there own => exact .inr (valid.recorded busy there own)
  | closed key rest verdict attempt there own => exact .inr (valid.closed busy there own)
  | tornFile key rest attempt there own => exact .inr (valid.tornFile busy there own)
  | allocated run rest number there free => exact .inr (valid.allocated busy there free)
  | launched key rest attempt there own => exact .inr (valid.launched busy there own)
  | stopped => exact .inr (valid.end world.outcomes)
  | interrupted => exact .inr (valid.end _)
  | left failures there counted => exact .inr (valid.end _)
  | opened there => exact .inr (valid.opened busy there)
  | tornSuite there => exact .inr (valid.tornSuite busy there)
  | skipped run rest there attempt found eligible =>
    refine .inl ⟨_, rfl, placed.goto (by rw [there]; simp) (by simp) (fun _ here => by cases here) ?_⟩
    rw [there]
    intro other member
    rcases List.mem_cons.mp member with rfl | member
    · obtain ⟨number, own⟩ := mem_found.mp found
      exact .inr ⟨number, attempt, own, (valid.eligible_iff own).mp eligible⟩
    · exact .inl member
  | retried run rest there none =>
    refine .inl ⟨_, rfl, placed.goto (by rw [there]; simp) (by simp) (fun _ here => by cases here) ?_⟩
    rw [there]
    exact fun _ member => .inl member
  | waited key rest attempt code good there own exited checked =>
    obtain ⟨past, -, born, known⟩ := valid.own busy (by rw [there]; rfl) own
    rw [there] at known
    refine .inl ⟨_, rfl, placed.conclude past own born known (by rw [there]; rfl) ?_⟩
    intro completed
    cases good with
    | false => cases completed
    | true =>
      unfold Attempt.succeeded at checked
      split_ifs at checked with zero
      · subst zero
        exact ⟨rfl, exited, checked⟩
      · cases checked
  | caught key rest verdict there unfinished =>
    have here : runner.location.key = some key ∧
        runner.location.ahead runner.plan = key.1 :: rest := by
      rcases there with there | there <;> rw [there] <;> exact ⟨rfl, rfl⟩
    obtain ⟨attempt, own, -⟩ := placed.own key here.1
    obtain ⟨past, -, born, known⟩ := valid.own busy here.1 own
    have running : attempt.Running := by
      rcases there with there | there <;> rw [there] at known <;> exact known
    refine .inl ⟨_, rfl, placed.conclude past own born running here.2 ?_⟩
    exact fun completed => absurd completed unfinished
  | timed key rest verdict failure there =>
    obtain ⟨attempt, own, born, known⟩ := placed.own key (by rw [there]; rfl)
    rw [there] at known
    refine .inl ⟨_, rfl, placed.goto (by rw [there]; simp) (by simp) ?_ ?_⟩
    · intro other here
      cases here
      refine ⟨attempt, own, born, known.1, fun completed => ?_⟩
      obtain ⟨rfl, before⟩ := downgrade_completed completed
      obtain ⟨code, exited, complete⟩ := known.2 before
      exact ⟨⟨code, exited, complete⟩, rfl⟩
    · rw [there]
      exact fun _ member => .inl member
  | counted key rest verdict failure there =>
    obtain ⟨attempt, own, born, known⟩ := placed.own key (by rw [there]; rfl)
    rw [there] at known
    refine .inl ⟨_, rfl, placed.goto (by rw [there]; simp) (by simp) ?_ ?_⟩
    · intro other here
      cases here
      refine ⟨attempt, own, born, known.1, fun completed => ?_⟩
      obtain ⟨rfl, before⟩ := downgrade_completed completed
      obtain ⟨⟨code, exited, complete⟩, timed⟩ := known.2 before
      exact ⟨⟨code, exited, complete⟩, fun _ => ⟨timed, rfl⟩⟩
    · rw [there]
      exact fun _ member => .inl member
  | finished there =>
    refine .inl ⟨_, rfl, placed.goto (by rw [there]; simp) (by simp) (fun _ here => by cases here) ?_⟩
    rw [there]
    exact fun _ member => absurd member List.not_mem_nil
  | succeeded key rest verdict there completed =>
    obtain ⟨attempt, own, -, known⟩ := placed.own key (by rw [there]; rfl)
    rw [there] at known
    refine .inl ⟨_, rfl, placed.goto (by rw [there]; simp) (by simp) (fun _ here => by cases here) ?_⟩
    rw [there]
    intro run member
    rcases List.mem_cons.mp member with rfl | member
    · exact .inr ⟨key.2, attempt, own, verdict.record, known, completed⟩
    · exact .inl member
  | failed key rest verdict there =>
    exact .inl ⟨_, rfl, placed.fail (by rw [there]; simp) rest⟩

theorem move_valid (valid : world.Valid) (busy : world.runner = some runner)
    (move : Move world runner after) : after.Valid ∧ Follows world after := by
  rcases move_placed valid busy move with ⟨next, rfl, placed⟩ | done
  · exact valid.put placed
  · exact done

theorem known_child {gem5 : Bool} {attempt later : Attempt} {location : Location}
    (known : location.Known gem5 attempt) (alive : attempt.child = .alive)
    (file : later.file = attempt.file) : location.Known gem5 later := by
  have living : ∀ record, ¬Returned attempt record := by
    intro record returned
    rw [returned.exited] at alive
    cases alive
  cases location with
  | opening | next | allocating | ended => trivial
  | preparing | deciding => exact file.trans known
  | launching | waiting => exact file.trans known
  | timing key rest verdict =>
    exact ⟨file.trans known.1, fun completed => absurd (known.2 completed) (living _)⟩
  | stats key rest verdict =>
    exact ⟨file.trans known.1, fun completed => absurd (known.2 completed).1 (living _)⟩
  | closing key rest verdict =>
    exact ⟨file.trans known.1, fun completed => absurd (known.2 completed).returned (living _)⟩

/-- A living child changes its recording or exits; its attempt is not completed. -/
theorem Valid.child (valid : world.Valid) {key : Key} {attempt later : Attempt}
    (own : world.attempts.lookup key = some attempt) (alive : attempt.child = .alive)
    (file : later.file = attempt.file) (born : later.born = attempt.born)
    (child : later.child ≠ .unborn) :
    (world.store key later).Valid ∧ Follows world (world.store key later) := by
  obtain ⟨sound, old⟩ := valid.filed.attempts key attempt own
  have unfinished : ¬attempt.Finished := by
    rintro ⟨record, written, completed⟩
    have exited := (sound.proven record written completed).returned.exited
    rw [alive] at exited
    cases exited
  have follows : Follows world (world.store key later) := by
    apply Follows.store
    intro before found
    cases own.symm.trans found
    exact ⟨born, unfinished⟩
  have fresh : later.Sound world.gem5 := by
    constructor
    · intro untold
      rw [file] at untold
      have unborn := sound.untold untold
      rw [alive] at unborn
      cases unborn
    · exact fun unborn => absurd unborn child
    · intro record written completed
      rw [file] at written
      exact absurd ⟨record, written, completed⟩ unfinished
  have planned : ∃ plan, world.suite = some (.plan plan) := by
    by_contra none
    have absent := valid.filed.bare (fun plan same => none ⟨plan, same⟩) key
    exact absurd (absent.symm.trans own) (by simp)
  obtain ⟨plan, suite⟩ := planned
  refine ⟨⟨valid.filed.store key suite fresh (born ▸ old), ?_⟩, follows⟩
  intro runner busy
  have placed := valid.runner runner busy
  refine ⟨placed.present, placed.opening, placed.suite, ?_, ?_⟩
  · intro other here
    obtain ⟨mine, found, began, known⟩ := placed.own other here
    rw [lookup_store]
    split_ifs with same
    · subst same
      cases own.symm.trans found
      exact ⟨later, rfl, born.trans began, known_child known alive file⟩
    · exact ⟨mine, found, began, known⟩
  · intro none run member
    rcases placed.ahead none run member with waiting | covered
    · exact .inl waiting
    · exact .inr (follows.covered covered)

theorem Valid.enter (valid : world.Valid) (plan : Plan) (keepGoing collectOnly : Bool)
    {location : Location} (opening : location = .opening → world.suite = none)
    (suite : location ≠ .opening → world.suite = some (.plan plan)) (outside : location.key = none)
    (ahead : location.ahead plan = plan.runs) :
    (world.enter plan keepGoing collectOnly location).Valid ∧
      Follows world (world.enter plan keepGoing collectOnly location) := by
  refine ⟨⟨⟨?_, valid.filed.bare, ?_⟩, ?_⟩, .same rfl (Nat.le_succ _)⟩
  · exact fun absent => by cases absent
  · intro key attempt found
    obtain ⟨sound, born⟩ := valid.filed.attempts key attempt found
    exact ⟨sound, Nat.le_succ_of_le born⟩
  · intro runner found
    cases found
    refine ⟨rfl, opening, suite, ?_, fun _ run member => .inl (ahead ▸ member)⟩
    intro key here
    rw [outside] at here
    cases here

theorem idle_valid (valid : world.Valid) (idle : Idle world after) :
    after.Valid ∧ Follows world after := by
  cases idle with
  | refused what => exact valid.end _
  | fresh plan keepGoing collectOnly absent =>
    exact valid.enter plan keepGoing collectOnly (fun _ => valid.filed.absent absent)
      (fun past => absurd rfl past) rfl rfl
  | resumed plan keepGoing collectOnly saved =>
    exact valid.enter plan keepGoing collectOnly (fun there => by cases there) (fun _ => saved)
      rfl rfl

theorem step_valid {event : Event} (valid : world.Valid)
    (taken : world.step event = some after) : after.Valid ∧ Follows world after := by
  rcases step_cases taken with ⟨-, child⟩ | ⟨-, ⟨runner, busy, move⟩ | ⟨-, idle⟩⟩
  · cases child with
    | wrote key attempt recording own alive => 
      exact valid.child own alive rfl rfl (by rw [alive]; simp)
    | exited key attempt code own alive => exact valid.child own alive rfl rfl (by simp)
  · exact move_valid valid busy move
  · exact idle_valid valid idle

theorem valid_initial : Valid {} where
  filed := ⟨fun _ => rfl, fun _ _ => rfl, fun _ _ found => by cases found⟩
  runner _ found := by cases found

end Steps

end World

end Chimaera.Suite
