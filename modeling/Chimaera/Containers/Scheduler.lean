import Chimaera.Base.Transition
import Chimaera.Containers.Invariant
import Chimaera.Containers.Moves

/-! The scheduler over whole histories of invocations on one output directory: what `run.json`
says at the end of one is what the next resumes from. -/

namespace Chimaera.Containers
open Base.Text Base.Transition

/-- The invariant of the world: what is recorded is backed by what was observed, and the
invocation under way is coherent. -/
structure World.Valid (world : World) : Prop where
  saved : ∀ state, world.saved = some state → Evidence world state.jobs
  runner : ∀ runner, world.runner = some runner → Coherent world runner

structure Follows (world after : World) : Prop where
  exits : world.exits ⊆ after.exits
  removed : world.removed ⊆ after.removed
  begun : world.begun ≤ after.begun
  entered : world.runner = none → after.runner.isSome = true → world.begun < after.begun
  saved : ∀ state, world.saved = some state → ∃ later, after.saved = some later ∧
    later.identity = state.identity ∧ Keeps state.jobs later.jobs
  records : ∀ runner next, world.runner = some runner → after.runner = some next →
    after.begun = world.begun → next.state.identity = runner.state.identity ∧
      Keeps runner.state.jobs next.state.jobs

theorem Follows.trans {first second third : World} (earlier : Follows first second)
    (later : Follows second third) : Follows first third where
  exits := fun _ member => later.exits (earlier.exits member)
  removed := fun _ member => later.removed (earlier.removed member)
  begun := earlier.begun.trans later.begun
  entered := by
    intro idle entered
    cases between : second.runner with
    | none => exact lt_of_le_of_lt earlier.begun (later.entered between entered)
    | some _ =>
      exact lt_of_lt_of_le (earlier.entered idle (by rw [between]; rfl)) later.begun
  saved := by
    intro state found
    obtain ⟨middle, stored, same, keeps⟩ := earlier.saved state found
    obtain ⟨last, kept, still, keeping⟩ := later.saved middle stored
    exact ⟨last, kept, still.trans same, keeps.trans keeping⟩
  records := by
    intro runner next found final same
    have up := earlier.begun
    have down := later.begun
    cases between : second.runner with
    | none =>
      have entered := later.entered between (by rw [final]; rfl)
      omega
    | some middle =>
      obtain ⟨identity, keeps⟩ := earlier.records runner middle found between (by omega)
      obtain ⟨still, keeping⟩ := later.records middle next between final (by omega)
      exact ⟨still.trans identity, keeps.trans keeping⟩

theorem Follows.refl (world : World) : Follows world world where
  exits := fun _ member => member
  removed := fun _ member => member
  begun := Nat.le_refl _
  entered := by
    intro idle entered
    simp [idle] at entered
  saved state found := ⟨state, found, rfl, Keeps.refl _⟩
  records := by
    intro runner next found same _
    cases found.symm.trans same
    exact ⟨rfl, Keeps.refl _⟩

namespace World

variable {world after : World} {runner : Runner} {event : Event}

theorem Valid.save (valid : world.Valid) (busy : world.runner = some runner) :
    (world.save runner).Valid ∧ Follows world (world.save runner) := by
  have coherent := valid.runner runner busy
  constructor
  · constructor
    · rintro state saved
      cases saved
      exact coherent.evidence
    · intro other same
      cases busy.symm.trans same
      refine coherent.mono ?_ (fun _ member => member) fun _ member => member
      rintro state saved
      cases saved
      exact ⟨rfl, Keeps.refl _⟩
  · constructor
    case exits => exact List.Subset.refl _
    case removed => exact List.Subset.refl _
    case begun => exact Nat.le_refl _
    case entered => simp [busy]
    case saved =>
      intro state saved
      obtain ⟨same, keeps⟩ := coherent.agrees state saved
      exact ⟨runner.state, rfl, same.symm, keeps⟩
    case records =>
      intro first second before later _
      cases before.symm.trans later
      exact ⟨rfl, Keeps.refl _⟩

/-- A step that changes the runner and lets the world observe something. That completed
records are kept shows when the records in memory are taken for the saved ones. -/
theorem Valid.put (valid : world.Valid) (busy : world.runner = some runner)
    {seen : World} {next : Runner} (saved : seen.saved = world.saved)
    (exits : world.exits ⊆ seen.exits) (removed : world.removed ⊆ seen.removed)
    (begun : seen.begun = world.begun)
    (keep : ∀ other : World, seen.exits ⊆ other.exits → seen.removed ⊆ other.removed →
      Coherent other runner → Coherent other next) :
    (seen.put next).Valid ∧ Follows world (seen.put next) := by
  have coherent := valid.runner runner busy
  have observed : Coherent seen runner :=
    coherent.mono (by rw [saved]; exact coherent.agrees) exits removed
  have stored : Coherent { seen with saved := some runner.state } runner := by
    refine observed.mono ?_ (fun _ member => member) fun _ member => member
    rintro state found
    cases found
    exact ⟨rfl, Keeps.refl _⟩
  have after := keep seen (fun _ member => member) (fun _ member => member) observed
  constructor
  · constructor
    · intro state found
      exact (valid.saved state (saved ▸ found)).mono exits removed
    · intro other same
      cases same
      exact after.mono after.agrees (fun _ member => member) fun _ member => member
  · refine ⟨exits, removed, begun.ge, by simp [busy], ?_, ?_⟩
    · intro state found
      exact ⟨state, saved.trans found, rfl, Keeps.refl _⟩
    · intro first second before later _
      cases busy.symm.trans before
      cases later
      have next := keep { seen with saved := some runner.state } (fun _ member => member)
        (fun _ member => member) stored
      have kept := next.agrees runner.state rfl
      exact ⟨kept.1.symm, kept.2⟩

theorem Valid.unnoticed (valid : world.Valid) (saved : after.saved = world.saved)
    (exits : after.exits = world.exits) (removed : after.removed = world.removed)
    (begun : after.begun = world.begun) (same : after.runner = world.runner ∨ after.runner = none) :
    after.Valid ∧ Follows world after := by
  have runner : ∀ runner, after.runner = some runner → world.runner = some runner := by
    intro runner found
    rcases same with same | same
    · rw [← same, found]
    · rw [same] at found
      cases found
  constructor
  · constructor
    · intro state found
      exact (valid.saved state (saved ▸ found)).mono (by simp [exits]) (by simp [removed])
    · intro runner' found
      have coherent := valid.runner _ (runner _ found)
      exact coherent.mono (by rw [saved]; exact coherent.agrees) (by simp [exits]) (by simp [removed])
  · refine ⟨by simp [exits], by simp [removed], begun.ge, ?_, ?_, ?_⟩
    · intro idle entered
      rcases same with same | same <;> simp [same, idle] at entered
    · intro state found
      exact ⟨state, saved.trans found, rfl, Keeps.refl _⟩
    · intro first second before later _
      cases before.symm.trans (runner _ later)
      exact ⟨rfl, Keeps.refl _⟩

theorem Valid.moves (valid : world.Valid) (busy : world.runner = some runner) {next : Runner}
    (keep : ∀ other, Coherent other runner → Coherent other next) :
    (world.put next).Valid ∧ Follows world (world.put next) := by
  apply valid.put busy rfl (List.Subset.refl _) (List.Subset.refl _) rfl
  intro other _ _ coherent
  exact keep other coherent

theorem move_valid (valid : world.Valid) (busy : world.runner = some runner)
    (move : Move world runner event after) : after.Valid ∧ Follows world after := by
  have same : ∀ {α : Type} (list : List α), list ⊆ list := fun _ _ member => member
  have grow : ∀ {α : Type} (list : List α) (item : α), list ⊆ list ++ [item] :=
    fun _ _ _ member => List.mem_append_left _ member
  cases move with
  | refused what => exact valid.unnoticed rfl rfl rfl rfl (.inl rfl)
  | exited container => exact valid.unnoticed rfl rfl rfl rfl (.inl rfl)
  | left leaving ended saved live exits removed begun raised =>
    exact valid.unnoticed saved exits removed begun (.inr ended)
  | skipped name rest there absent =>
    exact valid.moves busy fun _ coherent => coherent.goto rfl trivial
  | checked there =>
    exact valid.moves busy fun _ coherent => coherent.goto rfl trivial
  | stopped there ending =>
    exact valid.moves busy fun _ coherent => coherent.goto rfl ending
  | polls there =>
    exact valid.moves busy fun _ coherent => coherent.goto rfl (List.Sublist.refl _)
  | runs entry rest there =>
    refine valid.moves busy fun _ coherent => coherent.goto rfl ?_
    have placed := coherent.placed
    simp only [Runner.Placed, there] at placed
    exact (List.sublist_cons_self _ _).trans placed
  | goes location free next =>
    refine valid.moves busy fun _ coherent => coherent.goto ?_ ?_
    · rcases next with rfl | rfl | rfl <;> rfl
    · rcases next with rfl | rfl | rfl <;> trivial
  | polled name container code rest there =>
    refine valid.put busy rfl (grow _ _) (same _) rfl fun _ exits _ coherent =>
      coherent.goto rfl ?_
    have placed := coherent.placed
    simp only [Runner.Placed, there] at placed
    exact ⟨placed, exits (List.mem_append_right _ (List.mem_singleton_self _))⟩
  | removed name container code rest there =>
    refine valid.put busy rfl (same _) (grow _ _) rfl fun _ _ removed coherent =>
      coherent.goto rfl ?_
    have placed := coherent.placed
    simp only [Runner.Placed, there] at placed
    exact ⟨placed.1, placed.2, removed (List.mem_append_right _ (List.mem_singleton_self _))⟩
  | caught what torn free =>
    exact valid.put busy rfl (same _) (same _) rfl fun _ _ _ coherent => coherent.caught what
  | finished name container code rest there =>
    exact valid.moves busy fun _ coherent => coherent.finish there
  | dequeued name rest there queue room =>
    exact valid.moves busy fun _ coherent => coherent.dequeue there queue room
  | prepared name container there =>
    exact valid.put busy rfl (same _) (same _) rfl fun _ _ _ coherent =>
      coherent.prepare there container
  | spawned name container created there =>
    exact valid.put busy rfl (same _) (same _) rfl fun _ _ _ coherent => coherent.spawn there
  | spawnFailed name container what there =>
    exact valid.moves busy fun _ coherent => coherent.spawnError there what
  | concluded there =>
    exact valid.moves busy fun _ coherent => coherent.conclude there
  | cleaned name container code rest there =>
    exact valid.put busy rfl (same _) (grow _ _) rfl fun _ _ _ coherent =>
      coherent.cleaned code there
  | cleanFailed entry what rest there =>
    exact valid.moves busy fun _ coherent => coherent.cleanFailed what there
  | settled there =>
    exact valid.moves busy fun _ coherent => coherent.settle there
  | saved location next =>
    obtain ⟨stored, follows⟩ := valid.save busy
    have moved : ((world.save runner).put (runner.goto location)).Valid ∧
        Follows (world.save runner) ((world.save runner).put (runner.goto location)) := by
      refine stored.moves busy fun _ coherent => ?_
      rcases next with ⟨there, rfl⟩ | ⟨rest, there, rfl⟩ | ⟨there, rfl⟩
      · exact coherent.goto rfl trivial
      · have placed := coherent.placed
        simp only [Runner.Placed, there] at placed
        exact coherent.goto rfl placed
      · exact coherent.goto rfl trivial
    exact ⟨moved.1, follows.trans moved.2⟩
  | closed there =>
    obtain ⟨stored, follows⟩ := valid.save busy
    have left : ((world.save runner).leave runner.outcome).Valid ∧
        Follows (world.save runner) ((world.save runner).leave runner.outcome) :=
      stored.unnoticed rfl rfl rfl rfl (.inr rfl)
    exact ⟨left.1, follows.trans left.2⟩
  | signalled signal handled =>
    exact valid.moves busy fun _ coherent => coherent.signalled signal

theorem Valid.enter (valid : world.Valid) (idle : world.runner = none) (identity : Identity)
    (workers : Nat) {records : Name → Record} {location : Location}
    (quiet : location.current = [])
    (placed : Runner.Placed (world.enter (.begin identity workers records location))
      (.begin identity workers records location))
    (agrees : ∀ state, world.saved = some state → state.identity = identity ∧
      Keeps state.jobs records) (evidence : Evidence world records) :
    (world.enter (.begin identity workers records location)).Valid ∧
      Follows world (world.enter (.begin identity workers records location)) := by
  constructor
  · constructor
    · intro state found
      exact valid.saved state found
    · intro runner same
      cases same
      constructor
      case queue => rfl
      case fresh => exact fun _ _ => rfl
      case started =>
        change ([] ++ location.current).Sublist []
        rw [quiet]
        exact List.Sublist.refl _
      case active => exact List.Sublist.refl _
      case room =>
        change 0 + location.current.length ≤ workers
        rw [quiet]
        exact Nat.zero_le _
      case owned => exact fun _ member => absurd member List.not_mem_nil
      case placed => exact placed
      case agrees => exact agrees
      case evidence => exact evidence
  · constructor
    case exits => exact fun _ member => member
    case removed => exact fun _ member => member
    case begun => exact Nat.le_succ _
    case entered => exact fun _ _ => Nat.lt_succ_self _
    case saved => exact fun state found => ⟨state, found, rfl, Keeps.refl _⟩
    case records =>
      intro runner next found
      rw [idle] at found
      cases found

theorem idle_valid (valid : world.Valid) (idle : world.runner = none)
    (step : Idle world event after) :
    after.Valid ∧ Follows world after := by
  cases step with
  | refused what => exact valid.unnoticed rfl rfl rfl rfl (.inl rfl)
  | exited container => exact valid.unnoticed rfl rfl rfl rfl (.inl rfl)
  | fresh identity workers empty =>
    refine valid.enter idle identity workers.toNat rfl trivial ?_ ?_
    · intro state found
      rw [empty] at found
      cases found
    · intro name completed
      cases completed
  | resumed state workers saved =>
    refine valid.enter idle state.identity workers.toNat rfl trivial ?_ ?_
    · intro other found
      cases saved.symm.trans found
      exact ⟨rfl, Keeps.refl _⟩
    · exact valid.saved state saved

theorem step_valid (valid : world.Valid) (taken : world.step event = some after) :
    after.Valid ∧ Follows world after := by
  rcases step_cases taken with ⟨runner, busy, move⟩ | ⟨idle, step⟩
  · exact move_valid valid busy move
  · exact idle_valid valid idle step

theorem valid_initial : Valid {} where
  saved _ found := by cases found
  runner _ found := by cases found

theorem run_follows {events : List Event} (valid : world.Valid)
    (ran : run step world events = some after) : after.Valid ∧ Follows world after := by
  have keep : ∀ now event next, (now.Valid ∧ Follows world now) → step now event = some next →
      next.Valid ∧ Follows world next := by
    intro now event next ⟨valid, follows⟩ taken
    obtain ⟨still, further⟩ := step_valid valid taken
    exact ⟨still, follows.trans further⟩
  exact run_preserves keep ⟨valid, Follows.refl world⟩ ran

/-! ## Safety -/

structure Orderly (runner : Runner) : Prop where
  capacity : runner.active.length ≤ runner.workers
  apart : ∀ name ∈ runner.pending, name ∉ runner.active.map Prod.fst
  once : runner.started.Nodup
  unfinished : ∀ name ∈ runner.started, (runner.initial name).status ≠ .completed

theorem orderly_of_coherent (coherent : Coherent world runner) : Orderly runner where
  capacity := (Nat.le_add_right _ _).trans coherent.room
  apart := by
    intro name pending active
    apply coherent.not_pending _ pending
    exact coherent.started_sublist.subset (coherent.active.subset active)
  once := by
    have sublist := coherent.started_sublist.trans (List.sublist_append_left _ runner.pending)
    exact sublist.nodup coherent.taken_nodup
  unfinished name started := coherent.taken_unfinished (coherent.started_sublist.subset started)

structure Bounded (world : World) (event : Event) (after : World) : Prop where
  /-- A resume has every job in its queue whose saved record is not completed. -/
  resumes : ∀ identity workers runner, event = .invoke identity workers true →
    world.runner = none → after.runner = some runner → ∃ state, world.saved = some state ∧
      state.identity = identity ∧ runner.initial = state.jobs ∧
      runner.pending = identity.jobs.filter fun name => (state.jobs name).status ≠ .completed
  /-- Whoever is not stopped by force or by an error in `finally` leaves the records behind. -/
  ends : ∀ runner, world.runner = some runner → after.runner = none →
    after.saved = some runner.state ∨ leaves runner event = true
  succeeds : after.outcomes = world.outcomes ++ [.returned 0] → ∃ runner,
    world.runner = some runner ∧ after.saved = some runner.state ∧
    ∀ name ∈ runner.state.identity.jobs, (runner.state.jobs name).status = .completed

theorem outcome_zero (returned : runner.outcome = .returned 0) :
    runner.state.status = .completed := by
  by_contra other
  simp only [Runner.outcome, if_neg other] at returned
  split_ifs at returned
  split at returned
  · cases returned
  · simp only [Outcome.returned.injEq] at returned
    split at returned
    · rename_i signal _
      cases signal <;> simp [Signal.number] at returned
    · simp at returned

theorem closed_completed (coherent : Coherent world runner)
    (there : runner.location = .closing) (returned : runner.outcome = .returned 0) :
    ∀ name ∈ runner.state.identity.jobs, (runner.state.jobs name).status = .completed := by
  have placed := coherent.placed
  simp only [Runner.Placed, there] at placed
  have all := placed (outcome_zero returned)
  simpa [Runner.allCompleted] using all

theorem move_bounded (valid : world.Valid) (busy : world.runner = some runner)
    (move : Move world runner event after) : Bounded world event after := by
  have coherent := valid.runner runner busy
  constructor
  case resumes =>
    intro identity workers next _ idle
    rw [busy] at idle
    cases idle
  case ends =>
    intro other same ended
    cases busy.symm.trans same
    cases move
    case left leaving _ _ _ _ _ _ _ => exact .inr leaving
    case closed => exact .inl rfl
    case refused => rw [refuse, busy] at ended; cases ended
    case exited => rw [gone, busy] at ended; cases ended
    all_goals cases ended
  case succeeds =>
    intro outcomes
    have unchanged : world.outcomes ≠ world.outcomes ++ [.returned 0] := by simp
    cases move
    case refused => simp [refuse] at outcomes
    case left raised => exact absurd outcomes (raised 0)
    case closed there =>
      have returned : runner.outcome = .returned 0 := by
        simpa [leave, save] using outcomes
      exact ⟨runner, busy, rfl, closed_completed coherent there returned⟩
    all_goals exact absurd outcomes unchanged

theorem idle_bounded (idle : world.runner = none) (step : Idle world event after) :
    Bounded world event after := by
  constructor
  case resumes =>
    rintro identity workers runner resuming _ entered
    cases step with
    | refused what => rw [refuse, idle] at entered; cases entered
    | exited container => rw [gone, idle] at entered; cases entered
    | fresh => cases resuming
    | resumed state _ saved =>
      cases resuming
      cases entered
      exact ⟨state, saved, rfl, rfl, rfl⟩
  case ends =>
    intro runner busy
    rw [idle] at busy
    cases busy
  case succeeds =>
    intro outcomes
    have unchanged : world.outcomes ≠ world.outcomes ++ [.returned 0] := by simp
    cases step with
    | refused what => simp [refuse] at outcomes
    | exited | fresh | resumed => exact absurd outcomes unchanged

theorem step_bounded (valid : world.Valid) (taken : world.step event = some after) :
    Bounded world event after := by
  rcases step_cases taken with ⟨runner, busy, move⟩ | ⟨idle, step⟩
  · exact move_bounded valid busy move
  · exact idle_bounded idle step

end World

/-- The scheduler in every world a history of invocations, exits, errors, signals and kills
can reach. `Follows` says that a completed record stays, in memory until the invocation ends
and in `run.json` for good. -/
theorem scheduler_safe {world : World} (reached : Reachable World.step {} world) :
    (∀ runner, world.runner = some runner →
      World.Orderly runner ∧ Evidence world runner.state.jobs) ∧
    (∀ state, world.saved = some state → Evidence world state.jobs) ∧
    (∀ events after, run World.step world events = some after → Follows world after) ∧
    ∀ event after, world.step event = some after → World.Bounded world event after := by
  obtain ⟨past, came⟩ := reached
  have valid := (World.run_follows World.valid_initial came).1
  refine ⟨?_, valid.saved, ?_, ?_⟩
  · intro runner busy
    have coherent := valid.runner runner busy
    exact ⟨World.orderly_of_coherent coherent, coherent.evidence⟩
  · intro events after ran
    exact (World.run_follows valid ran).2
  · intro event after taken
    exact World.step_bounded valid taken

/-- A job whose invocation ends by an exception, completed by the resume. -/
theorem scheduler_safe_resumed :
    ∃ world : World, world.outcomes = [.raised (text "x"), .returned 0] ∧
      ∀ state, world.saved = some state → Evidence world state.jobs := by
  let identity : Identity := ⟨[text "a"], by simp, [], []⟩
  let attempt (container : Container) : List Event :=
    [.write, .advance, .advance, .advance, .prepare container, .spawn true, .write, .advance,
      .advance, .advance, .poll (some 0)]
  let resume : List Event := [.raise (text "x") false, .clean 0, .advance, .write,
    .invoke identity 1 true, .inspect .noSuch, .advance]
  let finish : List Event := [.remove none, .advance, .write, .advance, .advance, .advance,
    .advance, .advance, .advance, .write]
  let events : List Event :=
    Event.invoke identity 1 false :: (attempt 0 ++ (resume ++ (attempt 1 ++ finish)))
  have ran : (run World.step {} events).map World.outcomes =
      some [.raised (text "x"), .returned 0] := by decide +kernel
  obtain ⟨world, came, outcomes⟩ := Option.map_eq_some_iff.mp ran
  exact ⟨world, outcomes, (scheduler_safe ⟨events, came⟩).2.1⟩

end Chimaera.Containers
