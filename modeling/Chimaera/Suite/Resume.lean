import Mathlib.Data.List.Perm.Subperm
import Chimaera.Base.Transition
import Chimaera.Suite.Invariant

/-! What a suite keeps to over any number of invocations: old attempts are left alone, a run
with an eligible attempt is not launched again, and a status `completed` means what it says. -/

namespace Chimaera.Suite
open Base.Text Base.Transition

/-! ## Attempt numbers -/

theorem firstFree_taken (taken : Nat → Bool) {fuel start : Nat}
    (occupied : taken (firstFree taken fuel start) = true) :
    ∀ number ∈ List.range' start (fuel + 1), taken number = true := by
  induction fuel generalizing start with
  | zero =>
    intro number member
    rw [List.range'_one, List.mem_singleton] at member
    rw [member]
    exact occupied
  | succ fuel ih =>
    intro number member
    unfold firstFree at occupied
    split_ifs at occupied with first
    · rw [List.range'_succ] at member
      rcases List.mem_cons.mp member with rfl | member
      · exact first
      · exact ih occupied number member
    · exact absurd occupied first

/-- The loop stops at a number that is free: it tries one more than there are directories. -/
theorem World.firstAttempt_free (world : World) (run : RunId) :
    world.attempts.lookup (run, world.firstAttempt run) = none := by
  rw [← Option.not_isSome_iff_eq_none]
  intro occupied
  have all := firstFree_taken (fun number => (world.attempts.lookup (run, number)).isSome) occupied
  have subset : List.range' 1 (world.attempts.entries.length + 1) ⊆
      world.attempts.entries.map fun entry => entry.1.2 := by
    intro number member
    obtain ⟨attempt, found⟩ := Option.isSome_iff_exists.mp (all number member)
    exact List.mem_map.mpr ⟨_, AList.mem_lookup_iff.mp found, rfl⟩
  have short := (List.subperm_of_subset List.nodup_range' subset).length_le
  rw [List.length_range', List.length_map] at short
  omega

namespace World

variable {world after : World} {event : Event}

theorem allocate_makes {runner : Invocation} {id : RunId} {rest : List RunId}
    (there : runner.location = .allocating id rest) :
    world.allocate runner = some
      ((world.store (id, world.firstAttempt id) { born := world.begun }).put
        (runner.goto (.preparing (id, world.firstAttempt id) rest))) := by
  simp only [allocate, there, firstAttempt_free, Option.isSome_none, Bool.false_eq_true, if_false]

/-! ## Steps -/

theorem move_untouched {runner : Invocation} (valid : world.Valid)
    (busy : world.runner = some runner) (move : Move world runner after) {key : Key}
    {attempt : Attempt} (found : world.attempts.lookup key = some attempt)
    (old : attempt.born < world.begun) : after.attempts.lookup key = some attempt := by
  have foreign : ∀ own mine later, world.attempts.lookup own = some mine →
      runner.location.key = some own →
      (world.store own later).attempts.lookup key = some attempt := by
    intro own mine later member here
    rw [lookup_store, if_neg ?_]
    · exact found
    · rintro rfl
      cases found.symm.trans member
      have born := (valid.own busy here member).2.2.1
      omega
  cases move with
  | recorded own rest mine there member => exact foreign own mine _ member (by rw [there]; rfl)
  | closed own rest verdict mine there member =>
    exact foreign own mine _ member (by rw [there]; rfl)
  | launched own rest mine there member => exact foreign own mine _ member (by rw [there]; rfl)
  | tornFile own rest mine there member =>
    apply foreign own mine _ member
    rcases there with there | ⟨verdict, there⟩ <;> rw [there] <;> rfl
  | allocated run rest number there free =>
    have other : key ≠ (run, number) := by
      rintro rfl
      exact absurd (free.symm.trans found) (by simp)
    exact (lookup_store world (run, number) key _).trans (by rw [if_neg other, found])
  | _ => exact found

/-- A step by the runner leaves the attempts alone that its invocation found. -/
theorem step_untouched (valid : world.Valid) (taken : world.step event = some after)
    (ours : event.byChild = false) {key : Key} {attempt : Attempt}
    (found : world.attempts.lookup key = some attempt)
    (old : world.runner = none ∨ attempt.born < world.begun) :
    after.attempts.lookup key = some attempt := by
  rcases step_cases taken with ⟨child, -⟩ | ⟨-, ⟨runner, busy, move⟩ | ⟨-, idle⟩⟩
  · rw [ours] at child
    cases child
  · apply move_untouched valid busy move found
    rcases old with none | old
    · rw [busy] at none
      cases none
    · exact old
  · cases idle <;> exact found

theorem conclude_run (runner : Invocation) (key : Key) (rest : List RunId) (verdict : Verdict) :
    (runner.conclude key rest verdict).location.run = some key.1 := by
  unfold Invocation.conclude
  split_ifs <;> rfl

theorem move_run {runner next : Invocation} {run : RunId} (move : Move world runner after)
    (busy : after.runner = some next) (attempted : next.location.run = some run) :
    runner.location.run = some run ∨
      ∀ attempt ∈ world.found run, attempt.eligible = some false := by
  cases move with
  | retried other rest there none =>
    cases busy
    cases attempted
    exact .inr none
  | recorded _ _ _ there | closed _ _ _ _ there | allocated _ _ _ there | launched _ _ _ there
  | timed _ _ _ _ there | counted _ _ _ _ there =>
    cases busy
    rw [there]
    exact .inl attempted
  | waited key rest attempt code good there =>
    cases busy
    rw [conclude_run] at attempted
    rw [there]
    exact .inl attempted
  | caught key rest verdict there =>
    cases busy
    rw [conclude_run] at attempted
    rcases there with there | there <;> rw [there] <;> exact .inl attempted
  | failed key rest verdict there =>
    cases busy
    unfold Invocation.fail at attempted
    dsimp only at attempted
    split_ifs at attempted <;> cases attempted
  | opened there | skipped run rest there | finished there | succeeded _ _ _ there =>
    cases busy
    cases attempted
  | stopped | tornSuite | tornFile | interrupted | left => cases busy

theorem step_run {run : RunId} {next : Invocation} (taken : world.step event = some after)
    (busy : after.runner = some next) (attempted : next.location.run = some run) :
    (∃ runner, world.runner = some runner ∧ runner.location.run = some run ∧
        after.begun = world.begun) ∨
      ∀ attempt ∈ world.found run, attempt.eligible = some false := by
  rcases step_cases taken with ⟨-, child⟩ | ⟨-, ⟨runner, here, move⟩ | ⟨-, idle⟩⟩
  · left
    cases child <;> exact ⟨next, busy, attempted, rfl⟩
  · rcases move_run move busy attempted with before | none
    · have begun : after.begun = world.begun := by cases move <;> rfl
      exact .inl ⟨runner, here, before, begun⟩
    · exact .inr none
  · cases idle with
    | refused what => cases busy
    | fresh | resumed =>
      cases busy
      cases attempted

def Spared (world : World) (run : RunId) (after : World) : Prop :=
  world.begun < after.begun → ∀ runner, after.runner = some runner → runner.location.run ≠ some run

theorem step_spared {now : World} {run : RunId} (valid : now.Valid) (covered : now.Covered run)
    (spared : Spared world run now)
    (taken : now.step event = some after) : Spared world run after := by
  intro later runner busy attempted
  rcases step_run taken busy attempted with ⟨before, here, attempting, same⟩ | none
  · exact spared (same ▸ later) before here attempting
  · obtain ⟨number, attempt, found, finished⟩ := covered
    have eligible := (valid.eligible_iff found).mpr finished
    rw [none attempt (mem_found.mpr ⟨number, found⟩)] at eligible
    cases eligible

theorem run_follows {events : List Event} (valid : world.Valid)
    (ran : run step world events = some after) :
    after.Valid ∧ Follows world after ∧ ∀ run, world.Covered run → Spared world run after := by
  have keep : ∀ now event next,
      (now.Valid ∧ Follows world now ∧ ∀ run, world.Covered run → Spared world run now) →
      step now event = some next →
      next.Valid ∧ Follows world next ∧ ∀ run, world.Covered run → Spared world run next := by
    intro now event next ⟨valid, follows, spared⟩ taken
    obtain ⟨still, further⟩ := step_valid valid taken
    refine ⟨still, follows.trans further, fun run covered => ?_⟩
    exact step_spared valid (follows.covered covered) (spared run covered) taken
  refine run_preserves keep ⟨valid, .same rfl (Nat.le_refl _), fun _ _ later => ?_⟩ ran
  exact absurd later (Nat.lt_irrefl _)

/-- An invocation that returns 0 has seen or made an eligible attempt of every run. -/
theorem step_returned (valid : world.Valid) (taken : world.step event = some after)
    (returned : after.outcomes = world.outcomes ++ [.returned 0]) :
    ∃ runner, world.runner = some runner ∧ ∀ run ∈ runner.plan.runs, ∃ number attempt,
      after.attempts.lookup (run, number) = some attempt ∧ attempt.eligible = some true := by
  have unchanged : world.outcomes ≠ world.outcomes ++ [.returned 0] := by simp
  rcases step_cases taken with ⟨-, child⟩ | ⟨-, ⟨runner, busy, move⟩ | ⟨-, idle⟩⟩
  · cases child <;> exact absurd returned unchanged
  · refine ⟨runner, busy, ?_⟩
    cases move with
    | left failures there counted =>
      have zero : runner.failures = 0 := by
        simp only [leave, exitCode, List.append_cancel_left_eq, List.cons.injEq,
          Outcome.returned.injEq, and_true] at returned
        split_ifs at returned with none
        · omega
        · cases returned
      intro run member
      rcases (valid.runner runner busy).ahead zero run member with waiting | covered
      · rw [there] at waiting
        exact absurd waiting List.not_mem_nil
      · obtain ⟨number, attempt, found, finished⟩ := covered
        exact ⟨number, attempt, found, (valid.eligible_iff found).mpr finished⟩
    | interrupted => simp [leave] at returned
    | _ => exact absurd returned unchanged
  · cases idle with
    | refused what => simp [leave] at returned
    | fresh | resumed => exact absurd returned unchanged

end World

/-- The suite in every world a history of invocations, children and kills can reach. -/
theorem suite_resume_safe {world : World} (reached : Reachable World.step {} world) :
    (∀ key attempt record, world.attempts.lookup key = some attempt →
      attempt.file = some (.record record) → record.status = .completed →
      Proven world.gem5 attempt record) ∧
    (∀ event after, world.step event = some after → event.byChild = false →
      ∀ key attempt, world.attempts.lookup key = some attempt →
      (world.runner = none ∨ attempt.born < world.begun) →
      after.attempts.lookup key = some attempt) ∧
    (∀ events after, run World.step world events = some after →
      ∀ id number attempt, world.attempts.lookup (id, number) = some attempt →
      attempt.eligible = some true →
      after.attempts.lookup (id, number) = some attempt ∧
        (world.begun < after.begun → ∀ runner, after.runner = some runner →
          runner.location.run ≠ some id)) ∧
    ∀ event after, world.step event = some after →
      after.outcomes = world.outcomes ++ [.returned 0] → ∃ runner, world.runner = some runner ∧
      ∀ id ∈ runner.plan.runs, ∃ number attempt,
        after.attempts.lookup (id, number) = some attempt ∧ attempt.eligible = some true := by
  obtain ⟨past, came⟩ := reached
  have valid := (World.run_follows World.valid_initial came).1
  refine ⟨?_, ?_, ?_, ?_⟩
  · intro key attempt record found written completed
    exact (valid.filed.attempts key attempt found).1.proven record written completed
  · intro event after taken ours key attempt found old
    exact World.step_untouched valid taken ours found old
  · intro events after ran id number attempt found eligible
    have finished := (valid.eligible_iff found).mp eligible
    obtain ⟨-, follows, spared⟩ := World.run_follows valid ran
    obtain ⟨later, final, -, kept⟩ := follows.kept _ attempt found
    exact ⟨kept finished ▸ final, spared id ⟨number, attempt, found, finished⟩⟩
  · intro event after taken returned
    exact World.step_returned valid taken returned

/-- The runner is killed while its child runs; the resume makes a second attempt. -/
theorem suite_resume_safe_killed :
    ∃ (world : World) (attempt : Attempt) (record : Record),
      world.outcomes = [.returned 0] ∧
      world.attempts.lookup (text "a", 2) = some attempt ∧
      attempt.file = some (.record record) ∧ Proven world.gem5 attempt record := by
  let plan : Plan := ⟨[text "a"], true, []⟩
  let recording : Recording :=
    { metadata := some (.object [(text "schema_version", .int 3), (text "completed", .bool true)])
      poses := true
      samples := .lines 3 }
  let attempt : List Event := [.retry, .allocate, .write, .launch]
  let killed : List Event := [.stop false, .invoke plan true false true]
  let finish : List Event := [.childWrites (text "a", 2) recording, .childExits (text "a", 2) 0,
    .wait, .summarize none, .summarize none, .write, .advance, .advance, .advance]
  let events : List Event := Event.invoke plan false false true ::
    (Event.write :: (attempt ++ (killed ++ (attempt ++ finish))))
  let record : Record :=
    { status := .completed, returncode := some 0, timing := .computed, stats := .computed }
  have ran : (run World.step {} events).map (fun world =>
      (world.outcomes, (world.attempts.lookup (text "a", 2)).map Attempt.file)) =
      some ([.returned 0], some (some (.record record))) := by decide +kernel
  obtain ⟨world, came, seen⟩ := Option.map_eq_some_iff.mp ran
  obtain ⟨outcomes, file⟩ := Prod.mk.inj seen
  obtain ⟨attempt, found, written⟩ := Option.map_eq_some_iff.mp file
  exact ⟨world, attempt, record, outcomes, found, written,
    (suite_resume_safe ⟨events, came⟩).1 _ attempt record found written rfl⟩

end Chimaera.Suite
