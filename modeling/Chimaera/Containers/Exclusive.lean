import Mathlib.Data.List.Nodup
import Chimaera.Containers.Scheduler

/-! Who may write to the results of a job. A resume trusts `run.json` to name every container
that may still be alive. It does, unless the runner is stopped between `docker run` and the
`save` behind it. -/

namespace Chimaera.Containers
open Base.Text Base.Transition

/-- `run.json` names the container for its job, so that a resume looks for it. -/
def Named (saved : Option RunState) (entry : Container × Name) : Prop :=
  ∃ state, saved = some state ∧ entry.2 ∈ state.identity.jobs ∧
    (state.jobs entry.2).suspect = some entry.1

def Runner.Owns (saved : Option RunState) (runner : Runner) (entry : Container × Name) : Prop :=
  match runner.location with
  | .inspecting rest => Named saved entry ∧ entry.2 ∈ rest ∧
      (runner.state.jobs entry.2).suspect = some entry.1
  | .removed _ container _ _ => (entry.2, entry.1) ∈ runner.active ∧ entry.1 ≠ container
  | _ => (entry.2, entry.1) ∈ runner.active

def Location.inspected : Location → Bool
  | .inspecting _ => false
  | _ => true

def Location.plain : Location → Bool
  | .inspecting _ | .removed .. => false
  | _ => true

theorem Location.inspected_of_guarded {location : Location} (guarded : location.guarded = true) :
    location.inspected = true := by
  cases location <;> first | rfl | cases guarded

theorem Runner.Owns.active {saved : Option RunState} {runner : Runner} {entry : Container × Name}
    (owns : runner.Owns saved entry) (inspected : runner.location.inspected = true) :
    (entry.2, entry.1) ∈ runner.active := by
  unfold Owns at owns
  split at owns
  · rename_i there
    rw [there] at inspected
    cases inspected
  · exact owns.1
  · exact owns

theorem Runner.owns_of_active {runner : Runner} {entry : Container × Name}
    (plain : runner.location.plain = true) (member : (entry.2, entry.1) ∈ runner.active)
    (saved : Option RunState) : runner.Owns saved entry := by
  unfold Owns
  split
  · rename_i there
    rw [there] at plain
    cases plain
  · rename_i there
    rw [there] at plain
    cases plain
  · exact member

structure World.Owned (world : World) : Prop where
  single : (world.live.map Prod.snd).Nodup
  idle : world.runner = none → ∀ entry ∈ world.live, Named world.saved entry
  busy : ∀ runner, world.runner = some runner → ∀ entry ∈ world.live,
    runner.Owns world.saved entry

/-- If this event ends the invocation before its last `save`, then `run.json` already names
the container of every active job. -/
def Prompt (world : World) (event : Event) : Prop :=
  ∀ runner ∈ world.runner, World.leaves runner event = true → ∀ entry ∈ runner.active,
    ∃ state ∈ world.saved, (state.jobs entry.1).suspect = some entry.2

instance (world : World) (event : Event) : Decidable (Prompt world event) :=
  inferInstanceAs (Decidable (∀ runner ∈ world.runner, _))

namespace World

variable {world after : World} {runner : Runner} {event : Event}

theorem Owned.put (owned : world.Owned) (busy : world.runner = some runner) {seen : World}
    {next : Runner} (live : seen.live.Sublist world.live)
    (inspected : runner.location.inspected = true) (plain : next.location.plain = true)
    (active : next.active = runner.active) : (seen.put next).Owned where
  single := (live.map Prod.snd).nodup owned.single
  idle none := by cases none
  busy := by
    intro other same entry member
    cases same
    apply Runner.owns_of_active plain
    rw [active]
    exact (owned.busy runner busy entry (live.subset member)).active inspected

theorem Owned.filter (owned : world.Owned) (container : Container) :
    (world.gone container).Owned where
  single := (List.filter_sublist.map Prod.snd).nodup owned.single
  idle none entry member := owned.idle none entry (List.mem_filter.mp member).1
  busy runner found entry member := owned.busy runner found entry (List.mem_filter.mp member).1

theorem named_of_active (coherent : Coherent world runner) {state : RunState}
    (same : state.identity = runner.state.identity) {entry : Container × Name}
    (member : (entry.2, entry.1) ∈ runner.active)
    (suspect : (state.jobs entry.2).suspect = some entry.1) : Named (some state) entry := by
  refine ⟨state, rfl, ?_, suspect⟩
  have taken := List.mem_append_left runner.pending (coherent.active_taken member)
  rw [coherent.queue, Runner.unfinished] at taken
  rw [same]
  exact (List.mem_filter.mp taken).1

/-- An invocation that ends without a last `save` leaves containers that `run.json` names. -/
theorem Owned.left (owned : world.Owned) (valid : world.Valid) (busy : world.runner = some runner)
    (leaving : leaves runner event = true) (prompt : Prompt world event) :
    ∀ entry ∈ world.live, Named world.saved entry := by
  intro entry member
  have owns := owned.busy runner busy entry member
  have coherent := valid.runner runner busy
  by_cases inspected : runner.location.inspected = true
  · have active := owns.active inspected
    obtain ⟨state, saved, suspect⟩ := prompt runner busy leaving _ active
    rw [saved]
    exact named_of_active coherent (coherent.agrees state saved).1 active suspect
  · unfold Runner.Owns at owns
    split at owns
    · exact owns.1
    all_goals
      rename_i there
      simp_all [Location.inspected]

theorem isLive_of_mem {entry : Container × Name} (member : entry ∈ world.live) :
    world.isLive entry.1 = true :=
  List.any_eq_true.mpr ⟨entry, member, decide_eq_true rfl⟩

/-- The check of one record: its container is gone, so no living container is its job's. -/
theorem Owned.skip (owned : world.Owned) (busy : world.runner = some runner) {name : Name}
    {rest : List Name} (there : runner.location = .inspecting (name :: rest))
    (absent : ∀ container, (runner.state.jobs name).suspect = some container →
      world.isLive container = false) : (world.put (runner.goto (.inspecting rest))).Owned where
  single := owned.single
  idle none := by cases none
  busy := by
    intro other same entry member
    cases same
    have owns := owned.busy runner busy entry member
    simp only [Runner.Owns, there] at owns
    obtain ⟨named, among, suspect⟩ := owns
    refine ⟨named, ?_, suspect⟩
    rcases List.mem_cons.mp among with same | among
    · rw [same] at suspect
      have alive : world.isLive entry.1 = true := isLive_of_mem member
      rw [absent _ suspect] at alive
      cases alive
    · exact among

theorem Owned.check (owned : world.Owned) (busy : world.runner = some runner)
    (there : runner.location = .inspecting []) : (world.put (runner.goto .opening)).Owned where
  single := owned.single
  idle none := by cases none
  busy := by
    intro other same entry member
    have owns := owned.busy runner busy entry member
    simp only [Runner.Owns, there] at owns
    exact absurd owns.2.1 List.not_mem_nil

theorem Owned.remove (owned : world.Owned) (busy : world.runner = some runner) {name : Name}
    {container : Container} {code : Int} {rest : List (Name × Container)}
    (there : runner.location = .removing name container code rest) :
    ({ world.gone container with removed := world.removed ++ [container] }.put
      (runner.goto (.removed name container code rest))).Owned where
  single := (owned.filter container).single
  idle none := by cases none
  busy := by
    intro other same entry member
    cases same
    obtain ⟨member, different⟩ := List.mem_filter.mp member
    have owns := owned.busy runner busy entry member
    exact ⟨owns.active (by rw [there]; rfl), of_decide_eq_true different⟩

theorem Owned.finish (owned : world.Owned) (valid : world.Valid)
    (busy : world.runner = some runner) {name : Name} {container : Container} {code : Int}
    {rest : List (Name × Container)}
    (there : runner.location = .removed name container code rest) :
    (world.put (runner.finish name code rest)).Owned where
  single := owned.single
  idle none := by cases none
  busy := by
    intro other same entry member
    cases same
    have coherent := valid.runner runner busy
    have placed := coherent.placed
    simp only [Runner.Placed, there] at placed
    have removed : (name, container) ∈ runner.active := placed.1.subset List.mem_cons_self
    have owns := owned.busy runner busy entry member
    simp only [Runner.Owns, there] at owns
    apply Runner.owns_of_active rfl
    refine List.mem_filter.mpr ⟨owns.1, decide_eq_true ?_⟩
    intro same
    have equal := List.inj_on_of_nodup_map coherent.keys_nodup owns.1 removed same
    exact owns.2 (congrArg Prod.snd equal)

theorem Owned.spawn (owned : world.Owned) (valid : world.Valid)
    (busy : world.runner = some runner) {name : Name} {container : Container} (created : Bool)
    (there : runner.location = .spawning name container) :
    ({ world with
      live := if created then world.live ++ [(container, name)] else world.live }.put
        (runner.spawn name container)).Owned := by
  have current : runner.location.current = [name] := by rw [there]; rfl
  have absent := ((valid.runner runner busy).current_absent current).2
  have owns : ∀ entry ∈ world.live, (entry.2, entry.1) ∈ runner.active := fun entry member =>
    (owned.busy runner busy entry member).active (by rw [there]; rfl)
  have kept : ∀ entry ∈ world.live, (entry.2, entry.1) ∈ runner.active ++ [(name, container)] :=
    fun entry member => List.mem_append_left _ (owns entry member)
  cases created with
  | false =>
    refine ⟨owned.single, fun none => (by cases none), ?_⟩
    intro other same entry member
    cases same
    exact kept entry member
  | true =>
    refine ⟨?_, fun none => (by cases none), ?_⟩
    · change ((world.live ++ [(container, name)]).map Prod.snd).Nodup
      rw [List.map_append]
      apply List.Nodup.append owned.single (List.nodup_singleton _)
      intro job living new
      obtain ⟨entry, member, rfl⟩ := List.mem_map.mp living
      exact absent _ (owns entry member) (List.mem_singleton.mp new)
    · intro other same entry member
      cases same
      rcases List.mem_append.mp member with member | member
      · exact kept entry member
      · rw [List.mem_singleton.mp member]
        exact List.mem_append_right _ (List.mem_singleton_self _)

theorem move_owned (valid : world.Valid) (owned : world.Owned) (busy : world.runner = some runner)
    (prompt : Prompt world event) (move : Move world runner event after) : after.Owned := by
  have same := List.Sublist.refl world.live
  cases move with
  | refused what => exact ⟨owned.single, owned.idle, owned.busy⟩
  | exited container => exact owned.filter container
  | left leaving ended saved live exits removed begun raised =>
    constructor
    · rw [live]
      exact owned.single
    · rw [live, saved]
      exact fun _ => owned.left valid busy leaving prompt
    · intro other found
      rw [ended] at found
      cases found
  | skipped name rest there absent => exact owned.skip busy there absent
  | checked there => exact owned.check busy there
  | stopped there ending => exact owned.put busy same (by rw [there]; rfl) rfl rfl
  | polls there => exact owned.put busy same (by rw [there]; rfl) rfl rfl
  | runs entry rest there => exact owned.put busy same (by rw [there]; rfl) rfl rfl
  | goes location free next =>
    refine owned.put busy same (Location.inspected_of_guarded free) ?_ rfl
    rcases next with rfl | rfl | rfl <;> rfl
  | polled name container code rest there =>
    exact owned.put busy same (by rw [there]; rfl) rfl rfl
  | removed name container code rest there => exact owned.remove busy there
  | caught what torn free =>
    exact owned.put busy same (Location.inspected_of_guarded free) rfl rfl
  | finished name container code rest there => exact owned.finish valid busy there
  | dequeued name rest there queue room => exact owned.put busy same (by rw [there]; rfl) rfl rfl
  | prepared name container there => exact owned.put busy same (by rw [there]; rfl) rfl rfl
  | spawned name container created there => exact owned.spawn valid busy created there
  | spawnFailed name container what there =>
    exact owned.put busy same (by rw [there]; rfl) rfl rfl
  | concluded there => exact owned.put busy same (by rw [there]; rfl) rfl rfl
  | cleaned name container code rest there =>
    exact owned.put busy List.filter_sublist (by rw [there]; rfl) rfl rfl
  | cleanFailed entry what rest there => exact owned.put busy same (by rw [there]; rfl) rfl rfl
  | settled there => exact owned.put busy same (by rw [there]; rfl) rfl rfl
  | saved location next =>
    have inspected : runner.location.inspected = true := by
      rcases next with ⟨there, -⟩ | ⟨rest, there, -⟩ | ⟨there, -⟩ <;> rw [there] <;> rfl
    refine owned.put busy same inspected ?_ rfl
    rcases next with ⟨-, rfl⟩ | ⟨rest, -, rfl⟩ | ⟨-, rfl⟩ <;> rfl
  | closed there =>
    have coherent := valid.runner runner busy
    refine ⟨owned.single, ?_, fun other found => by cases found⟩
    intro _ entry member
    have active := (owned.busy runner busy entry member).active (by rw [there]; rfl)
    exact named_of_active coherent rfl active (coherent.owned _ active)
  | signalled signal handled =>
    refine ⟨owned.single, fun none => (by cases none), ?_⟩
    intro other found entry member
    cases found
    exact owned.busy runner busy entry member

theorem idle_owned (owned : world.Owned) (idle : world.runner = none)
    (step : Idle world event after) : after.Owned := by
  cases step with
  | refused what => exact ⟨owned.single, owned.idle, owned.busy⟩
  | exited container => exact owned.filter container
  | fresh identity workers empty =>
    refine ⟨owned.single, fun none => (by cases none), ?_⟩
    intro other found entry member
    obtain ⟨state, saved, -⟩ := owned.idle idle entry member
    rw [empty] at saved
    cases saved
  | resumed state workers saved =>
    refine ⟨owned.single, fun none => (by cases none), ?_⟩
    intro other found entry member
    cases found
    have named := owned.idle idle entry member
    obtain ⟨other, same, among, suspect⟩ := id named
    cases saved.symm.trans same
    exact ⟨named, among, suspect⟩

theorem step_owned (valid : world.Valid) (owned : world.Owned) (prompt : Prompt world event)
    (taken : world.step event = some after) : after.Owned := by
  rcases step_cases taken with ⟨runner, busy, move⟩ | ⟨idle, step⟩
  · exact move_owned valid owned busy prompt move
  · exact idle_owned owned idle step

end World

/-- Two living containers never belong to one job, as long as no invocation is stopped while
`run.json` lacks the container of an active job. -/
theorem ownership_exclusive {events : List Event} {world : World}
    (ran : run World.step {} events = some world) (prompt : Along World.step Prompt {} events) :
    (world.live.map Prod.snd).Nodup := by
  have keep : ∀ now event next, (now.Valid ∧ now.Owned) → Prompt now event →
      World.step now event = some next → next.Valid ∧ next.Owned := by
    intro now event next ⟨valid, owned⟩ prompt taken
    exact ⟨(World.step_valid valid taken).1, World.step_owned valid owned prompt taken⟩
  have start : World.Owned {} := by
    refine ⟨List.nodup_nil, ?_, ?_⟩
    · intro _ entry member
      cases member
    · intro _ found
      cases found
  exact (run_preserves_guarded keep ⟨World.valid_initial, start⟩ prompt.guarded ran).2.single

def sampleIdentity : Identity := ⟨[text "a"], by simp, [], []⟩

def sampleStart (container : Container) : List Event :=
  [.write, .advance, .advance, .advance, .prepare container, .spawn true]

/-- The runner is killed with a container alive that `run.json` names; the resume finds it. -/
theorem ownership_exclusive_killed :
    ∃ world : World, world.outcomes.length = 1 ∧ world.live = [(0, text "a")] ∧
      (world.live.map Prod.snd).Nodup := by
  let events : List Event := Event.invoke sampleIdentity 1 false :: (sampleStart 0 ++
    ([.write, .kill false, .invoke sampleIdentity 1 true, .inspect .found] : List Event))
  have ran : (run World.step {} events).map (fun world => (world.outcomes.length, world.live)) =
      some (1, [(0, text "a")]) := by decide +kernel
  obtain ⟨world, came, seen⟩ := Option.map_eq_some_iff.mp ran
  obtain ⟨outcomes, live⟩ := Prod.mk.inj seen
  exact ⟨world, outcomes, live, ownership_exclusive came (by decide +kernel)⟩

/-- Killed between `docker run` and `save`, the runner leaves a container that the resume does
not know of, and starts a second one for the same job. -/
theorem ownership_shared :
    ∃ world : World, Reachable World.step {} world ∧
      world.live = [(0, text "a"), (1, text "a")] := by
  let resume : List Event := [.kill false, .invoke sampleIdentity 1 true, .advance, .advance]
  let events : List Event := Event.invoke sampleIdentity 1 false ::
    (sampleStart 0 ++ (resume ++ sampleStart 1))
  have ran : (run World.step {} events).map World.live =
      some [(0, text "a"), (1, text "a")] := by decide +kernel
  obtain ⟨world, came, live⟩ := Option.map_eq_some_iff.mp ran
  exact ⟨world, ⟨events, came⟩, live⟩

end Chimaera.Containers
