import Chimaera.Containers.Runner

/-! The invariant of an invocation. A job is taken from the queue once, so all lists of jobs of
an invocation are sublists of one list without duplicates; and records are only written for
jobs that are not completed. -/

namespace Chimaera.Containers
open Base.Text

def Location.current : Location → List Name
  | .preparing name | .spawning name _ => [name]
  | _ => []

def Location.untouched : Location → List Name
  | .preparing name => [name]
  | _ => []

theorem Location.untouched_of_quiet {location : Location} (quiet : location.current = []) :
    location.untouched = [] := by
  cases location <;> simp_all [current, untouched]

def Keeps (before after : Name → Record) : Prop :=
  ∀ name, (before name).status = .completed → after name = before name

theorem Keeps.refl (records : Name → Record) : Keeps records records := fun _ _ => rfl

theorem Keeps.trans {first second third : Name → Record} (earlier : Keeps first second)
    (later : Keeps second third) : Keeps first third := by
  intro name completed
  have same := earlier name completed
  rw [later name (by rw [same]; exact completed), same]

variable {records : Name → Record}

theorem keeps_update {name : Name}
    (unfinished : (records name).status ≠ .completed) (record : Record) :
    Keeps records (Function.update records name record) := by
  intro other completed
  apply Function.update_of_ne
  rintro rfl
  exact unfinished completed

/-- A completed record names a container whose command returned 0 and which was removed. -/
def Evidence (world : World) (records : Name → Record) : Prop :=
  ∀ name, (records name).status = .completed → ∃ container,
    (records name).container = some container ∧ (container, 0) ∈ world.exits ∧
    container ∈ world.removed

theorem Evidence.mono {world after : World}
    (evidence : Evidence world records) (exits : world.exits ⊆ after.exits)
    (removed : world.removed ⊆ after.removed) : Evidence after records := by
  intro name completed
  obtain ⟨container, named, exited, gone⟩ := evidence name completed
  exact ⟨container, named, exits exited, removed gone⟩

theorem Evidence.update {world : World} (evidence : Evidence world records) {name : Name}
    {record : Record} (unfinished : record.status ≠ .completed) :
    Evidence world (Function.update records name record) := by
  intro other completed
  by_cases same : other = name
  · subst same
    rw [Function.update_self] at completed
    exact absurd completed unfinished
  · rw [Function.update_of_ne same] at completed ⊢
    exact evidence other completed

def Runner.Placed (world : World) (runner : Runner) : Prop :=
  match runner.location with
  | .polling rest | .recorded rest => rest.Sublist runner.active
  | .removing name container code rest =>
      ((name, container) :: rest).Sublist runner.active ∧ (container, code) ∈ world.exits
  | .removed name container code rest =>
      ((name, container) :: rest).Sublist runner.active ∧ (container, code) ∈ world.exits ∧
        container ∈ world.removed
  | .spawning name container => (runner.state.jobs name).suspect = some container
  | .ended => runner.active = [] ∨ runner.interrupted.isSome = true
  | .cleaning rest => rest.Sublist runner.active ∧
      (runner.state.status = .completed → runner.active = [] ∧ runner.allCompleted = true)
  | .closing => runner.state.status = .completed → runner.allCompleted = true
  | _ => True

structure Coherent (world : World) (runner : Runner) : Prop where
  queue : runner.dequeued ++ runner.pending = Runner.unfinished runner.state.identity runner.initial
  fresh : ∀ name ∈ runner.location.untouched ++ runner.pending,
    runner.state.jobs name = runner.initial name
  started : (runner.started ++ runner.location.current).Sublist runner.dequeued
  active : (runner.active.map Prod.fst).Sublist runner.started
  room : runner.active.length + runner.location.current.length ≤ runner.workers
  owned : ∀ entry ∈ runner.active, (runner.state.jobs entry.1).suspect = some entry.2
  placed : runner.Placed world
  agrees : ∀ state, world.saved = some state → state.identity = runner.state.identity ∧
    Keeps state.jobs runner.state.jobs
  evidence : Evidence world runner.state.jobs

theorem Record.suspect_eq_some {record : Record} {container : Container} :
    record.suspect = some container ↔
      record.status ≠ .completed ∧ record.container = some container := by
  unfold suspect
  split_ifs with completed
  · simp [completed]
  · simp [completed]

theorem unfinished_nodup (identity : Identity) (records : Name → Record) :
    (Runner.unfinished identity records).Nodup := identity.unique.filter _

section Invariant

variable {world : World} {runner : Runner}

theorem Coherent.mono (coherent : Coherent world runner) {after : World}
    (agrees : ∀ state, after.saved = some state → state.identity = runner.state.identity ∧
      Keeps state.jobs runner.state.jobs) (exits : world.exits ⊆ after.exits)
    (removed : world.removed ⊆ after.removed) : Coherent after runner where
  queue := coherent.queue
  fresh := coherent.fresh
  started := coherent.started
  active := coherent.active
  room := coherent.room
  owned := coherent.owned
  placed := by
    have placed := coherent.placed
    unfold Runner.Placed at placed ⊢
    split
    all_goals simp_all
    · exact exits placed.2
    · exact ⟨exits placed.2.1, removed placed.2.2⟩
  agrees := agrees
  evidence := coherent.evidence.mono exits removed

theorem Coherent.taken_nodup (coherent : Coherent world runner) :
    (runner.dequeued ++ runner.pending).Nodup := by
  rw [coherent.queue]
  exact unfinished_nodup _ _

theorem Coherent.keys_nodup (coherent : Coherent world runner) :
    (runner.active.map Prod.fst).Nodup := by
  have short := (List.sublist_append_left _ _).trans coherent.started
  have dequeued := (coherent.active.trans short).trans (List.sublist_append_left _ runner.pending)
  exact dequeued.nodup coherent.taken_nodup

theorem Coherent.started_sublist (coherent : Coherent world runner) :
    runner.started.Sublist runner.dequeued :=
  (List.sublist_append_left _ _).trans coherent.started

theorem Coherent.not_pending (coherent : Coherent world runner) {name : Name}
    (taken : name ∈ runner.dequeued) : name ∉ runner.pending :=
  fun pending => (List.nodup_append.mp coherent.taken_nodup).2.2 name taken name pending rfl

theorem Coherent.active_taken (coherent : Coherent world runner) {entry : Name × Container}
    (member : entry ∈ runner.active) : entry.1 ∈ runner.dequeued :=
  coherent.started_sublist.subset (coherent.active.subset (List.mem_map_of_mem member))

theorem Coherent.current_absent (coherent : Coherent world runner) {name : Name}
    (current : runner.location.current = [name]) :
    name ∈ runner.dequeued ∧ ∀ entry ∈ runner.active, entry.1 ≠ name := by
  have sublist := coherent.started
  rw [current] at sublist
  refine ⟨sublist.subset (List.mem_append_right _ (List.mem_singleton_self name)), ?_⟩
  rintro entry member rfl
  have nodup := sublist.nodup (coherent.taken_nodup.sublist (List.sublist_append_left _ _))
  have started := coherent.active.subset (List.mem_map_of_mem member)
  exact (List.nodup_append.mp nodup).2.2 _ started _ (List.mem_singleton_self _) rfl

theorem Coherent.taken_unfinished (coherent : Coherent world runner) {name : Name}
    (taken : name ∈ runner.dequeued) : (runner.initial name).status ≠ .completed := by
  have member := List.mem_append_left runner.pending taken
  rw [coherent.queue, Runner.unfinished, List.mem_filter] at member
  simpa using member.2

structure Same (runner next : Runner) : Prop where
  identity : next.state.identity = runner.state.identity
  jobs : next.state.jobs = runner.state.jobs
  workers : next.workers = runner.workers
  pending : next.pending = runner.pending
  active : next.active = runner.active
  initial : next.initial = runner.initial
  dequeued : next.dequeued = runner.dequeued
  started : next.started = runner.started

theorem Coherent.same (coherent : Coherent world runner) {next : Runner} (same : Same runner next)
    (quiet : next.location.current = []) (placed : next.Placed world) : Coherent world next where
  queue := by
    rw [same.dequeued, same.pending, same.identity, same.initial]
    exact coherent.queue
  fresh := by
    rw [Location.untouched_of_quiet quiet, same.pending, same.jobs, same.initial]
    intro name member
    exact coherent.fresh name (List.mem_append_right _ member)
  started := by
    rw [quiet, List.append_nil, same.started, same.dequeued]
    exact coherent.started_sublist
  active := by
    rw [same.active, same.started]
    exact coherent.active
  room := by
    rw [quiet, same.active, same.workers]
    exact (Nat.le_add_right _ _).trans coherent.room
  owned := by
    rw [same.active, same.jobs]
    exact coherent.owned
  placed := placed
  agrees := by
    rw [same.identity, same.jobs]
    exact coherent.agrees
  evidence := by
    rw [same.jobs]
    exact coherent.evidence

theorem Coherent.goto (coherent : Coherent world runner) {location : Location}
    (quiet : location.current = []) (placed : (runner.goto location).Placed world) :
    Coherent world (runner.goto location) :=
  coherent.same ⟨rfl, rfl, rfl, rfl, rfl, rfl, rfl, rfl⟩ quiet placed

theorem Coherent.caught (coherent : Coherent world runner) (what : Line) :
    Coherent world (runner.caught what) := by
  have unchanged : Same runner (runner.caught what) := ⟨rfl, rfl, rfl, rfl, rfl, rfl, rfl, rfl⟩
  apply coherent.same unchanged rfl
  exact ⟨List.Sublist.refl _, fun completed => by cases completed⟩

theorem Coherent.conclude (coherent : Coherent world runner)
    (there : runner.location = .ended) : Coherent world runner.conclude := by
  have unchanged : Same runner runner.conclude := ⟨rfl, rfl, rfl, rfl, rfl, rfl, rfl, rfl⟩
  apply coherent.same unchanged rfl
  refine ⟨List.Sublist.refl _, ?_⟩
  have ending := coherent.placed
  simp only [Runner.Placed, there] at ending
  simp only [Runner.conclude]
  intro completed
  split_ifs at completed with interrupted all
  exact ⟨ending.resolve_right interrupted, all⟩

theorem Coherent.settle (coherent : Coherent world runner)
    (there : runner.location = .cleaning []) : Coherent world runner.settle := by
  have unchanged : Same runner runner.settle := by
    constructor
    any_goals rfl
    all_goals
      simp only [Runner.settle]
      split_ifs <;> rfl
  apply coherent.same unchanged rfl
  have placed := coherent.placed
  simp only [Runner.Placed, there] at placed
  change runner.settle.state.status = .completed → runner.settle.allCompleted = true
  intro completed
  simp only [Runner.allCompleted, unchanged.identity, unchanged.jobs]
  simp only [Runner.settle] at completed
  split_ifs at completed
  exact (placed.2 completed).2

theorem Coherent.cleanFailed (coherent : Coherent world runner) {entry : Name × Container}
    {rest : List (Name × Container)} (what : Line)
    (there : runner.location = .cleaning (entry :: rest)) :
    Coherent world { runner with
      cleanupErrors := runner.cleanupErrors ++ [what], location := .cleaning rest } := by
  have unchanged : Same runner { runner with
      cleanupErrors := runner.cleanupErrors ++ [what], location := .cleaning rest } :=
    ⟨rfl, rfl, rfl, rfl, rfl, rfl, rfl, rfl⟩
  apply coherent.same unchanged rfl
  have placed := coherent.placed
  simp only [Runner.Placed, there] at placed
  exact ⟨(List.sublist_cons_self _ _).trans placed.1, placed.2⟩

theorem Coherent.signalled (coherent : Coherent world runner) (signal : Signal) :
    Coherent world { runner with interrupted := some signal } where
  queue := coherent.queue
  fresh := coherent.fresh
  started := coherent.started
  active := coherent.active
  room := coherent.room
  owned := coherent.owned
  placed := by
    have placed := coherent.placed
    unfold Runner.Placed at placed ⊢
    dsimp only
    split
    all_goals simp_all [Runner.allCompleted]
  agrees := coherent.agrees
  evidence := coherent.evidence

/-! ## Records -/

@[simp] theorem RunState.set_identity (state : RunState) (name : Name) (record : Record) :
    (state.set name record).identity = state.identity := rfl

theorem RunState.set_self (state : RunState) (name : Name) (record : Record) :
    (state.set name record).jobs name = record := Function.update_self ..

theorem RunState.set_other (state : RunState) {name other : Name} (record : Record)
    (different : other ≠ name) : (state.set name record).jobs other = state.jobs other :=
  Function.update_of_ne different ..

theorem Coherent.agrees_set (coherent : Coherent world runner) {name : Name} (record : Record)
    (unfinished : (runner.state.jobs name).status ≠ .completed) (state : RunState)
    (saved : world.saved = some state) : state.identity = runner.state.identity ∧
      Keeps state.jobs (runner.state.set name record).jobs :=
  ⟨(coherent.agrees state saved).1,
    (coherent.agrees state saved).2.trans (keeps_update unfinished record)⟩

theorem Coherent.fresh_set (coherent : Coherent world runner) {name : Name} (record : Record)
    (taken : name ∈ runner.dequeued) :
    ∀ other ∈ runner.pending, (runner.state.set name record).jobs other = runner.initial other := by
  intro other member
  have different : other ≠ name := by
    rintro rfl
    exact coherent.not_pending taken member
  rw [RunState.set_other _ _ different]
  exact coherent.fresh other (List.mem_append_right _ member)

theorem sublist_filter_rest {name : Name} {container : Container}
    {rest active : List (Name × Container)} (sublist : ((name, container) :: rest).Sublist active)
    (nodup : (active.map Prod.fst).Nodup) :
    rest.Sublist (active.filter fun entry => entry.1 ≠ name) := by
  have keys := (sublist.map Prod.fst).nodup nodup
  have others : ∀ entry ∈ rest, entry.1 ≠ name := by
    intro entry member same
    exact (List.nodup_cons.mp keys).1 (List.mem_map.mpr ⟨entry, member, same⟩)
  have kept : rest.filter (fun entry => entry.1 ≠ name) = rest :=
    List.filter_eq_self.mpr fun entry member => by simpa using others entry member
  rw [← kept]
  exact ((List.sublist_cons_self _ _).trans sublist).filter _

theorem Coherent.finish (coherent : Coherent world runner) {name : Name} {container : Container}
    {code : Int} {rest : List (Name × Container)}
    (there : runner.location = .removed name container code rest) :
    Coherent world (runner.finish name code rest) := by
  have placed := coherent.placed
  simp only [Runner.Placed, there] at placed
  obtain ⟨sublist, exited, removed⟩ := placed
  have member : (name, container) ∈ runner.active := sublist.subset List.mem_cons_self
  obtain ⟨unfinished, named⟩ := Record.suspect_eq_some.mp (coherent.owned _ member)
  constructor
  case queue => exact coherent.queue
  case fresh => exact coherent.fresh_set _ (coherent.active_taken member)
  case started => simpa [Runner.finish, Location.current] using coherent.started_sublist
  case active => exact (List.filter_sublist.map Prod.fst).trans coherent.active
  case room =>
    have room := coherent.room
    have fewer := List.length_filter_le (fun entry => decide (entry.1 ≠ name)) runner.active
    simp only [Runner.finish, Location.current, List.length_nil]
    omega
  case owned =>
    intro entry kept
    obtain ⟨kept, different⟩ := List.mem_filter.mp kept
    rw [Runner.finish, RunState.set_other _ _ (of_decide_eq_true different)]
    exact coherent.owned entry kept
  case placed => exact sublist_filter_rest sublist coherent.keys_nodup
  case agrees => exact coherent.agrees_set _ unfinished
  case evidence =>
    intro other completed
    by_cases same : other = name
    · subst same
      rw [Runner.finish, RunState.set_self] at completed ⊢
      have success : code = 0 := by
        by_contra failure
        simp [failure] at completed
      exact ⟨container, named, success ▸ exited, removed⟩
    · rw [Runner.finish, RunState.set_other _ _ same] at completed ⊢
      exact coherent.evidence other completed

theorem Coherent.dequeue (coherent : Coherent world runner) {name : Name} {rest : List Name}
    (there : runner.location = .starting) (queue : runner.pending = name :: rest)
    (room : runner.active.length < runner.workers) :
    Coherent world { runner with
      pending := rest, dequeued := runner.dequeued ++ [name], location := .preparing name } := by
  constructor
  case queue =>
    have same := coherent.queue
    rw [queue] at same
    simpa using same
  case fresh =>
    have fresh := coherent.fresh
    rw [there, queue] at fresh
    exact fresh
  case started => exact coherent.started_sublist.append (List.Sublist.refl _)
  case active => exact coherent.active
  case room => exact room
  case owned => exact coherent.owned
  case placed => trivial
  case agrees => exact coherent.agrees
  case evidence => exact coherent.evidence

theorem Coherent.prepare (coherent : Coherent world runner) {name : Name}
    (there : runner.location = .preparing name) (container : Container) :
    Coherent world (runner.prepare name container) := by
  have current : runner.location.current = [name] := by rw [there]; rfl
  obtain ⟨taken, absent⟩ := coherent.current_absent current
  have unfinished : (runner.state.jobs name).status ≠ .completed := by
    rw [coherent.fresh name (by rw [there]; exact List.mem_cons_self)]
    exact coherent.taken_unfinished taken
  constructor
  case queue => exact coherent.queue
  case fresh => exact coherent.fresh_set _ taken
  case started =>
    have started := coherent.started
    rwa [current] at started
  case active => exact coherent.active
  case room =>
    have room := coherent.room
    rwa [current] at room
  case owned =>
    intro entry member
    rw [Runner.prepare, RunState.set_other _ _ (absent entry member)]
    exact coherent.owned entry member
  case placed =>
    change ((runner.state.set name _).jobs name).suspect = some container
    rw [RunState.set_self]
    rfl
  case agrees => exact coherent.agrees_set _ unfinished
  case evidence => exact coherent.evidence.update (by simp)

theorem Coherent.spawn (coherent : Coherent world runner) {name : Name} {container : Container}
    (there : runner.location = .spawning name container) :
    Coherent world (runner.spawn name container) := by
  have current : runner.location.current = [name] := by rw [there]; rfl
  have placed := coherent.placed
  simp only [Runner.Placed, there] at placed
  constructor
  case queue => exact coherent.queue
  case fresh =>
    intro other member
    exact coherent.fresh other (List.mem_append_right _ member)
  case started =>
    have started := coherent.started
    rw [current] at started
    simpa [Runner.spawn, Location.current] using started
  case active =>
    rw [Runner.spawn, List.map_append]
    exact coherent.active.append (List.Sublist.refl _)
  case room =>
    have room := coherent.room
    rw [current] at room
    simpa [Runner.spawn, Location.current] using room
  case owned =>
    intro entry member
    rcases List.mem_append.mp member with member | member
    · exact coherent.owned entry member
    · rw [List.mem_singleton.mp member]
      exact placed
  case placed => trivial
  case agrees => exact coherent.agrees
  case evidence => exact coherent.evidence

theorem Coherent.spawnError (coherent : Coherent world runner) {name : Name}
    {container : Container} (there : runner.location = .spawning name container) (what : Line) :
    Coherent world ((runner.spawnError name what).caught what) := by
  have current : runner.location.current = [name] := by rw [there]; rfl
  obtain ⟨taken, absent⟩ := coherent.current_absent current
  have placed := coherent.placed
  simp only [Runner.Placed, there] at placed
  have unfinished := (Record.suspect_eq_some.mp placed).1
  constructor
  case queue => exact coherent.queue
  case fresh => exact coherent.fresh_set _ taken
  case started =>
    have started := coherent.started
    rw [current] at started
    simpa [Runner.spawnError, Runner.caught, Location.current] using started
  case active => exact coherent.active.trans (List.sublist_append_left _ _)
  case room => exact (Nat.le_add_right _ _).trans coherent.room
  case owned =>
    intro entry member
    rw [Runner.caught, Runner.spawnError, RunState.set_other _ _ (absent entry member)]
    exact coherent.owned entry member
  case placed => exact ⟨List.Sublist.refl _, fun completed => by cases completed⟩
  case agrees => exact coherent.agrees_set _ unfinished
  case evidence => exact coherent.evidence.update (by simp)

theorem Coherent.cleaned (coherent : Coherent world runner) {name : Name} {container : Container}
    {rest : List (Name × Container)} (code : Int)
    (there : runner.location = .cleaning ((name, container) :: rest)) :
    Coherent world (runner.cleaned name code rest) := by
  have placed := coherent.placed
  simp only [Runner.Placed, there] at placed
  obtain ⟨sublist, finished⟩ := placed
  have member : (name, container) ∈ runner.active := sublist.subset List.mem_cons_self
  have unfinished := (Record.suspect_eq_some.mp (coherent.owned _ member)).1
  constructor
  case queue => exact coherent.queue
  case fresh => exact coherent.fresh_set _ (coherent.active_taken member)
  case started => simpa [Runner.cleaned, Location.current] using coherent.started_sublist
  case active => exact coherent.active
  case room => exact (Nat.le_add_right _ _).trans coherent.room
  case owned =>
    intro entry kept
    have before := coherent.owned entry kept
    by_cases same : entry.1 = name
    · rw [same] at before ⊢
      rw [Runner.cleaned, RunState.set_self]
      exact Record.suspect_eq_some.mpr ⟨by simp, (Record.suspect_eq_some.mp before).2⟩
    · rw [Runner.cleaned, RunState.set_other _ _ same]
      exact before
  case placed =>
    refine ⟨(List.sublist_cons_self _ _).trans sublist, ?_⟩
    intro completed
    have nothing := (finished completed).1
    rw [nothing] at member
    exact absurd member List.not_mem_nil
  case agrees => exact coherent.agrees_set _ unfinished
  case evidence => exact coherent.evidence.update (by simp)

end Invariant

end Chimaera.Containers
