import Chimaera.Session.Shutdown

/-! What `supervise` returns, and that it returns: once a process has exited or a signal has
arrived, only a bounded number of its steps is left. -/

namespace Chimaera.Session
open Base.Text Base.Transition

def Phase.left : Phase → List Command
  | .starting left => left
  | _ => []

def Phase.outcome? : Phase → Option Outcome
  | .interrupting _ outcome | .waiting _ outcome | .killing _ outcome | .reaping _ outcome
  | .ended outcome => some outcome
  | _ => none

def Outcome.error : Outcome → Bool
  | .returned _ => false
  | .raised _ | .denied _ => true

def Phase.watching : Phase → Bool
  | .starting _ | .checking | .polling _ | .stopped _ => true
  | _ => false

def Happening.own : Happening → Bool
  | .step _ _ => true
  | _ => false

structure Leader.Keeps (before after : Leader) : Prop where
  stopped : before ≠ .running → after ≠ .running
  reaped : ∀ code, before = .reaped code → after = .reaped code

theorem Leader.keeps_refl (leader : Leader) : leader.Keeps leader := ⟨id, fun _ => id⟩

theorem Leader.keeps_reap (leader : Leader) : leader.Keeps leader.reap := by
  cases leader <;> constructor <;> simp [Leader.reap]

theorem Group.send_leader (group : Group) (sent : Sent) :
    (group.send sent).leader = group.leader := by
  unfold Group.send
  split_ifs <;> rfl

theorem Group.send_command (group : Group) (sent : Sent) :
    (group.send sent).command = group.command := by
  unfold Group.send
  split_ifs <;> rfl

namespace Supervisor

structure Grows (before after : Supervisor) (fresh : List Command) : Prop where
  commands : after.processes.map Group.command = before.processes.map Group.command ++ fresh
  leaders : ∀ (index : Nat) (group : Group), before.processes[index]? = some group →
    ∃ older : Group, after.processes[index]? = some older ∧ group.leader.Keeps older.leader
  clock : before.clock ≤ after.clock
  interrupted : before.interrupted = true → after.interrupted = true

variable {supervisor after : Supervisor}

theorem Grows.same (processes : after.processes = supervisor.processes)
    (clock : supervisor.clock ≤ after.clock)
    (interrupted : supervisor.interrupted = true → after.interrupted = true) :
    supervisor.Grows after [] where
  commands := by rw [processes, List.append_nil]
  leaders index group found := ⟨group, by rw [processes, found], group.leader.keeps_refl⟩
  clock := clock
  interrupted := interrupted

theorem Grows.changed {index : Nat} {update : Group → Group}
    (processes : after.processes = (supervisor.change index update).processes)
    (command : ∀ group, (update group).command = group.command)
    (leader : ∀ group, supervisor.processes[index]? = some group →
      group.leader.Keeps (update group).leader)
    (clock : supervisor.clock ≤ after.clock)
    (interrupted : supervisor.interrupted = true → after.interrupted = true) :
    supervisor.Grows after [] where
  commands := by
    rw [processes, change, List.append_nil]
    apply List.ext_getElem?
    intro other
    rw [List.getElem?_map, List.getElem?_map, List.getElem?_modify]
    cases supervisor.processes[other]? with
    | none => rfl
    | some group =>
      by_cases same : index = other
      · simp [same, command]
      · simp [same]
  leaders other group found := by
    rw [processes, change, List.getElem?_modify, found]
    by_cases same : index = other
    · subst same
      exact ⟨update group, by simp, leader group found⟩
    · exact ⟨group, by simp [same], group.leader.keeps_refl⟩
  clock := clock
  interrupted := interrupted

theorem Grows.launched {command : Command} {left : List Command} :
    supervisor.Grows { supervisor with
      processes := supervisor.processes ++ [{ command := command }], phase := .starting left }
      [command] where
  commands := by rw [List.map_append, List.map_singleton]
  leaders index group found := by
    have inside := (List.getElem?_eq_some_iff.mp found).1
    exact ⟨group, by rw [List.getElem?_append_left inside, found], group.leader.keeps_refl⟩
  clock := le_rfl
  interrupted := id

inductive Turn (before after : Supervisor) : List Command → Prop where
  | begun (phase : before.phase = .starting []) (next : after.phase = .checking) :
      Turn before after []
  | launched (command : Command) (left : List Command)
      (phase : before.phase = .starting (command :: left)) (next : after.phase = .starting left) :
      Turn before after [command]
  | failed (error : Line) (watching : before.phase.watching = true)
      (next : after.phase = .interrupting 0 (.raised error)) : Turn before after []
  | interrupted (phase : before.phase = .checking) (flag : before.interrupted = true)
      (next : after.phase = .stopped 0) : Turn before after []
  | scanned (phase : before.phase = .checking) (flag : before.interrupted = false)
      (next : after.phase = .polling 0) : Turn before after []
  | slept (index : Nat) (phase : before.phase = .polling index)
      (all : before.processes.length ≤ index) (next : after.phase = .checking) :
      Turn before after []
  | passed (index : Nat) (group : Group) (phase : before.phase = .polling index)
      (found : before.processes[index]? = some group) (running : group.leader = .running)
      (next : after.phase = .polling (index + 1)) : Turn before after []
  | found (index : Nat) (group : Group) (code : Int) (phase : before.phase = .polling index)
      (found : after.processes[index]? = some group) (reaped : group.leader = .reaped code)
      (next : after.phase = .stopped (exitStatus code)) : Turn before after []
  | decided (result : Int) (phase : before.phase = .stopped result)
      (next : after.phase =
        .interrupting 0 (.returned (if before.interrupted then 130 else result))) :
      Turn before after []
  | interrupts (index : Nat) (outcome : Outcome) (phase : before.phase = .interrupting index outcome)
      (inside : index < before.processes.length)
      (next : after.phase = .interrupting (index + 1) outcome) : Turn before after []
  | awaits (index : Nat) (outcome : Outcome) (phase : before.phase = .interrupting index outcome)
      (deadline : after.deadline = after.clock + 10000) (next : after.phase = .waiting 0 outcome) :
      Turn before after []
  | polled (index : Nat) (outcome : Outcome) (phase : before.phase = .waiting index outcome)
      (inside : index < before.processes.length) (deadline : after.deadline = before.deadline)
      (next : after.phase = .waiting (index + 1) outcome) : Turn before after []
  | rested (index : Nat) (outcome : Outcome) (phase : before.phase = .waiting index outcome)
      (inside : index < before.processes.length) (early : before.clock < before.deadline)
      (slept : before.clock + 100 ≤ after.clock) (deadline : after.deadline = before.deadline)
      (next : after.phase = .waiting 0 outcome) : Turn before after []
  | tired (index : Nat) (outcome : Outcome) (phase : before.phase = .waiting index outcome)
      (next : after.phase = .killing 0 outcome) : Turn before after []
  | kills (index : Nat) (outcome : Outcome) (phase : before.phase = .killing index outcome)
      (inside : index < before.processes.length) (next : after.phase = .reaping index outcome) :
      Turn before after []
  | settles (index : Nat) (outcome : Outcome) (phase : before.phase = .reaping index outcome)
      (inside : index < before.processes.length)
      (next : after.phase = .killing (index + 1) outcome) : Turn before after []
  | ended (index : Nat) (outcome : Outcome) (phase : before.phase = .killing index outcome)
      (all : before.processes.length ≤ index) (next : after.phase = .ended outcome) :
      Turn before after []
  | refused (index : Nat) (outcome : Outcome) (error : Line)
      (phase : before.phase = .interrupting index outcome ∨ before.phase = .killing index outcome)
      (next : after.phase = .ended (.denied error)) : Turn before after []

theorem grows_reap {index : Nat} {phase : Phase} :
    supervisor.Grows ((supervisor.change index Group.reap).at_ phase) [] :=
  .changed rfl (fun _ => rfl) (fun group _ => group.leader.keeps_reap) le_rfl id

theorem grows_send {index : Nat} {sent : Group → Sent} {phase : Phase} :
    supervisor.Grows
      ((supervisor.change index fun group => group.send (sent group)).at_ phase) [] := by
  refine .changed rfl (fun group => group.send_command _) (fun group _ => ?_) le_rfl id
  rw [Group.send_leader]
  exact group.leader.keeps_refl

theorem advance_turn {failure : Option Line} (advanced : supervisor.advance failure = some after) :
    ∃ fresh, supervisor.Grows after fresh ∧ Turn supervisor after fresh := by
  have stays (phase : Phase) : supervisor.Grows (supervisor.at_ phase) [] := .same rfl le_rfl id
  have sleeps (phase : Phase) : supervisor.Grows (supervisor.sleep.at_ phase) [] :=
    .same rfl (Nat.le_add_right _ _) id
  unfold Supervisor.advance at advanced
  cases phase : supervisor.phase with
  | starting left =>
    rw [phase] at advanced
    cases left with
    | nil =>
      cases advanced
      exact ⟨[], stays _, .begun phase rfl⟩
    | cons command left =>
      cases failure with
      | none =>
        cases advanced
        exact ⟨[command], .launched, .launched command left phase rfl⟩
      | some error =>
        cases advanced
        exact ⟨[], stays _, .failed error (by rw [phase]; rfl) rfl⟩
  | checking =>
    rw [phase] at advanced
    cases advanced
    cases flag : supervisor.interrupted with
    | true => exact ⟨[], stays _, .interrupted phase flag rfl⟩
    | false => exact ⟨[], stays _, .scanned phase flag rfl⟩
  | polling next =>
    rw [phase] at advanced
    dsimp only at advanced
    split at advanced
    · next missing =>
      cases advanced
      exact ⟨[], sleeps _, .slept next phase (List.getElem?_eq_none_iff.mp missing) rfl⟩
    · next group found =>
      cases leader : group.leader with
      | running =>
        rw [leader] at advanced
        cases advanced
        exact ⟨[], stays _, .passed next group phase found leader rfl⟩
      | exited code | reaped code =>
        rw [leader] at advanced
        have reaped : (supervisor.change next Group.reap).processes[next]? = some group.reap := by
          rw [change, List.getElem?_modify, found]
          simp
        have own : group.reap.leader = .reaped code := by rw [Group.reap, leader]; rfl
        cases failure with
        | none =>
          cases advanced
          exact ⟨[], grows_reap, .found next group.reap code phase reaped own rfl⟩
        | some error =>
          cases advanced
          exact ⟨[], grows_reap, .failed error (by rw [phase]; rfl) rfl⟩
  | stopped result =>
    rw [phase] at advanced
    cases advanced
    exact ⟨[], stays _, .decided result phase rfl⟩
  | interrupting next outcome =>
    rw [phase] at advanced
    dsimp only at advanced
    split_ifs at advanced with inside
    · split at advanced
      · cases advanced
        exact ⟨[], stays _, .refused next outcome _ (.inl phase) rfl⟩
      · cases advanced
        exact ⟨[], grows_send, .interrupts next outcome phase inside rfl⟩
    · cases advanced
      exact ⟨[], .same rfl le_rfl id, .awaits next outcome phase rfl rfl⟩
  | waiting next outcome =>
    rw [phase] at advanced
    dsimp only at advanced
    split at advanced
    · cases advanced
      exact ⟨[], stays _, .tired next outcome phase rfl⟩
    · next group found =>
      have inside := (List.getElem?_eq_some_iff.mp found).1
      split_ifs at advanced with stopped early
      · cases advanced
        exact ⟨[], grows_reap, .polled next outcome phase inside rfl rfl⟩
      · cases advanced
        exact ⟨[], sleeps _, .rested next outcome phase inside early le_rfl rfl rfl⟩
      · cases advanced
        exact ⟨[], stays _, .tired next outcome phase rfl⟩
  | killing next outcome =>
    rw [phase] at advanced
    dsimp only at advanced
    split_ifs at advanced with inside
    · split at advanced
      · cases advanced
        exact ⟨[], stays _, .refused next outcome _ (.inr phase) rfl⟩
      · cases advanced
        exact ⟨[], grows_send, .kills next outcome phase inside rfl⟩
    · cases advanced
      exact ⟨[], stays _, .ended next outcome phase (Nat.le_of_not_lt inside) rfl⟩
  | reaping next outcome =>
    rw [phase] at advanced
    dsimp only at advanced
    split at advanced
    · cases advanced
    · next group found =>
      have inside := (List.getElem?_eq_some_iff.mp found).1
      split_ifs at advanced
      cases advanced
      exact ⟨[], grows_reap, .settles next outcome phase inside rfl⟩
  | ended outcome =>
    rw [phase] at advanced
    cases advanced

structure Drifts (before after : Supervisor) : Prop where
  grows : before.Grows after []
  phase : after.phase = before.phase
  deadline : after.deadline = before.deadline

theorem acts_drifts {index : Nat} {able : Group → Bool} {update : Group → Group}
    (acted : supervisor.acts index able update = some after)
    (command : ∀ group, (update group).command = group.command)
    (leader : ∀ group, able group = true → group.leader.Keeps (update group).leader) :
    supervisor.Drifts after := by
  unfold Supervisor.acts at acted
  cases known : supervisor.processes[index]? with
  | none =>
    rw [known] at acted
    cases acted
  | some group =>
    rw [known] at acted
    dsimp only at acted
    split_ifs at acted with allowed
    cases acted
    refine ⟨.changed rfl command (fun own found => ?_) le_rfl id, rfl, rfl⟩
    rw [known] at found
    cases found
    exact leader group allowed

theorem step_cases {happening : Happening} (stepped : supervisor.step happening = some after) :
    (happening.own = true ∧ ∃ middle fresh, supervisor.Drifts middle ∧
        middle.Grows after fresh ∧ Turn middle after fresh) ∨
      (happening.own = false ∧ supervisor.Drifts after) := by
  cases happening with
  | step late failure =>
    obtain ⟨fresh, grows, turn⟩ := advance_turn stepped
    refine .inl ⟨rfl, _, fresh, ?_, grows, turn⟩
    exact ⟨.same rfl (Nat.le_add_right _ _) id, rfl, rfl⟩
  | signal =>
    refine .inr ⟨rfl, ?_⟩
    unfold Supervisor.step at stepped
    dsimp only at stepped
    split at stepped
    · cases stepped
    · cases stepped
      exact ⟨.same rfl le_rfl fun _ => rfl, rfl, rfl⟩
  | exits index code =>
    refine .inr ⟨rfl, acts_drifts stepped (fun _ => rfl) fun group able => ?_⟩
    have running : group.leader = .running := of_decide_eq_true able
    constructor <;> simp [running]
  | forks index =>
    exact .inr ⟨rfl, acts_drifts stepped (fun _ => rfl) fun group _ => group.leader.keeps_refl⟩
  | leaves index =>
    exact .inr ⟨rfl, acts_drifts stepped (fun _ => rfl) fun group _ => group.leader.keeps_refl⟩

/-! ## The status -/

def Evidence (supervisor : Supervisor) (status : Int) : Prop :=
  ∃ group ∈ supervisor.processes, ∃ code, group.leader = .reaped code ∧ status = exitStatus code

structure Judged (commands : List Command) (supervisor : Supervisor) : Prop where
  started : supervisor.processes.map Group.command <+: commands
  planned : (∀ outcome, supervisor.phase.outcome? = some outcome → outcome.error = false) →
    supervisor.processes.map Group.command ++ supervisor.phase.left = commands
  stopped : ∀ result, supervisor.phase = .stopped result →
    supervisor.interrupted = true ∨ supervisor.Evidence result
  returned : ∀ status, supervisor.phase.outcome? = some (.returned status) →
    (supervisor.interrupted = true ∧ status = 130) ∨ supervisor.Evidence status
  inside : ∀ index outcome, supervisor.phase = .reaping index outcome →
    index < supervisor.processes.length

variable {fresh : List Command}

theorem Grows.length (grows : supervisor.Grows after fresh) :
    after.processes.length = supervisor.processes.length + fresh.length := by
  have lengths := congrArg List.length grows.commands
  rwa [List.length_map, List.length_append, List.length_map] at lengths

theorem Evidence.grows {status : Int}
    (evidence : supervisor.Evidence status) (grows : supervisor.Grows after fresh) :
    after.Evidence status := by
  obtain ⟨group, member, code, reaped, same⟩ := evidence
  obtain ⟨index, found⟩ := List.mem_iff_getElem?.mp member
  obtain ⟨older, there, keeps⟩ := grows.leaders index group found
  exact ⟨older, List.mem_of_getElem? there, code, keeps.reaped code reaped, same⟩

variable {commands : List Command}

theorem Judged.drifts (judged : supervisor.Judged commands) (drifts : supervisor.Drifts after) :
    after.Judged commands := by
  have same : after.processes.map Group.command = supervisor.processes.map Group.command := by
    rw [drifts.grows.commands, List.append_nil]
  constructor
  · rw [same]
    exact judged.started
  · rw [same, drifts.phase]
    exact judged.planned
  · rw [drifts.phase]
    exact fun result phase => (judged.stopped result phase).imp drifts.grows.interrupted
      fun evidence => evidence.grows drifts.grows
  · rw [drifts.phase]
    exact fun status outcome => (judged.returned status outcome).imp
      (And.imp_left drifts.grows.interrupted) fun evidence => evidence.grows drifts.grows
  · rw [drifts.phase, drifts.grows.length]
    exact judged.inside

theorem Judged.carries (judged : supervisor.Judged commands) (grows : supervisor.Grows after [])
    (outcome : after.phase.outcome? = supervisor.phase.outcome?)
    (left : after.phase.left = supervisor.phase.left)
    (running : ∀ result, after.phase ≠ .stopped result)
    (inside : ∀ index outcome, after.phase = .reaping index outcome →
      index < supervisor.processes.length) : after.Judged commands := by
  have same : after.processes.map Group.command = supervisor.processes.map Group.command := by
    rw [grows.commands, List.append_nil]
  constructor
  · rw [same]
    exact judged.started
  · rw [same, outcome, left]
    exact judged.planned
  · exact fun result phase => absurd phase (running result)
  · rw [outcome]
    exact fun status known => (judged.returned status known).imp
      (And.imp_left grows.interrupted) fun evidence => evidence.grows grows
  · rw [grows.length]
    exact inside

theorem Judged.turn (judged : supervisor.Judged commands)
    (grows : supervisor.Grows after fresh) (turn : Turn supervisor after fresh) :
    after.Judged commands := by
  have same : fresh = [] → after.processes.map Group.command =
      supervisor.processes.map Group.command := by
    intro none
    rw [grows.commands, none, List.append_nil]
  cases turn with
  | launched command left phase next =>
    have all := judged.planned (by simp [phase, Phase.outcome?])
    have grown : after.processes.map Group.command ++ left = commands := by
      rw [grows.commands, List.append_assoc, ← all, phase]
      rfl
    refine ⟨⟨left, grown⟩, fun _ => ?_, ?_, ?_, ?_⟩
    · rw [next]
      exact grown
    · simp [next]
    · simp [next, Phase.outcome?]
    · simp [next]
  | failed error watching next =>
    refine ⟨?_, fun clear => ?_, ?_, ?_, ?_⟩
    · rw [same rfl]
      exact judged.started
    · rw [next] at clear
      cases clear _ rfl
    · simp [next]
    · simp [next, Phase.outcome?]
    · simp [next]
  | refused _ _ error _ next =>
    refine ⟨?_, fun clear => ?_, ?_, ?_, ?_⟩
    · rw [same rfl]
      exact judged.started
    · rw [next] at clear
      cases clear _ rfl
    · simp [next]
    · simp [next, Phase.outcome?]
    · simp [next]
  | interrupted phase flag next =>
    refine ⟨?_, fun _ => ?_, fun _ _ => .inl (grows.interrupted flag), ?_, ?_⟩
    · rw [same rfl]
      exact judged.started
    · have all := judged.planned (by simp [phase, Phase.outcome?])
      rw [same rfl, ← all, phase, next]
      rfl
    · simp [next, Phase.outcome?]
    · simp [next]
  | found index group code phase found reaped next =>
    refine ⟨?_, fun _ => ?_, fun result known => .inr ?_, ?_, ?_⟩
    · rw [same rfl]
      exact judged.started
    · have all := judged.planned (by simp [phase, Phase.outcome?])
      rw [same rfl, ← all, phase, next]
      rfl
    · rw [next] at known
      cases known
      exact ⟨group, List.mem_of_getElem? found, code, reaped, rfl⟩
    · simp [next, Phase.outcome?]
    · simp [next]
  | decided result phase next =>
    refine ⟨?_, fun _ => ?_, ?_, fun status known => ?_, ?_⟩
    · rw [same rfl]
      exact judged.started
    · have all := judged.planned (by simp [phase, Phase.outcome?])
      rw [same rfl, ← all, phase, next]
      rfl
    · simp [next]
    · rw [next] at known
      cases flag : supervisor.interrupted with
      | true =>
        rw [flag] at known
        cases known
        exact .inl ⟨grows.interrupted flag, rfl⟩
      | false =>
        rw [flag] at known
        cases known
        have evidence := (judged.stopped result phase).resolve_left (by simp [flag])
        exact .inr (evidence.grows grows)
    · simp [next]
  | kills index outcome phase inside next =>
    apply judged.carries grows <;> simp [phase, next, Phase.outcome?, Phase.left]
    exact inside
  | begun phase next | scanned phase _ next | slept _ phase _ next | passed _ _ phase _ _ next
  | interrupts _ _ phase _ next | awaits _ _ phase _ next | polled _ _ phase _ _ next
  | rested _ _ phase _ _ _ _ next | tired _ _ phase next | settles _ _ phase _ next
  | ended _ _ phase _ next =>
    apply judged.carries grows <;> simp [phase, next, Phase.outcome?, Phase.left]

theorem judged_of_reachable (reached : Reachable Supervisor.step (initial commands) supervisor) :
    supervisor.Judged commands := by
  refine reached.invariant (fun state happening next judged stepped => ?_) ?_
  · obtain ⟨-, middle, fresh, drifts, grows, turn⟩ | ⟨-, drifts⟩ := step_cases stepped
    · exact (judged.drifts drifts).turn grows turn
    · exact judged.drifts drifts
  · refine ⟨List.nil_prefix, fun _ => rfl, ?_, ?_, ?_⟩
    · simp [initial]
    · simp [initial, Phase.outcome?]
    · simp [initial]

/-- A signal that arrives while the processes are watched decides the status. -/
theorem Turn.signalled (turn : Turn supervisor after fresh)
    (flag : supervisor.interrupted = true) (watching : supervisor.phase.watching = true) :
    after.phase.outcome? = none ∨ (∃ error, after.phase.outcome? = some (.raised error)) ∨
      after.phase.outcome? = some (.returned 130) := by
  cases turn with
  | failed error _ next => exact .inr (.inl ⟨error, by rw [next]; rfl⟩)
  | decided result _ next =>
    rw [flag] at next
    exact .inr (.inr (by rw [next]; rfl))
  | begun _ next | launched _ _ _ next | interrupted _ _ next | scanned _ _ next
  | slept _ _ _ next | passed _ _ _ _ _ next | found _ _ _ _ _ _ next =>
    exact .inl (by rw [next]; rfl)
  | interrupts _ _ phase | awaits _ _ phase | polled _ _ phase | rested _ _ phase
  | tired _ _ phase | kills _ _ phase | settles _ _ phase | ended _ _ phase =>
    rw [phase] at watching
    cases watching
  | refused _ _ _ phase =>
    obtain phase | phase := phase <;> rw [phase] at watching <;> cases watching

/-- Behind the loop the outcome stays, unless `killpg` is refused. -/
theorem Turn.outcome (turn : Turn supervisor after fresh)
    (finished : supervisor.phase.watching = false) :
    after.phase.watching = false ∧ (after.phase.outcome? = supervisor.phase.outcome? ∨
      ∃ error, after.phase.outcome? = some (.denied error)) := by
  cases turn with
  | failed _ watching =>
    rw [finished] at watching
    cases watching
  | begun phase | launched _ _ phase | interrupted phase | scanned phase | slept _ phase
  | passed _ _ phase | found _ _ _ phase | decided _ phase =>
    rw [phase] at finished
    cases finished
  | interrupts _ _ phase _ next | awaits _ _ phase _ next | polled _ _ phase _ _ next
  | rested _ _ phase _ _ _ _ next | tired _ _ phase next | kills _ _ phase _ next
  | settles _ _ phase _ next | ended _ _ phase _ next =>
    rw [phase, next]
    exact ⟨rfl, .inl rfl⟩
  | refused _ _ error _ next =>
    rw [next]
    exact ⟨rfl, .inr ⟨error, rfl⟩⟩

structure Signalled (supervisor : Supervisor) : Prop where
  watching : supervisor.phase.watching = true → supervisor.interrupted = true
  returned : ∀ status, supervisor.phase.outcome? = some (.returned status) → status = 130

theorem Signalled.drifts (signalled : supervisor.Signalled) (drifts : supervisor.Drifts after) :
    after.Signalled := by
  constructor
  · rw [drifts.phase]
    exact fun watching => drifts.grows.interrupted (signalled.watching watching)
  · rw [drifts.phase]
    exact signalled.returned

theorem Signalled.turn (signalled : supervisor.Signalled)
    (grows : supervisor.Grows after fresh) (turn : Turn supervisor after fresh) :
    after.Signalled := by
  cases watching : supervisor.phase.watching with
  | true =>
    have flag := signalled.watching watching
    refine ⟨fun _ => grows.interrupted flag, fun status known => ?_⟩
    obtain none | ⟨error, raised⟩ | decided := turn.signalled flag watching
    · rw [none] at known
      cases known
    · rw [raised] at known
      cases known
    · rw [decided] at known
      cases known
      rfl
  | false =>
    obtain ⟨finished, outcome⟩ := turn.outcome watching
    refine ⟨fun again => ?_, fun status known => ?_⟩
    · rw [finished] at again
      cases again
    · obtain same | ⟨error, denied⟩ := outcome
      · exact signalled.returned status (same ▸ known)
      · rw [denied] at known
        cases known

theorem Signalled.step {happening : Happening} (signalled : supervisor.Signalled)
    (stepped : supervisor.step happening = some after) : after.Signalled := by
  obtain ⟨-, middle, fresh, drifts, grows, turn⟩ | ⟨-, drifts⟩ := step_cases stepped
  · exact (signalled.drifts drifts).turn grows turn
  · exact signalled.drifts drifts

theorem signalled_of_signal (watching : supervisor.phase.watching = true)
    (stepped : supervisor.step .signal = some after) : after.Signalled := by
  unfold Supervisor.step at stepped
  cases phase : supervisor.phase <;> rw [phase] at watching stepped <;> cases watching <;>
    cases stepped <;> exact ⟨fun _ => rfl, by simp [Phase.outcome?]⟩

/-- When `supervise` returns, all commands were started, and its status is that of a process that
has exited, or 130 for a signal; a signal before the end of the watching loop always wins. -/
theorem supervise_status {happenings : List Happening} {status : Int}
    (ran : run Supervisor.step (initial commands) happenings = some supervisor)
    (ended : supervisor.phase = .ended (.returned status)) :
    supervisor.processes.map Group.command = commands ∧
      ((supervisor.interrupted = true ∧ status = 130) ∨ supervisor.Evidence status) ∧
      ∀ front rest middle, happenings = front ++ .signal :: rest →
        run Supervisor.step (initial commands) front = some middle →
        middle.phase.watching = true → status = 130 := by
  have judged := judged_of_reachable ⟨happenings, ran⟩
  refine ⟨?_, judged.returned status (by rw [ended]; rfl), ?_⟩
  · have all := judged.planned (by simp [ended, Phase.outcome?, Outcome.error])
    rw [ended] at all
    exact (List.append_nil _).symm.trans all
  · intro front rest middle split reached watching
    rw [split, run_append] at ran
    obtain ⟨same, before, later⟩ := ran
    rw [reached] at before
    cases before
    obtain ⟨next, taken, last⟩ := (run_cons _ _ _ _ _).mp later
    have signalled := signalled_of_signal watching taken
    have final := run_preserves (fun _ _ _ held stepped => Signalled.step held stepped) signalled last
    exact final.returned status (by rw [ended]; rfl)

theorem supervise_status_stubborn :
    ∃ supervisor, run Supervisor.step (initial [sampleBridge, sampleRobot]) stubbornRun =
        some supervisor ∧ supervisor.phase = .ended (.returned 3) ∧
      supervisor.processes.map Group.command = [sampleBridge, sampleRobot] ∧
      ((supervisor.interrupted = true ∧ (3 : Int) = 130) ∨ supervisor.Evidence 3) := by
  have ends : (run Supervisor.step (initial [sampleBridge, sampleRobot]) stubbornRun).map
      Supervisor.phase = some (.ended (.returned 3)) := by decide +kernel
  obtain ⟨supervisor, ran, ended⟩ := Option.map_eq_some_iff.mp ends
  obtain ⟨all, because, -⟩ := supervise_status ran ended
  exact ⟨supervisor, ran, ended, all, because⟩

end Supervisor

end Chimaera.Session
