import Chimaera.Session.Supervision

/-! How a session ends: the supervisor interrupts every group, waits for the leaders for at most
ten seconds, and kills what is left. The invariant follows its index through each of the loops. -/

namespace Chimaera.Session
open Base.Text Base.Transition

def Phase.asked (count : Nat) : Phase → Nat
  | .interrupting next _ => next
  | .ended (.denied _) => 0
  | .waiting _ _ | .killing _ _ | .reaping _ _ | .ended _ => count
  | _ => 0

def Phase.settled (count : Nat) : Phase → Nat
  | .killing next _ | .reaping next _ => next
  | .ended (.denied _) => 0
  | .ended _ => count
  | _ => 0

def Phase.late : Phase → Bool
  | .ended (.denied _) => false
  | .waiting _ _ | .killing _ _ | .reaping _ _ | .ended _ => true
  | _ => false

def Phase.final : Phase → Bool
  | .killing _ _ | .reaping _ _ => true
  | _ => false

namespace Supervisor

structure Sound (supervisor : Supervisor) (index : Nat) (group : Group) : Prop where
  asked : index < supervisor.phase.asked supervisor.processes.length → group.Asked
  settled : index < supervisor.phase.settled supervisor.processes.length → group.Settled
  times : ∀ time, .interrupt time ∈ group.sent → time ≤ supervisor.clock ∧
    (supervisor.phase.late = true → time + 10000 ≤ supervisor.deadline)
  warned : group.Warned
  patient : supervisor.phase.final = true →
    group.leader ≠ .running ∨ supervisor.deadline ≤ supervisor.clock
  polled : ∀ next outcome, supervisor.phase = .waiting next outcome → index < next →
    group.leader ≠ .running
  -- A group that is waited for is empty apart from its leader, or killed.
  reaping : ∀ outcome, supervisor.phase = .reaping index outcome →
    group.killed = true ∨ group.present = false

def Invariant (supervisor : Supervisor) : Prop :=
  ∀ index group, supervisor.processes[index]? = some group → supervisor.Sound index group

variable {group : Group} {outcome : Outcome} {next : Nat}

variable {update : Group → Group} {index : Nat}

theorem getElem_change {supervisor : Supervisor} {index other : Nat}
    (found : (supervisor.change index update).processes[other]? = some group) :
    ∃ before, supervisor.processes[other]? = some before ∧
      group = if index = other then update before else before := by
  rw [change, List.getElem?_modify] at found
  cases known : supervisor.processes[other]? with
  | none =>
    rw [known] at found
    cases found
  | some before =>
    rw [known] at found
    exact ⟨before, rfl, (Option.some.inj found).symm⟩

variable {supervisor after : Supervisor}

theorem Invariant.changed (invariant : supervisor.Invariant)
    (processes : after.processes = (supervisor.change index update).processes)
    (others : ∀ other group, other ≠ index → supervisor.Sound other group →
      after.Sound other group)
    (own : ∀ group, supervisor.processes[index]? = some group → supervisor.Sound index group →
      after.Sound index (update group)) : after.Invariant := by
  intro other group found
  rw [processes] at found
  obtain ⟨before, known, rfl⟩ := getElem_change found
  by_cases same : index = other
  · rw [if_pos same]
    subst same
    exact own before known (invariant index before known)
  · rw [if_neg same]
    exact others other before (Ne.symm same) (invariant other before known)

theorem Invariant.same (invariant : supervisor.Invariant)
    (processes : after.processes = supervisor.processes)
    (keep : ∀ index group, supervisor.processes[index]? = some group →
      supervisor.Sound index group → after.Sound index group) : after.Invariant := by
  intro index group found
  rw [processes] at found
  exact keep index group found (invariant index group found)

theorem Sound.ages {group older : Group} (sound : supervisor.Sound index group)
    (ages : group.Ages older) (phase : after.phase = supervisor.phase)
    (count : after.processes.length = supervisor.processes.length)
    (clock : supervisor.clock ≤ after.clock) (deadline : after.deadline = supervisor.deadline) :
    after.Sound index older := by
  constructor
  · rw [phase, count]
    exact fun inside => ages.asked (sound.asked inside)
  · rw [phase, count]
    exact fun inside => ages.settled (sound.settled inside)
  · intro time sent
    rw [ages.sent] at sent
    obtain ⟨past, due⟩ := sound.times time sent
    rw [phase, deadline]
    exact ⟨past.trans clock, due⟩
  · intro time sent
    rw [ages.sent] at sent ⊢
    exact sound.warned time sent
  · rw [phase, deadline]
    exact fun final => (sound.patient final).imp ages.stopped fun due => due.trans clock
  · rw [phase]
    exact fun next outcome waiting below => ages.stopped (sound.polled next outcome waiting below)
  · rw [phase, ages.killed]
    exact fun outcome reaping => (sound.reaping outcome reaping).imp_right ages.absent

theorem ages_refl (group : Group) : group.Ages group :=
  ⟨rfl, rfl, fun _ => id, fun _ => id, id, id⟩

theorem Invariant.later (invariant : supervisor.Invariant) (late : Nat) :
    { supervisor with clock := supervisor.clock + late }.Invariant :=
  invariant.same rfl fun _ group _ sound =>
    sound.ages (ages_refl group) rfl rfl (Nat.le_add_right _ _) rfl

theorem Invariant.acts {able : Group → Bool} (invariant : supervisor.Invariant)
    (ages : ∀ group, able group = true → group.Ages (update group))
    (acted : supervisor.acts index able update = some after) : after.Invariant := by
  unfold Supervisor.acts at acted
  cases known : supervisor.processes[index]? with
  | none =>
    rw [known] at acted
    cases acted
  | some group =>
    rw [known] at acted
    dsimp only at acted
    split_ifs at acted with allowed
    cases acted
    have count : (supervisor.change index update).processes.length =
      supervisor.processes.length := List.length_modify ..
    apply invariant.changed rfl
    · intro other unchanged _ sound
      exact sound.ages (ages_refl unchanged) rfl count le_rfl rfl
    · intro own found sound
      rw [known] at found
      cases found
      exact sound.ages (ages group allowed) rfl count le_rfl rfl

theorem Sound.moves (sound : supervisor.Sound index group)
    (clock : supervisor.clock ≤ after.clock)
    (asked : index < after.phase.asked after.processes.length →
      index < supervisor.phase.asked supervisor.processes.length)
    (settled : index < after.phase.settled after.processes.length →
      index < supervisor.phase.settled supervisor.processes.length)
    (late : after.phase.late = true →
      supervisor.phase.late = true ∧ after.deadline = supervisor.deadline)
    (patient : after.phase.final = true →
      group.leader ≠ .running ∨ after.deadline ≤ after.clock)
    (polled : ∀ next outcome, after.phase = .waiting next outcome → index < next →
      group.leader ≠ .running)
    (reaping : ∀ outcome, after.phase = .reaping index outcome →
      group.killed = true ∨ group.present = false) : after.Sound index group where
  asked inside := sound.asked (asked inside)
  settled inside := sound.settled (settled inside)
  times time sent := by
    obtain ⟨past, due⟩ := sound.times time sent
    refine ⟨past.trans clock, fun set => ?_⟩
    obtain ⟨earlier, same⟩ := late set
    rw [same]
    exact due earlier
  warned := sound.warned
  patient := patient
  polled := polled
  reaping := reaping

theorem Sound.early (sound : supervisor.Sound index group) (clock : supervisor.clock ≤ after.clock)
    (asked : after.phase.asked after.processes.length = 0) (late : after.phase.late = false) :
    after.Sound index group := by
  have settled : after.phase.settled after.processes.length = 0 := by
    cases known : after.phase with
    | ended outcome => cases outcome <;> simp [known, Phase.late, Phase.settled] at late ⊢
    | _ => simp [known, Phase.late, Phase.settled] at late ⊢
  cases known : after.phase <;> simp [known, Phase.late] at late <;>
    exact sound.moves clock (by simp [asked]) (by simp [settled])
      (by simp [known, Phase.late, late]) (by simp [known, Phase.final]) (by simp [known])
      (by simp [known])

theorem Invariant.early (invariant : supervisor.Invariant)
    (processes : after.processes = supervisor.processes) (clock : supervisor.clock ≤ after.clock)
    (asked : after.phase.asked after.processes.length = 0) (late : after.phase.late = false) :
    after.Invariant :=
  invariant.same processes fun _ _ _ sound => sound.early clock asked late

theorem Invariant.reap (invariant : supervisor.Invariant) (index : Nat) :
    (supervisor.change index Group.reap).Invariant := by
  have count : (supervisor.change index Group.reap).processes.length =
    supervisor.processes.length := List.length_modify ..
  apply invariant.changed rfl
  · exact fun _ group _ sound => sound.ages (ages_refl group) rfl count le_rfl rfl
  · exact fun group _ sound => sound.ages Group.ages_reap rfl count le_rfl rfl

theorem Invariant.started (invariant : supervisor.Invariant) (command : Command)
    (left : List Command) : Invariant { supervisor with
      processes := supervisor.processes ++ [{ command := command }], phase := .starting left } := by
  intro index group found
  rcases Nat.lt_or_ge index supervisor.processes.length with inside | outside
  · rw [List.getElem?_append_left inside] at found
    exact (invariant index group found).early le_rfl rfl rfl
  · rw [List.getElem?_append_right outside] at found
    rw [List.getElem?_singleton] at found
    split_ifs at found
    cases found
    constructor <;> simp [Phase.asked, Phase.settled, Phase.final, Group.Warned]

theorem Invariant.interrupt (invariant : supervisor.Invariant)
    (phase : supervisor.phase = .interrupting next outcome) :
    ((supervisor.change next fun group => group.send (.interrupt supervisor.clock)).at_
      (.interrupting (next + 1) outcome)).Invariant := by
  refine invariant.changed rfl ?_ ?_
  · intro other group apart sound
    refine sound.moves le_rfl ?_ ?_ ?_ ?_ ?_ ?_ <;>
      simp only [phase, at_, Phase.asked, Phase.settled, Phase.late, Phase.final]
    · omega
    all_goals simp
  · intro group found sound
    by_cases present : group.present = true
    · rw [Group.send_present present]
      refine ⟨fun _ => ?_, ?_, fun time sent => ⟨?_, ?_⟩, fun time sent => ?_, ?_, ?_, ?_⟩
      · exact .inl ⟨supervisor.clock, List.mem_append_right _ List.mem_cons_self⟩
      · simp [at_, Phase.settled]
      · rcases List.mem_append.mp sent with earlier | now
        · exact (sound.times time earlier).1
        · cases List.mem_singleton.mp now
          exact le_rfl
      · simp [at_, Phase.late]
      · rcases List.mem_append.mp sent with earlier | now
        · obtain ⟨before, warned, due⟩ := sound.warned time earlier
          exact ⟨before, List.mem_append_left _ warned, due⟩
        · cases List.mem_singleton.mp now
      · simp [at_, Phase.final]
      · simp [at_]
      · simp [at_]
    · have absent : group.present = false := Bool.eq_false_iff.mpr present
      rw [Group.send_absent absent]
      refine ⟨fun _ => .inr absent, ?_, fun time sent => ⟨(sound.times time sent).1, ?_⟩,
        sound.warned, ?_, ?_, ?_⟩ <;> simp [at_, Phase.settled, Phase.late, Phase.final]

theorem Invariant.wait (invariant : supervisor.Invariant)
    (phase : supervisor.phase = .interrupting next outcome)
    (all : ¬next < supervisor.processes.length) :
    Invariant { supervisor with
      deadline := supervisor.clock + 10000, phase := .waiting 0 outcome } := by
  refine invariant.same rfl ?_
  intro index group found sound
  have below := (List.getElem?_eq_some_iff.mp found).1
  have past := fun time sent => (sound.times time sent).1
  refine ⟨fun _ => sound.asked ?_, ?_, fun time sent => ⟨past time sent, fun _ => ?_⟩,
    sound.warned, ?_, ?_, ?_⟩
  · rw [phase]
    simp only [Phase.asked]
    omega
  · simp [Phase.settled]
  · exact Nat.add_le_add_right (past time sent) 10000
  · simp [Phase.final]
  · rintro _ _ ⟨⟩ inside
    exact absurd inside (Nat.not_lt_zero index)
  · simp

theorem Invariant.poll (invariant : supervisor.Invariant)
    (phase : supervisor.phase = .waiting next outcome)
    (known : supervisor.processes[next]? = some group) (stopped : group.leader ≠ .running) :
    ((supervisor.change next Group.reap).at_ (.waiting (next + 1) outcome)).Invariant := by
  refine (invariant.reap next).same rfl ?_
  intro index older found sound
  refine sound.moves le_rfl ?_ ?_ ?_ ?_ ?_ ?_ <;>
    simp only [phase, change, at_, Phase.asked, Phase.settled, Phase.late, Phase.final]
  · exact id
  · simp
  · simp
  · simp
  · rintro _ _ ⟨⟩ inside
    by_cases own : index = next
    · obtain ⟨before, same, rfl⟩ := getElem_change found
      rw [own, known] at same
      cases same
      rw [if_pos own.symm]
      exact Group.ages_reap.stopped stopped
    · exact sound.polled next outcome phase (by omega)
  · simp

theorem Invariant.rest (invariant : supervisor.Invariant)
    (phase : supervisor.phase = .waiting next outcome) :
    (supervisor.sleep.at_ (.waiting 0 outcome)).Invariant := by
  refine invariant.same rfl ?_
  intro index group found sound
  refine sound.moves (Nat.le_add_right _ _) ?_ ?_ ?_ ?_ ?_ ?_ <;>
    simp only [phase, sleep, at_, Phase.asked, Phase.settled, Phase.late, Phase.final]
  · exact id
  · simp
  · simp
  · simp
  · rintro _ _ ⟨⟩ inside
    exact absurd inside (Nat.not_lt_zero index)
  · simp

/-- The round that kills begins when all leaders have exited or the time is over. -/
theorem Invariant.finish (invariant : supervisor.Invariant)
    (phase : supervisor.phase = .waiting next outcome)
    (finished : supervisor.processes.length ≤ next ∨ supervisor.deadline ≤ supervisor.clock) :
    (supervisor.at_ (.killing 0 outcome)).Invariant := by
  refine invariant.same rfl ?_
  intro index group found sound
  have below := (List.getElem?_eq_some_iff.mp found).1
  refine sound.moves le_rfl ?_ ?_ ?_ ?_ ?_ ?_ <;>
    simp only [phase, at_, Phase.asked, Phase.settled, Phase.late, Phase.final]
  · exact id
  · exact id
  · simp
  · intro _
    rcases finished with all | due
    · exact .inl (sound.polled next outcome phase (by omega))
    · exact .inr due
  · simp
  · simp

theorem Invariant.kill (invariant : supervisor.Invariant)
    (phase : supervisor.phase = .killing next outcome) :
    ((supervisor.change next fun group =>
      group.send (.kill supervisor.clock (group.leader = .running))).at_
      (.reaping next outcome)).Invariant := by
  have count : (supervisor.change next fun group =>
      group.send (.kill supervisor.clock (group.leader = .running))).processes.length =
    supervisor.processes.length := List.length_modify ..
  refine invariant.changed rfl ?_ ?_
  · intro other group apart sound
    have patient := sound.patient (by rw [phase]; rfl)
    refine sound.moves le_rfl ?_ ?_ ?_ ?_ ?_ ?_ <;>
      simp only [phase, at_, count, Phase.asked, Phase.settled, Phase.late, Phase.final]
    · exact id
    · exact id
    · exact fun _ => ⟨trivial, rfl⟩
    · exact fun _ => patient
    · simp
    · rintro _ ⟨⟩
      exact absurd rfl apart
  · intro group found sound
    have below := (List.getElem?_eq_some_iff.mp found).1
    have patient := sound.patient (by rw [phase]; rfl)
    have asked := sound.asked (by rw [phase]; exact below)
    have due := fun time sent => (sound.times time sent).2 (by rw [phase]; rfl)
    by_cases present : group.present = true
    · rw [Group.send_present present]
      refine ⟨fun _ => ?_, ?_, fun time sent => ?_, fun time sent => ?_, fun _ => patient, ?_,
        fun _ _ => .inl ?_⟩
      · refine .inl (asked.elim (fun sent => ?_) fun absent => ?_)
        · exact sent.imp fun time earlier => List.mem_append_left _ earlier
        · rw [present] at absent
          cases absent
      · simp [at_, Phase.settled]
      · rcases List.mem_append.mp sent with earlier | now
        · exact ⟨(sound.times time earlier).1, fun _ => due time earlier⟩
        · cases List.mem_singleton.mp now
      · rcases List.mem_append.mp sent with earlier | now
        · obtain ⟨before, warned, past⟩ := sound.warned time earlier
          exact ⟨before, List.mem_append_left _ warned, past⟩
        · -- A leader that still runs was interrupted, and the deadline is over.
          obtain ⟨rfl, ran⟩ := Sent.kill.inj (List.mem_singleton.mp now)
          have running : group.leader = .running := of_decide_eq_true ran.symm
          have finished := patient.resolve_left (not_not.mpr running)
          rcases asked with ⟨before, warned⟩ | absent
          · exact ⟨before, List.mem_append_left _ warned, (due before warned).trans finished⟩
          · rw [present] at absent
            cases absent
      · simp [at_]
      · exact Group.killed_iff.mpr ⟨_, _, List.mem_append_right _ List.mem_cons_self⟩
    · have absent : group.present = false := Bool.eq_false_iff.mpr present
      rw [Group.send_absent absent]
      refine ⟨fun _ => asked, ?_, fun time sent => ?_, sound.warned, fun _ => patient, ?_,
        fun _ _ => .inr absent⟩
      · simp [at_, Phase.settled]
      · exact ⟨(sound.times time sent).1, fun _ => due time sent⟩
      · simp [at_]

theorem Invariant.settle (invariant : supervisor.Invariant)
    (phase : supervisor.phase = .reaping next outcome)
    (known : supervisor.processes[next]? = some group) (stopped : group.leader ≠ .running) :
    ((supervisor.change next Group.reap).at_ (.killing (next + 1) outcome)).Invariant := by
  have own := (invariant next group known).reaping outcome phase
  have reaped : group.reap.Settled := by
    refine ⟨?_, own.imp_right fun (absent : group.present = false) =>
      (Group.present_eq_false.mp absent).2⟩
    cases leader : group.leader with
    | running => exact absurd leader stopped
    | exited code | reaped code => exact ⟨code, by simp [Group.reap, Leader.reap, leader]⟩
  refine (invariant.reap next).same rfl ?_
  intro index older found sound
  have patient := sound.patient (by simp [change, phase, Phase.final])
  constructor
  · exact fun inside => sound.asked (by simpa [phase, change, at_, Phase.asked] using inside)
  · intro inside
    by_cases here : index = next
    · obtain ⟨before, same, rfl⟩ := getElem_change found
      rw [here, known] at same
      cases same
      rw [if_pos here.symm]
      exact reaped
    · simp only [at_, Phase.settled] at inside
      exact sound.settled (by simp only [phase, change, Phase.settled]; omega)
  · intro time sent
    exact (sound.times time sent).imp_right fun due _ => due (by simp [change, phase, Phase.late])
  · exact sound.warned
  · exact fun _ => patient
  · simp [at_]
  · simp [at_]

theorem Invariant.end_ (invariant : supervisor.Invariant)
    (phase : supervisor.phase = .killing next outcome) (all : ¬next < supervisor.processes.length) :
    (supervisor.at_ (.ended outcome)).Invariant := by
  refine invariant.same rfl ?_
  intro index group found sound
  have below := (List.getElem?_eq_some_iff.mp found).1
  cases outcome with
  | denied error => exact sound.early le_rfl rfl rfl
  | returned status | raised error =>
    refine sound.moves le_rfl ?_ ?_ ?_ ?_ ?_ ?_ <;>
      simp only [phase, at_, Phase.asked, Phase.settled, Phase.late, Phase.final]
    · exact id
    · omega
    all_goals simp

theorem Invariant.advance {failure : Option Line} (invariant : supervisor.Invariant)
    (advanced : supervisor.advance failure = some after) : after.Invariant := by
  unfold Supervisor.advance at advanced
  cases phase : supervisor.phase with
  | starting left =>
    rw [phase] at advanced
    cases left with
    | nil =>
      cases advanced
      exact invariant.early rfl le_rfl rfl rfl
    | cons command left =>
      cases failure with
      | none =>
        cases advanced
        exact invariant.started command left
      | some error =>
        cases advanced
        exact invariant.early rfl le_rfl rfl rfl
  | checking =>
    rw [phase] at advanced
    cases advanced
    refine invariant.early rfl le_rfl ?_ ?_
    · cases flag : supervisor.interrupted <;> simp [at_, Phase.asked]
    · cases flag : supervisor.interrupted <;> simp [at_, Phase.late]
  | polling next =>
    rw [phase] at advanced
    dsimp only at advanced
    split at advanced
    · cases advanced
      exact invariant.early rfl (Nat.le_add_right _ _) rfl rfl
    · next group found =>
      split at advanced
      · cases advanced
        exact invariant.early rfl le_rfl rfl rfl
      · cases failure with
        | none =>
          cases advanced
          exact (invariant.reap next).early rfl le_rfl rfl rfl
        | some error =>
          cases advanced
          exact (invariant.reap next).early rfl le_rfl rfl rfl
  | stopped result =>
    rw [phase] at advanced
    cases advanced
    exact invariant.early rfl le_rfl rfl rfl
  | interrupting next outcome =>
    rw [phase] at advanced
    dsimp only at advanced
    split_ifs at advanced with inside
    · split at advanced
      · cases advanced
        exact invariant.early rfl le_rfl rfl rfl
      · cases advanced
        exact invariant.interrupt phase
    · cases advanced
      exact invariant.wait phase inside
  | waiting next outcome =>
    rw [phase] at advanced
    dsimp only at advanced
    split at advanced
    · next missing =>
      cases advanced
      exact invariant.finish phase (.inl (List.getElem?_eq_none_iff.mp missing))
    · next group found =>
      split_ifs at advanced with stopped early
      · cases advanced
        apply invariant.poll phase found
        intro running
        rw [running] at stopped
        cases stopped
      · cases advanced
        exact invariant.rest phase
      · cases advanced
        exact invariant.finish phase (.inr (Nat.le_of_not_lt early))
  | killing next outcome =>
    rw [phase] at advanced
    dsimp only at advanced
    split_ifs at advanced with inside
    · split at advanced
      · cases advanced
        exact invariant.early rfl le_rfl rfl rfl
      · cases advanced
        exact invariant.kill phase
    · cases advanced
      exact invariant.end_ phase inside
  | reaping next outcome =>
    rw [phase] at advanced
    dsimp only at advanced
    split at advanced
    · cases advanced
    · next group found =>
      split_ifs at advanced with running
      cases advanced
      exact invariant.settle phase found running
  | ended outcome =>
    rw [phase] at advanced
    cases advanced

theorem Invariant.step {happening : Happening} (invariant : supervisor.Invariant)
    (stepped : supervisor.step happening = some after) : after.Invariant := by
  cases happening with
  | step late failure => exact (invariant.later late).advance stepped
  | signal =>
    unfold Supervisor.step at stepped
    dsimp only at stepped
    split at stepped
    · cases stepped
    · cases stepped
      exact invariant.same rfl fun _ group _ sound =>
        sound.ages (ages_refl group) rfl rfl le_rfl rfl
  | exits index code =>
    exact invariant.acts (fun group able => Group.ages_exits (of_decide_eq_true able) code) stepped
  | forks index => exact invariant.acts (fun group able => Group.ages_forks able) stepped
  | leaves index =>
    exact invariant.acts (fun group able => Group.ages_leaves (of_decide_eq_true able)) stepped

def sampleBridge : Command := ⟨text "host_bridge", [text "host_bridge"]⟩

def sampleRobot : Command := ⟨text "robot", [text "ros2", text "launch"]⟩

def stubbornRun : List Happening :=
  [.step 0 none, .step 0 none, .step 0 none, .forks 1, .exits 0 3] ++
    List.replicate 8 (.step 0 none) ++ [.step 20000 none] ++ List.replicate 4 (.step 0 none) ++
    [.exits 1 (-9), .leaves 1, .step 0 none, .step 0 none]

end Supervisor

end Chimaera.Session
