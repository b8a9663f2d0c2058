import Chimaera.Session.Verdict

/-! Once a process has exited or a signal has arrived, `supervise` comes to its end in a bounded
number of its own steps, whatever the processes do meanwhile. -/

namespace Chimaera.Session
open Base.Transition

def Phase.quiet : Phase → Bool
  | .starting _ | .checking | .polling _ => true
  | _ => false

namespace Supervisor

def count (supervisor : Supervisor) : Nat :=
  supervisor.processes.length + supervisor.phase.left.length

def exitedFrom (supervisor : Supervisor) (index : Nat) : Bool :=
  (supervisor.processes.drop index).any fun group => group.leader ≠ .running

def rounds (supervisor : Supervisor) : Nat := (supervisor.deadline - supervisor.clock + 99) / 100

def Due (supervisor : Supervisor) : Prop :=
  supervisor.phase.quiet = true → supervisor.interrupted = true ∨ supervisor.exitedFrom 0 = true

def remaining (supervisor : Supervisor) : Nat :=
  match supervisor.phase with
  | .starting left => left.length + 1 + (105 * supervisor.count + 105)
  | .checking => 105 * supervisor.count + 105
  | .polling next =>
      if supervisor.exitedFrom next then
        supervisor.count - next + (104 * supervisor.count + 104)
      else supervisor.count - next + 1 + (105 * supervisor.count + 105)
  | .stopped _ => 104 * supervisor.count + 104
  | .interrupting next _ => supervisor.count - next + 1 + (103 * supervisor.count + 102)
  | .waiting next _ =>
      supervisor.count - next + 1 + (supervisor.count + 1) * supervisor.rounds +
        (2 * supervisor.count + 1)
  | .killing next _ => 2 * (supervisor.count - next) + 1
  | .reaping next _ => 2 * (supervisor.count - next)
  | .ended _ => 0

variable {supervisor after : Supervisor} {fresh : List Command}

theorem exitedFrom_iff {index : Nat} :
    supervisor.exitedFrom index = true ↔ ∃ place group, index ≤ place ∧
      supervisor.processes[place]? = some group ∧ group.leader ≠ .running := by
  rw [exitedFrom, List.any_eq_true]
  constructor
  · rintro ⟨group, member, stopped⟩
    obtain ⟨offset, found⟩ := List.mem_iff_getElem?.mp member
    rw [List.getElem?_drop] at found
    exact ⟨index + offset, group, Nat.le_add_right _ _, found, of_decide_eq_true stopped⟩
  · rintro ⟨place, group, behind, found, stopped⟩
    refine ⟨group, List.mem_iff_getElem?.mpr ⟨place - index, ?_⟩, decide_eq_true stopped⟩
    rw [List.getElem?_drop, Nat.add_sub_cancel' behind, found]

theorem Grows.exitedFrom {index : Nat} (grows : supervisor.Grows after fresh)
    (exited : supervisor.exitedFrom index = true) : after.exitedFrom index = true := by
  obtain ⟨place, group, behind, found, stopped⟩ := exitedFrom_iff.mp exited
  obtain ⟨older, there, keeps⟩ := grows.leaders place group found
  exact exitedFrom_iff.mpr ⟨place, older, behind, there, keeps.stopped stopped⟩

/-! ## Reasons stay -/

theorem Due.grows (due : supervisor.Due) (grows : supervisor.Grows after fresh)
    (quiet : after.phase.quiet = true → supervisor.phase.quiet = true) : after.Due := by
  intro now
  exact (due (quiet now)).imp grows.interrupted grows.exitedFrom

theorem Turn.quiet (turn : Turn supervisor after fresh) (quiet : after.phase.quiet = true) :
    supervisor.phase.quiet = true := by
  cases turn with
  | begun phase | launched _ _ phase | scanned phase | slept _ phase | passed _ _ phase =>
    rw [phase]
    rfl
  | failed _ _ next | interrupted _ _ next | found _ _ _ _ _ _ next | decided _ _ next
  | interrupts _ _ _ _ next | awaits _ _ _ _ next | polled _ _ _ _ _ next
  | rested _ _ _ _ _ _ _ next | tired _ _ _ next | kills _ _ _ _ next | settles _ _ _ _ next
  | ended _ _ _ _ next | refused _ _ _ _ next =>
    rw [next] at quiet
    cases quiet

theorem Due.step {happening : Happening} (due : supervisor.Due)
    (stepped : supervisor.step happening = some after) : after.Due := by
  obtain ⟨-, middle, fresh, drifts, grows, turn⟩ | ⟨-, drifts⟩ := step_cases stepped
  · have early : middle.Due := due.grows drifts.grows (by rw [drifts.phase]; exact id)
    exact early.grows grows turn.quiet
  · exact due.grows drifts.grows (by rw [drifts.phase]; exact id)

/-! ## The measure -/

theorem Drifts.remaining (drifts : supervisor.Drifts after) :
    after.remaining ≤ supervisor.remaining := by
  have length : after.processes.length = supervisor.processes.length := drifts.grows.length
  have count : after.count = supervisor.count := by rw [count, count, length, drifts.phase]
  have rounds : after.rounds ≤ supervisor.rounds := by
    have clock := drifts.grows.clock
    rw [rounds, rounds, drifts.deadline]
    exact Nat.div_le_div_right (by omega)
  unfold Supervisor.remaining
  rw [drifts.phase, count]
  cases phase : supervisor.phase with
  | polling next =>
    dsimp only
    cases exited : supervisor.exitedFrom next with
    | true => rw [drifts.grows.exitedFrom exited]
    | false =>
      rw [if_neg Bool.false_ne_true]
      split_ifs <;> omega
  | waiting next outcome =>
    have product := Nat.mul_le_mul_left (supervisor.count + 1) rounds
    dsimp only
    omega
  | _ => exact le_rfl

theorem remaining_polling_le {next : Nat} (phase : supervisor.phase = .polling next) :
    supervisor.remaining ≤ supervisor.processes.length - next + 1 +
      (105 * supervisor.processes.length + 105) := by
  simp only [remaining, count, phase, Phase.left, List.length_nil, Nat.add_zero]
  split_ifs <;> omega

theorem Turn.remaining (turn : Turn supervisor after fresh) (grows : supervisor.Grows after fresh)
    (due : supervisor.Due) : after.remaining + 1 ≤ supervisor.remaining := by
  have length := grows.length
  cases turn with
  | begun phase next | launched _ _ phase next | interrupted phase _ next
  | decided _ phase next | interrupts _ _ phase inside next
  | tired _ _ phase next | kills _ _ phase _ next | settles _ _ phase _ next
  | ended _ _ phase _ next =>
    simp only [Supervisor.remaining, count, phase, next, Phase.left, length, List.length_cons,
      List.length_nil]
    omega
  | refused index outcome error phase next =>
    obtain phase | phase := phase <;> simp only [Supervisor.remaining, phase, next] <;> omega
  | failed error watching next =>
    have plain : after.remaining = 104 * supervisor.processes.length + 103 := by
      simp only [Supervisor.remaining, count, next, Phase.left, length, List.length_nil]
      omega
    rw [plain]
    cases phase : supervisor.phase with
    | starting left | checking | stopped result =>
      simp only [Supervisor.remaining, count, phase, Phase.left, List.length_nil]
      omega
    | polling index =>
      simp only [Supervisor.remaining, count, phase, Phase.left, List.length_nil]
      split_ifs <;> omega
    | _ =>
      rw [phase] at watching
      cases watching
  | scanned phase flag next =>
    -- Without a signal it is a leader that has exited, and this round finds it.
    have exited : supervisor.exitedFrom 0 = true := by
      refine (due (by rw [phase]; rfl)).resolve_left ?_
      rw [flag]
      exact Bool.false_ne_true
    simp only [Supervisor.remaining, count, phase, next, Phase.left, length, List.length_nil,
      if_pos (grows.exitedFrom exited)]
    omega
  | slept index phase all next =>
    have none : ¬(supervisor.exitedFrom index = true) := by
      intro exited
      obtain ⟨place, group, behind, found, -⟩ := exitedFrom_iff.mp exited
      have inside := (List.getElem?_eq_some_iff.mp found).1
      omega
    simp only [Supervisor.remaining, count, phase, next, Phase.left, length, List.length_nil,
      if_neg none]
    omega
  | passed index group phase found running next =>
    have inside := (List.getElem?_eq_some_iff.mp found).1
    by_cases exited : supervisor.exitedFrom index = true
    · have later : supervisor.exitedFrom (index + 1) = true := by
        obtain ⟨place, other, behind, there, stopped⟩ := exitedFrom_iff.mp exited
        refine exitedFrom_iff.mpr ⟨place, other, Nat.lt_of_le_of_ne behind ?_, there, stopped⟩
        rintro rfl
        rw [found] at there
        cases there
        exact stopped running
      simp only [Supervisor.remaining, count, phase, next, Phase.left, length, List.length_nil,
        if_pos exited, if_pos (grows.exitedFrom later)]
      omega
    · have bound := remaining_polling_le next
      have whole : supervisor.remaining = supervisor.processes.length - index + 1 +
          (105 * supervisor.processes.length + 105) := by
        simp only [Supervisor.remaining, count, phase, Phase.left, List.length_nil,
          Nat.add_zero, if_neg exited]
      rw [length, List.length_nil] at bound
      omega
  | found index group code phase found reaped next =>
    have inside := (List.getElem?_eq_some_iff.mp found).1
    rw [length, List.length_nil] at inside
    simp only [Supervisor.remaining, count, phase, next, Phase.left, length, List.length_nil]
    split_ifs <;> omega
  | awaits index outcome phase deadline next =>
    have rounds : after.rounds = 100 := by
      rw [Supervisor.rounds, deadline]
      omega
    simp only [Supervisor.remaining, count, phase, next, rounds, Phase.left, length,
      List.length_nil]
    omega
  | polled index outcome phase inside deadline next =>
    have clock := grows.clock
    have rounds : after.rounds ≤ supervisor.rounds := by
      rw [Supervisor.rounds, Supervisor.rounds, deadline]
      exact Nat.div_le_div_right (by omega)
    have product := Nat.mul_le_mul_left (supervisor.processes.length + 1) rounds
    simp only [Supervisor.remaining, count, phase, next, Phase.left, length, List.length_nil,
      Nat.add_zero]
    omega
  | rested index outcome phase inside early slept deadline next =>
    have rounds : after.rounds + 1 ≤ supervisor.rounds := by
      rw [Supervisor.rounds, Supervisor.rounds, deadline]
      omega
    have product := Nat.mul_le_mul_left (supervisor.processes.length + 1) rounds
    rw [Nat.mul_add, Nat.mul_one] at product
    simp only [Supervisor.remaining, count, phase, next, Phase.left, length, List.length_nil,
      Nat.add_zero]
    omega

def Timed (supervisor : Supervisor) : Prop :=
  ∀ next outcome, supervisor.phase = .waiting next outcome →
    supervisor.deadline ≤ supervisor.clock + 10000

theorem Timed.drifts (timed : supervisor.Timed) (drifts : supervisor.Drifts after) :
    after.Timed := by
  intro next outcome phase
  have due := timed next outcome (drifts.phase ▸ phase)
  have clock := drifts.grows.clock
  rw [drifts.deadline]
  omega

theorem Timed.turn (timed : supervisor.Timed) (grows : supervisor.Grows after fresh)
    (turn : Turn supervisor after fresh) : after.Timed := by
  have clock := grows.clock
  intro index outcome waiting
  cases turn with
  | awaits _ _ _ deadline next => exact deadline.le
  | polled _ _ phase _ deadline next | rested _ _ phase _ _ _ deadline next =>
    have due := timed _ _ phase
    omega
  | begun _ next | launched _ _ _ next | failed _ _ next | interrupted _ _ next
  | scanned _ _ next | slept _ _ _ next | passed _ _ _ _ _ next | found _ _ _ _ _ _ next
  | decided _ _ next | interrupts _ _ _ _ next | tired _ _ _ next | kills _ _ _ _ next
  | settles _ _ _ _ next | ended _ _ _ _ next | refused _ _ _ _ next =>
    rw [next] at waiting
    cases waiting

variable {commands : List Command}

end Supervisor

end Chimaera.Session
