import Chimaera.Base.Transition
import Chimaera.Session.Plan

/-! `runner.supervise`: the processes of a session are started one by one, watched until one of
them exits or a signal arrives, and then all stopped. Every command has a process group of its
own, whose members come and go while the supervisor acts, between any two of its steps. -/

namespace Chimaera.Session
open Base.Text Base.Transition

/-- The process that was started: `reaped` once `poll` or `wait` has returned its code. -/
inductive Leader where
  | running
  | exited (code : Int)
  | reaped (code : Int)
  deriving DecidableEq, Repr

def Leader.code? : Leader → Option Int
  | .running => none
  | .exited code => some code
  | .reaped code => some code

def Leader.reap : Leader → Leader
  | .exited code => .reaped code
  | leader => leader

/-- A signal to a group, with its time; `running` is whether the leader still ran. -/
inductive Sent where
  | interrupt (time : Nat)
  | kill (time : Nat) (running : Bool)
  deriving DecidableEq, Repr

structure Group where
  command : Command
  leader : Leader := .running
  others : Nat := 0
  sent : List Sent := []
  deriving DecidableEq, Repr

namespace Group

def living (group : Group) : Bool := group.leader = .running || 0 < group.others

/-- `killpg` finds the group; a leader that nobody has waited for is still a member. -/
def present (group : Group) : Bool := !(group.leader matches .reaped _) || 0 < group.others

def killed (group : Group) : Bool := group.sent.any fun sent => sent matches .kill _ _

/-- `killpg`; a missing group is passed over. A process of another user, which a signal to the
group leaves alone, counts as one that got it. -/
def send (group : Group) (sent : Sent) : Group :=
  if group.present then { group with sent := group.sent ++ [sent] } else group

def reap (group : Group) : Group := { group with leader := group.leader.reap }

end Group

/-- `denied` is an error of `killpg` other than `ProcessLookupError`, which leaves the `finally`
block at once: no process of a group may be signalled. -/
inductive Outcome where
  | returned (status : Int)
  | raised (error : Line)
  | denied (error : Line)
  deriving DecidableEq, Repr

inductive Phase where
  | starting (left : List Command)
  | checking
  | polling (next : Nat)
  | stopped (result : Int)
  | interrupting (next : Nat) (outcome : Outcome)
  | waiting (next : Nat) (outcome : Outcome)
  | killing (next : Nat) (outcome : Outcome)
  | reaping (next : Nat) (outcome : Outcome)
  | ended (outcome : Outcome)
  deriving DecidableEq, Repr

structure Supervisor where
  processes : List Group
  interrupted : Bool
  clock : Nat
  deadline : Nat
  phase : Phase
  deriving DecidableEq, Repr

inductive Happening where
  /-- The next step of `supervise`, with what it takes longer than its sleeps; a failure is that
  of `print`, `Popen` or `killpg`. -/
  | step (late : Nat) (failure : Option Line)
  | signal
  | exits (index : Nat) (code : Int)
  | forks (index : Nat)
  | leaves (index : Nat)
  deriving DecidableEq, Repr

def exitStatus (code : Int) : Int := if 0 ≤ code then code else 128 - code

namespace Supervisor

def initial (commands : List Command) : Supervisor :=
  { processes := [], interrupted := false, clock := 0, deadline := 0, phase := .starting commands }

def at_ (supervisor : Supervisor) (phase : Phase) : Supervisor := { supervisor with phase := phase }

def change (supervisor : Supervisor) (index : Nat) (update : Group → Group) : Supervisor :=
  { supervisor with processes := supervisor.processes.modify index update }

def sleep (supervisor : Supervisor) : Supervisor :=
  { supervisor with clock := supervisor.clock + 100 }

def denial (supervisor : Supervisor) (next : Nat) (failure : Option Line) : Option Line :=
  failure.filter fun _ => supervisor.processes[next]?.any Group.present

/-- The next step of `supervise`. It blocks in `wait` while the leader runs. -/
def advance (supervisor : Supervisor) (failure : Option Line) : Option Supervisor :=
  match supervisor.phase with
  | .starting [] => some (supervisor.at_ .checking)
  | .starting (command :: left) =>
      match failure with
      | some error => some (supervisor.at_ (.interrupting 0 (.raised error)))
      | none => some { supervisor with
          processes := supervisor.processes ++ [{ command := command }], phase := .starting left }
  | .checking =>
      some (supervisor.at_ (if supervisor.interrupted then .stopped 0 else .polling 0))
  | .polling next =>
      match supervisor.processes[next]? with
      | none => some (supervisor.sleep.at_ .checking)
      | some group =>
          match group.leader.code? with
          | none => some (supervisor.at_ (.polling (next + 1)))
          | some code =>
              let found := supervisor.change next Group.reap
              match failure with
              | some error => some (found.at_ (.interrupting 0 (.raised error)))
              | none => some (found.at_ (.stopped (exitStatus code)))
  | .stopped result =>
      some (supervisor.at_
        (.interrupting 0 (.returned (if supervisor.interrupted then 130 else result))))
  | .interrupting next outcome =>
      if next < supervisor.processes.length then
        match supervisor.denial next failure with
        | some error => some (supervisor.at_ (.ended (.denied error)))
        | none =>
            some ((supervisor.change next fun group => group.send (.interrupt supervisor.clock)).at_
              (.interrupting (next + 1) outcome))
      else some { supervisor with
        deadline := supervisor.clock + 10000, phase := .waiting 0 outcome }
  | .waiting next outcome =>
      match supervisor.processes[next]? with
      | none => some (supervisor.at_ (.killing 0 outcome))
      | some group =>
          if group.leader.code?.isSome then
            some ((supervisor.change next Group.reap).at_ (.waiting (next + 1) outcome))
          else if supervisor.clock < supervisor.deadline then
            some (supervisor.sleep.at_ (.waiting 0 outcome))
          else some (supervisor.at_ (.killing 0 outcome))
  | .killing next outcome =>
      if next < supervisor.processes.length then
        match supervisor.denial next failure with
        | some error => some (supervisor.at_ (.ended (.denied error)))
        | none =>
            some ((supervisor.change next fun group =>
              group.send (.kill supervisor.clock (group.leader = .running))).at_
              (.reaping next outcome))
      else some (supervisor.at_ (.ended outcome))
  | .reaping next outcome =>
      match supervisor.processes[next]? with
      | none => none
      | some group =>
          if group.leader = .running then none
          else some ((supervisor.change next Group.reap).at_ (.killing (next + 1) outcome))
  | .ended _ => none

def acts (supervisor : Supervisor) (index : Nat) (able : Group → Bool) (update : Group → Group) :
    Option Supervisor :=
  match supervisor.processes[index]? with
  | none => none
  | some group => if able group then some (supervisor.change index update) else none

def step (supervisor : Supervisor) : Happening → Option Supervisor
  | .step late failure =>
      { supervisor with clock := supervisor.clock + late }.advance failure
  | .signal =>
      match supervisor.phase with
      | .ended _ => none
      | _ => some { supervisor with interrupted := true }
  | .exits index code =>
      supervisor.acts index (fun group => group.leader = .running)
        fun group => { group with leader := .exited code }
  | .forks index =>
      supervisor.acts index (fun group => group.living && !group.killed)
        fun group => { group with others := group.others + 1 }
  | .leaves index =>
      supervisor.acts index (fun group => 0 < group.others)
        fun group => { group with others := group.others - 1 }

end Supervisor

/-! ## One group -/

namespace Group

/-- The group was interrupted, or there was no one left in it. -/
def Asked (group : Group) : Prop :=
  (∃ time, .interrupt time ∈ group.sent) ∨ group.present = false

/-- The leader was waited for, and whoever else is in the group was killed. -/
def Settled (group : Group) : Prop :=
  (∃ code, group.leader = .reaped code) ∧ (group.killed = true ∨ group.others = 0)

/-- A leader that is killed while it runs had ten seconds. -/
def Warned (group : Group) : Prop :=
  ∀ time, .kill time true ∈ group.sent →
    ∃ before, .interrupt before ∈ group.sent ∧ before + 10000 ≤ time

theorem present_eq_false {group : Group} :
    group.present = false ↔ (∃ code, group.leader = .reaped code) ∧ group.others = 0 := by
  cases known : group.leader <;> simp [present, known]

theorem killed_iff {group : Group} :
    group.killed = true ↔ ∃ time running, .kill time running ∈ group.sent := by
  rw [killed, List.any_eq_true]
  constructor
  · rintro ⟨sent, member, kill⟩
    cases sent with
    | interrupt time => cases kill
    | kill time running => exact ⟨time, running, member⟩
  · rintro ⟨time, running, member⟩
    exact ⟨_, member, rfl⟩

variable {group : Group}

theorem send_absent (absent : group.present = false) (sent : Sent) : group.send sent = group :=
  if_neg (by simp [absent])

theorem send_present (present : group.present = true) (sent : Sent) :
    group.send sent = { group with sent := group.sent ++ [sent] } := if_pos present

structure Ages (before after : Group) : Prop where
  command : after.command = before.command
  sent : after.sent = before.sent
  code : ∀ code, before.leader.code? = some code → after.leader.code? = some code
  reaped : ∀ code, before.leader = .reaped code → after.leader = .reaped code
  absent : before.present = false → after.present = false
  settled : before.Settled → after.Settled

theorem ages_reap : group.Ages group.reap := by
  cases known : group.leader <;> constructor <;>
    simp [reap, Leader.reap, Leader.code?, present, Settled, killed, known]

theorem ages_exits (running : group.leader = .running) (code : Int) :
    group.Ages { group with leader := .exited code } := by
  constructor <;> simp [running, Leader.code?, present, Settled]

theorem ages_forks (able : (group.living && !group.killed) = true) :
    group.Ages { group with others := group.others + 1 } := by
  obtain ⟨living, unkilled⟩ := (Bool.and_eq_true _ _).mp able
  -- A group without its leader and without others has no one to fork.
  have inhabited : ∀ code, group.leader = .reaped code → group.others ≠ 0 := by
    intro code reaped none
    simp [Group.living, reaped, none] at living
  refine ⟨rfl, rfl, fun _ => id, fun _ => id, fun absent => ?_, fun settled => ?_⟩
  · obtain ⟨⟨code, reaped⟩, none⟩ := present_eq_false.mp absent
    exact absurd none (inhabited code reaped)
  · obtain ⟨⟨code, reaped⟩, killed | none⟩ := settled
    · rw [killed] at unkilled
      cases unkilled
    · exact absurd none (inhabited code reaped)

theorem ages_leaves (able : 0 < group.others) :
    group.Ages { group with others := group.others - 1 } := by
  refine ⟨rfl, rfl, fun _ => id, fun _ => id, fun absent => ?_, fun settled => ?_⟩
  · have none := (present_eq_false.mp absent).2
    omega
  · exact ⟨settled.1, settled.2.imp id fun none => by omega⟩

theorem Ages.stopped {after : Group} (ages : group.Ages after) (stopped : group.leader ≠ .running) :
    after.leader ≠ .running := by
  intro running
  cases known : group.leader with
  | running => exact stopped known
  | exited code | reaped code =>
    have kept := ages.code code (by rw [known]; rfl)
    rw [running] at kept
    cases kept

theorem Ages.killed {after : Group} (ages : group.Ages after) : after.killed = group.killed := by
  rw [Group.killed, Group.killed, ages.sent]

theorem Ages.asked {after : Group} (ages : group.Ages after) (asked : group.Asked) :
    after.Asked := by
  rcases asked with ⟨time, sent⟩ | absent
  · exact .inl ⟨time, ages.sent ▸ sent⟩
  · exact .inr (ages.absent absent)

end Group

end Chimaera.Session
