import Mathlib.Algebra.Group.Prod
import Mathlib.Algebra.Ring.Int.Defs
import Mathlib.Tactic.SplitIfs
import Chimaera.Base.Transition
import Chimaera.Gazebo.Controller

/-! What the verification of a step is worth over many steps. A completed step is exact from
the clock it read to the clock it verified; the clock it read is whatever the statistics
said at the end of its gem5 phase, so a whole run is exact only if nothing moved in between. -/

namespace Chimaera.Gazebo
open Base.Segments Base.Text Base.Transition

def duration (segments : List (Segment Stamp)) : Int :=
  (segments.map fun segment : Segment Stamp => segment.length.2).sum

/-- The clock at the end of the last step, less the clock that the first step read, is what
all the intervals together ask for. -/
def Lockstep (physicsStep : Int) (segments : List (Segment Stamp)) : Prop :=
  ∀ first ∈ segments.head?, ∀ last ∈ segments.getLast?,
    last.finish - first.base =
      (BitVec.ofInt 64 ((duration segments).tdiv physicsStep), duration segments)

/-! ## Sums of intervals -/

structure Whole (physicsStep : Int) (segment : Segment Stamp) : Prop where
  divides : physicsStep ∣ segment.length.2
  counted : segment.length.1 = BitVec.ofInt 64 (segment.length.2.tdiv physicsStep)

theorem tdiv_add_of_dvd {divisor a b : Int} (nonzero : divisor ≠ 0) (first : divisor ∣ a)
    (second : divisor ∣ b) : (a + b).tdiv divisor = a.tdiv divisor + b.tdiv divisor := by
  obtain ⟨m, rfl⟩ := first
  obtain ⟨n, rfl⟩ := second
  rw [← mul_add, Int.mul_tdiv_cancel_left _ nonzero, Int.mul_tdiv_cancel_left _ nonzero,
    Int.mul_tdiv_cancel_left _ nonzero]

variable {physicsStep : Int}

theorem sum_whole (positive : 0 < physicsStep) {segments : List (Segment Stamp)}
    (whole : ∀ segment ∈ segments, Whole physicsStep segment) :
    physicsStep ∣ duration segments ∧
      (segments.map Segment.length).sum =
        (BitVec.ofInt 64 ((duration segments).tdiv physicsStep), duration segments) := by
  induction segments with
  | nil =>
    constructor
    · exact Int.dvd_zero _
    · simp only [duration, List.map_nil, List.sum_nil, Int.zero_tdiv]
      rfl
  | cons segment segments ih =>
    obtain ⟨divides, sum⟩ := ih fun other member => whole other (List.mem_cons_of_mem _ member)
    have one := whole segment List.mem_cons_self
    have longer : duration (segment :: segments) = segment.length.2 + duration segments := by
      simp [duration]
    rw [longer, List.map_cons, List.sum_cons, sum]
    refine ⟨Int.dvd_add one.divides divides, ?_⟩
    apply Prod.ext
    · rw [Prod.fst_add, one.counted, tdiv_add_of_dvd positive.ne' one.divides divides,
        BitVec.ofInt_add]
    · rfl

theorem lockstep_iff_telescopes (positive : 0 < physicsStep)
    {segments : List (Segment Stamp)} (whole : ∀ segment ∈ segments, Whole physicsStep segment) :
    Lockstep physicsStep segments ↔ Telescopes segments := by
  unfold Lockstep Telescopes
  rw [← (sum_whole positive whole).2]
  constructor
  · intro exactly first head last tail
    exact sub_eq_iff_eq_add'.mp (exactly first head last tail)
  · intro exactly first head last tail
    exact sub_eq_iff_eq_add'.mpr (exactly first head last tail)

theorem lockstep_iff_contiguous (positive : 0 < physicsStep)
    {segments : List (Segment Stamp)} (whole : ∀ segment ∈ segments, Whole physicsStep segment)
    (exactly : ∀ segment ∈ segments, Exact segment) :
    (∀ front rest, segments = front ++ rest → Lockstep physicsStep front) ↔
      Contiguous segments := by
  rw [contiguous_iff_telescopes exactly]
  have each : ∀ front rest, segments = front ++ rest →
      (Lockstep physicsStep front ↔ Telescopes front) := by
    intro front rest split
    apply lockstep_iff_telescopes positive
    intro segment member
    exact whole segment (by rw [split]; exact List.mem_append_left _ member)
  constructor
  · intro locked front rest split
    exact (each front rest split).mp (locked front rest split)
  · intro telescopes front rest split
    exact (each front rest split).mpr (telescopes front rest split)

/-! ## The invariant of one controller -/

namespace Controller

structure Measured (controller : Controller) : Prop where
  valid : controller.location ≠ .idle → controller.location ≠ .readying →
    controller.physicsStep.duration ∣ controller.interval
  aimed : controller.location = .requesting ∨ controller.location = .waiting →
    (controller.target, controller.targetTime) =
      controller.base + controller.requested controller.interval
  verified : controller.location = .settling →
    controller.verified = controller.base + controller.requested controller.interval
  exactly : ∀ segment ∈ controller.completed, Exact segment
  whole : ∀ segment ∈ controller.completed, Whole controller.physicsStep.duration segment
  returned : controller.results.countP (fun result => result.isOk) = controller.completed.length

variable {controller : Controller}

theorem Measured.stats (measured : controller.Measured)
    (message : Statistics) : (controller.stats message).Measured := { measured with }

theorem Measured.fail (measured : controller.Measured)
    (message : Line) : (controller.fail message).Measured where
  valid running := absurd rfl running
  aimed running := by rcases running with running | running <;> cases running
  verified running := by cases running
  exactly := measured.exactly
  whole := measured.whole
  returned := by
    simp only [Controller.fail, List.countP_append]
    exact measured.returned

theorem Measured.start (measured : controller.Measured)
    (interval : Int) : (controller.start interval).Measured := by
  unfold Controller.start
  by_cases refused : controller.Refuses interval
  · rw [if_pos refused]
    exact measured.fail _
  · rw [if_neg refused]
    have divides : controller.physicsStep.duration ∣ interval := by
      apply Int.dvd_of_tmod_eq_zero
      by_contra rest
      exact refused (.inr (.inr (.inr (.inl rest))))
    exact { measured with
      valid := fun _ _ => divides
      aimed := fun running => by rcases running with running | running <;> cases running
      verified := fun running => by cases running }

theorem Measured.aim (measured : controller.Measured)
    (running : controller.location = .guest) (result : Except Line Unit) :
    (controller.aim result).Measured := by
  cases result with
  | error message => exact measured.fail message
  | ok done =>
    unfold Controller.aim
    by_cases refused : (!controller.seen || !controller.paused) = true
    · simp only [refused, if_true]
      exact measured.fail _
    · simp only [refused]
      have divides := measured.valid (by rw [running]; decide) (by rw [running]; decide)
      exact { measured with
        valid := fun _ _ => divides
        aimed := fun _ => rfl
        verified := fun running => by cases running }

theorem Measured.send (measured : controller.Measured) :
    controller.send.Measured := { measured with }

theorem Measured.request (measured : controller.Measured)
    (running : controller.location = .requesting) (outcome : RequestOutcome) :
    (controller.request outcome).Measured := by
  cases outcome with
  | unsent => exact measured.fail _
  | undeliverable => exact measured.fail _
  | cancelled => exact measured.send.fail _
  | late => exact measured.send.fail _
  | refused => exact measured.send.fail _
  | accepted =>
    have divides := measured.valid (by rw [running]; decide) (by rw [running]; decide)
    exact { measured with
      valid := fun _ _ => divides
      aimed := fun _ => measured.aimed (.inl running)
      verified := fun running => by cases running }

/-- The verification compares the clock with the target, so it ends the step exactly. -/
theorem Measured.check (measured : controller.Measured)
    (running : controller.location = .waiting) (cancelled late : Bool) :
    (controller.check cancelled late).Measured := by
  unfold Controller.check
  split_ifs with reached mismatch
  · exact measured.fail _
  · have divides := measured.valid (by rw [running]; decide) (by rw [running]; decide)
    have same : controller.now = (controller.target, controller.targetTime) := by
      obtain ⟨iterations, time⟩ := not_or.mp mismatch
      rw [now, not_not.mp iterations, not_not.mp time]
    exact { measured with
      valid := fun _ _ => divides
      aimed := fun running => by rcases running with running | running <;> cases running
      verified := fun _ => same.trans (measured.aimed (.inr running)) }
  · exact measured.fail _
  · exact measured.fail _
  · exact measured

theorem Measured.finish (measured : controller.Measured)
    (running : controller.location = .settling) (result : Except Line Unit) :
    (controller.finish result).Measured := by
  cases result with
  | error message => exact measured.fail message
  | ok done =>
    have divides := measured.valid (by rw [running]; decide) (by rw [running]; decide)
    constructor
    · intro idle
      exact absurd rfl idle
    · intro running
      rcases running with running | running <;> cases running
    · intro running
      cases running
    · intro segment member
      rcases List.mem_append.mp member with earlier | newest
      · exact measured.exactly segment earlier
      · rw [List.mem_singleton.mp newest]
        exact measured.verified running
    · intro segment member
      rcases List.mem_append.mp member with earlier | newest
      · exact measured.whole segment earlier
      · rw [List.mem_singleton.mp newest]
        exact ⟨divides, rfl⟩
    · have returned := measured.returned
      simp only [Controller.finish, List.countP_append, List.length_append, returned]
      rfl

theorem Measured.ready (measured : controller.Measured) (gem5 : Except Line Unit) :
    (controller.ready gem5).Measured := by
  cases gem5 with
  | error message => exact { measured with }
  | ok done =>
    exact { measured with
      valid := fun _ readying => absurd rfl readying
      aimed := fun running => by rcases running with running | running <;> cases running
      verified := fun running => by cases running }

theorem Measured.idle (measured : controller.Measured) (startup : Option (Except Line Unit)) :
    Measured { controller with location := .idle, startup := startup } :=
  { measured with
    valid := fun running => absurd rfl running
    aimed := fun running => by rcases running with running | running <;> cases running
    verified := fun running => by cases running }

theorem Measured.look (measured : controller.Measured)
    (cancelled late : Bool) : (controller.look cancelled late).Measured := by
  unfold Controller.look
  split_ifs
  · exact measured.idle _
  · exact measured.idle _
  · exact measured.idle _
  · exact measured.idle _
  · exact measured

theorem Measured.step {controller next : Controller} {event : Event}
    (measured : controller.Measured) (taken : controller.step event = some next) :
    next.Measured := by
  unfold Controller.step at taken
  split at taken
  · cases taken
    exact measured.stats _
  · cases taken
    exact measured.ready _
  · cases taken
    exact measured.look _ _
  · cases taken
    exact measured.start _
  · cases taken
    exact measured.aim (by assumption) _
  · cases taken
    exact measured.request (by assumption) _
  · cases taken
    exact measured.check (by assumption) _ _
  · cases taken
    exact measured.finish (by assumption) _
  · cases taken

theorem step_physicsStep {controller next : Controller} {event : Event}
    (taken : controller.step event = some next) : next.physicsStep = controller.physicsStep := by
  unfold Controller.step at taken
  split at taken
  all_goals cases taken
  · rfl
  · unfold Controller.ready
    split <;> rfl
  · unfold Controller.look
    split_ifs <;> rfl
  · unfold Controller.start
    split_ifs <;> rfl
  · unfold Controller.aim
    split
    · rfl
    · split_ifs <;> rfl
  · unfold Controller.request
    split <;> rfl
  · unfold Controller.check
    split_ifs <;> rfl
  · unfold Controller.finish
    split <;> rfl

theorem measured_initial (physicsStep : PhysicsStep) :
    Measured { physicsStep := physicsStep } where
  valid running := absurd rfl running
  aimed running := by rcases running with running | running <;> cases running
  verified running := by cases running
  exactly := by simp
  whole := by simp
  returned := rfl

/-! ## Steps in an undisturbed world -/

def Undisturbed (controller : Controller) (event : Event) : Prop :=
  event = .guest (.ok ()) → ∀ last ∈ controller.completed.getLast?, controller.now = last.finish

def Based (controller : Controller) : Prop :=
  controller.location = .requesting ∨ controller.location = .waiting ∨
    controller.location = .settling

structure Linked (controller : Controller) : Prop where
  chained : controller.completed.IsChain fun earlier later => later.base = earlier.finish
  reads : controller.Based → ∀ last ∈ controller.completed.getLast?,
    controller.base = last.finish

theorem Linked.keep {controller next : Controller} (linked : controller.Linked)
    (base : next.base = controller.base) (completed : next.completed = controller.completed)
    (based : next.Based → controller.Based) : next.Linked := by
  constructor
  · rw [completed]
    exact linked.chained
  · intro running last recent
    rw [completed] at recent
    rw [base]
    exact linked.reads (based running) last recent

theorem Linked.leave {controller next : Controller} (linked : controller.Linked)
    (base : next.base = controller.base) (completed : next.completed = controller.completed)
    (outside : ¬ next.Based) : next.Linked :=
  linked.keep base completed fun based => absurd based outside

theorem Linked.fail (linked : controller.Linked) (message : Line) :
    (controller.fail message).Linked := linked.leave rfl rfl (by simp [Based, Controller.fail])

theorem Linked.start (linked : controller.Linked) (interval : Int) :
    (controller.start interval).Linked := by
  unfold Controller.start
  by_cases refused : controller.Refuses interval
  · rw [if_pos refused]
    exact linked.fail _
  · rw [if_neg refused]
    exact linked.leave rfl rfl (by simp [Based])

theorem Linked.aim (linked : controller.Linked)
    {result : Except Line Unit} (undisturbed : controller.Undisturbed (.guest result)) :
    (controller.aim result).Linked := by
  cases result with
  | error message => exact linked.fail message
  | ok done =>
    unfold Controller.aim
    by_cases refused : (!controller.seen || !controller.paused) = true
    · simp only [refused, if_true]
      exact linked.fail _
    · simp only [refused]
      exact { linked with reads := fun _ => undisturbed rfl }

theorem Linked.request (linked : controller.Linked)
    (running : controller.location = .requesting) (outcome : RequestOutcome) :
    (controller.request outcome).Linked := by
  have sent : controller.send.Linked := linked.keep rfl rfl id
  cases outcome with
  | unsent => exact linked.fail _
  | undeliverable => exact linked.fail _
  | cancelled => exact sent.fail _
  | late => exact sent.fail _
  | refused => exact sent.fail _
  | accepted => exact linked.keep rfl rfl fun _ => .inl running

theorem Linked.check (linked : controller.Linked)
    (running : controller.location = .waiting) (cancelled late : Bool) :
    (controller.check cancelled late).Linked := by
  unfold Controller.check
  split_ifs
  · exact linked.fail _
  · exact linked.keep rfl rfl fun _ => .inr (.inl running)
  · exact linked.fail _
  · exact linked.fail _
  · exact linked

theorem Linked.finish (linked : controller.Linked)
    (running : controller.location = .settling) (result : Except Line Unit) :
    (controller.finish result).Linked := by
  cases result with
  | error message => exact linked.fail message
  | ok done =>
    constructor
    · apply List.isChain_append.mpr
      refine ⟨linked.chained, .singleton _, ?_⟩
      intro last recent newest added
      cases added
      exact linked.reads (.inr (.inr running)) last recent
    · intro based
      simp [Based, Controller.finish] at based

theorem Linked.step {controller next : Controller} {event : Event} (linked : controller.Linked)
    (undisturbed : controller.Undisturbed event) (taken : controller.step event = some next) :
    next.Linked := by
  unfold Controller.step at taken
  split at taken
  all_goals cases taken
  · exact linked.keep rfl rfl id
  · unfold Controller.ready
    split
    · exact linked.keep rfl rfl id
    · exact linked.leave rfl rfl (by simp [Based])
  · unfold Controller.look
    split_ifs
    all_goals first
      | exact linked
      | exact linked.leave rfl rfl (by simp [Based])
  · exact linked.start _
  · exact linked.aim undisturbed
  · exact linked.request (by assumption) _
  · exact linked.check (by assumption) _ _
  · exact linked.finish (by assumption) _

theorem linked_initial (physicsStep : PhysicsStep) : Linked { physicsStep := physicsStep } where
  chained := .nil
  reads _ _ recent := by cases recent

end Controller

open Controller

/-- In every run the completed steps are in lockstep with the world, after each of them, if
and only if each one reads the clock that the one before it verified; and so they are in
every run in an undisturbed world. -/
theorem lockstep_iff_joined {world : Line} {fresh controller : Controller} {events : List Event}
    (created : create physicsStep world = .ok fresh)
    (ran : run Controller.step fresh events = some controller) :
    controller.results.countP (fun result => result.isOk) = controller.completed.length ∧
      ((∀ front rest, controller.completed = front ++ rest → Lockstep physicsStep front) ↔
        controller.completed.IsChain fun earlier later => later.base = earlier.finish) ∧
      ((∀ front event rest before, events = front ++ event :: rest →
          run Controller.step fresh front = some before → before.Undisturbed event) →
        ∀ front rest, controller.completed = front ++ rest → Lockstep physicsStep front) := by
  unfold create at created
  split_ifs at created with positive named
  cases created
  have keep : ∀ (before : Controller) (event : Event) (after : Controller),
      before.Measured ∧ before.physicsStep.duration = physicsStep →
      before.step event = some after →
      after.Measured ∧ after.physicsStep.duration = physicsStep := by
    rintro before event after ⟨measured, same⟩ taken
    refine ⟨measured.step taken, ?_⟩
    rw [step_physicsStep taken, same]
  obtain ⟨measured, same⟩ := run_preserves keep ⟨measured_initial _, rfl⟩ ran
  have whole : ∀ segment ∈ controller.completed, Whole physicsStep segment := by
    rw [← same]
    exact measured.whole
  have joined := lockstep_iff_contiguous positive whole measured.exactly
  refine ⟨measured.returned, joined, ?_⟩
  intro undisturbed
  apply joined.mpr
  have linked : controller.Linked :=
    run_preserves_guarded (fun _ _ _ before quiet taken => Linked.step before quiet taken)
      (linked_initial _) undisturbed ran
  exact linked.chained

def pausedAt (iterations : Nat) : Event :=
  .stats ⟨BitVec.ofNat 64 iterations, 0, iterations * 1000000, true⟩

def oneStep (arriving : List Event) (finish : Nat) : List Event :=
  .step 1000000 :: arriving ++
    [.guest (.ok ()), .request .accepted, pausedAt finish, .check false false, .settled (.ok ())]

theorem lockstep_iff_joined_undisturbed : ∃ fresh controller,
    create 1000000 (text "world") = .ok fresh ∧
      run Controller.step fresh (pausedAt 0 :: oneStep [] 1 ++ oneStep [pausedAt 1] 2) =
        some controller ∧
      controller.completed.length = 2 ∧
      ∀ front rest, controller.completed = front ++ rest → Lockstep 1000000 front := by
  have created : create 1000000 (text "world") =
      .ok { physicsStep := ⟨1000000, by decide⟩ } := rfl
  have ran : (run Controller.step { physicsStep := ⟨1000000, by decide⟩ }
      (pausedAt 0 :: oneStep [] 1 ++ oneStep [pausedAt 1] 2)).map (fun controller =>
        controller.completed) = some [⟨(0, 0), (1, 1000000), (1, 1000000)⟩,
          ⟨(1, 1000000), (1, 1000000), (2, 2000000)⟩] := rfl
  obtain ⟨controller, ran, segments⟩ := Option.map_eq_some_iff.mp ran
  refine ⟨_, controller, created, ran, by rw [segments]; rfl, ?_⟩
  apply (lockstep_iff_joined created ran).2.1.mpr
  rw [segments]
  simp

/-- Both steps return completed although the world advanced by four iterations that nobody
asked for, during the gem5 phase of the second. -/
theorem unrequested_advance_absorbed : ∃ fresh controller,
    create 1000000 (text "world") = .ok fresh ∧
      run Controller.step fresh (pausedAt 0 :: oneStep [] 1 ++ oneStep [pausedAt 5] 6) =
        some controller ∧
      controller.results.map (fun result => result.isOk) = [true, true] ∧
      ¬Lockstep 1000000 controller.completed := by
  have ran : (run Controller.step { physicsStep := ⟨1000000, by decide⟩ }
      (pausedAt 0 :: oneStep [] 1 ++ oneStep [pausedAt 5] 6)).map (fun controller =>
        (controller.results.map (fun result => result.isOk), controller.completed)) =
      some ([true, true], [⟨(0, 0), (1, 1000000), (1, 1000000)⟩,
        ⟨(5, 5000000), (1, 1000000), (6, 6000000)⟩]) := rfl
  obtain ⟨controller, ran, seen⟩ := Option.map_eq_some_iff.mp ran
  obtain ⟨results, segments⟩ := Prod.mk.inj seen
  refine ⟨_, controller, rfl, ran, results, ?_⟩
  intro locked
  rw [segments] at locked
  have difference := locked _ rfl _ rfl
  exact absurd difference (by decide)

end Chimaera.Gazebo
