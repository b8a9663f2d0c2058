import Chimaera.Gazebo.Cosimulation

/-! The clocks of the two simulators under `gazebo_host_bridge`. Every round of its loop advances
gem5 once and Gazebo once, and a round in which either fails is the last. So gem5 is never more
than one interval ahead of the verified Gazebo clock, up to what it misses a single request by. -/

namespace Chimaera.Timing.Client
open Base.Text

variable {client after : Client}

theorem request_ok {command : Line} {allowUnavailable sent : Bool} {delivery : Delivery}
    (accepted : client.request command allowUnavailable delivery = (.ok sent, after)) :
    client.Usable ∧ after =
      if sent then { client with pending := true, sent := client.sent ++ [command] } else client := by
  unfold request at accepted
  by_cases pending : client.pending = true
  · rw [if_pos pending] at accepted
    cases accepted
  rw [if_neg pending] at accepted
  by_cases ended : (client.stopped || client.failed) = true
  · rw [if_pos ended] at accepted
    cases accepted
  rw [if_neg ended] at accepted
  by_cases path : client.validEndpoint = true
  · have working := Bool.or_eq_false_iff.mp (Bool.eq_false_iff.mpr ended)
    have usable : client.Usable := ⟨Bool.eq_false_iff.mpr pending, working.1, working.2, path⟩
    rw [path, Bool.not_true, if_neg Bool.false_ne_true] at accepted
    cases delivery with
    | sent =>
      cases accepted
      exact ⟨usable, rfl⟩
    | unavailable reason =>
      cases allowUnavailable with
      | false => cases accepted
      | true =>
        cases accepted
        exact ⟨usable, rfl⟩
    | failed message => cases accepted
  · rw [Bool.eq_false_iff.mpr path, Bool.not_false, if_pos rfl] at accepted
    cases accepted

theorem reach_ok {attempts : List Attempt}
    (reached : client.reach attempts = some (.ok (), after)) :
    client.Usable ∧
      after = { client with pending := true, sent := client.sent ++ [text "STATUS\n"] } := by
  induction attempts with
  | nil => cases reached
  | cons attempt attempts ih =>
    simp only [reach] at reached
    split at reached
    · cases reached
    · next middle sent =>
      cases reached
      exact request_ok sent
    · next middle unavailable =>
      obtain ⟨-, rfl⟩ := request_ok unavailable
      split_ifs at reached
      · cases reached
      · cases reached
      · exact ih reached

theorem ready_ok {arrival : Arrival} (ready : client.ready arrival = (.ok (), after)) :
    after = { client with pending := false } := by
  unfold Client.ready response at ready
  split_ifs at ready
  · cases ready
  · cases arrival with
    | failed message => cases ready
    | bytes line =>
      simp only at ready
      cases read : readLine [] line with
      | error message =>
        rw [read] at ready
        cases ready
      | ok line =>
        rw [read] at ready
        simp only at ready
        split at ready
        · cases ready
        · cases ready
          rfl

/-- Behind a startup that worked the session can be stepped, and no step has been answered. -/
theorem live_of_ready {endpoint : Line} {limit timeout : Int} {attempts : List Attempt}
    {arrival : Arrival} (fresh : client = { endpoint := endpoint, timeout := limit })
    (ready : client.waitUntilReady timeout attempts arrival = some (.ok (), after)) :
    after.Live ∧ after.anchored = false := by
  unfold waitUntilReady at ready
  split_ifs at ready
  · cases ready
  · split at ready
    · cases ready
    · cases ready
    · next middle reached =>
      obtain ⟨usable, rfl⟩ := reach_ok reached
      have same := ready_ok (Option.some.inj ready)
      subst same
      subst fresh
      have zero : 0 < Base.Unsigned.modulus := by decide
      exact ⟨⟨⟨zero, zero, le_rfl⟩, ⟨rfl, rfl, rfl, usable.path⟩, rfl⟩, rfl⟩

end Chimaera.Timing.Client

namespace Chimaera.Gazebo
open Base.Segments Base.Text Base.Transition Base.Unsigned
open Timing (Client Attempt Arrival Delivery Fault)

theorem live_of_pair {client after : Client} {reply : Timing.Step} (live : client.Live)
    (start : reply.start < modulus) (finish : reply.finish < modulus)
    (paired : Timing.pair .machine client reply = some after) : after.Live := by
  obtain ⟨-, fits, -, continues, rfl⟩ := (Timing.pair_eq_some_iff .machine live start finish).mp paired
  exact Timing.live_after live finish fits continues

theorem ticks_anchored {client : Client} (live : client.Live) (anchored : client.anchored = true) :
    ticks client = client.lastTick - client.firstTick := by
  rw [ticks, Timing.elapsedTicks_eq .machine live.ranged anchored]
  rfl

theorem ticks_fresh {client : Client} (fresh : client.anchored = false) : ticks client = 0 := by
  rw [ticks, Client.elapsedTicks, fresh]
  rfl

def Place.gem5Ahead : Place → Nat
  | .returning _ => 1
  | .physics _ => 1
  | .returned _ => 1
  | _ => 0

def Place.gazeboAhead : Place → Nat
  | .returned _ => 1
  | _ => 0

def Place.stepping : Place → Bool
  | .sending _ => true
  | .running _ => true
  | .returning _ => true
  | .physics _ => true
  | _ => false

def Action.delivers : Action → Bool
  | .deliver (.ok _) => true
  | _ => false

namespace Cosimulation

variable {settings : Settings} {state after : Cosimulation}

structure Working (state : Cosimulation) : Prop where
  live : state.place.live = true
  completed : ∀ before, state.place = .returned before →
    state.gazebo.results.getLast? = some (.ok ())

structure Aligned (settings : Settings) (state : Cosimulation) : Prop where
  fresh : state.place = .waiting → state.taken = [] ∧
    ∃ endpoint timeout, state.gem5 = { endpoint := endpoint, timeout := timeout }
  paired : state.Working → state.place ≠ .waiting → ∃ ready : Client, ready.Live ∧
    ready.anchored = false ∧ run (Timing.pair .machine) ready state.taken = some state.gem5
  alive : state.Working → state.place ≠ .waiting → state.gem5.Live
  taken : state.Working → state.taken.length = state.completedSteps + state.place.gem5Ahead
  uniform : state.Working → ∀ reply ∈ state.taken, reply.interval = settings.duration
  completed : state.Working →
    state.gazebo.completed.length = state.completedSteps + state.place.gazeboAhead
  counted : state.Working → state.count = state.completedSteps
  interval : state.place.stepping = true → state.gazebo.interval = settings.duration
  lengths : ∀ segment ∈ state.gazebo.completed, segment.length.2 = settings.duration

theorem working_of_place (live : state.place.live = true)
    (inside : ∀ before, state.place ≠ .returned before) : state.Working :=
  ⟨live, fun before place => absurd place (inside before)⟩

theorem Aligned.goes (aligned : Aligned settings state) (working : state.Working)
    (away : state.place ≠ .waiting) (later : after.place ≠ .waiting)
    (gem5 : after.gem5 = state.gem5) (taken : after.taken = state.taken)
    (completed : after.gazebo.completed = state.gazebo.completed)
    (steps : after.completedSteps = state.completedSteps) (count : after.count = state.count)
    (ahead : after.place.gem5Ahead = state.place.gem5Ahead)
    (further : after.place.gazeboAhead = state.place.gazeboAhead)
    (interval : after.place.stepping = true → after.gazebo.interval = settings.duration) :
    Aligned settings after where
  fresh place := absurd place later
  paired _ _ := by
    rw [taken, gem5]
    exact aligned.paired working away
  alive _ _ := by
    rw [gem5]
    exact aligned.alive working away
  taken _ := by rw [taken, steps, ahead, aligned.taken working]
  uniform _ := by
    rw [taken]
    exact aligned.uniform working
  completed _ := by rw [completed, steps, further, aligned.completed working]
  counted _ := by rw [count, steps, aligned.counted working]
  interval := interval
  lengths := by
    rw [completed]
    exact aligned.lengths

theorem Aligned.ends (aligned : Aligned settings state) (failed : ¬after.Working)
    (away : after.place ≠ .waiting) (outside : after.place.stepping = false)
    (completed : after.gazebo.completed = state.gazebo.completed) : Aligned settings after where
  fresh place := absurd place away
  paired working := absurd working failed
  alive working := absurd working failed
  taken working := absurd working failed
  uniform working := absurd working failed
  completed working := absurd working failed
  counted working := absurd working failed
  interval inside := by
    rw [outside] at inside
    cases inside
  lengths := by
    rw [completed]
    exact aligned.lengths

/-- Nothing here reads the clock or what the statistics of the world say. -/
theorem Aligned.unread (aligned : Aligned settings state) (clock : Nat) (seen paused : Bool)
    (iterations : BitVec 64) (timeNs : Int) :
    Aligned settings { state with
      clock := clock
      gazebo := { state.gazebo with
        seen := seen, paused := paused, iterations := iterations, timeNs := timeNs } } where
  fresh := aligned.fresh
  paired working := aligned.paired ⟨working.live, working.completed⟩
  alive working := aligned.alive ⟨working.live, working.completed⟩
  taken working := aligned.taken ⟨working.live, working.completed⟩
  uniform working := aligned.uniform ⟨working.live, working.completed⟩
  completed working := aligned.completed ⟨working.live, working.completed⟩
  counted working := aligned.counted ⟨working.live, working.completed⟩
  interval := aligned.interval
  lengths := aligned.lengths

theorem Aligned.connects (aligned : Aligned settings state) {attempts : List Attempt}
    {arrival : Arrival} {gem5 : Client} (place : state.place = .waiting)
    (ready : state.gem5.waitUntilReady settings.timeout attempts arrival = some (.ok (), gem5)) :
    Aligned settings
      { state with gem5 := gem5, gazebo := state.gazebo.ready (.ok ()), place := .readying } := by
  have working : state.Working := working_of_place (by rw [place]; rfl) (by simp [place])
  obtain ⟨none, endpoint, timeout, fresh⟩ := aligned.fresh place
  obtain ⟨live, unanchored⟩ := Client.live_of_ready fresh ready
  have length := aligned.taken working
  have verified := aligned.completed working
  rw [place] at length verified
  exact
    { fresh := by simp
      paired := fun _ _ => ⟨gem5, live, unanchored, by rw [none]; rfl⟩
      alive := fun _ _ => live
      taken := fun _ => length
      uniform := fun _ => aligned.uniform working
      completed := fun _ => verified
      counted := fun _ => aligned.counted working
      interval := by simp [Place.stepping]
      lengths := aligned.lengths }

theorem Aligned.advances (aligned : Aligned settings state) {before : Nat} {reply : Timing.Step}
    {gem5 : Client} (place : state.place = .running before)
    (interval : reply.interval = settings.duration) (start : reply.start < modulus)
    (finish : reply.finish < modulus) (paired : Timing.pair .machine state.gem5 reply = some gem5) :
    Aligned settings { state with
      gem5 := gem5
      gem5Wall := state.clock - state.gem5Begin
      taken := state.taken ++ [reply]
      place := .returning before } := by
  have working : state.Working := working_of_place (by rw [place]; rfl) (by simp [place])
  obtain ⟨ready, live, unanchored, ran⟩ := aligned.paired working (by simp [place])
  have length := aligned.taken working
  have verified := aligned.completed working
  rw [place] at length verified
  refine
    { fresh := by simp
      paired := fun _ _ => ⟨ready, live, unanchored, ?_⟩
      alive := fun _ _ => live_of_pair (aligned.alive working (by simp [place])) start finish paired
      taken := fun _ => by rw [List.length_append, length]; rfl
      uniform := fun _ other member => ?_
      completed := fun _ => verified
      counted := fun _ => aligned.counted working
      interval := fun _ => aligned.interval (by rw [place]; rfl)
      lengths := aligned.lengths }
  · exact (run_append _ _ _ _ _).mpr ⟨_, ran, (run_cons _ _ _ _ _).mpr ⟨_, paired, rfl⟩⟩
  · rcases List.mem_append.mp member with earlier | newest
    · exact aligned.uniform working other earlier
    · rw [List.mem_singleton.mp newest]
      exact interval

theorem Aligned.completes (aligned : Aligned settings state) {before : Nat}
    (place : state.place = .physics before) :
    Aligned settings
      { state with gazebo := state.gazebo.finish (.ok ()), place := .returned before } := by
  have working : state.Working := working_of_place (by rw [place]; rfl) (by simp [place])
  have length := aligned.taken working
  have verified := aligned.completed working
  rw [place] at length verified
  refine
    { fresh := by simp
      paired := fun _ _ => aligned.paired working (by simp [place])
      alive := fun _ _ => aligned.alive working (by simp [place])
      taken := fun _ => length
      uniform := fun _ => aligned.uniform working
      completed := fun _ => ?_
      counted := fun _ => aligned.counted working
      interval := by simp [Place.stepping]
      lengths := fun segment member => ?_ }
  · simp only [Controller.finish, List.length_append, List.length_singleton, verified]
    rfl
  · rcases List.mem_append.mp member with earlier | newest
    · exact aligned.lengths segment earlier
    · rw [List.mem_singleton.mp newest]
      exact aligned.interval (by rw [place]; rfl)

theorem Aligned.rounds (aligned : Aligned settings state) {before : Nat} {rows : List Row}
    (place : state.place = .returned before)
    (result : state.gazebo.results.getLast? = some (.ok ())) :
    Aligned settings { state with
      completedSteps := state.completedSteps + 1
      place := .loop
      count := state.count + 1
      rows := rows } := by
  have working : state.Working := ⟨by rw [place]; rfl, fun _ _ => result⟩
  have length := aligned.taken working
  have verified := aligned.completed working
  have count := aligned.counted working
  rw [place] at length verified
  exact
    { fresh := by simp
      paired := fun _ _ => aligned.paired working (by simp [place])
      alive := fun _ _ => aligned.alive working (by simp [place])
      taken := fun _ => length
      uniform := fun _ => aligned.uniform working
      completed := fun _ => verified
      counted := fun _ => by simp [count]
      interval := by simp [Place.stepping]
      lengths := aligned.lengths }

theorem Aligned.move (aligned : Aligned settings state) (move : Move settings state after) :
    Aligned settings after := by
  have working : ∀ {place}, state.place = place → place.live = true →
      (∀ before, place ≠ .returned before) → state.Working := by
    rintro place rfl
    exact working_of_place
  cases move with
  | heard message => exact aligned.unread _ _ _ _ _
  | connects place ready => exact aligned.connects place ready
  | looks => exact aligned
  | readies place =>
    apply aligned.goes (working place rfl (by simp)) <;> simp [place, Place.stepping] <;> rfl
  | begins place =>
    apply aligned.goes (working place rfl (by simp)) <;> simp [place, Place.stepping] <;> rfl
  | enters place =>
    apply aligned.goes (working place rfl (by simp)) <;> simp [place, Place.stepping] <;> rfl
  | starts place =>
    apply aligned.goes (working place rfl (by simp)) <;> simp [place] <;> rfl
  | sends place =>
    have interval := aligned.interval (by rw [place]; rfl)
    apply aligned.goes (working place rfl (by simp)) <;> simp [place, interval] <;> rfl
  | advances place interval start finish paired =>
    exact aligned.advances place interval start finish paired
  | aims place goes =>
    have interval := goes.interval.trans (aligned.interval (by rw [place]; rfl))
    apply aligned.goes (working place rfl (by simp)) <;>
      simp [place, interval, goes.completed] <;> rfl
  | waits place goes =>
    have interval := goes.interval.trans (aligned.interval (by rw [place]; rfl))
    apply aligned.goes (working place rfl (by simp)) <;>
      simp [place, interval, goes.completed]
  | verifies place _ goes =>
    have interval := goes.interval.trans (aligned.interval (by rw [place]; rfl))
    apply aligned.goes (working place rfl (by simp)) <;>
      simp [place, interval, goes.completed]
  | completes place => exact aligned.completes place
  | fails place result _ completed =>
    refine aligned.ends (fun working => ?_) (by simp [place]) (by rw [place]; rfl) completed
    have other := working.completed _ place
    rw [result] at other
    cases other
  | skips place result => exact aligned.rounds place result
  | logs place result => exact aligned.rounds place result
  | leaves place _ completed =>
    refine aligned.ends (fun working => ?_) ?_ ?_ completed
    · rw [working.live] at place
      cases place
    · intro waiting
      rw [waiting] at place
      cases place
    · cases known : after.place <;> rw [known] at place <;> first | rfl | cases place

theorem Aligned.step (aligned : Aligned settings state) {tick : Tick}
    (taken : state.step settings tick = some after) : Aligned settings after :=
  (aligned.unread _ _ _ _ _).move (act_moves taken)

theorem create_ok {initial : Cosimulation} {socket world : Line} {physicsStep : Int}
    {subscribed : Bool}
    (created : create settings socket physicsStep world subscribed = .ok initial) :
    ∃ positive : 0 < physicsStep, initial =
      { gazebo := { physicsStep := ⟨physicsStep, positive⟩ }
        gem5 := { endpoint := socket, timeout := settings.timeout } } := by
  obtain ⟨gem5, connected, created⟩ := bind_eq_ok.mp created
  obtain ⟨gazebo, built, created⟩ := bind_eq_ok.mp created
  unfold Client.create at connected
  unfold Controller.create at built
  by_cases positive : 0 < physicsStep
  · split_ifs at connected built created
    · cases connected
    · cases connected
      cases built
      cases created
      exact ⟨positive, rfl⟩
  · rw [dif_neg positive] at built
    cases built

theorem aligned_initial {positive : PhysicsStep} {socket : Line} :
    Aligned settings
      { gazebo := { physicsStep := positive }
        gem5 := { endpoint := socket, timeout := settings.timeout } } where
  fresh _ := ⟨rfl, socket, settings.timeout, rfl⟩
  paired _ away := absurd rfl away
  alive _ away := absurd rfl away
  taken _ := rfl
  uniform _ := by simp
  completed _ := rfl
  counted _ := rfl
  interval inside := by cases inside
  lengths := by simp

/-! ## The Gazebo controller in the program -/

/-- When a gem5 phase ends well, the statistics show the clock that the last completed step
verified. -/
def Undisturbed (state : Cosimulation) (tick : Tick) : Prop :=
  tick.action.delivers = true →
    ∀ last ∈ state.gazebo.completed.getLast?, state.gazebo.now = last.finish

instance (state : Cosimulation) (tick : Tick) : Decidable (state.Undisturbed tick) := by
  unfold Undisturbed
  infer_instance

theorem act_gazebo {action : Action} (taken : act settings state action = some after) :
    after.gazebo = state.gazebo ∨ ∃ event, state.gazebo.step event = some after.gazebo ∧
      (event = .guest (.ok ()) → action.delivers = true) := by
  have mapped : ∀ {event} {middle : Controller} {update : Controller → Cosimulation},
      (middle.step event).map update = some after → middle = state.gazebo →
      (∀ gazebo, (update gazebo).gazebo = gazebo) →
      (event = .guest (.ok ()) → action.delivers = true) → ∃ event,
        state.gazebo.step event = some after.gazebo ∧
          (event = .guest (.ok ()) → action.delivers = true) := by
    rintro event _ update taken rfl kept delivers
    obtain ⟨gazebo, stepped, rfl⟩ := Option.map_eq_some_iff.mp taken
    exact ⟨event, (kept gazebo).symm ▸ stepped, delivers⟩
  have throwing : ∀ {before message} {middle : Cosimulation},
      middle.throws before message = some after → middle.gazebo = state.gazebo → ∃ event,
        state.gazebo.step event = some after.gazebo ∧
          (event = .guest (.ok ()) → action.delivers = true) :=
    fun thrown same => mapped thrown same (fun _ => rfl) (by simp)
  unfold act at taken
  split at taken
  · next message =>
    cases taken
    exact .inr ⟨.stats message, by simp [Controller.step], by simp⟩
  · unfold ready at taken
    split at taken
    · cases taken
    all_goals exact .inr (mapped taken rfl (fun _ => rfl) (by simp))
  · refine .inr (mapped taken rfl (fun gazebo => ?_) (by simp))
    unfold look
    split <;> rfl
  · cases taken
    exact .inl rfl
  · split_ifs at taken <;> cases taken <;> exact .inl rfl
  · exact .inr (mapped taken rfl (fun _ => rfl) (by simp))
  · cases taken
    exact .inl rfl
  · exact .inr (throwing taken rfl)
  · unfold refuse at taken
    split_ifs at taken <;> exact .inr (throwing taken rfl)
  · unfold advance at taken
    split_ifs at taken
    split at taken
    · cases taken
    · split at taken
      · exact .inr (throwing taken rfl)
      · cases taken
        exact .inl rfl
  · unfold failGem5 at taken
    split_ifs at taken
    split at taken
    · cases taken
    · exact .inr (throwing taken rfl)
  · exact .inr (mapped taken rfl (fun _ => rfl) fun same => by cases same; rfl)
  iterate 3 · exact .inr (mapped taken rfl (fun _ => rfl) (by simp))
  · unfold returns at taken
    split at taken
    · cases taken
    · cases taken
      exact .inl rfl
    · cases taken
      refine .inl ?_
      unfold finishRound
      split
      · rfl
      · split_ifs <;> rfl
  · cases taken
    refine .inl ?_
    unfold stop
    split <;> rfl
  · cases taken

structure Metered (physicsStep : Int) (state : Cosimulation) : Prop where
  measured : state.gazebo.Measured
  same : state.gazebo.physicsStep.duration = physicsStep

theorem Metered.step {physicsStep : Int} (metered : Metered physicsStep state) {tick : Tick}
    (taken : state.step settings tick = some after) : Metered physicsStep after := by
  rcases act_gazebo taken with same | ⟨event, stepped, -⟩
  · exact ⟨by rw [same]; exact metered.measured, by rw [same]; exact metered.same⟩
  · refine ⟨metered.measured.step stepped, ?_⟩
    rw [Controller.step_physicsStep stepped]
    exact metered.same

theorem linked_step (linked : state.gazebo.Linked) {tick : Tick}
    (quiet : state.Undisturbed tick) (taken : state.step settings tick = some after) :
    after.gazebo.Linked := by
  rcases act_gazebo taken with same | ⟨event, stepped, delivers⟩
  · rw [same]
    exact linked
  · exact Controller.Linked.step linked (fun ends => quiet (delivers ends)) stepped

/-! ## The two clocks -/

def gazeboAdvance (segments : List (Segment Stamp)) : Int :=
  match segments.head?, segments.getLast? with
  | some first, some last => last.finish.2 - first.base.2
  | _, _ => 0

theorem duration_of_lengths {segments : List (Segment Stamp)} {length : Int}
    (lengths : ∀ segment ∈ segments, segment.length.2 = length) :
    duration segments = segments.length * length := by
  induction segments with
  | nil => simp [duration]
  | cons segment segments ih =>
    have rest := ih fun other member => lengths other (List.mem_cons_of_mem _ member)
    have first := lengths segment List.mem_cons_self
    unfold duration at rest ⊢
    rw [List.map_cons, List.sum_cons, rest, first, List.length_cons]
    push_cast
    ring

theorem gazeboAdvance_eq {segments : List (Segment Stamp)} {physicsStep length : Int}
    (locked : Lockstep physicsStep segments)
    (lengths : ∀ segment ∈ segments, segment.length.2 = length) :
    gazeboAdvance segments = segments.length * length := by
  rw [← duration_of_lengths lengths]
  cases segments with
  | nil => simp [gazeboAdvance, duration]
  | cons first rest =>
    obtain ⟨last, tail⟩ :=
      Option.isSome_iff_exists.mp (List.getLast?_isSome.mpr (List.cons_ne_nil first rest))
    have whole := locked first rfl last tail
    have second := congrArg Prod.snd whole
    simp only [gazeboAdvance, List.head?_cons, tail]
    exact second

/-- gem5 follows its ideal timeline: after any number of steps it misses it by one step's error. -/
theorem ticks_near {ready client : Client} {replies : List Timing.Step} {length : Int} {E : Nat}
    (live : ready.Live) (fresh : ready.anchored = false)
    (ran : run (Timing.pair .machine) ready replies = some client)
    (tolerated : ∀ reply ∈ replies, Timing.Tolerated E reply)
    (uniform : ∀ reply ∈ replies, reply.interval = length) :
    |(ticks client : Int) - 1000 * (replies.length * length)| ≤ E := by
  cases replies with
  | nil =>
    cases ran
    simp [ticks_fresh fresh]
  | cons first rest =>
    have followed := Timing.all_pairs live fresh tolerated ran
    have near := followed.path.near (by simp)
    have target := followed.path.target_eq
    have sum : ((first :: rest).map fun step : Timing.Step => 1000 * step.interval).sum =
        1000 * ((first :: rest).length * length) := by
      rw [List.map_congr_left fun step member => by rw [uniform step member], List.map_const',
        List.sum_replicate, nsmul_eq_mul]
      ring
    have ordered := followed.live.ranged.ordered
    have origin := followed.origin
    have elapsed := ticks_anchored followed.live followed.anchored
    rw [sum] at target
    rw [elapsed, Nat.cast_sub ordered, origin]
    rw [target] at near
    rw [show (client.lastTick : Int) - first.start - 1000 * ((first :: rest).length * length) =
      client.lastTick - (first.start + 1000 * ((first :: rest).length * length)) by ring]
    exact near

/-- In every run of `gazebo_host_bridge` in an undisturbed world, with a gem5 that misses no request
by more than `E` ticks and an interval whose ticks and `E` together are within `max_step_ticks`: as
long as nothing has failed, gem5 has taken as many steps as Gazebo or one more, and its clock is that
many intervals ahead of the verified Gazebo clock, up to `E`. At the loop condition the two clocks
agree up to `E`. -/
theorem clocks_agree {socket world : Line} {physicsStep : Int} {E : Nat} {initial : Cosimulation}
    {events : List Tick} (created : create settings socket physicsStep world true = .ok initial)
    (ran : run (step settings) initial events = some state)
    (undisturbed : ∀ front tick rest before, events = front ++ tick :: rest →
      run (step settings) initial front = some before → before.Undisturbed tick)
    (tolerated : ∀ reply ∈ state.taken, Timing.Tolerated E reply) (working : state.Working) :
    state.gazebo.completed.length ≤ state.taken.length ∧
      state.taken.length ≤ state.gazebo.completed.length + 1 ∧
      |(ticks state.gem5 : Int) - 1000 * (gazeboAdvance state.gazebo.completed +
        (state.taken.length - state.gazebo.completed.length) * settings.duration)| ≤ E ∧
      (state.place = .loop → state.count = state.gazebo.completed.length ∧
        |(ticks state.gem5 : Int) - 1000 * gazeboAdvance state.gazebo.completed| ≤ E) := by
  obtain ⟨positive, rfl⟩ := create_ok created
  have aligned : Aligned settings state :=
    run_preserves (fun _ _ _ before taken => before.step taken) aligned_initial ran
  have metered : Metered physicsStep state :=
    run_preserves (fun _ _ _ before taken => before.step taken)
      ⟨Controller.measured_initial _, rfl⟩ ran
  have linked : state.gazebo.Linked :=
    run_preserves_guarded (fun _ _ _ before quiet taken => linked_step before quiet taken)
      (Controller.linked_initial _) undisturbed ran
  have whole : ∀ segment ∈ state.gazebo.completed, Whole physicsStep segment := by
    rw [← metered.same]
    exact metered.measured.whole
  have locked := (lockstep_iff_contiguous positive whole metered.measured.exactly).mpr
    linked.chained state.gazebo.completed [] (List.append_nil _).symm
  have advance := gazeboAdvance_eq locked aligned.lengths
  have taken := aligned.taken working
  have completed := aligned.completed working
  have near : |(ticks state.gem5 : Int) - 1000 * (state.taken.length * settings.duration)| ≤ E := by
    by_cases waiting : state.place = .waiting
    · obtain ⟨none, endpoint, timeout, fresh⟩ := aligned.fresh waiting
      rw [none, ticks_fresh (by rw [fresh])]
      simp
    · obtain ⟨ready, live, unanchored, paired⟩ := aligned.paired working waiting
      exact ticks_near live unanchored paired tolerated (aligned.uniform working)
  have order : state.place.gazeboAhead ≤ state.place.gem5Ahead ∧
      state.place.gem5Ahead ≤ state.place.gazeboAhead + 1 := by
    cases state.place <;> simp [Place.gazeboAhead, Place.gem5Ahead]
  refine ⟨by omega, by omega, ?_, fun looping => ?_⟩
  · rw [advance]
    convert near using 3
    ring
  · rw [looping] at taken completed
    have same : state.taken.length = state.gazebo.completed.length := taken.trans completed.symm
    rw [advance, ← same]
    exact ⟨by rw [aligned.counted working, taken]; rfl, near⟩

def millisecond : Settings :=
  { interval := 1000, poll := 500, steps := 2, timeout := 300, logs := true, polls := by decide,
    shorter := by decide, hourly := by decide, counted := by decide, patient := by decide }

def round (reply : Timing.Step) (finish : Nat) : List Tick :=
  [⟨10, .check true⟩, ⟨10, .start⟩, ⟨10, .exchange (.ok ())⟩, ⟨400, .gem5 reply (.ok ())⟩,
    ⟨50, .deliver (.ok ())⟩, ⟨20, .request .accepted⟩,
    ⟨300, .stats ⟨BitVec.ofNat 64 finish, 0, finish * 1000000, true⟩⟩, ⟨10, .verify false false⟩,
    ⟨30, .settled (.ok ())⟩, ⟨20, .returns true (.ok ()) true⟩]

def twoRounds : List Tick :=
  [⟨100, .ready [⟨.sent, false, false⟩] (.bytes (text "PAUSED 0\n"))⟩,
    ⟨50, .stats ⟨0, 0, 0, true⟩⟩, ⟨10, .look false false⟩, ⟨5, .begin⟩] ++
    round ⟨1000000, 1000000000, 0, 1000000300⟩ 1 ++
    round ⟨1000000, 999999700, 1000000300, 2000000100⟩ 2

theorem clocks_agree_twoRounds : ∃ initial state,
    create millisecond (text "/tmp/time.sock") 1000000 (text "world") true = .ok initial ∧
      run (step millisecond) initial twoRounds = some state ∧ state.place = .loop ∧
      state.count = 2 ∧ state.count = state.gazebo.completed.length ∧
      |(ticks state.gem5 : Int) - 1000 * gazeboAdvance state.gazebo.completed| ≤ (300 : Nat) := by
  have created : create millisecond (text "/tmp/time.sock") 1000000 (text "world") true =
      .ok { gazebo := { physicsStep := ⟨1000000, by decide⟩ }
            gem5 := { endpoint := text "/tmp/time.sock", timeout := 300 } } := rfl
  have quiet : Along (step millisecond) Undisturbed
      { gazebo := { physicsStep := ⟨1000000, by decide⟩ }
        gem5 := { endpoint := text "/tmp/time.sock", timeout := 300 } } twoRounds := by
    decide +kernel
  have ran : (run (step millisecond)
      { gazebo := { physicsStep := ⟨1000000, by decide⟩ }
        gem5 := { endpoint := text "/tmp/time.sock", timeout := 300 } } twoRounds).map
      (fun state => (state.place, state.count, state.taken)) =
      some (.loop, 2, [⟨1000000, 1000000000, 0, 1000000300⟩,
        ⟨1000000, 999999700, 1000000300, 2000000100⟩]) := by decide +kernel
  obtain ⟨state, ran, seen⟩ := Option.map_eq_some_iff.mp ran
  obtain ⟨place, count, taken⟩ : state.place = .loop ∧ state.count = 2 ∧ state.taken = _ := by
    simpa using seen
  have tolerated : ∀ reply ∈ state.taken, Timing.Tolerated 300 reply := by
    rw [taken]
    intro reply member
    simp only [List.mem_cons, List.not_mem_nil, or_false] at member
    rcases member with rfl | rfl
    all_goals constructor <;> decide
  have working : state.Working := working_of_place (by rw [place]; rfl) (by simp [place])
  have agree := (clocks_agree created ran quiet.guarded tolerated working).2.2.2 place
  exact ⟨_, state, created, ran, place, count, agree⟩

end Cosimulation

end Chimaera.Gazebo
