import Chimaera.Ros.Exchange

/-! What becomes of the frames that callbacks queue, over any sequence of callbacks and
exchanges with any controllers. A frame leaves the node's queue, and is counted, before the
controller is asked to take it, so one that the controller refuses is gone. -/

namespace Chimaera.Ros
open Base.BigEndian Base.Transition Control

variable {γ : Type}

def DataController.logged (controller : DataController γ) : DataController (γ × Batch) where
  take := fun (state, log) =>
    match controller.take state with
    | .error what => .error what
    | .ok (message, state) => .ok (message, (state, log))
  submit := fun (state, log) data =>
    match controller.submit state data with
    | .error what => .error what
    | .ok state => .ok (state, log ++ [data])

def DataController.takesAll (controller : DataController γ) : γ → Batch → Bool
  | _, [] => true
  | state, data :: rest =>
      match controller.submit state data with
      | .error _ => false
      | .ok state => controller.takesAll state rest

namespace Bridge

@[simp] def Outcome.last : Outcome γ → Bridge × γ
  | .ok _ last => last
  | .error _ last => last

def admitted : List (ByteString × ByteString) → Bridge → Batch
  | [], _ => []
  | (key, payload) :: rest, bridge =>
      match (callback key payload).run bridge with
      | .error _ _ => []
      | .ok _ after => frame key payload :: admitted rest after

def pumped (controller : DataController γ) (arrivals : List (ByteString × ByteString)) (fuel : Nat)
    (start : Bridge × γ) : Batch :=
  match receiveLoop controller fuel start with
  | some (.ok _ (bridge, _)) => admitted arrivals bridge
  | _ => []

def unrefused (controller : DataController γ) (arrivals : List (ByteString × ByteString))
    (fuel : Nat) (start : Bridge × γ) : Bool :=
  match receiveLoop controller fuel start with
  | some (.ok _ (bridge, state)) =>
      match (pump arrivals).run bridge with
      | .ok _ bridge => controller.takesAll state bridge.outgoing
      | .error _ _ => true
  | _ => true

end Bridge

structure Traffic where
  bridge : Bridge
  accepted : Batch := []
  delivered : Batch := []

namespace Traffic

inductive Event (γ : Type) where
  | callback (key payload : ByteString)
  | exchange (controller : DataController γ) (state : γ)
      (arrivals : List (ByteString × ByteString)) (fuel : Nat)

/-- Callbacks and exchanges may throw; the node goes on from what they leave. -/
def step (world : Traffic) : Event γ → Option Traffic
  | .callback key payload =>
      match (Bridge.callback key payload).run world.bridge with
      | .error _ bridge => some { world with bridge := bridge }
      | .ok _ bridge => some { world with
          bridge := bridge
          accepted := world.accepted ++ [Bridge.frame key payload] }
  | .exchange controller state arrivals fuel =>
      let start := (world.bridge, (state, world.delivered))
      (Bridge.exchange controller.logged arrivals fuel start).map fun outcome => {
        bridge := outcome.last.1
        accepted := world.accepted ++ Bridge.pumped controller arrivals fuel (world.bridge, state)
        delivered := outcome.last.2.2 }

/-- Every accepted frame has been handed over or waits, once and in order, and
`transmitted()` counts the former. -/
structure Conserved (world : Traffic) : Prop where
  order : world.accepted = world.delivered ++ world.bridge.outgoing
  count : world.bridge.transmitted = world.delivered.length

def Unrefused (world : Traffic) : Event γ → Prop
  | .callback _ _ => True
  | .exchange controller state arrivals fuel =>
      Bridge.unrefused controller arrivals fuel (world.bridge, state) = true

instance (world : Traffic) : ∀ event : Event γ, Decidable (world.Unrefused event)
  | .callback _ _ => .isTrue trivial
  | .exchange _ _ _ _ => inferInstanceAs (Decidable (_ = true))

end Traffic

/-! ## The loops -/

namespace Bridge

def Outcome.withLog (log : Batch) : Outcome γ → Outcome (γ × Batch)
  | .ok _ (bridge, state) => .ok () (bridge, (state, log))
  | .error what (bridge, state) => .error what (bridge, (state, log))

theorem receiveLoop_logged (controller : DataController γ) (fuel : Nat) (bridge : Bridge)
    (state : γ) (log : Batch) :
    receiveLoop controller.logged fuel (bridge, (state, log)) =
      (receiveLoop controller fuel (bridge, state)).map (Outcome.withLog log) := by
  induction fuel generalizing bridge state with
  | zero => rfl
  | succ fuel ih =>
    cases taken : controller.take state with
    | error what =>
      have seen : controller.logged.take (state, log) = .error what := by
        simp only [DataController.logged, taken]
      simp only [receiveLoop, seen, taken]
      rfl
    | ok result =>
      obtain ⟨message, next⟩ := result
      have seen : controller.logged.take (state, log) = .ok (message, (next, log)) := by
        simp only [DataController.logged, taken]
      simp only [receiveLoop, seen, taken]
      cases message with
      | none => rfl
      | some bytes =>
        cases published : (submit bytes).run bridge with
        | error what after =>
          simp only [published]
          rfl
        | ok _ after =>
          simp only [published]
          exact ih after next

theorem receiveLoop_last (controller : DataController γ) (fuel : Nat) (bridge : Bridge) (state : γ)
    {outcome : Outcome γ} (ran : receiveLoop controller fuel (bridge, state) = some outcome) :
    outcome.last.1.outgoing = bridge.outgoing ∧ outcome.last.1.transmitted = bridge.transmitted := by
  induction fuel generalizing bridge state with
  | zero => cases ran
  | succ fuel ih =>
    simp only [receiveLoop] at ran
    cases taken : controller.take state with
    | error what =>
      simp only [taken, Option.some.injEq] at ran
      subst ran
      exact ⟨rfl, rfl⟩
    | ok result =>
      obtain ⟨message, next⟩ := result
      cases message with
      | none =>
        simp only [taken, Option.some.injEq] at ran
        subst ran
        exact ⟨rfl, rfl⟩
      | some bytes =>
        by_cases accepts : bridge.Accepts bytes
        · obtain ⟨key, payload, short, known, low, high, rfl⟩ := accepts
          simp only [taken, submit_frame short known low high] at ran
          have kept := ih _ next ran
          exact kept
        · obtain ⟨what, refused⟩ := submit_refused accepts
          simp only [taken, refused, Option.some.injEq] at ran
          subst ran
          exact ⟨rfl, rfl⟩

theorem callback_cases (key payload : ByteString) (bridge : Bridge) :
    (callback key payload).run bridge =
        .ok () { bridge with outgoing := bridge.outgoing ++ [frame key payload] } ∨
      ∃ what, (callback key payload).run bridge = .error what bridge := by
  by_cases excess : bridge.byteLimit < payload.length ∨ bridge.queueLimit ≤ bridge.outgoing.length
  · exact .inr ⟨_, callback_refused excess⟩
  · obtain ⟨within, room⟩ := not_or.mp excess
    exact .inl (callback_run (Nat.le_of_not_lt within) (Nat.lt_of_not_le room))

theorem pump_run (arrivals : List (ByteString × ByteString)) (bridge : Bridge) :
    (pump arrivals).run bridge =
        .ok () { bridge with outgoing := bridge.outgoing ++ admitted arrivals bridge } ∨
      ∃ what, (pump arrivals).run bridge =
        .error what { bridge with outgoing := bridge.outgoing ++ admitted arrivals bridge } := by
  induction arrivals generalizing bridge with
  | nil =>
    left
    simp only [pump, admitted, List.append_nil, EStateM.run_pure]
  | cons arrival rest ih =>
    obtain ⟨key, payload⟩ := arrival
    rw [pump, EStateM.run_bind]
    rcases callback_cases key payload bridge with queued | ⟨what, thrown⟩
    · have later := ih { bridge with outgoing := bridge.outgoing ++ [frame key payload] }
      simp only [admitted, queued]
      simpa only [List.append_assoc, List.singleton_append] using later
    · right
      simp only [admitted, thrown, List.append_nil]
      exact ⟨what, rfl⟩

/-- Transmitting hands over a first part of the queue. Where the controller refuses, the
frame behind that part is dropped although it has been counted. -/
theorem transmitLoop_last (controller : DataController γ) (fuel : Nat) (bridge : Bridge)
    (state : γ) (log : Batch) {outcome : Outcome (γ × Batch)}
    (ran : transmitLoop controller.logged fuel (bridge, (state, log)) = some outcome) :
    ∃ sent dropped, bridge.outgoing = sent ++ dropped ++ outcome.last.1.outgoing ∧
      outcome.last.1.transmitted = bridge.transmitted + sent.length + dropped.length ∧
      outcome.last.2.2 = log ++ sent ∧
      (dropped = [] ↔ controller.takesAll state bridge.outgoing = true) := by
  induction fuel generalizing bridge state log with
  | zero => cases ran
  | succ fuel ih =>
    cases waiting : bridge.outgoing with
    | nil =>
      simp only [transmitLoop, take, waiting, Option.some.injEq] at ran
      subst ran
      exact ⟨[], [], by simp [Outcome.last, waiting], rfl, by simp [Outcome.last],
        by simp [DataController.takesAll]⟩
    | cons bytes rest =>
      cases offered : controller.submit state bytes with
      | error what =>
        simp only [transmitLoop, take, waiting, DataController.logged, offered,
          Option.some.injEq] at ran
        subst ran
        exact ⟨[], [bytes], by simp [Outcome.last], by simp [Outcome.last],
          by simp [Outcome.last], by simp [DataController.takesAll, offered]⟩
      | ok next =>
        have later : transmitLoop controller.logged fuel
            ({ bridge with outgoing := rest, transmitted := bridge.transmitted + 1 },
              (next, log ++ [bytes])) = some outcome := by
          rw [← ran]
          simp only [transmitLoop, take, waiting]
          simp only [DataController.logged, offered]
        obtain ⟨sent, dropped, split, count, logged, whole⟩ := ih _ _ _ later
        refine ⟨bytes :: sent, dropped, ?_, ?_, ?_, ?_⟩
        · rw [show rest = _ from split]
          rfl
        · have total : outcome.last.1.transmitted =
            bridge.transmitted + 1 + sent.length + dropped.length := count
          rw [total, List.length_cons]
          omega
        · rw [logged, List.append_assoc, List.singleton_append]
        · simpa only [DataController.takesAll, offered] using whole

end Bridge

/-! ## Steps and runs -/

namespace Traffic

structure Moves (world after : Traffic) (queued sent dropped : Batch) : Prop where
  accepted : after.accepted = world.accepted ++ queued
  delivered : after.delivered = world.delivered ++ sent
  outgoing : world.bridge.outgoing ++ queued = sent ++ dropped ++ after.bridge.outgoing
  transmitted : after.bridge.transmitted = world.bridge.transmitted + sent.length + dropped.length

variable {world after : Traffic}

theorem exchange_moves {controller : DataController γ} {state : γ}
    {arrivals : List (ByteString × ByteString)} {fuel : Nat}
    (taken : world.step (.exchange controller state arrivals fuel) = some after) :
    ∃ queued sent dropped, world.Moves after queued sent dropped ∧
      (dropped = [] ↔ world.Unrefused (.exchange controller state arrivals fuel)) := by
  simp only [Unrefused, Bridge.unrefused]
  simp only [step, Bridge.pumped, Bridge.exchange, Bridge.receiveLoop_logged] at taken
  cases received : Bridge.receiveLoop controller fuel (world.bridge, state) with
  | none => simp only [received, Option.map_none, reduceCtorEq] at taken
  | some outcome =>
    have untouched := Bridge.receiveLoop_last _ _ _ _ received
    cases outcome with
    | error what last =>
      simp only [received, Option.map_some, Bridge.Outcome.withLog, Option.some.injEq] at taken
      subst taken
      refine ⟨[], [], [], ⟨rfl, (List.append_nil _).symm, ?_, untouched.2⟩, by simp⟩
      rw [List.append_nil]
      exact untouched.1.symm
    | ok _ last =>
      obtain ⟨bridge, last⟩ := last
      obtain ⟨same, counted⟩ : bridge.outgoing = world.bridge.outgoing ∧
        bridge.transmitted = world.bridge.transmitted := untouched
      simp only [received, Option.map_some, Bridge.Outcome.withLog] at taken
      rcases Bridge.pump_run arrivals bridge with pumped | ⟨what, thrown⟩
      · simp only [pumped] at taken ⊢
        cases transmitted : Bridge.transmitLoop controller.logged fuel
            ({ bridge with outgoing := bridge.outgoing ++ Bridge.admitted arrivals bridge },
              (last, world.delivered)) with
        | none => simp only [transmitted, Option.map_none, reduceCtorEq] at taken
        | some outcome =>
          obtain ⟨sent, dropped, split, count, log, whole⟩ :=
            Bridge.transmitLoop_last _ _ _ _ _ transmitted
          simp only [transmitted, Option.map_some, Option.some.injEq] at taken
          subst taken
          refine ⟨_, sent, dropped, ⟨rfl, log, ?_, ?_⟩, whole⟩
          · rw [← same]
            exact split
          · rw [← counted]
            exact count
      · simp only [thrown, Option.map_some, Option.some.injEq] at taken ⊢
        subst taken
        refine ⟨_, [], [], ⟨rfl, by simp, ?_, counted⟩, by simp⟩
        rw [← same]
        rfl

theorem step_moves {event : Event γ} (taken : world.step event = some after) :
    ∃ queued sent dropped, world.Moves after queued sent dropped ∧
      (dropped = [] ↔ world.Unrefused event) := by
  cases event with
  | callback key payload =>
    rcases Bridge.callback_cases key payload world.bridge with accepted | ⟨what, thrown⟩
    · simp only [step, accepted, Option.some.injEq] at taken
      subst taken
      exact ⟨_, [], [], ⟨rfl, by simp, by simp, rfl⟩, by simp [Unrefused]⟩
    · simp only [step, thrown, Option.some.injEq] at taken
      subst taken
      exact ⟨[], [], [], ⟨by simp, by simp, by simp, rfl⟩, by simp [Unrefused]⟩
  | exchange controller state arrivals fuel => exact exchange_moves taken

theorem Conserved.moves {queued sent : Batch} (conserved : world.Conserved)
    (moves : world.Moves after queued sent []) : after.Conserved where
  order := by
    rw [moves.accepted, moves.delivered, conserved.order, List.append_assoc, moves.outgoing]
    simp only [List.append_nil, List.append_assoc]
  count := by
    rw [moves.transmitted, moves.delivered, conserved.count, List.length_append]
    rfl

theorem step_conserved {event : Event γ} (conserved : world.Conserved)
    (unrefused : world.Unrefused event) (taken : world.step event = some after) :
    after.Conserved := by
  obtain ⟨queued, sent, dropped, moves, none⟩ := step_moves taken
  rw [none.mpr unrefused] at moves
  exact conserved.moves moves

theorem run_excess {start world : Traffic} {events : List (Event γ)} {excess : Nat}
    (counted : start.bridge.transmitted = start.delivered.length + excess)
    (ran : run step start events = some world) :
    ∃ more, world.bridge.transmitted = world.delivered.length + excess + more ∧
      (more = 0 → Along step Unrefused start events) := by
  induction events generalizing start excess with
  | nil =>
    cases ran
    exact ⟨0, counted, fun _ => trivial⟩
  | cons event rest ih =>
    obtain ⟨next, taken, later⟩ := (run_cons _ _ _ _ _).mp ran
    obtain ⟨queued, sent, dropped, moves, none⟩ := step_moves taken
    have total : next.bridge.transmitted = next.delivered.length + (excess + dropped.length) := by
      rw [moves.transmitted, moves.delivered, counted, List.length_append]
      omega
    obtain ⟨more, final, along⟩ := ih total later
    refine ⟨dropped.length + more, by omega, fun nothing => ⟨?_, ?_⟩⟩
    · apply none.mp
      exact List.eq_nil_of_length_eq_zero (by omega)
    · intro other same
      rw [taken, Option.some.injEq] at same
      subst same
      exact along (by omega)

/-- Outgoing frames are conserved in exactly those runs in which no controller refuses a
frame that an exchange offers it. -/
theorem frames_conserved_iff {start world : Traffic} {events : List (Event γ)}
    (fresh : start.Conserved) (ran : run step start events = some world) :
    world.Conserved ↔ Along step Unrefused start events := by
  constructor
  · intro conserved
    have even : start.bridge.transmitted = start.delivered.length + 0 := fresh.count
    obtain ⟨more, final, along⟩ := run_excess even ran
    have count := conserved.count
    exact along (by omega)
  · intro along
    exact run_preserves_guarded (fun _ _ _ => step_conserved) fresh along.guarded ran

def roomFor : DataController Nat where
  take room := .ok (none, room)
  submit room _ :=
    match room with
    | 0 => .error "controller queue limit exceeded"
    | room + 1 => .ok room

def twoFrames (room : Nat) : List (Event Nat) :=
  [.callback [1] [0, 1, 0, 0], .exchange roomFor room [([1], [0, 1, 0, 1])] 3]

def idle : Traffic := { bridge := { byteLimit := 4096, queueLimit := 128 } }

theorem frames_conserved_twice : ∃ world, run step idle (twoFrames 2) = some world ∧
    world.Conserved ∧ world.delivered.length = 2 := by
  have ran : (run step idle (twoFrames 2)).map (fun world => world.delivered.length) = some 2 := by
    decide +kernel
  obtain ⟨world, reached, delivered⟩ := Option.map_eq_some_iff.mp ran
  exact ⟨world, reached, (frames_conserved_iff ⟨rfl, rfl⟩ reached).mpr (by decide +kernel), delivered⟩

/-- The second frame is refused: it is neither handed over nor pending, and it is counted. -/
theorem refused_frame_lost : ∃ world, run step idle (twoFrames 1) = some world ∧
    ¬world.Conserved ∧ world.accepted.length = 2 ∧ world.delivered.length = 1 ∧
      world.bridge.outgoing = [] ∧ world.bridge.transmitted = 2 := by
  have ran : (run step idle (twoFrames 1)).map (fun world =>
      (world.accepted.length, world.delivered.length, world.bridge.outgoing,
        world.bridge.transmitted)) = some (2, 1, [], 2) := by decide +kernel
  obtain ⟨world, reached, counts⟩ := Option.map_eq_some_iff.mp ran
  simp only [Prod.mk.injEq] at counts
  obtain ⟨accepted, delivered, outgoing, transmitted⟩ := counts
  refine ⟨world, reached, ?_, accepted, delivered, outgoing, transmitted⟩
  intro conserved
  have count := conserved.count
  omega

end Traffic

end Chimaera.Ros
