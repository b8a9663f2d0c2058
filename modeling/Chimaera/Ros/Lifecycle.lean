import Chimaera.Ros.Delivery

/-! The whole life of `host_bridge`. On every way out of its loop it calls `stop` once, and an
exit without a report means that it has completed the steps it was asked for. -/

namespace Chimaera.Ros
open Base.Transition Control

def completed (results : List ControllerResult) : Int :=
  (results.filter fun result => result.state = .completed).length

theorem completed_snoc (results : List ControllerResult) (result : ControllerResult) :
    completed (results ++ [result]) =
      completed results + if result.state = .completed then 1 else 0 := by
  rw [completed, List.filter_append, List.length_append]
  by_cases done : result.state = .completed
  · simp [completed, done]
  · simp [completed, done]

structure Called (host : Host) (count : Int) (Within : AppLocation → Prop)
    (Returns : ControllerResult → Prop) : Prop where
  during : host.app ≠ .idle → Within host.app ∧ completed host.results = count
  after : host.app = .idle → ∃ earlier result, host.results = earlier ++ [result] ∧
    completed earlier = count ∧ Returns result

theorem Called.step_settles {host after : Host} {count : Int}
    (called : Called host count (· ≠ .joining) fun _ => True) (settles : host.Settles after) :
    Called after count (· ≠ .joining) fun _ => True := by
  cases settles with
  | goes results stopped idle joining =>
    refine ⟨fun busy => ?_, fun rests => ?_⟩
    · obtain ⟨other, counted⟩ := called.during (mt idle.mpr busy)
      exact ⟨mt joining.mp other, results ▸ counted⟩
    · obtain ⟨earlier, result, split, counted⟩ := called.after (idle.mp rests)
      exact ⟨earlier, result, results.trans split, counted⟩
  | steps result busy other idle results =>
    exact ⟨fun busy => absurd idle busy,
      fun _ => ⟨host.results, result, results, (called.during busy).2, trivial⟩⟩
  | stops joining idle results stopped =>
    exact absurd joining (called.during (by simp [joining])).1

def Reports (host : Host) (result : ControllerResult) : Prop :=
  result.state = .failed ∨ result.state = .stopped ∧ host.stopped = true

theorem Called.stop_settles {host after : Host} {count : Int}
    (called : Called host count (· = .joining) (Reports host)) (settles : host.Settles after) :
    Called after count (· = .joining) (Reports after) := by
  cases settles with
  | goes results stopped idle joining =>
    refine ⟨fun busy => ?_, fun rests => ?_⟩
    · obtain ⟨within, counted⟩ := called.during (mt idle.mpr busy)
      exact ⟨joining.mpr within, results ▸ counted⟩
    · obtain ⟨earlier, result, split, counted, reports⟩ := called.after (idle.mp rests)
      refine ⟨earlier, result, results.trans split, counted, ?_⟩
      rwa [Reports, stopped]
  | steps result busy other idle results => exact absurd (called.during busy).1 other
  | stops joining idle results stopped =>
    refine ⟨fun busy => absurd idle busy, fun _ => ⟨host.results, _, results, ?_, ?_⟩⟩
    · exact (called.during (by simp [joining])).2
    · exact .inr ⟨rfl, stopped⟩

theorem settles_rested {host after : Host} (settles : host.Settles after)
    (rests : host.app = .idle) : after.results = host.results ∧ after.stopped = host.stopped := by
  cases settles with
  | goes results stopped idle joining => exact ⟨results, stopped⟩
  | steps result busy other idle results => exact absurd rests busy
  | stops joining idle results stopped => rw [rests] at joining; cases joining

namespace World

def Ledger (settings : HostSettings) (uninterrupted : Prop) (world : World) : Prop :=
  match world.hostMain with
  | .waiting | .loop => world.calls = 0 ∧ completed world.system.host.results = world.count ∧
      (settings.steps = 0 ∨ world.count ≤ settings.steps)
  | .exchange second _ => world.calls = 0 ∧
      completed world.system.host.results = world.count + (if second then 1 else 0) ∧
      (settings.steps = 0 ∨ world.count < settings.steps)
  | .stepping => world.calls = 0 ∧
      Called world.system.host world.count (· ≠ .joining) (fun _ => True) ∧
      (settings.steps = 0 ∨ world.count < settings.steps)
  | .stopping (some _) => world.calls = 0
  | .stopping none => world.calls = 0 ∧ completed world.system.host.results = world.count ∧
      (uninterrupted → settings.steps ≠ 0 ∧ world.count = settings.steps)
  | .stopped (some _) => world.calls = 1
  | .stopped none => world.calls = 1 ∧
      Called world.system.host world.count (· = .joining) (Reports world.system.host) ∧
      (uninterrupted → settings.steps ≠ 0 ∧ world.count = settings.steps)
  | .ended (some _) => world.calls = 1
  | .ended none => world.calls = 1 ∧ completed world.system.host.results = world.count ∧
      world.system.host.stopped = true ∧
      (uninterrupted → settings.steps ≠ 0 ∧ world.count = settings.steps)

theorem ledger_initial (settings : HostSettings) (uninterrupted : Prop) (host guest : Bridge)
    (start : GuestMain) : Ledger settings uninterrupted (initial settings host guest start) := by
  refine ⟨rfl, rfl, ?_⟩
  have counted := settings.counted
  exact .inr counted

theorem ledger_congr {settings : HostSettings} {uninterrupted : Prop} {world after : World}
    (ledger : Ledger settings uninterrupted world) (main : after.hostMain = world.hostMain)
    (count : after.count = world.count) (calls : after.calls = world.calls)
    (host : after.system.host = world.system.host) : Ledger settings uninterrupted after := by
  rw [Ledger, main, count, calls, host]
  exact ledger

variable {settings : HostSettings} {uninterrupted : Prop} {world after : World}

theorem ledger_inner (ledger : Ledger settings uninterrupted world) (calm : world.Calm)
    {system : System} (settles : world.system.host.Settles system.host) :
    Ledger settings uninterrupted { world with system := system } := by
  have rested : world.hostMain.calling = false → system.host.results = world.system.host.results ∧
      system.host.stopped = world.system.host.stopped :=
    fun quiet => settles_rested settles (calm.host quiet)
  cases place : world.hostMain with
  | waiting | loop | exchange =>
    simp only [Ledger, place] at ledger ⊢
    rw [(rested (by rw [place]; rfl)).1]
    exact ledger
  | stepping =>
    simp only [Ledger, place] at ledger ⊢
    exact ⟨ledger.1, ledger.2.1.step_settles settles, ledger.2.2⟩
  | stopping thrown =>
    cases thrown with
    | some what => simpa only [Ledger, place] using ledger
    | none =>
      simp only [Ledger, place] at ledger ⊢
      rw [(rested (by rw [place]; rfl)).1]
      exact ledger
  | stopped thrown =>
    cases thrown with
    | some what => simpa only [Ledger, place] using ledger
    | none =>
      simp only [Ledger, place] at ledger ⊢
      exact ⟨ledger.1, ledger.2.1.stop_settles settles, ledger.2.2⟩
  | ended reported =>
    cases reported with
    | some what => simpa only [Ledger, place] using ledger
    | none =>
      simp only [Ledger, place] at ledger ⊢
      rw [(rested (by rw [place]; rfl)).1, (rested (by rw [place]; rfl)).2]
      exact ledger

theorem stepInterval_called {host : Host} {count : Int}
    (counted : completed host.results = count) (interval : Int) :
    Called (host.stepInterval interval) count (· ≠ .joining) fun _ => True := by
  have returned (state : ControllerState) (message : String) :
      Called (host.returns state message) count (· ≠ .joining) fun _ => True :=
    ⟨fun busy => absurd rfl busy, fun _ => ⟨host.results, _, rfl, counted, trivial⟩⟩
  rw [Host.stepInterval]
  split_ifs
  · exact returned _ _
  · exact returned _ _
  · exact ⟨fun busy => absurd rfl busy, fun _ => ⟨host.results, _, rfl, counted, trivial⟩⟩
  · exact ⟨fun _ => ⟨by simp, counted⟩, fun idle => absurd idle (by simp)⟩

theorem stop_called {host : Host} {count : Int} (counted : completed host.results = count)
    (shutdown : Except String Unit) :
    Called (host.stop shutdown) count (· = .joining) (Reports (host.stop shutdown)) := by
  unfold Host.stop
  split_ifs with stopped
  · exact ⟨fun busy => absurd rfl busy,
      fun _ => ⟨host.results, _, rfl, counted, .inr ⟨rfl, stopped⟩⟩⟩
  · cases shutdown with
    | error what =>
      exact ⟨fun busy => absurd rfl busy, fun _ => ⟨host.results, _, rfl, counted, .inl rfl⟩⟩
    | ok _ => exact ⟨fun _ => ⟨rfl, counted⟩, fun idle => absurd idle (by simp)⟩

theorem advance_results (stage : Stage) (node : Bridge) (host : Host) :
    (Bridge.advance gem5HostController stage (node, host)).2.2.results = host.results := by
  rcases advance_state gem5HostController stage node host with
    same | ⟨-, ⟨message, given⟩ | ⟨data, accepted⟩⟩
  · rw [same]
  · exact (hostController_take given []).2.2
  · exact (hostController_submit accepted []).2.2

theorem ledger_proceeds {second : Bool} {stage : Stage} (progress : Progress)
    (ledger : Ledger settings uninterrupted world)
    (place : world.hostMain = .exchange second stage) :
    Ledger settings uninterrupted (world.hostProceeds settings second progress) := by
  simp only [Ledger, place] at ledger
  obtain ⟨calls, counted, bound⟩ := ledger
  cases progress with
  | goes stage => exact ⟨calls, counted, bound⟩
  | threw what => exact calls
  | returned =>
    cases second with
    | true =>
      refine ⟨calls, counted, ?_⟩
      change settings.steps = 0 ∨ world.count + 1 ≤ settings.steps
      omega
    | false =>
      have same : completed world.system.host.results = world.count := by simpa using counted
      exact ⟨calls, stepInterval_called same _, bound⟩

theorem ledger_step (ledger : Ledger settings uninterrupted world)
    {action : HostAction} (running : uninterrupted → action ≠ .check false)
    (taken : world.hostStep settings action = some after) :
    Ledger settings uninterrupted after := by
  cases action with
  | ready result =>
    simp only [hostStep] at taken
    split_ifs at taken with place
    simp only [Ledger, place] at ledger
    cases result with
    | ok _ =>
      cases taken
      exact ledger
    | error what =>
      cases taken
      exact ledger.1
  | check ok =>
    simp only [hostStep] at taken
    by_cases place : world.hostMain = .loop
    · rw [if_pos place] at taken
      cases taken
      simp only [Ledger, place] at ledger
      obtain ⟨calls, counted, bound⟩ := ledger
      by_cases goes : world.continues settings ok = true
      · rw [if_pos goes]
        simp only [continues, Bool.and_eq_true, Bool.or_eq_true, beq_iff_eq, decide_eq_true_eq]
          at goes
        refine ⟨calls, ?_, goes.2⟩
        simpa using counted
      · rw [if_neg goes]
        refine ⟨calls, counted, fun calm => ?_⟩
        have alive : ok = true := by
          cases ok with
          | true => rfl
          | false => exact absurd rfl (running calm)
        simp only [continues, alive, Bool.true_and, Bool.or_eq_true, beq_iff_eq, decide_eq_true_eq,
          not_or, not_lt] at goes
        exact ⟨goes.1, le_antisymm (bound.resolve_left goes.1) goes.2⟩
    · rw [if_neg place] at taken
      cases taken
  | advance =>
    simp only [hostStep] at taken
    split at taken
    case h_1 second stage place =>
      cases taken
      refine ledger_proceeds _ ?_ place
      simp only [Ledger, setHost, place, advance_results] at ledger ⊢
      exact ledger
    case h_2 => cases taken
  | arrive key payload =>
    simp only [hostStep] at taken
    split at taken
    case h_1 second place =>
      split_ifs at taken
      split at taken
      · cases taken
        simp only [Ledger, place] at ledger ⊢
        exact ledger
      · cases taken
        refine ledger_proceeds _ ?_ place
        simp only [Ledger, place] at ledger ⊢
        exact ledger
    case h_2 => cases taken
  | stop shutdown =>
    simp only [hostStep] at taken
    split at taken
    case h_1 thrown place =>
      cases taken
      cases thrown with
      | some what =>
        simp only [Ledger, place] at ledger
        simp [Ledger, setHost, ledger]
      | none =>
        simp only [Ledger, place] at ledger
        obtain ⟨calls, counted, bound⟩ := ledger
        refine ⟨?_, stop_called counted shutdown, bound⟩
        simp [setHost, calls]
    case h_2 => cases taken
  | returns =>
    simp only [hostStep] at taken
    split at taken
    case h_1 result place idle found =>
      cases taken
      simp only [Ledger, place] at ledger
      obtain ⟨calls, called, bound⟩ := ledger
      obtain ⟨earlier, last, split, counted, -⟩ := called.after idle
      rw [split, List.getLast?_concat, Option.some.injEq] at found
      subst found
      by_cases done : last.state = .completed
      · rw [afterStep, if_pos done]
        refine ⟨calls, ?_, bound⟩
        rw [split, completed_snoc, if_pos done, counted]
        rfl
      · rw [afterStep, if_neg done]
        exact calls
    case h_2 thrown result place idle found =>
      cases taken
      cases thrown with
      | some what =>
        simp only [Ledger, place] at ledger
        exact ledger
      | none =>
        simp only [Ledger, place] at ledger
        obtain ⟨calls, called, bound⟩ := ledger
        obtain ⟨earlier, last, split, counted, reports⟩ := called.after idle
        rw [split, List.getLast?_concat, Option.some.injEq] at found
        subst found
        by_cases failed : last.state = .failed
        · simp only [afterStop, if_pos failed]
          exact calls
        · obtain ⟨stopped, closed⟩ := reports.resolve_left failed
          simp only [afterStop, if_neg failed]
          refine ⟨calls, ?_, closed, bound⟩
          rw [split, completed_snoc, stopped, counted]
          simp
    case h_3 => cases taken

theorem guestStep_host {action : GuestAction} (taken : world.guestStep action = some after) :
    after.hostMain = world.hostMain ∧ after.count = world.count ∧ after.calls = world.calls ∧
      after.system.host = world.system.host := by
  cases action with
  | look ready cancelled late =>
    simp only [guestStep] at taken
    split_ifs at taken <;> cases taken <;> exact ⟨rfl, rfl, rfl, rfl⟩
  | check running =>
    simp only [guestStep] at taken
    split_ifs at taken <;> cases taken <;> exact ⟨rfl, rfl, rfl, rfl⟩
  | advance =>
    simp only [guestStep] at taken
    split at taken
    · cases taken
      cases (Bridge.advance gem5GuestController _ (world.guestNode, world.system.guest)).1 <;>
        exact ⟨rfl, rfl, rfl, rfl⟩
    · cases taken
  | arrive key payload =>
    simp only [guestStep] at taken
    split at taken
    · split_ifs at taken
      split at taken
      · cases taken
        exact ⟨rfl, rfl, rfl, rfl⟩
      case h_2 progress node _ _ =>
        cases taken
        cases progress <;> exact ⟨rfl, rfl, rfl, rfl⟩
    · cases taken
  | returns =>
    simp only [guestStep] at taken
    split at taken
    · cases taken
      exact ⟨rfl, rfl, rfl, rfl⟩
    · cases taken

structure Accounts (settings : HostSettings) (uninterrupted : Prop) (world : World) : Prop where
  invariant : world.Invariant
  ledger : Ledger settings uninterrupted world

theorem step_accounts (world : World) (event : WorldEvent) (after : World)
    (accounts : Accounts settings uninterrupted world)
    (running : uninterrupted → event ≠ .hostMain (.check false))
    (taken : world.step settings event = some after) : Accounts settings uninterrupted after := by
  refine ⟨step_invariant world event after accounts.invariant taken, ?_⟩
  cases event with
  | host event =>
    simp only [step] at taken
    split_ifs at taken with inner
    obtain ⟨system, stepped, rfl⟩ := Option.map_eq_some_iff.mp taken
    obtain ⟨⟨host, inbox, sent⟩, moved, same⟩ := Option.bind_eq_some_iff.mp stepped
    cases same
    exact ledger_inner accounts.ledger accounts.invariant.calm (Host.inner_step inner moved).settles
  | guest event =>
    simp only [step] at taken
    split_ifs at taken with inner
    obtain ⟨system, stepped, rfl⟩ := Option.map_eq_some_iff.mp taken
    obtain ⟨⟨guest, inbox, sent⟩, moved, same⟩ := Option.bind_eq_some_iff.mp stepped
    cases same
    exact ledger_congr accounts.ledger rfl rfl rfl rfl
  | hostMain action =>
    refine ledger_step accounts.ledger ?_ taken
    rintro calm rfl
    exact running calm rfl
  | guestMain action =>
    obtain ⟨main, count, calls, host⟩ := guestStep_host taken
    exact ledger_congr accounts.ledger main count calls host

theorem run_accounts {host guest : Bridge} (hosting : host.Fresh) (guesting : guest.Fresh)
    {start : GuestMain} {events : List WorldEvent}
    (running : uninterrupted → ∀ event ∈ events, event ≠ .hostMain (.check false))
    (ran : run (step settings) (initial settings host guest start) events = some world) :
    Accounts settings uninterrupted world := by
  apply run_preserves_guarded step_accounts
    ⟨invariant_initial settings hosting guesting start, ledger_initial settings _ host guest start⟩
    ?_ ran
  intro front event rest before split _ calm
  apply running calm
  rw [split]
  simp

/-- However the programs interleave, `host_bridge` calls `stop` at most once and has called it
when it ends. If it ends without a report and was not interrupted, it has completed exactly the
steps it was asked for, and gem5 has been stopped. -/
theorem host_bridge_ends {host guest : Bridge} {start : GuestMain} {events : List WorldEvent}
    {hostRoutes guestRoutes : List Route} {hostLimit guestLimit : Int}
    (hosting : Bridge.Built (literal "host") hostRoutes hostLimit host)
    (guesting : Bridge.Built (literal "guest") guestRoutes guestLimit guest)
    (ran : run (step settings) (initial settings host guest start) events = some world) :
    world.calls ≤ 1 ∧ (∀ reported, world.hostMain = .ended reported → world.calls = 1) ∧
      (world.hostMain = .ended none → world.system.host.stopped = true ∧
        completed world.system.host.results = world.count ∧
        ((∀ event ∈ events, event ≠ .hostMain (.check false)) →
          settings.steps ≠ 0 ∧ world.count = settings.steps)) := by
  have accounts := run_accounts hosting.fresh guesting.fresh id ran
  have ledger := accounts.ledger
  refine ⟨?_, ?_, ?_⟩
  · simp only [Ledger] at ledger
    split at ledger <;> omega
  · intro reported place
    simp only [Ledger, place] at ledger
    cases reported with
    | some what => exact ledger
    | none => exact ledger.1
  · intro place
    simp only [Ledger, place] at ledger
    exact ⟨ledger.2.2.1, ledger.2.1, ledger.2.2.2⟩

def oneStep : List WorldEvent :=
  firstMessage ++ [.host .timingDone, .host .drain, .host .append, .hostMain .returns,
    .hostMain .advance, .hostMain .advance, .hostMain .advance, .hostMain (.check true),
    .hostMain (.stop (.ok ())), .host (.workerTransportError "cancelled" false), .host .join,
    .hostMain .returns]

theorem host_bridge_ends_oneStep :
    ∃ world, run (step sampleSettings) (initial sampleSettings sampleHost sampleGuest .loop)
        oneStep = some world ∧ world.hostMain = .ended none ∧ world.calls = 1 ∧
      world.system.host.stopped = true ∧ world.count = 1 := by
  have ran : (run (step sampleSettings) (initial sampleSettings sampleHost sampleGuest .loop)
      oneStep).map (fun world => world.hostMain) = some (.ended none) := by decide +kernel
  obtain ⟨world, reached, ended⟩ := Option.map_eq_some_iff.mp ran
  obtain ⟨-, once, done⟩ := host_bridge_ends built_sampleHost built_sampleGuest reached
  obtain ⟨stopped, -, exact⟩ := done ended
  refine ⟨world, reached, ended, once none ended, stopped, (exact ?_).2⟩
  simp [oneStep, firstMessage]

end World

end Chimaera.Ros
