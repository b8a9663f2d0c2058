import Chimaera.Timing.Commands

/-! What an `ERROR` reply of the timing server says about the simulation. A command that runs
the simulator can still raise when time has passed: `Simulator.run` raises for a cause that
`translate_exit_status` does not know and for an event without a working handler, and so does the
first `workbegin` if `on_ready` raises. -/

namespace Chimaera.Timing.Server
open Base.Text Base.Unsigned

def begins (exit : Exit) : Bool :=
  decide (exit.hypercallId = 0) && match translateExitStatus exit.cause with
    | .ok event => decide (event = .workbegin)
    | .error _ => false

/-- An exit at which `_run_once` raises, given whether the region of interest has started. -/
def raises (onReady started : Bool) (exit : Exit) : Bool :=
  (match outcomeOf exit with
    | .ok _ => false
    | .error _ => true) ||
  (begins exit && !started && onReady && match exit.callback with
    | .ok _ => false
    | .error _ => true)

structure Ran (server : Server) (exit : Exit) (result : Except Line ExitEvent) (after : Server) :
    Prop where
  tick : after.curTick = server.curTick + exit.advance
  requested : after.exitRequested = server.exitRequested
  callback : after.onReady = server.onReady
  fine : ∀ event, result = .ok event → raises server.onReady server.roiStarted exit = false ∧
    after.roiStarted = (server.roiStarted || begins exit)
  failed : ∀ message, result = .error message →
    raises server.onReady server.roiStarted exit = true ∧
    after.finished = server.finished ∧ after.roiStarted = server.roiStarted

theorem simulate_unknown (server : Server) {exit : Exit} {message : Line}
    (returned : exit.handled = .ok ()) (unknown : eventOf exit = .error message) :
    server.simulate exit = (.ok (), server.ran exit) := by
  unfold simulate
  rw [returned]
  by_cases classic : exit.hypercallId = 0
  · rw [eventOf_classic classic] at unknown
    simp only [classic, ne_eq, not_true_eq_false, if_false, unknown]
    rfl
  · simp only [ne_eq, classic, not_false_eq_true, if_true]
    rfl

/-- Other handlers than that of `WORKBEGIN` neither raise nor start the region. -/
theorem simulate_quiet (server : Server) {exit : Exit} (returned : exit.handled = .ok ())
    (other : begins exit = false) :
    ∃ finished log, server.simulate exit =
      (.ok (), { server.ran exit with finished := finished, log := log }) := by
  unfold simulate
  rw [returned]
  by_cases classic : exit.hypercallId = 0
  · simp only [classic, ne_eq, not_true_eq_false, if_false]
    split
    · next begun =>
      simp only [begins, classic, begun, decide_true, Bool.and_self] at other
      cases other
    · exact ⟨_, _, rfl⟩
    · exact ⟨_, _, rfl⟩
  · simp only [ne_eq, classic, not_false_eq_true, if_true]
    exact ⟨_, _, rfl⟩

theorem simulate_begins (server : Server) {exit : Exit} (returned : exit.handled = .ok ())
    (begun : begins exit = true) :
    eventOf exit = .ok .workbegin ∧
      server.simulate exit = (server.ran exit).onWorkbegin exit.callback := by
  unfold begins at begun
  obtain ⟨classic, known⟩ := (Bool.and_eq_true _ _).mp begun
  have classic := of_decide_eq_true classic
  cases translated : translateExitStatus exit.cause with
  | error message =>
    rw [translated] at known
    cases known
  | ok event =>
    rw [translated] at known
    cases of_decide_eq_true known
    refine ⟨(eventOf_classic classic).trans translated, ?_⟩
    unfold simulate
    simp only [returned, classic, ne_eq, not_true_eq_false, if_false, translated]
    rfl

/-- The handler of `WORKBEGIN`, by whether it raises. -/
theorem onWorkbegin_cases (server : Server) (callback : Except Line Unit) :
    (∃ log, server.onWorkbegin callback =
        (.ok (), { server with roiStarted := true, log := log }) ∧
      (server.roiStarted = true ∨ server.onReady = false ∨ callback = .ok ())) ∨
    ∃ message log, server.onWorkbegin callback = (.error message, { server with log := log }) ∧
      server.roiStarted = false ∧ server.onReady = true ∧ callback = .error message := by
  obtain ⟨onReady, roiStarted, finished, exitRequested, curTick, maxTicks, log⟩ := server
  cases roiStarted with
  | true => exact .inl ⟨_, rfl, .inl rfl⟩
  | false =>
    cases onReady with
    | false => exact .inl ⟨_, rfl, .inr (.inl rfl)⟩
    | true =>
      cases callback with
      | error message => exact .inr ⟨message, _, rfl, rfl, rfl, rfl⟩
      | ok done => exact .inl ⟨_, rfl, .inr (.inr rfl)⟩

theorem runOnce_failed (server : Server) {exit : Exit} {message : Line}
    (failed : outcomeOf exit = .error message) :
    server.runOnce exit = (.error message, server.ran exit) := by
  unfold runOnce
  unfold outcomeOf at failed
  cases returned : exit.handled with
  | error raised =>
    rw [returned] at failed
    cases failed
    rw [server.simulate_raised returned]
  | ok done =>
    rw [returned] at failed
    simp only [server.simulate_unknown returned failed, failed]

theorem handled_of_outcomeOf {exit : Exit} {event : ExitEvent}
    (fine : outcomeOf exit = .ok event) : exit.handled = .ok () := by
  unfold outcomeOf at fine
  cases returned : exit.handled with
  | error message =>
    rw [returned] at fine
    cases fine
  | ok done => rfl

theorem runOnce_ran (server : Server) (exit : Exit) :
    Ran server exit (server.runOnce exit).1 (server.runOnce exit).2 := by
  cases outcome : outcomeOf exit with
  | error message =>
    have raised : raises server.onReady server.roiStarted exit = true := by
      simp only [raises, outcome, Bool.true_or]
    rw [server.runOnce_failed outcome]
    exact ⟨rfl, rfl, rfl, nofun, fun _ _ => ⟨raised, rfl, rfl⟩⟩
  | ok event' =>
    have returned := handled_of_outcomeOf outcome
    have event := eventOf_of_outcomeOf outcome
    cases begun : begins exit with
    | false =>
      obtain ⟨finished, log, simulated⟩ := server.simulate_quiet returned begun
      have calm : raises server.onReady server.roiStarted exit = false := by
        simp only [raises, outcome, begun, Bool.false_and, Bool.or_self]
      unfold runOnce
      simp only [simulated, event]
      constructor
      all_goals try split_ifs <;> rfl
      · intro _ _
        refine ⟨calm, ?_⟩
        rw [begun, Bool.or_false]
        split_ifs <;> rfl
      · nofun
    | true =>
      obtain ⟨same, simulated⟩ := server.simulate_begins returned begun
      cases event.symm.trans same
      unfold runOnce
      rcases (server.ran exit).onWorkbegin_cases exit.callback with
        ⟨log, handled, calm⟩ | ⟨message, log, handled, waiting, supplied, called⟩
      · have quiet : raises server.onReady server.roiStarted exit = false := by
          rcases calm with started | absent | returned
          · simp [raises, outcome, show server.roiStarted = true from started]
          · simp [raises, outcome, show server.onReady = false from absent]
          · simp [raises, outcome, returned]
        simp only [simulated, handled, event]
        exact ⟨rfl, rfl, rfl, fun _ _ => ⟨quiet, by simp [begun, boundary]⟩, nofun⟩
      · have raised : raises server.onReady server.roiStarted exit = true := by
          simp [raises, outcome, begun, called, show server.roiStarted = false from waiting,
            show server.onReady = true from supplied]
        simp only [simulated, handled]
        exact ⟨rfl, rfl, rfl, nofun, fun _ _ => ⟨raised, rfl, rfl⟩⟩

/-! ## A whole step -/

def started (server : Server) (exits : List Exit) : Bool :=
  server.roiStarted || exits.any begins

structure Raised (server : Server) (exits : List Exit) (outcome : Except Line Unit)
    (after : Server) : Prop where
  tick : after.curTick = server.curTick + (exits.map Exit.advance).sum
  requested : after.exitRequested = server.exitRequested
  raises : ∀ front last, exits = front ++ [last] →
    ((∃ message, outcome = .error message) ↔
      Server.raises server.onReady (server.started front) last = true)
  failed : ∀ message, outcome = .error message → ∃ front last, exits = front ++ [last] ∧
    after.finished = server.finished ∧ after.roiStarted = server.started front

theorem started_nil (server : Server) : server.started [] = server.roiStarted := by
  simp [started]

variable {server after : Server} {exits : List Exit}

variable {outcome : Except Line Unit}

theorem Raised.single {exit : Exit} {result : Except Line ExitEvent}
    (ran : Ran server exit result after)
    (same : ∀ message, outcome = .error message ↔ result = .error message) :
    Raised server [exit] outcome after where
  tick := by rw [ran.tick, List.map_singleton, List.sum_singleton]
  requested := ran.requested
  raises := by
    intro front last split
    obtain ⟨rfl, rfl⟩ : front = [] ∧ last = exit := by
      cases front with
      | nil => exact ⟨rfl, (List.cons.inj split).1.symm⟩
      | cons first front => simp at split
    rw [started_nil]
    constructor
    · rintro ⟨message, failed⟩
      exact (ran.failed message ((same message).mp failed)).1
    · intro raised
      cases result with
      | error message => exact ⟨message, (same message).mpr rfl⟩
      | ok event =>
        rw [(ran.fine event rfl).1] at raised
        cases raised
  failed := by
    intro message failed
    obtain ⟨-, finished, roi⟩ := ran.failed message ((same message).mp failed)
    exact ⟨[], exit, rfl, finished, by rw [started_nil, roi]⟩

theorem Raised.cons {server middle after : Server} {exit : Exit} {event : ExitEvent}
    (ran : Ran server exit (.ok event) middle)
    (unfinished : server.finished = false) (goes : exits ≠ [] → middle.finished = false)
    (rest : Raised middle exits outcome after) : Raised server (exit :: exits) outcome after := by
  obtain ⟨calm, roi⟩ := ran.fine event rfl
  have later : ∀ front, middle.started front = server.started (exit :: front) := by
    intro front
    simp only [started, roi, List.any_cons, Bool.or_assoc]
  constructor
  case tick => rw [rest.tick, ran.tick, List.map_cons, List.sum_cons, Nat.add_assoc]
  case requested => exact rest.requested.trans ran.requested
  case raises =>
    intro front last split
    cases front with
    | nil =>
      obtain ⟨rfl, rfl⟩ := List.cons.inj split
      rw [started_nil, calm]
      constructor
      · rintro ⟨message, failed⟩
        obtain ⟨front, last, none, -⟩ := rest.failed message failed
        exact absurd none (by simp)
      · nofun
    | cons first front =>
      obtain ⟨rfl, tail⟩ := List.cons.inj split
      rw [← later front, ← ran.callback]
      exact rest.raises front last tail
  case failed =>
    intro message failed
    obtain ⟨front, last, rfl, finished, same⟩ := rest.failed message failed
    refine ⟨exit :: front, last, rfl, ?_, same.trans (later front)⟩
    rw [finished, goes (by simp), unfinished]

theorem stepLoop_raised {target : Nat}
    (looped : server.stepLoop target exits = some (outcome, after)) :
    Raised server exits outcome after := by
  induction exits generalizing server with
  | nil =>
    unfold stepLoop at looped
    split_ifs at looped
    cases looped
    refine ⟨rfl, rfl, ?_, ?_⟩
    · intro front last same
      exact absurd same (by simp)
    · intro message failed
      cases failed
  | cons exit exits ih =>
    rw [stepLoop] at looped
    obtain ⟨goes, looped⟩ := Option.ite_none_right_eq_some.mp looped
    have unfinished : server.finished = false := by simpa using goes.2
    have ran := { server with maxTicks := target - server.curTick }.runOnce_ran exit
    cases once : { server with maxTicks := target - server.curTick }.runOnce exit with
    | mk result middle =>
      rw [once] at ran looped
      have ran : Ran server exit result middle :=
        ⟨ran.tick, ran.requested, ran.callback, ran.fine, ran.failed⟩
      cases result with
      | error message =>
        simp only [Option.ite_none_right_eq_some, Option.some.injEq, Prod.mk.injEq] at looped
        obtain ⟨rfl, rfl, rfl⟩ := looped
        exact .single ran (by simp)
      | ok event =>
        by_cases limit : event = .maxTick
        · simp only [limit, if_true, Option.ite_none_right_eq_some, Option.some.injEq,
            Prod.mk.injEq] at looped
          obtain ⟨rfl, rfl, rfl⟩ := looped
          exact .single ran (by simp)
        · simp only [limit, if_false] at looped
          refine .cons ran unfinished ?_ (ih looped)
          intro more
          -- Another run is only made while the guest has not finished.
          obtain ⟨next, others, rfl⟩ := List.exists_cons_of_ne_nil more
          rw [stepLoop] at looped
          obtain ⟨goes, -⟩ := Option.ite_none_right_eq_some.mp looped
          simpa using goes.2

/-! ## Replies -/

/-- An `ERROR` reply means that nothing was simulated, and simulated time is answered by `OK`
or `DONE`. -/
structure Honest (server : Server) (reply : Line) (after : Server) : Prop where
  error : text "ERROR " <+: reply → after.curTick = server.curTick ∧
    after.finished = server.finished ∧ after.exitRequested = server.exitRequested ∧
    after.roiStarted = server.roiStarted
  progress : after.curTick ≠ server.curTick → text "OK " <+: reply ∨ text "DONE " <+: reply

/-- The last run of a command does not raise, or nothing has happened before it does. -/
def Harmless (server : Server) (exits : List Exit) : Prop :=
  ∀ front last, exits = front ++ [last] → raises server.onReady (server.started front) last = true →
    (∀ exit ∈ exits, exit.advance = 0) ∧ server.started front = server.roiStarted

theorem head_encodeReply (c : Char) (line : Line) (ascii : c.toNat < 128) :
    encodeReply (c :: line) = c :: encodeReply line := by
  simp only [encodeReply, List.cons_append, List.map_cons, if_pos ascii]

theorem encodeReply_begins {word : Line} (ascii : Ascii word) (rest : Line) :
    word <+: encodeReply (word ++ rest) := by
  induction word with
  | nil => exact List.nil_prefix
  | cons c word ih =>
    rw [List.cons_append, head_encodeReply c _ (ascii c List.mem_cons_self)]
    apply List.cons_prefix_cons.mpr
    exact ⟨rfl, ih fun other member => ascii other (List.mem_cons_of_mem _ member)⟩

theorem error_unprefixed {c : Char} {line : Line} (ascii : c.toNat < 128) (other : c ≠ 'E') :
    ¬text "ERROR " <+: encodeReply (c :: line) := by
  rw [head_encodeReply c line ascii]
  intro starts
  exact other (List.cons_prefix_cons.mp starts).1.symm

theorem Honest.idle {reply : Line} (tick : after.curTick = server.curTick)
    (calm : text "ERROR " <+: reply → after.finished = server.finished ∧
      after.exitRequested = server.exitRequested ∧ after.roiStarted = server.roiStarted) :
    Honest server reply after :=
  ⟨fun error => ⟨tick, calm error⟩, fun moved => absurd tick moved⟩

theorem harmless_nil (server : Server) : server.Harmless [] := by
  intro front last split
  exact absurd split (by simp)

theorem Raised.honest {message : Line} (raised : Raised server exits (.error message) after) :
    Honest server (encodeReply (errorLine message)) after ↔ server.Harmless exits := by
  obtain ⟨front, last, rfl, finished, roi⟩ := raised.failed message rfl
  have starts : text "ERROR " <+: encodeReply (errorLine message) :=
    encodeReply_begins (by decide) _
  constructor
  · intro honest front' last' split _
    obtain ⟨rfl, final⟩ := List.append_inj' split rfl
    cases final
    obtain ⟨tick, -, -, same⟩ := honest.error starts
    refine ⟨?_, roi.symm.trans same⟩
    have total := raised.tick
    intro exit member
    apply List.sum_eq_zero_iff_forall_eq_nat.mp
      (show ((front ++ [last]).map Exit.advance).sum = 0 by omega)
    exact List.mem_map_of_mem member
  · intro harmless
    have raises := (raised.raises front last rfl).mp ⟨message, rfl⟩
    obtain ⟨still, same⟩ := harmless front last rfl raises
    have none : ((front ++ [last]).map Exit.advance).sum = 0 := by
      apply List.sum_eq_zero_iff_forall_eq_nat.mpr
      intro advance member
      obtain ⟨exit, among, rfl⟩ := List.mem_map.mp member
      exact still exit among
    have tick : after.curTick = server.curTick := by rw [raised.tick, none, Nat.add_zero]
    exact .idle tick fun _ => ⟨finished, raised.requested, roi.trans same⟩

theorem Raised.answered {reply : Line}
    (raised : Raised server exits (.ok ()) after)
    (answer : text "OK " <+: reply ∨ text "DONE " <+: reply)
    (fine : ¬text "ERROR " <+: reply) : Honest server reply after ∧ server.Harmless exits := by
  refine ⟨⟨fun error => absurd error fine, fun _ => answer⟩, ?_⟩
  intro front last split raises
  obtain ⟨message, failed⟩ := (raised.raises front last split).mpr raises
  cases failed

theorem doneLine_reply (tick : Nat) : text "DONE " <+: encodeReply (doneLine tick) ∧
    ¬text "ERROR " <+: encodeReply (doneLine tick) := by
  have line : doneLine tick = text "DONE " ++ decimal tick := rfl
  constructor
  · rw [line]
    exact encodeReply_begins (by decide) _
  · exact error_unprefixed (by decide) (by decide)

theorem okLine_reply (start finish : Nat) : text "OK " <+: encodeReply (okLine start finish) ∧
    ¬text "ERROR " <+: encodeReply (okLine start finish) := by
  have line : okLine start finish = text "OK " ++ (decimal start ++ ' ' :: decimal finish) := rfl
  constructor
  · rw [line]
    exact encodeReply_begins (by decide) _
  · exact error_unprefixed (by decide) (by decide)

theorem runForTicks_honest {ticks : Nat} {result : Except Line Line}
    (ran : server.runForTicks ticks exits = some (result, after)) :
    Honest server (encodeReply (replyLine result)) after ↔ server.Harmless exits := by
  have untouched : ∀ reply, Honest server reply server := fun reply =>
    .idle rfl fun _ => ⟨rfl, rfl, rfl⟩
  unfold runForTicks at ran
  split at ran
  · simp only [Option.ite_none_right_eq_some, Option.some.injEq, Prod.mk.injEq] at ran
    obtain ⟨rfl, rfl, rfl⟩ := ran
    exact ⟨fun _ => server.harmless_nil, fun _ => untouched _⟩
  · split at ran
    · simp only [Option.ite_none_right_eq_some, Option.some.injEq, Prod.mk.injEq] at ran
      obtain ⟨rfl, rfl, rfl⟩ := ran
      exact ⟨fun _ => server.harmless_nil, fun _ => untouched _⟩
    · split at ran
      · cases ran
      · next message last looped =>
        cases ran
        exact (stepLoop_raised looped).honest
      · next done last looped =>
        have raised := stepLoop_raised looped
        split at ran
        · cases ran
          obtain ⟨shown, fine⟩ := doneLine_reply after.curTick
          obtain ⟨honest, harmless⟩ := raised.answered (.inr shown) fine
          exact ⟨fun _ => harmless, fun _ => honest⟩
        · cases ran
          obtain ⟨shown, fine⟩ := okLine_reply server.curTick after.curTick
          obtain ⟨honest, harmless⟩ := raised.answered (.inl shown) fine
          exact ⟨fun _ => harmless, fun _ => honest⟩

/-- The reply to a command is honest exactly if the last run of the simulator in it does not
end in a way that makes the server raise, or nothing has happened by then. -/
theorem error_reply_idle_iff {connection : Connection} {reply : Line}
    (connected : server.connect connection exits = some (reply, after)) :
    Honest server reply after ↔ server.Harmless exits := by
  unfold connect at connected
  split at connected
  · simp only [Option.ite_none_right_eq_some, Option.some.injEq, Prod.mk.injEq] at connected
    obtain ⟨rfl, rfl, rfl⟩ := connected
    exact ⟨fun _ => server.harmless_nil, fun _ => .idle rfl fun _ => ⟨rfl, rfl, rfl⟩⟩
  · next request asked =>
    split at connected
    · cases connected
    · next result last performed =>
      cases connected
      unfold perform at performed
      split at performed
      · next ticks =>
        have answer := runForTicks_honest performed
        exact ⟨fun honest => answer.mp ⟨honest.error, honest.progress⟩,
          fun harmless => ⟨(answer.mpr harmless).error, (answer.mpr harmless).progress⟩⟩
      · simp only [Option.ite_none_right_eq_some, Option.some.injEq, Prod.mk.injEq] at performed
        obtain ⟨rfl, rfl, rfl⟩ := performed
        exact ⟨fun _ => server.harmless_nil, fun _ => .idle rfl fun _ => ⟨rfl, rfl, rfl⟩⟩
      · simp only [Option.ite_none_right_eq_some, Option.some.injEq, Prod.mk.injEq] at performed
        obtain ⟨rfl, rfl, rfl⟩ := performed
        refine ⟨fun _ => server.harmless_nil, fun _ => .idle rfl fun error => ?_⟩
        exact absurd error (error_unprefixed (by decide) (by decide))

def sampleServer : Server := { onReady := false, roiStarted := true, curTick := 1000 }

/-- A step that an exit of the guest interrupts and that goes on to its limit. -/
theorem error_reply_idle_iff_completed :
    ∃ reply after, sampleServer.connect ⟨text "STEP_TICKS 1000\n", none⟩
        [{ cause := text "m5_exit instruction encountered", advance := 400 },
          { cause := text "simulate() limit reached", advance := 600 }] = some (reply, after) ∧
      Honest sampleServer reply after := by
  have answers : (sampleServer.connect ⟨text "STEP_TICKS 1000\n", none⟩
      [{ cause := text "m5_exit instruction encountered", advance := 400 },
        { cause := text "simulate() limit reached", advance := 600 }]).isSome = true := by
    decide +kernel
  obtain ⟨⟨reply, after⟩, connected⟩ := Option.isSome_iff_exists.mp answers
  refine ⟨reply, after, connected, (error_reply_idle_iff connected).mpr ?_⟩
  intro front last split raised
  obtain ⟨rfl, final⟩ := List.append_inj'
    (show [_] ++ [_] = front ++ [last] from split) rfl
  cases final
  revert raised
  decide +kernel

/-- The simulator advances 500 of the 1000 ticks and exits, and the reply is an `ERROR`. -/
def FailsHalfway (cause : Line) : Prop :=
  ∃ reply after, sampleServer.connect ⟨text "STEP_TICKS 1000\n", none⟩
      [{ cause := cause, advance := 500 }] = some (reply, after) ∧
    text "ERROR " <+: reply ∧ after.curTick = 1500 ∧ ¬Honest sampleServer reply after

theorem failsHalfway_of_connect {cause : Line}
    (ran : (sampleServer.connect ⟨text "STEP_TICKS 1000\n", none⟩
        [{ cause := cause, advance := 500 }]).map
        (fun result => (decide (text "ERROR " <+: result.1), result.2.curTick)) =
      some (true, 1500)) : FailsHalfway cause := by
  obtain ⟨⟨reply, after⟩, connected, shown⟩ := Option.map_eq_some_iff.mp ran
  obtain ⟨starts, tick⟩ := Prod.mk.inj shown
  have starts := of_decide_eq_true starts
  refine ⟨reply, after, connected, starts, tick, ?_⟩
  intro honest
  have same := (honest.error starts).1
  rw [tick] at same
  exact absurd same (by decide)

/-- Causes at which `Simulator.run` raises: one that `translate_exit_status` does not know, one
without a generator, and one whose handler fails its assertion. -/
theorem error_reply_after_progress :
    FailsHalfway (text "work items exit count reached") ∧
      FailsHalfway (text "performance counter reset") ∧ FailsHalfway (text "switchcpu") :=
  ⟨failsHalfway_of_connect (by decide +kernel), failsHalfway_of_connect (by decide +kernel),
    failsHalfway_of_connect (by decide +kernel)⟩

end Chimaera.Timing.Server
