import Mathlib.Data.List.Chain
import Chimaera.Timing.Session

/-! Agreement of the timing client and the timing server: one view of the session is kept by
every event, and what each party can rely on follows from it. -/

namespace Chimaera.Timing
open Base.Text Base.Unsigned Base.Transition

namespace Session

theorem synced_initial {client : Client} {server : Server} (live : client.Live)
    (unsent : client.sent = []) (fresh : client.anchored = false) (booted : Booted server) :
    Synced { client := client, server := server } where
  ranged := live.ranged
  idle := live.usable.idle
  sound := live.usable.sound
  path := live.usable.path
  running _ := live.usable.running
  roi := booted.roi
  tick := booted.tick
  together := live.unfinished.trans booted.unfinished.symm
  waiting _ := ⟨booted.unfinished, rfl⟩
  last anchored := absurd anchored (by simp [fresh])
  fresh _ _ := rfl
  origin anchored := absurd anchored (by simp [fresh])
  recent := by simp
  chained := .nil
  exchanges := by simp
  refused := by simp
  sent := unsent
  started := by simp
  stopped := by simp

variable {session next : Session}

theorem Synced.ready (synced : session.Synced) (starting : session.stage = .starting)
    {timeout : Int} (inRange : timeoutInRange timeout = true) {reasons : List Line}
    (taken : session.ready timeout reasons = some next) : next.Synced := by
  rw [ready_eq synced starting inRange] at taken
  cases taken
  have empty := (synced.waiting starting).2
  have sent := synced.sent
  simp only [commands, starting] at sent
  exact { synced with
    ranged := ⟨synced.ranged.target, synced.ranged.last, synced.ranged.ordered⟩
    idle := rfl
    running := fun _ => synced.running (by rw [starting]; decide)
    waiting := fun stage => by cases stage
    sent := by simp [commands, sent, empty]
    started := by simp
    stopped := fun stage => by cases stage }

theorem Synced.stop (synced : session.Synced)
    (stepping : session.stage = .stepping) (taken : session.stop = some next) : next.Synced := by
  rw [stop_eq synced stepping] at taken
  cases taken
  have sent := synced.sent
  simp only [commands, stepping] at sent
  exact { synced with
    ranged := ⟨synced.ranged.target, synced.ranged.last, synced.ranged.ordered⟩
    idle := rfl
    running := fun stage => absurd rfl stage
    waiting := fun stage => by cases stage
    sent := by simp [commands, sent]
    stopped := fun _ => ⟨rfl, rfl, rfl⟩ }

theorem Recorded.append {session : Session} (recorded : session.Recorded)
    (stepping : session.stage = .stepping) {interval : Int} {server : Server} {reply : Line}
    {result : Except Fault Unit} {client : Client}
    (sound : (session.exchange interval server reply result).Sound)
    (same : client.sent = (session.client.stepping interval).sent) :
    Recorded { session with
      client := client
      server := server
      history := session.history ++ [session.exchange interval server reply result] } := by
  constructor
  · simp [exchange]
  · rw [List.isChain_append]
    refine ⟨recorded.chained, .singleton _, ?_⟩
    intro earlier recent later newest
    cases newest
    exact (recorded.recent earlier recent).symm
  · intro other member
    rcases List.mem_append.mp member with earlier | newest
    · exact recorded.exchanges other earlier
    · rw [List.mem_singleton.mp newest]
      exact sound
  · have sent := recorded.sent
    simp only [commands, stepping] at sent ⊢
    simp [same, Client.stepping, sent, exchange]

theorem accepted_exchange (session : Session) (interval : Int) (server : Server) (reply : Line)
    (result : Except Fault Unit) :
    Connection.request { bytes := (session.exchange interval server reply result).command } =
      .ok (.step (session.exchange interval server reply result).intended) :=
  request_stepCommand (lt_of_le_of_lt (session.client.requested_le interval) (by decide))

theorem completed_sound {session : Session} {interval : Int} {server : Server}
    (start : session.server.curTick < modulus) (finish : server.curTick < modulus)
    (forward : session.server.curTick ≤ server.curTick) :
    (session.exchange interval server (okLine session.server.curTick server.curTick ++ ['\n'])
      (.ok ())).Sound := by
  refine ⟨accepted_exchange .., session.client.requested_le interval, .inl ⟨rfl, ?_, rfl⟩⟩
  have parsed := Client.parseInterval_okLine start finish
  rwa [if_neg (Nat.not_lt.mpr forward)] at parsed

theorem finished_sound {session : Session} {interval : Int} {server : Server}
    (finish : server.curTick < modulus) :
    (session.exchange interval server (doneLine server.curTick ++ ['\n'])
      (.error ⟨.runtime, text "gem5 finished before completing the interval at tick " ++
        decimal server.curTick⟩)).Sound := by
  refine ⟨accepted_exchange .., session.client.requested_le interval, .inr ⟨rfl, ?_, rfl⟩⟩
  simp only [exchange, token_doneLine, Option.bind_some, Client.parseDone_decimal finish]

theorem stepping_target {client : Client} {interval : Int} (ranged : client.InRange)
    (fits : ¬client.Overflows interval) : (client.stepping interval).targetTick < modulus := by
  cases anchored : client.anchored with
  | true =>
    have inside : ¬modulus ≤ client.targetTick + Client.nominal interval :=
      fun outside => fits ⟨anchored, outside⟩
    simp only [Client.stepping, anchored, if_true]
    omega
  | false =>
    simp only [Client.stepping, anchored]
    exact ranged.target

theorem Synced.origin_settled {session : Session} (synced : session.Synced)
    (running : session.server.finished = false) (interval : Int) (server : Server) (reply : Line)
    (result : Except Fault Unit) :
    ∃ first ∈ (session.history ++ [session.exchange interval server reply result]).head?,
      ((session.client.stepping interval).settled session.server.curTick
        server.curTick).firstTick = first.before := by
  cases anchored : session.client.anchored with
  | true =>
    obtain ⟨first, head, origin⟩ := synced.origin anchored
    refine ⟨first, List.mem_head?_append_of_mem_head? head, ?_⟩
    simp only [Client.settled, Client.stepping, anchored, if_true]
    exact origin
  | false =>
    have empty := synced.fresh anchored running
    refine ⟨_, by rw [empty]; rfl, ?_⟩
    simp only [Client.settled, Client.stepping, anchored]
    rfl

theorem Synced.advanced (synced : session.Synced)
    (stepping : session.stage = .stepping) {interval : Int}
    (advanced : Advanced session interval next) (tick : next.server.curTick < maxTick) :
    next.Synced := by
  have startBound := tick_lt_modulus synced.tick
  have finishBound := tick_lt_modulus tick
  cases advanced with
  | refused fault kind =>
    exact { synced with
      refused := by
        intro other member
        rcases List.mem_append.mp member with earlier | newest
        · exact synced.refused other earlier
        · rw [List.mem_singleton.mp newest]
          exact kind
      sent := synced.sent }
  | completed server fits range before roi after forward requested continues =>
    have live : session.client.Live :=
      ⟨synced.ranged, synced.usable (by rw [stepping]; decide), synced.together.trans before⟩
    have settled := @live_after _ ⟨interval, 0, session.server.curTick, server.curTick⟩
      live finishBound fits continues
    constructor
    case toRecorded =>
      exact synced.toRecorded.append stepping (completed_sound startBound finishBound forward) rfl
    case ranged => exact settled.ranged
    case idle => rfl
    case sound => exact synced.sound
    case path => exact synced.path
    case running => exact synced.running
    case roi => exact roi
    case tick => exact tick
    case together => exact settled.unfinished.trans after.symm
    case waiting => exact fun stage => by rw [stepping] at stage; cases stage
    case last => exact fun _ _ => rfl
    case fresh => exact fun anchored => by cases anchored
    case origin => exact fun _ => synced.origin_settled before interval server _ _
    case refused => exact synced.refused
    case started => exact synced.started
    case stopped => exact fun stage => by rw [stepping] at stage; cases stage
  | finished server fits range before roi after requested =>
    constructor
    case toRecorded =>
      exact synced.toRecorded.append stepping (finished_sound finishBound) rfl
    case ranged =>
      exact ⟨stepping_target synced.ranged fits, synced.ranged.last, synced.ranged.ordered⟩
    case idle => rfl
    case sound => exact synced.sound
    case path => exact synced.path
    case running => exact synced.running
    case roi => exact roi
    case tick => exact tick
    case together => exact after.symm
    case waiting => exact fun stage => by rw [stepping] at stage; cases stage
    case last => exact fun _ unfinished => by rw [after] at unfinished; cases unfinished
    case fresh => exact fun _ unfinished => by rw [after] at unfinished; cases unfinished
    case origin =>
      intro anchored
      obtain ⟨first, head, origin⟩ := synced.origin anchored
      exact ⟨first, List.mem_head?_append_of_mem_head? head, origin⟩
    case refused => exact synced.refused
    case started => exact synced.started
    case stopped => exact fun stage => by rw [stepping] at stage; cases stage

theorem Synced.step {event : SessionEvent} (synced : session.Synced)
    (taken : session.step event = some next) : next.Synced := by
  cases event with
  | ready timeout reasons =>
    obtain ⟨⟨starting, inRange⟩, made⟩ := Option.ite_none_right_eq_some.mp taken
    exact synced.ready starting inRange made
  | step interval exits =>
    obtain ⟨⟨stepping, fair⟩, made⟩ := Option.ite_none_right_eq_some.mp taken
    obtain ⟨advanced, tick⟩ := Option.filter_eq_some_iff.mp made
    have bound : next.server.curTick < maxTick := of_decide_eq_true tick
    exact synced.advanced stepping (advance_cases synced stepping fair advanced bound) bound
  | shutdown =>
    obtain ⟨stepping, made⟩ := Option.ite_none_right_eq_some.mp taken
    exact synced.stop stepping made

end Session

structure Session.Agrees (session : Session) : Prop where
  /-- The commands sent are those of the history, between `STATUS` and `QUIT`. -/
  sent : session.client.sent = session.commands
  /-- Every step was accepted for the ticks meant, and its reply read as it was printed. -/
  exchanges : ∀ exchange ∈ session.history, exchange.Sound
  chained : session.history.IsChain fun earlier later => later.before = earlier.after
  elapsed : ∀ first ∈ session.history.head?, session.server.finished = false →
    session.client.elapsedTicks .machine = .ok (session.server.curTick - first.before)
  /-- No reply was ever malformed, out of place or missing. -/
  healthy : session.client.failed = false
  started : ∀ result ∈ session.startup, result = .ok ()
  refused : ∀ fault ∈ session.refusals, fault.kind ≠ .runtime
  /-- After `DONE` the client sends no step any more. -/
  finished : session.server.finished = true → ∀ mode interval delivery,
    session.client.start mode interval delivery =
      session.client.throw .logic (text "gem5 has finished; only shutdown is available")
  /-- The session can begin, and can be shut down between any two steps, without a tick. -/
  begins : session.stage = .starting → ∀ timeout reasons, timeoutInRange timeout = true →
    ∃ next, session.step (.ready timeout reasons) = some next ∧ next.startup = some (.ok ()) ∧
      next.server.curTick = session.server.curTick
  stops : session.stage = .stepping → ∃ next, session.step .shutdown = some next ∧
    next.stopping = some (.ok ()) ∧ next.server.curTick = session.server.curTick
  stopped : session.stage = .stopped → session.stopping = some (.ok ()) ∧
    session.client.stopped = true ∧ session.server.exitRequested = true

/-- The client and a booted server agree in every session, whatever the intervals and
whatever known exits interrupt the steps. -/
theorem session_agrees {endpoint : Line} {timeout : Int} {client : Client} {server : Server}
    {events : List SessionEvent} {session : Session}
    (created : Client.create endpoint timeout = .ok client) (path : client.validEndpoint = true)
    (booted : Booted server)
    (ran : run Session.step { client := client, server := server } events = some session) :
    session.Agrees := by
  obtain ⟨live, rfl⟩ := live_of_create created path
  have synced : session.Synced :=
    run_preserves (fun _ _ _ synced taken => Session.Synced.step synced taken)
      (Session.synced_initial live rfl rfl booted) ran
  constructor
  case sent => exact synced.sent
  case exchanges => exact synced.exchanges
  case chained => exact synced.chained
  case elapsed =>
    intro first head unfinished
    have anchored : session.client.anchored = true := by
      by_contra fresh
      have empty := synced.fresh (Bool.eq_false_iff.mpr fresh) unfinished
      rw [empty] at head
      cases head
    obtain ⟨other, same, origin⟩ := synced.origin anchored
    cases Option.mem_unique head same
    rw [elapsedTicks_eq .machine synced.ranged anchored, synced.last anchored unfinished, origin]
  case healthy => exact synced.sound
  case started => exact synced.started
  case refused => exact synced.refused
  case finished =>
    intro ended mode interval delivery
    unfold Client.start
    rw [synced.together, ended, if_pos rfl]
  case begins =>
    intro starting timeout reasons inRange
    have made := Session.ready_eq synced starting inRange reasons
    exact ⟨_, (if_pos ⟨starting, inRange⟩).trans made, rfl, rfl⟩
  case stops =>
    intro stepping
    have made := Session.stop_eq synced stepping
    exact ⟨_, (if_pos stepping).trans made, rfl, rfl⟩
  case stopped => exact synced.stopped

def interrupted : List SessionEvent :=
  [.ready 60 [text "No such file or directory"],
   .step 1 [{ cause := text "m5_exit instruction encountered", advance := 25 },
            { cause := text "workbegin", advance := 25 },
            { cause := text "simulate() limit reached", advance := 940 }],
   .step 2 [{ cause := text "workend", advance := 10 }],
   .step 2 [],
   .shutdown]

theorem session_agrees_interrupted : ∃ session,
    run Session.step
      { client := { endpoint := text "/tmp/time.sock", timeout := 300 }
        server := { onReady := false, roiStarted := true, curTick := 5000 } } interrupted =
      some session ∧
    session.history.map Exchange.reply = [text "OK 5000 5990\n", text "DONE 6000\n"] ∧
    session.Agrees := by
  have created : Client.create (text "/tmp/time.sock") 300 =
      .ok { endpoint := text "/tmp/time.sock", timeout := 300 } := by decide
  have replies : (run Session.step
      { client := { endpoint := text "/tmp/time.sock", timeout := 300 }
        server := { onReady := false, roiStarted := true, curTick := 5000 } } interrupted).map
      (fun session => session.history.map Exchange.reply) =
      some [text "OK 5000 5990\n", text "DONE 6000\n"] := by decide +kernel
  obtain ⟨session, ran, printed⟩ := Option.map_eq_some_iff.mp replies
  exact ⟨session, ran, printed, session_agrees created (by decide) ⟨rfl, rfl, by decide⟩ ran⟩

end Chimaera.Timing
