import Chimaera.Base.Transition
import Chimaera.Timing.Commands
import Chimaera.Timing.Drift

/-! The timing client and the timing server of one session, joined by the bytes they send
each other. The session waits for the server, makes steps and shuts down; a history of the
steps is kept. -/

namespace Chimaera.Timing
open Base.Text Base.Unsigned Base.Transition

inductive Stage where
  | starting
  | stepping
  | stopped
  deriving DecidableEq, Repr

/-- One step whose command was sent: the ticks that the client means, the ticks of gem5
before and after it, and what came back. -/
structure Exchange where
  intended : Nat
  command : Line
  before : Nat
  after : Nat
  reply : Line
  result : Except Fault Unit

structure Session where
  stage : Stage := .starting
  client : Client
  server : Server
  history : List Exchange := []
  refusals : List Fault := []
  startup : Option (Except Fault Unit) := none
  stopping : Option (Except Fault Unit) := none

inductive SessionEvent where
  | ready (timeout : Int) (reasons : List Line)
  | step (interval : Int) (exits : List Exit)
  | shutdown

namespace Session

/-- `wait_until_ready`, while the endpoint is unavailable for the given reasons first. -/
def ready (session : Session) (timeout : Int) (reasons : List Line) : Option Session := do
  let (_, asking) ← session.client.reach (Client.tries reasons)
  let command ← asking.sent.getLast?
  let (reply, server) ← session.server.connect { bytes := command } []
  let (result, client) ←
    session.client.waitUntilReady timeout (Client.tries reasons) (.bytes reply)
  some { session with
    stage := .stepping, client := client, server := server, startup := some result }

def advance (session : Session) (interval : Int) (exits : List Exit) : Option Session :=
  match session.client.start .machine interval .sent with
  | (.error fault, client) =>
      if exits = [] then
        some { session with client := client, refusals := session.refusals ++ [fault] }
      else none
  | (.ok _, waiting) => do
      let command ← waiting.sent.getLast?
      let (reply, server) ← session.server.connect { bytes := command } exits
      let (result, client) := waiting.wait .machine (.bytes reply)
      some { session with
        client := client
        server := server
        history := session.history ++
          [{ intended := session.client.requested interval
             command := command
             before := session.server.curTick
             after := server.curTick
             reply := reply
             result := result }] }

def stop (session : Session) : Option Session := do
  let (_, asking) := session.client.askShutdown .machine (.failed []) .sent
  let command ← asking.sent.getLast?
  let (reply, server) ← session.server.connect { bytes := command } []
  let (result, client) := session.client.shutdown .machine (.failed []) .sent (.bytes reply)
  some { session with
    stage := .stopped, client := client, server := server, stopping := some result }

/-- The simulator of the session: its exits are known ones, and the ticks that a step asks
for stay below the last tick. -/
def Fair (session : Session) (interval : Int) (exits : List Exit) : Prop :=
  (∀ exit ∈ exits, (Server.outcomeOf exit).isOk = true) ∧
    session.server.curTick + session.client.requested interval < maxTick

instance (session : Session) (interval : Int) (exits : List Exit) :
    Decidable (session.Fair interval exits) :=
  inferInstanceAs (Decidable (_ ∧ _))

def step (session : Session) : SessionEvent → Option Session
  | .ready timeout reasons =>
      if session.stage = .starting ∧ timeoutInRange timeout then session.ready timeout reasons
      else none
  | .step interval exits =>
      if session.stage = .stepping ∧ session.Fair interval exits then
        (session.advance interval exits).filter fun next => next.server.curTick < maxTick
      else none
  | .shutdown => if session.stage = .stepping then session.stop else none

end Session

structure Booted (server : Server) : Prop where
  roi : server.roiStarted = true
  unfinished : server.finished = false
  tick : server.curTick < maxTick

/-! ## What a step leaves behind -/

/-- The command was taken for the ticks that it means, the reply was printed by the server
and read back by the client. -/
structure Exchange.Sound (exchange : Exchange) : Prop where
  accepted : Connection.request { bytes := exchange.command } = .ok (.step exchange.intended)
  bounded : exchange.intended ≤ maxStepTicks
  answered :
    exchange.reply = okLine exchange.before exchange.after ++ ['\n'] ∧
        Client.parseInterval (okLine exchange.before exchange.after) =
          some (exchange.before, exchange.after) ∧
        exchange.result = .ok () ∨
      exchange.reply = doneLine exchange.after ++ ['\n'] ∧
        (token blank (doneLine exchange.after)).bind (fun found => Client.parseDone found.2) =
          some exchange.after ∧
        exchange.result = .error ⟨.runtime,
          text "gem5 finished before completing the interval at tick " ++ decimal exchange.after⟩

def Session.commands (session : Session) : List Line :=
  match session.stage with
  | .starting => []
  | .stepping => text "STATUS\n" :: session.history.map Exchange.command
  | .stopped => text "STATUS\n" :: session.history.map Exchange.command ++ [text "QUIT\n"]

structure Session.Recorded (session : Session) : Prop where
  recent : ∀ exchange ∈ session.history.getLast?, exchange.after = session.server.curTick
  chained : session.history.IsChain fun earlier later => later.before = earlier.after
  exchanges : ∀ exchange ∈ session.history, exchange.Sound
  sent : session.client.sent = session.commands

structure Session.Synced (session : Session) : Prop extends session.Recorded where
  ranged : session.client.InRange
  idle : session.client.pending = false
  sound : session.client.failed = false
  path : session.client.validEndpoint = true
  running : session.stage ≠ .stopped → session.client.stopped = false
  roi : session.server.roiStarted = true
  tick : session.server.curTick < maxTick
  together : session.client.finished = session.server.finished
  waiting : session.stage = .starting → session.server.finished = false ∧ session.history = []
  last : session.client.anchored = true → session.server.finished = false →
    session.client.lastTick = session.server.curTick
  fresh : session.client.anchored = false → session.server.finished = false → session.history = []
  origin : session.client.anchored = true →
    ∃ first ∈ session.history.head?, session.client.firstTick = first.before
  refused : ∀ fault ∈ session.refusals, fault.kind ≠ .runtime
  started : ∀ result ∈ session.startup, result = .ok ()
  stopped : session.stage = .stopped → session.stopping = some (.ok ()) ∧
    session.client.stopped = true ∧ session.server.exitRequested = true

namespace Session

variable {session : Session}

theorem Synced.usable (synced : session.Synced)
    (running : session.stage ≠ .stopped) : session.client.Usable :=
  ⟨synced.idle, synced.running running, synced.sound, synced.path⟩

theorem tick_lt_modulus {tick : Nat} (bound : tick < maxTick) : tick < modulus :=
  lt_of_lt_of_le bound (by decide)

/-! ## Startup and shutdown -/

theorem connect_status (server : Server) :
    server.connect { bytes := text "STATUS\n" } [] =
      some (encodeReply (if server.finished then doneLine server.curTick
        else pausedLine server.curTick), server.record [.served]) := by
  simp only [Server.connect, request_status, Server.perform, if_true, replyLine]
  rfl

theorem connect_quit {server : Server} (roi : server.roiStarted = true) :
    server.connect { bytes := text "QUIT\n" } [] =
      some (text "BYE" ++ ['\n'],
        { server.record [.served, .dump] with exitRequested := true }) := by
  have dumps : (server.record [.served]).roiStarted = true := roi
  have bye : encodeReply (text "BYE") = text "BYE" ++ ['\n'] := encodeReply_ascii (by decide)
  simp only [Server.connect, request_quit, Server.perform, if_true, dumps, replyLine,
    Server.record_record, bye]
  rfl

theorem ready_eq (synced : session.Synced) (starting : session.stage = .starting)
    {timeout : Int} (inRange : timeoutInRange timeout = true) (reasons : List Line) :
    session.ready timeout reasons = some { session with
      stage := .stepping
      client := { session.client with
        pending := false, sent := session.client.sent ++ [text "STATUS\n"] }
      server := session.server.record [.served]
      startup := some (.ok ()) } := by
  have usable := synced.usable (by rw [starting]; decide)
  have paused := @Client.ready_pausedLine
    { session.client with
      pending := true, sent := session.client.sent ++ [text "STATUS\n"] } _
    rfl (tick_lt_modulus synced.tick)
  have waited : ∀ arrival, session.client.waitUntilReady timeout (Client.tries reasons) arrival =
      some ({ session.client with
        pending := true, sent := session.client.sent ++ [text "STATUS\n"] }.ready arrival) := by
    intro arrival
    simp only [Client.waitUntilReady, inRange, Client.reach_tries usable, Bool.not_true,
      Bool.false_eq_true, if_false]
  simp only [ready, Client.reach_tries usable, Option.bind_eq_bind, Option.bind_some,
    List.getLast?_append, List.getLast?_singleton, Option.some_or, connect_status,
    (synced.waiting starting).1, Bool.false_eq_true, if_false,
    encodeReply_ascii (ascii_pausedLine _), waited, paused]

theorem stop_eq (synced : session.Synced) (stepping : session.stage = .stepping) :
    session.stop = some { session with
      stage := .stopped
      client := { session.client with
        pending := false
        sent := session.client.sent ++ [text "QUIT\n"]
        stopped := true }
      server := { session.server.record [.served, .dump] with exitRequested := true }
      stopping := some (.ok ()) } := by
  have usable := synced.usable (by rw [stepping]; decide)
  simp only [stop, Client.askShutdown_sent .machine usable, Option.bind_eq_bind, Option.bind_some,
    List.getLast?_append, List.getLast?_singleton, Option.some_or, connect_quit synced.roi,
    Client.shutdown_bye .machine usable]

/-! ## Steps -/

def exchange (session : Session) (interval : Int) (server : Server) (reply : Line)
    (result : Except Fault Unit) : Exchange where
  intended := session.client.requested interval
  command := Client.stepCommand (session.client.requested interval)
  before := session.server.curTick
  after := server.curTick
  reply := reply
  result := result

/-- What a step of the session can be: refused by the client, completed by the server, or
cut short by the end of the guest's work. -/
inductive Advanced (session : Session) (interval : Int) : Session → Prop
  | refused (fault : Fault) (kind : fault.kind ≠ .runtime) :
      Advanced session interval { session with refusals := session.refusals ++ [fault] }
  | completed (server : Server) (fits : ¬session.client.Overflows interval)
      (range : Client.Interval interval) (before : session.server.finished = false)
      (roi : server.roiStarted = true) (after : server.finished = false)
      (forward : session.server.curTick ≤ server.curTick)
      (requested : server.exitRequested = session.server.exitRequested)
      (continues : (session.client.stepping interval).Continues session.server.curTick
        server.curTick) :
      Advanced session interval { session with
        client := (session.client.stepping interval).settled session.server.curTick server.curTick
        server := server
        history := session.history ++ [session.exchange interval server
          (okLine session.server.curTick server.curTick ++ ['\n']) (.ok ())] }
  | finished (server : Server) (fits : ¬session.client.Overflows interval)
      (range : Client.Interval interval) (before : session.server.finished = false)
      (roi : server.roiStarted = true) (after : server.finished = true)
      (requested : server.exitRequested = session.server.exitRequested) :
      Advanced session interval { session with
        client := { session.client.stepping interval with pending := false, finished := true }
        server := server
        history := session.history ++ [session.exchange interval server
          (doneLine server.curTick ++ ['\n']) (.error ⟨.runtime,
            text "gem5 finished before completing the interval at tick " ++
              decimal server.curTick⟩)] }

variable {client after : Client}

theorem throw_cases {kind : FaultKind} {message : Line} {fault : Fault}
    (other : kind ≠ .runtime)
    (thrown : client.throw (α := Unit) kind message = (.error fault, after)) :
    after = client ∧ fault.kind ≠ .runtime := by
  unfold Client.throw at thrown
  cases thrown
  exact ⟨rfl, other⟩

theorem start_error_cases {interval : Int} {fault : Fault}
    (ranged : client.InRange) (usable : client.Usable)
    (refused : client.start .machine interval .sent = (.error fault, after)) :
    after = client ∧ fault.kind ≠ .runtime := by
  by_cases finished : client.finished = true
  · rw [Client.start, if_pos finished] at refused
    exact throw_cases (by decide) refused
  · by_cases outside : interval ≤ 0 ∨ interval > hour
    · rw [Client.start, if_neg finished, if_pos outside] at refused
      exact throw_cases (by decide) refused
    · have range : Client.Interval interval := ⟨by omega, by omega⟩
      rw [Client.start_sent .machine ranged usable (Bool.eq_false_iff.mpr finished) range] at refused
      by_cases overflow : client.Overflows interval
      · rw [if_pos overflow] at refused
        exact throw_cases (by decide) refused
      · rw [if_neg overflow] at refused
        cases refused

theorem start_ok_unfinished {interval : Int}
    (started : client.start .machine interval .sent = (.ok (), after)) :
    client.finished = false := by
  cases finished : client.finished with
  | false => rfl
  | true =>
    rw [Client.start, if_pos finished] at started
    cases started

/-- The reply to a step that the server takes up comes from the end of its loop. -/
theorem connect_step (synced : session.Synced) {interval : Int}
    {exits : List Exit} (fair : session.Fair interval exits)
    (unfinished : session.server.finished = false) {reply : Line} {server : Server}
    (connected : session.server.connect
      { bytes := Client.stepCommand (session.client.requested interval) } exits =
        some (reply, server)) :
    reply = encodeReply (if server.finished then doneLine server.curTick
        else okLine session.server.curTick server.curTick) ∧
      Server.Looped (session.server.curTick + session.client.requested interval)
        (session.server.record [.served]) exits (.ok ()) server := by
  have capped := session.client.requested_le interval
  have inside := fair.2
  have answer := Server.connect_answered synced.roi connected
  rw [request_stepCommand (lt_of_le_of_lt capped (by decide))] at answer
  cases answer with
  | finished ticks ended =>
    rw [unfinished] at ended
    cases ended
  | refused ticks _ outside => omega
  | raised admits looped =>
    obtain ⟨exit, member, unknown⟩ := looped.failed _ rfl
    have known := fair.1 exit member
    rw [unknown] at known
    cases known
  | completed admits looped => exact ⟨rfl, looped⟩

theorem advance_cases {session next : Session} (synced : session.Synced)
    (stepping : session.stage = .stepping) {interval : Int} {exits : List Exit}
    (fair : session.Fair interval exits) (advanced : session.advance interval exits = some next)
    (tick : next.server.curTick < maxTick) : Advanced session interval next := by
  have usable := synced.usable (by rw [stepping]; decide)
  unfold advance at advanced
  cases begun : session.client.start .machine interval .sent with
  | mk outcome waiting =>
    rw [begun] at advanced
    cases outcome with
    | error fault =>
      obtain ⟨same, kind⟩ := start_error_cases synced.ranged usable begun
      subst same
      obtain ⟨-, advanced⟩ := Option.ite_none_right_eq_some.mp advanced
      cases advanced
      exact .refused fault kind
    | ok done =>
      have unfinished := start_ok_unfinished begun
      have running : session.server.finished = false := synced.together ▸ unfinished
      obtain ⟨range, fits, rfl⟩ :=
        Client.start_ok_cases ⟨synced.ranged, usable, unfinished⟩ begun
      have command : (session.client.stepping interval).sent.getLast? =
          some (Client.stepCommand (session.client.requested interval)) := by
        simp [Client.stepping]
      simp only [command, Option.bind_eq_bind, Option.bind_some, Option.bind_eq_some_iff] at advanced
      obtain ⟨⟨reply, server⟩, connected, same⟩ := advanced
      obtain ⟨printed, looped⟩ := connect_step synced fair running connected
      cases same
      have startBound := tick_lt_modulus synced.tick
      have finishBound : server.curTick < modulus := tick_lt_modulus tick
      have forward : session.server.curTick ≤ server.curTick := looped.forward
      cases ended : server.finished with
      | true =>
        rw [ended, if_pos rfl, encodeReply_ascii (ascii_doneLine _)] at printed
        subst printed
        have waited := @Client.wait_doneLine .machine (session.client.stepping interval) _
          rfl finishBound
        simp only [waited, Client.throw]
        exact .finished server fits range running looped.roi ended looped.requested
      | false =>
        rw [ended, if_neg Bool.false_ne_true, encodeReply_ascii (ascii_okLine _ _)] at printed
        subst printed
        have continues : (session.client.stepping interval).Continues session.server.curTick
            server.curTick := by
          constructor
          · exact forward
          · intro anchored
            exact (synced.last anchored running).symm
          · intro fresh
            have whole : session.client.requested interval = Client.nominal interval := by
              rw [Client.requested, show session.client.anchored = false from fresh,
                if_neg Bool.false_ne_true, Nat.min_eq_left range.nominal_le]
            have inside := tick_lt_modulus fair.2
            rwa [whole] at inside
        have waited := @Client.wait_okLine .machine (session.client.stepping interval) _ _
          rfl startBound finishBound continues
        simp only [waited]
        exact .completed server fits range running looped.roi ended forward looped.requested
          continues

end Session

end Chimaera.Timing
