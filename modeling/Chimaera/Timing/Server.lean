import Chimaera.Timing.Replies

/-! `TimingServer`: the exit handlers of a gem5 run, the step loop and the command handler.
The simulator is a script: one `Exit` for each end of `Simulator.run`, by a return or by an
exception; the exits after which its own loop goes on are part of the way there. A Python
exception keeps what was changed before it, so fallible operations return their result together
with the server. Texts and bytes are lists of characters. -/

namespace Chimaera.Timing
open Base.Text Base.Unsigned

inductive ExitEvent where
  | exit
  | workbegin
  | workend
  | spatterExit
  | switchcpu
  | fail
  | checkpoint
  | scheduledTick
  | maxTick
  | userInterrupt
  | simpointBegin
  | maxInsts
  | perfCounterEnable
  | perfCounterDisable
  | perfCounterReset
  | perfCounterInterrupt
  | kernelPanic
  | kernelOops
  deriving DecidableEq, Repr

def exitStrings : List (Line × ExitEvent) :=
  [(text "m5_workbegin instruction encountered", .workbegin),
   (text "workbegin", .workbegin),
   (text "m5_workend instruction encountered", .workend),
   (text "workend", .workend),
   (text "m5_exit instruction encountered", .exit),
   (text "exiting with last active thread context", .exit),
   (text "simulate() limit reached", .maxTick),
   (text "Tick exit reached", .scheduledTick),
   (text "switchcpu", .switchcpu),
   (text "m5_fail instruction encountered", .fail),
   (text "checkpoint", .checkpoint),
   (text "user interrupt received", .userInterrupt),
   (text "simpoint starting point found", .simpointBegin),
   (text "a thread reached the max instruction count", .maxInsts),
   (text "performance counter enabled", .perfCounterEnable),
   (text "performance counter disabled", .perfCounterDisable),
   (text "performance counter reset", .perfCounterReset),
   (text "performance counter interrupt", .perfCounterInterrupt),
   (text "Kernel panic in simulated system.", .kernelPanic),
   (text "Kernel oops in simulated system.", .kernelOops)]

def exitEndings : List (Line × ExitEvent) :=
  [(text "will terminate the simulation.\n", .exit),
   (text "is finished updating the memory.\n", .exit),
   (text "received all expected responses.", .spatterExit)]

def translateExitStatus (cause : Line) : Except Line ExitEvent :=
  match exitStrings.lookup cause with
  | some event => .ok event
  | none =>
      match exitEndings.find? fun entry => entry.1.isSuffixOf cause with
      | some entry => .ok entry.2
      | none => .error (text "Exit event '" ++ cause ++ text "' not implemented")

/-- One end of `Simulator.run`: why it stopped and how far it came. `callback` is what `on_ready`
does if this exit calls it. `handler` is what the handler that gem5 has for the exit does where
that is not the usual thing: it depends on the board, or fails as a checkpoint that cannot be
written does. -/
structure Exit where
  cause : Line
  code : Nat := 0
  hypercallId : Nat := 0
  advance : Nat
  callback : Except Line Unit := .ok ()
  handler : Option (Except Line Unit) := none
  deriving Repr

/-- The events that neither the server nor `_default_on_exit_dict` has a generator for, with the
text of their `KeyError`. -/
def missingGenerators : List (ExitEvent × Line) :=
  [(.perfCounterEnable, text "<ExitEvent.PERF_COUNTER_ENABLE: 'performance counter enabled'>"),
   (.perfCounterDisable, text "<ExitEvent.PERF_COUNTER_DISABLE: 'performance counter disabled'>"),
   (.perfCounterReset, text "<ExitEvent.PERF_COUNTER_RESET: 'performance counter reset'>"),
   (.perfCounterInterrupt,
      text "<ExitEvent.PERF_COUNTER_INTERRUPT: 'performance counter interrupt'>")]

/-- `ClassicGeneratorExitHandler` on the boards of this repository. `switch` of their switchable
processor returns nothing, which `_exit_simulation` asserts against, and none of them is a
`SpatterGenerator`, an assertion without a text. -/
def defaultHandler (exit : Exit) : Except Line Unit :=
  if exit.hypercallId ≠ 0 then .ok ()
  else
    match translateExitStatus exit.cause with
    | .error message => .error message
    | .ok .switchcpu => .error (text "Exit on completion boolean var is not set.")
    | .ok .spatterExit => .error []
    | .ok event =>
        match missingGenerators.lookup event with
        | some key => .error key
        | none => .ok ()

def Exit.handled (exit : Exit) : Except Line Unit := exit.handler.getD (defaultHandler exit)

inductive Effect where
  | workbegin
  | ready (returned : Bool)
  | reset
  | dump
  | run (budget advance : Nat)
  | served
  deriving DecidableEq, Repr

/-- `onReady` tells whether a callback was supplied; `maxTicks` is the simulator's budget
for one run. -/
structure Server where
  onReady : Bool
  roiStarted : Bool := false
  finished : Bool := false
  exitRequested : Bool := false
  curTick : Nat
  maxTicks : Nat := maxTick
  log : List Effect := []
  deriving DecidableEq, Repr

namespace Server

def record (server : Server) (effects : List Effect) : Server :=
  { server with log := server.log ++ effects }

def onWorkbegin (server : Server) (callback : Except Line Unit) : Except Line Unit × Server :=
  let server := server.record [.workbegin]
  if server.roiStarted then (.ok (), server)
  else
    match server.onReady, callback with
    | true, .error message => (.error message, server.record [.ready false])
    | true, .ok _ => (.ok (), { server.record [.ready true, .reset] with roiStarted := true })
    | false, _ => (.ok (), { server.record [.reset] with roiStarted := true })

def onWorkend (server : Server) : Server := { server.record [.dump] with finished := true }

/-- `Simulator.run`. Only classic exits reach the handlers of the server; the handlers for
`EXIT` and `MAX_TICK` do nothing. -/
def simulate (server : Server) (exit : Exit) : Except Line Unit × Server :=
  let server := { server.record [.run server.maxTicks exit.advance] with
    curTick := server.curTick + exit.advance }
  match exit.handled with
  | .error message => (.error message, server)
  | .ok _ =>
      if exit.hypercallId ≠ 0 then (.ok (), server)
      else
        match translateExitStatus exit.cause with
        | .ok .workbegin => server.onWorkbegin exit.callback
        | .ok .workend => (.ok (), server.onWorkend)
        | _ => (.ok (), server)

/-- The event of an exit. Hypercall 3 ends the boot script of a guest image. -/
def eventOf (exit : Exit) : Except Line ExitEvent :=
  if exit.cause = text "m5_hypercall instruction encountered" ∧ exit.hypercallId = 3 then .ok .exit
  else translateExitStatus exit.cause

def boundary (event : ExitEvent) : Bool :=
  [ExitEvent.exit, .workbegin, .workend, .maxTick].contains event

def runOnce (server : Server) (exit : Exit) : Except Line ExitEvent × Server :=
  match server.simulate exit with
  | (.error message, server) => (.error message, server)
  | (.ok _, server) =>
      match eventOf exit with
      | .error message => (.error message, server)
      | .ok event => (.ok event, if boundary event then server else { server with finished := true })

/-- The loop of a step, with the exits of its runs. It has no result while the simulator
still runs, or if it makes fewer runs than there are exits. -/
def stepLoop (target : Nat) : Server → List Exit → Option (Except Line Unit × Server)
  | server, [] => if server.curTick < target ∧ !server.finished then none else some (.ok (), server)
  | server, exit :: exits =>
      if server.curTick < target ∧ !server.finished then
        -- The budget is relative: an intermediate exit does not grant a new interval.
        match { server with maxTicks := target - server.curTick }.runOnce exit with
        | (.error message, server) => if exits = [] then some (.error message, server) else none
        | (.ok event, server) =>
            if event = .maxTick then if exits = [] then some (.ok (), server) else none
            else stepLoop target server exits
      else none

def runForTicks (server : Server) (ticks : Nat) (exits : List Exit) :
    Option (Except Line Line × Server) :=
  if server.finished then
    if exits = [] then some (.ok (doneLine server.curTick), server) else none
  else if ticks > maxStepTicks ∨ server.curTick + ticks ≥ maxTick then
    if exits = [] then
      some (.error (text "step exceeds one hour or the gem5 tick range"), server)
    else none
  else
    match server.stepLoop (server.curTick + ticks) exits with
    | none => none
    | some (.error message, after) => some (.error message, after)
    | some (.ok _, after) =>
        if after.finished then some (.ok (doneLine after.curTick), after)
        else some (.ok (okLine server.curTick after.curTick), after)

end Server

/-! ## Commands -/

inductive Request where
  | step (ticks : Nat)
  | status
  | quit
  deriving DecidableEq, Repr

def pythonBlank (c : Char) : Bool := blank c || (28 ≤ c.toNat && c.toNat ≤ 31)

def parseTicks (value : Line) (allowZero : Bool) : Except Line Nat :=
  if value = [] ∨ !value.all Char.isDigit then .error (text "expected a decimal integer")
  else if number value = 0 ∧ !allowZero then .error (text "duration must be positive")
  else .ok (number value)

def stepScales : List (Line × Nat) :=
  [(text "STEP_US", 1000000), (text "STEP_NS", 1000), (text "STEP_TICKS", 1)]

def parseCommand (line : Line) : Except Line Request :=
  let unknown : Except Line Request :=
    .error (text "expected STEP_US n, STEP_NS n, STEP_TICKS n, STATUS, or QUIT")
  match words pythonBlank line with
  | [unit, value] =>
      match stepScales.lookup unit with
      | some scale =>
          match parseTicks value (unit = text "STEP_TICKS") with
          | .error message => .error message
          | .ok ticks => .ok (.step (ticks * scale))
      | none => unknown
  | [word] =>
      if word = text "STATUS" then .ok .status
      else if word = text "QUIT" then .ok .quit
      else unknown
  | _ => unknown

/-- The bytes of one connection, and what ends them: the peer, or an error of `recv`. -/
structure Connection where
  bytes : Line
  ending : Option Line := none
  deriving DecidableEq, Repr

def readCommand (ending : Option Line) : Line → Line → Except Line Line
  | _, [] => .error (ending.getD (text "connection closed before newline"))
  | data, byte :: bytes =>
      if (data ++ [byte]).length > 4096 then .error (text "command exceeds 4096 bytes")
      else if byte = '\n' then .ok (data ++ [byte])
      else readCommand ending (data ++ [byte]) bytes

/-- `bytes.decode("ascii")`, from the given position. -/
def decodeAscii (position : Nat) : Line → Except Line Line
  | [] => .ok []
  | byte :: bytes =>
      if byte.toNat < 128 then
        match decodeAscii (position + 1) bytes with
        | .error message => .error message
        | .ok rest => .ok (byte :: rest)
      else
        .error (text "'ascii' codec can't decode byte 0x" ++ Nat.toDigits 16 byte.toNat ++
          text " in position " ++ decimal position ++ text ": ordinal not in range(128)")

def Connection.request (connection : Connection) : Except Line Request :=
  match readCommand connection.ending [] connection.bytes with
  | .error message => .error message
  | .ok data =>
      match decodeAscii 0 data with
      | .error message => .error message
      | .ok line => parseCommand (strip pythonBlank line)

def errorLine (message : Line) : Line :=
  text "ERROR " ++ message.map fun c => if c = '\n' then ' ' else c

def replyLine : Except Line Line → Line
  | .ok reply => reply
  | .error message => errorLine message

def encodeReply (line : Line) : Line :=
  (line ++ ['\n']).map fun c => if c.toNat < 128 then c else '?'

namespace Server

def perform (server : Server) (request : Request) (exits : List Exit) :
    Option (Except Line Line × Server) :=
  match request with
  | .step ticks => server.runForTicks ticks exits
  | .status =>
      if exits = [] then
        some (.ok (if server.finished then doneLine server.curTick else pausedLine server.curTick),
          server)
      else none
  | .quit =>
      if exits = [] then
        some (.ok (text "BYE"),
          { server.record (if server.roiStarted then [.dump] else []) with exitRequested := true })
      else none

/-- One round of the loop of `serve`: the reply's bytes and the server after it. -/
def connect (server : Server) (connection : Connection) (exits : List Exit) :
    Option (Line × Server) :=
  match connection.request with
  | .error message =>
      if exits = [] then some (encodeReply (replyLine (.error message)), server.record [.served])
      else none
  | .ok request =>
      match (server.record [.served]).perform request exits with
      | none => none
      | some (result, after) => some (encodeReply (replyLine result), after)

end Server

end Chimaera.Timing
