import Chimaera.Base.Text

/-! `Gem5TimingController`: one command per connection, answered by one line. An operation
that throws may leave the session changed, so each returns its result together with the
state. What the socket layer does is an argument; unsigned arithmetic is read in a mode. -/

namespace Chimaera.Timing
open Base.Text Base.Unsigned

def blank (c : Char) : Bool := c == ' ' || (9 ≤ c.toNat && c.toNat ≤ 13)

inductive FaultKind where
  | logic
  | invalidArgument
  | overflow
  | runtime
  deriving DecidableEq, Repr

structure Fault where
  kind : FaultKind
  message : Line
  deriving DecidableEq, Repr

def maxTick : Nat := modulus - 1

def maxStepTicks : Nat := 3600000000000000

/-- `pending` stands for an open descriptor; `sent` is the history of commands. -/
structure Client where
  endpoint : Line
  timeout : Int
  pending : Bool := false
  nominalTicks : Nat := 0
  targetTick : Nat := 0
  lastTick : Nat := 0
  firstTick : Nat := 0
  anchored : Bool := false
  stopped : Bool := false
  failed : Bool := false
  finished : Bool := false
  sent : List Line := []
  deriving DecidableEq, Repr

/-- What connecting and sending a command comes to. `unavailable` is a missing or refusing
endpoint. -/
inductive Delivery where
  | sent
  | unavailable (reason : Line)
  | failed (message : Line)
  deriving DecidableEq, Repr

/-- What reading the reply comes to: the bytes until the server closes, or an error. -/
inductive Arrival where
  | bytes (text : Line)
  | failed (message : Line)
  deriving DecidableEq, Repr

structure Attempt where
  delivery : Delivery
  cancelled : Bool
  late : Bool
  deriving DecidableEq, Repr

abbrev Outcome (α : Type) := Except Fault α × Client

def timeoutInRange (seconds : Int) : Bool := 0 < seconds && seconds ≤ 86400

namespace Client

def create (endpoint : Line) (timeout : Int) : Except Fault Client :=
  if !timeoutInRange timeout then
    .error ⟨.invalidArgument, text "timing timeout must be positive and at most 24 hours"⟩
  else .ok { endpoint := endpoint, timeout := timeout }

def throw {α : Type} (client : Client) (kind : FaultKind) (message : Line) : Outcome α :=
  (.error ⟨kind, message⟩, client)

def error {α : Type} (client : Client) (message : Line) : Outcome α :=
  { client with failed := true, pending := false }.throw .runtime (text "gem5 timing: " ++ message)

def validEndpoint (client : Client) : Bool :=
  client.endpoint ≠ [] && client.endpoint.length < 108 && !client.endpoint.contains '\x00'

def request (client : Client) (command : Line) (allowUnavailable : Bool) (delivery : Delivery) :
    Outcome Bool :=
  if client.pending then
    client.throw .logic (text "a gem5 timing command is already pending")
  else if client.stopped || client.failed then
    client.throw .logic (text "gem5 timing session is stopped or failed")
  else if !client.validEndpoint then
    client.throw .invalidArgument (text "invalid timing socket path")
  else
    match delivery with
    | .sent => (.ok true, { client with pending := true, sent := client.sent ++ [command] })
    | .unavailable reason =>
        if allowUnavailable then (.ok false, client)
        else client.error (text "connect " ++ client.endpoint ++ text ": " ++ reason)
    | .failed message => client.error message

def readLine : Line → Line → Except Line Line
  | line, [] =>
      if line.length < 4096 then .error (text "timing server disconnected before replying")
      else .error (text "oversized timing response")
  | line, byte :: bytes =>
      if line.length < 4096 then
        if byte = '\n' then .ok line else readLine (line ++ [byte]) bytes
      else .error (text "oversized timing response")

def response (client : Client) (arrival : Arrival) : Outcome Line :=
  if !client.pending then client.throw .logic (text "no gem5 timing command is pending")
  else
    match arrival with
    | .failed message => client.error message
    | .bytes text =>
        match readLine [] text with
        | .error message => client.error message
        | .ok line => (.ok line, { client with pending := false })

def stepCommand (ticks : Nat) : Line := text "STEP_TICKS " ++ decimal ticks ++ ['\n']

def checked {α : Type} (result : Except String α) : Except Fault α :=
  result.mapError fun what => ⟨.logic, what.toList⟩

/-- The arithmetic of `start`: the nominal ticks, the new target and the request. -/
def plan (mode : Mode) (client : Client) (interval : Int) : Except Fault (Nat × Nat × Nat) := do
  let nominal ← checked (mode.mul interval.toNat 1000)
  if client.anchored then
    let room ← checked (mode.sub maxTick client.targetTick)
    if nominal > room then
      .error ⟨.overflow, text "gem5 cumulative timing target exceeds tick range"⟩
    else
      let target ← checked (mode.add client.targetTick nominal)
      -- If gem5 is already ahead of the next boundary it stays paused.
      if target > client.lastTick then
        let ticks ← checked (mode.sub target client.lastTick)
        .ok (nominal, target, min ticks maxStepTicks)
      else .ok (nominal, target, 0)
  else .ok (nominal, 0, min nominal maxStepTicks)

def start (mode : Mode) (client : Client) (interval : Int) (delivery : Delivery) : Outcome Unit :=
  if client.finished then
    client.throw .logic (text "gem5 has finished; only shutdown is available")
  else if interval ≤ 0 ∨ interval > hour then
    client.throw .invalidArgument (text "interval must be positive and at most one hour")
  else
    match client.plan mode interval with
    | .error fault => (.error fault, client)
    | .ok (nominal, target, ticks) =>
        match client.request (stepCommand ticks) false delivery with
        | (.error fault, client) => (.error fault, client)
        | (.ok _, client) =>
            (.ok (), { client with
              nominalTicks := nominal
              targetTick := if client.anchored then target else client.targetTick })

def parseDone (rest : Line) : Option Nat :=
  match unsigned blank rest with
  | none => none
  | some (finish, rest) => if (token blank rest).isSome then none else some finish

def parseInterval (line : Line) : Option (Nat × Nat) := do
  let (status, rest) ← token blank line
  let (start, rest) ← unsigned blank rest
  let (finish, rest) ← unsigned blank rest
  if status ≠ text "OK" || (token blank rest).isSome || finish < start then none
  else some (start, finish)

def anchor (mode : Mode) (client : Client) (start : Nat) : Outcome Unit :=
  if client.anchored then (.ok (), client)
  else
    match checked (mode.sub maxTick start) with
    | .error fault => (.error fault, client)
    | .ok room =>
        if client.nominalTicks > room then
          client.error (text "initial timing target exceeds tick range")
        else
          match checked (mode.add start client.nominalTicks) with
          | .error fault => (.error fault, client)
          | .ok target =>
              (.ok (), { client with targetTick := target, firstTick := start, anchored := true })

def wait (mode : Mode) (client : Client) (arrival : Arrival) : Outcome Unit :=
  match client.response arrival with
  | (.error fault, client) => (.error fault, client)
  | (.ok line, client) =>
      let (status, rest) := (token blank line).getD ([], [])
      if status = text "DONE" then
        match parseDone rest with
        | none => client.error (text "invalid completion response: " ++ line)
        | some finish =>
            { client with finished := true }.throw .runtime
              (text "gem5 finished before completing the interval at tick " ++ decimal finish)
      else
        match parseInterval line with
        | none => client.error (text "invalid interval response: " ++ line)
        | some (start, finish) =>
            if client.anchored ∧ start ≠ client.lastTick then
              client.error (text "simulation tick changed outside this timing session: " ++ line)
            else
              match client.anchor mode start with
              | (.error fault, client) => (.error fault, client)
              | (.ok _, client) => (.ok (), { client with lastTick := finish })

def elapsedTicks (mode : Mode) (client : Client) : Except String Nat :=
  if client.anchored then mode.sub client.lastTick client.firstTick else .ok 0

def parsePaused (line : Line) : Option Nat := do
  let (state, rest) ← token blank line
  let (tick, rest) ← unsigned blank rest
  if state ≠ text "PAUSED" || (token blank rest).isSome then none else some tick

def ready (client : Client) (arrival : Arrival) : Outcome Unit :=
  match client.response arrival with
  | (.error fault, client) => (.error fault, client)
  | (.ok line, client) =>
      match parsePaused line with
      | none => client.error (text "simulator is not ready: " ++ line)
      | some _ => (.ok (), client)

/-- The tries in turn until a command is sent; `none` while the endpoint stays unavailable. -/
def reach (client : Client) : List Attempt → Option (Outcome Unit)
  | [] => none
  | attempt :: attempts =>
      match client.request (text "STATUS\n") true attempt.delivery with
      | (.error fault, client) => some (.error fault, client)
      | (.ok true, client) => some (.ok (), client)
      | (.ok false, client) =>
          if attempt.cancelled then some (client.throw .runtime (text "startup cancelled"))
          else if attempt.late then
            some (client.throw .runtime
              (text "timed out waiting for gem5 timing socket " ++ client.endpoint))
          else client.reach attempts

def waitUntilReady (client : Client) (timeout : Int) (attempts : List Attempt)
    (arrival : Arrival) : Option (Outcome Unit) :=
  if !timeoutInRange timeout then
    some (client.throw .invalidArgument
      (text "startup timeout must be positive and at most 24 hours"))
  else
    match client.reach attempts with
    | none => none
    | some (.error fault, client) => some (.error fault, client)
    | some (.ok _, client) => some (client.ready arrival)

/-- The first half of `shutdown`: `waiting` is the reply to a step that is still pending. -/
def askShutdown (mode : Mode) (client : Client) (waiting : Arrival) (delivery : Delivery) :
    Outcome Unit :=
  match if client.pending then client.wait mode waiting else (.ok (), client) with
  | (.error fault, client) => (.error fault, client)
  | (.ok _, client) =>
      match client.request (text "QUIT\n") false delivery with
      | (.error fault, client) => (.error fault, client)
      | (.ok _, client) => (.ok (), client)

def shutdown (mode : Mode) (client : Client) (waiting : Arrival) (delivery : Delivery)
    (arrival : Arrival) : Outcome Unit :=
  if client.stopped then (.ok (), client)
  else
    match client.askShutdown mode waiting delivery with
    | (.error fault, client) => (.error fault, client)
    | (.ok _, client) =>
        match client.response arrival with
        | (.error fault, client) => (.error fault, client)
        | (.ok line, client) =>
            if line ≠ text "BYE" then
              client.error (text "unexpected shutdown response: " ++ line)
            else (.ok (), { client with stopped := true })

end Client

end Chimaera.Timing
