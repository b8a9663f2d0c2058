import Chimaera.Ros.Conservation
import Chimaera.Ros.Programs

/-! What one step of the two programs can do: each side of the system hears a message,
publishes one, hands one to its controller, or loses the one at which its exchange throws. The
controllers make at most one step of their own system. -/

namespace Chimaera.Ros
open Base.BigEndian Base.Unsigned Base.Transition Base.Relay Control Bridge

variable {γ : Type}

/-! ## One side -/

/-- A node, the messages its callbacks have accepted, and what it has put into its controller
and got out of it. A side serves until its exchange throws or its program leaves the loop. -/
structure Side where
  node : Bridge
  heard : List (ByteString × ByteString)
  submitted : Batch
  taken : Batch
  serving : Bool

inductive Side.Move (side : Side) : Side → Prop
  | still (serving : Bool) (earlier : serving = true → side.serving = true) :
      Move side { side with serving := serving }
  | hears (active : side.serving = true) (key payload : ByteString)
      (known : key ∈ side.node.keys) (within : payload.length ≤ side.node.byteLimit) :
      Move side { side with
        node := { side.node with outgoing := side.node.outgoing ++ [frame key payload] }
        heard := side.heard ++ [(key, payload)] }
  | publishes (active : side.serving = true) (key payload : ByteString)
      (short : key.length ≤ maxKey) :
      Move side { side with
        node := { side.node.publish key payload with received := side.node.received + 1 }
        taken := side.taken ++ [frame key payload] }
  | refuses (active : side.serving = true) (bytes : Message)
      (refused : ¬side.node.Accepts bytes) :
      Move side { side with taken := side.taken ++ [bytes], serving := false }
  | hands (active : side.serving = true) (bytes : Message) (rest : Batch)
      (waiting : side.node.outgoing = bytes :: rest) :
      Move side { side with
        node := { side.node with outgoing := rest, transmitted := side.node.transmitted + 1 }
        submitted := side.submitted ++ [bytes] }
  | drops (active : side.serving = true) (bytes : Message) (rest : Batch)
      (waiting : side.node.outgoing = bytes :: rest) :
      Move side { side with
        node := { side.node with outgoing := rest, transmitted := side.node.transmitted + 1 }
        serving := false }

structure DataController.Records (controller : DataController γ) (Good : γ → Prop)
    (submitted taken : γ → Batch) : Prop where
  takes : ∀ state, Good state → ∃ message after, controller.take state = .ok (message, after) ∧
    submitted after = submitted state ∧ taken after = taken state ++ message.toList
  submits : ∀ state data after, Good state → controller.submit state data = .ok after →
    submitted after = submitted state ++ [data] ∧ taken after = taken state

theorem submit_contents {queue after : OutgoingQueue} (valid : queue.Valid) {data : Message}
    (accepted : queue.submit .machine data [] = .ok after) :
    after.contents = queue.contents ++ [data] := by
  by_cases fits : Admissible (queue.contents ++ [data])
  · obtain ⟨result, queued, -, contents⟩ := submit_unkeyed valid fits
    rw [queued] at accepted
    cases accepted
    exact contents
  · rw [submit_unkeyed_refused valid fits] at accepted
    cases accepted

theorem gem5HostController_gives {host : Host} (valid : host.Valid) :
    ∃ after, gem5HostController.take host = .ok (host.ready.contents.head?, after) ∧
      after.submitted = host.submitted ∧
      after.taken = host.taken ++ host.ready.contents.head?.toList := by
  obtain ⟨ready, found, -, -⟩ := ReceivedQueue.take_spec valid.ready
  refine ⟨{ host with
    ready := ready
    taken := host.taken ++ host.ready.contents.head?.toList }, ?_, rfl, rfl⟩
  simp only [gem5HostController, found, ok_bind]

theorem gem5GuestController_gives {guest : Guest} (valid : guest.Valid) :
    ∃ after, gem5GuestController.take guest = .ok (guest.incoming.contents.head?, after) ∧
      after.submitted = guest.submitted ∧
      after.taken = guest.taken ++ guest.incoming.contents.head?.toList := by
  obtain ⟨incoming, found, -, -⟩ := ReceivedQueue.take_spec valid.incoming
  refine ⟨{ guest with
    incoming := incoming
    taken := guest.taken ++ guest.incoming.contents.head?.toList }, ?_, rfl, rfl⟩
  simp only [gem5GuestController, found, ok_bind]

theorem gem5HostController_records :
    gem5HostController.Records Host.Valid Host.submitted Host.taken where
  takes host valid := ⟨_, gem5HostController_gives valid⟩
  submits host data after valid accepted := by
    change host.submit data [] = .ok after at accepted
    rw [Host.submit] at accepted
    split_ifs at accepted
    obtain ⟨outgoing, queued, same⟩ := bind_eq_ok.mp accepted
    cases same
    refine ⟨?_, rfl⟩
    rw [Host.submitted, Host.submitted, submit_contents valid.outgoing queued, List.append_assoc]

theorem gem5GuestController_records :
    gem5GuestController.Records Guest.Valid Guest.submitted Guest.taken where
  takes guest valid := ⟨_, gem5GuestController_gives valid⟩
  submits guest data after valid accepted := by
    change guest.submit data [] = .ok after at accepted
    rw [Guest.submit] at accepted
    split_ifs at accepted
    obtain ⟨outgoing, queued, same⟩ := bind_eq_ok.mp accepted
    cases same
    refine ⟨?_, rfl⟩
    rw [Guest.submitted, Guest.submitted, submit_contents valid.outgoing queued, List.append_assoc]

def Progress.fine : Progress → Bool
  | .threw _ => false
  | _ => true

theorem advance_side {controller : DataController γ} {Good : γ → Prop} {submitted taken : γ → Batch}
    (records : controller.Records Good submitted taken) (stage : Stage) (node : Bridge) {state : γ}
    (good : Good state) (heard : List (ByteString × ByteString)) :
    Side.Move ⟨node, heard, submitted state, taken state, true⟩
      ⟨(advance controller stage (node, state)).2.1, heard,
        submitted (advance controller stage (node, state)).2.2,
        taken (advance controller stage (node, state)).2.2,
        (advance controller stage (node, state)).1.fine⟩ := by
  cases stage with
  | receive =>
    obtain ⟨message, after, found, kept, logged⟩ := records.takes state good
    cases message with
    | none =>
      simp only [advance, found, kept, logged, Option.toList_none, List.append_nil]
      exact .still true id
    | some bytes =>
      by_cases accepts : node.Accepts bytes
      · obtain ⟨key, payload, short, known, low, high, rfl⟩ := accepts
        simp only [advance, found, kept, logged, submit_frame short known low high]
        exact .publishes rfl key payload short
      · obtain ⟨what, refused⟩ := submit_refused accepts
        simp only [advance, found, kept, logged, refused]
        exact .refuses rfl bytes accepts
  | pump => exact .still true id
  | transmit =>
    cases waiting : node.outgoing with
    | nil =>
      simp only [advance, Bridge.take, waiting]
      exact .still true id
    | cons bytes rest =>
      simp only [advance, Bridge.take, waiting]
      cases offered : controller.submit state bytes with
      | error what => exact .drops rfl bytes rest waiting
      | ok after =>
        obtain ⟨logged, kept⟩ := records.submits state bytes after good offered
        simp only [logged, kept]
        exact .hands rfl bytes rest waiting

theorem arrive_cases (key payload : ByteString) (node : Bridge) :
    arrive key payload node =
        (.goes .pump, { node with outgoing := node.outgoing ++ [frame key payload] }) ∧
        payload.length ≤ node.byteLimit ∨
      ∃ what, arrive key payload node = (.threw what, node) := by
  by_cases excess : node.byteLimit < payload.length ∨ node.queueLimit ≤ node.outgoing.length
  · exact .inr ⟨_, by rw [arrive, callback_refused excess]⟩
  · obtain ⟨within, room⟩ := not_or.mp excess
    have queued : (callback key payload).run node = _ :=
      callback_run (Nat.le_of_not_lt within) (Nat.lt_of_not_le room)
    exact .inl ⟨by rw [arrive, queued], Nat.le_of_not_lt within⟩

def Side.sends (side : Side) : Hop Message where
  input := frames side.heard
  output := side.submitted
  waiting := side.node.outgoing
  intact := side.serving = true

def Side.receives (side : Side) (published : List (ByteString × ByteString)) : Hop Message where
  input := side.taken
  output := frames published
  waiting := []
  intact := side.serving = true

def payloads (key : ByteString) (messages : List (ByteString × ByteString)) : List ByteString :=
  (messages.filter fun message => message.1 = key).map Prod.snd

theorem payloads_snoc (key name payload : ByteString) (messages : List (ByteString × ByteString)) :
    payloads key (messages ++ [(name, payload)]) =
      payloads key messages ++ if name = key then [payload] else [] := by
  rw [payloads, List.filter_append, List.map_append]
  by_cases same : name = key
  · simp [payloads, same]
  · simp [payloads, same]

def Bridge.Published (node : Bridge) (messages : List (ByteString × ByteString)) : Prop :=
  ∀ entry ∈ node.publishers, entry.2.published = payloads entry.1 messages

theorem Bridge.Published.publish {node : Bridge} {messages : List (ByteString × ByteString)}
    (published : node.Published messages) (key payload : ByteString) :
    (node.publish key payload).Published (messages ++ [(key, payload)]) := by
  intro entry member
  obtain ⟨⟨name, publisher⟩, found, rfl⟩ := List.mem_map.mp member
  have before : publisher.published = payloads name messages := published _ found
  rw [payloads_snoc]
  by_cases same : name = key
  · simp only [same, if_true]
    rw [before, same]
  · simp only [same, Ne.symm same, if_false, List.append_nil]
    exact before

def Bridge.Hears (node : Bridge) (message : ByteString × ByteString) : Prop :=
  message.1 ∈ node.keys ∧ message.2.length ≤ node.byteLimit

structure Side.Sound (side : Side) : Prop where
  sends : Base.Relay.Faithful side.sends
  known : ∀ message ∈ side.heard, side.node.Hears message
  receives : ∃ published, Base.Relay.Faithful (side.receives published) ∧
    side.node.Published published ∧ ∀ message ∈ published, message.1.length ≤ maxKey

theorem Side.Move.sound {side after : Side} (move : side.Move after)
    (sound : side.Sound) : after.Sound := by
  obtain ⟨sends, known, published, receives, holds, short⟩ := sound
  cases move with
  | still serving earlier =>
    exact ⟨sends.stays rfl rfl fun serves => ⟨earlier serves, rfl⟩, known, published,
      receives.stays rfl rfl fun serves => ⟨earlier serves, rfl⟩, holds, short⟩
  | hears active key payload listed within =>
    refine ⟨sends.enters active List.map_append rfl rfl, ?_, published, ?_, holds, short⟩
    · intro message member
      rcases List.mem_append.mp member with member | member
      · exact known message member
      · rw [List.mem_singleton.mp member]
        exact ⟨listed, within⟩
    · exact receives.stays rfl rfl fun _ => ⟨active, rfl⟩
  | publishes active key payload brief =>
    refine ⟨sends.stays rfl rfl fun _ => ⟨active, rfl⟩, known, published ++ [(key, payload)], ?_,
      holds.publish key payload, ?_⟩
    · apply faithful_of_whole
      have whole := receives.whole active
      simp only [Side.receives, List.append_nil] at whole ⊢
      rw [whole, frames, frames, List.map_append]
      rfl
    · intro message member
      rcases List.mem_append.mp member with member | member
      · exact short message member
      · rw [List.mem_singleton.mp member]
        exact brief
  | refuses active bytes refused =>
    exact ⟨sends.breaks Bool.false_ne_true List.prefix_rfl rfl, known, published,
      receives.breaks Bool.false_ne_true (List.prefix_append _ _) rfl, holds, short⟩
  | hands active bytes rest waiting =>
    exact ⟨sends.leaves active rfl rfl waiting, known, published,
      receives.stays rfl rfl fun _ => ⟨active, rfl⟩, holds, short⟩
  | drops active bytes rest waiting =>
    exact ⟨sends.breaks Bool.false_ne_true List.prefix_rfl rfl, known, published,
      receives.breaks Bool.false_ne_true List.prefix_rfl rfl, holds, short⟩

/-! ## Both sides -/

def HostMain.serving : HostMain → Bool
  | .stopping _ | .stopped _ | .ended _ => false
  | _ => true

def GuestMain.serving : GuestMain → Bool
  | .ended _ => false
  | _ => true

def HostMain.calling : HostMain → Bool
  | .stepping | .stopped _ => true
  | _ => false

/-- A step of an exchange makes at most one call of its controller, and none where it ends. -/
theorem advance_state (controller : DataController γ) (stage : Stage) (node : Bridge) (state : γ) :
    (advance controller stage (node, state)).2.2 = state ∨
      (advance controller stage (node, state)).1 ≠ .returned ∧
      ((∃ message, controller.take state =
          .ok (message, (advance controller stage (node, state)).2.2)) ∨
        ∃ data, controller.submit state data =
          .ok (advance controller stage (node, state)).2.2) := by
  cases stage with
  | receive =>
    cases given : controller.take state with
    | error what =>
      simp only [advance, given]
      exact .inl trivial
    | ok result =>
      obtain ⟨message, next⟩ := result
      cases message with
      | none =>
        simp only [advance, given]
        exact .inr ⟨by simp, .inl ⟨none, rfl⟩⟩
      | some bytes =>
        simp only [advance, given]
        cases (Bridge.submit bytes).run node with
        | error what after => exact .inr ⟨by simp, .inl ⟨some bytes, rfl⟩⟩
        | ok _ after => exact .inr ⟨by simp, .inl ⟨some bytes, rfl⟩⟩
  | pump => exact .inl rfl
  | transmit =>
    cases waiting : node.outgoing with
    | nil =>
      simp only [advance, Bridge.take, waiting]
      exact .inl trivial
    | cons bytes rest =>
      simp only [advance, Bridge.take, waiting]
      cases offered : controller.submit state bytes with
      | error what => exact .inl rfl
      | ok after => exact .inr ⟨by simp, .inr ⟨bytes, offered⟩⟩

theorem hostController_take {host after : Host} {message : Option Message}
    (given : gem5HostController.take host = .ok (message, after)) (inbox : List Message) :
    host.step inbox .take = some (after, inbox, []) ∧ after.app = host.app ∧
      after.results = host.results := by
  obtain ⟨⟨found, ready⟩, taken, same⟩ := bind_eq_ok.mp given
  cases same
  refine ⟨?_, rfl, rfl⟩
  simp only [Host.step, Host.take, taken, ok_bind]

theorem hostController_submit {host after : Host} {data : Message}
    (accepted : gem5HostController.submit host data = .ok after) (inbox : List Message) :
    host.step inbox (.submit data []) = some (after, inbox, []) ∧ after.app = host.app ∧
      after.results = host.results := by
  change host.submit data [] = .ok after at accepted
  refine ⟨by simp only [Host.step, accepted], ?_⟩
  rw [Host.submit] at accepted
  split_ifs at accepted
  obtain ⟨outgoing, -, same⟩ := bind_eq_ok.mp accepted
  cases same
  exact ⟨rfl, rfl⟩

theorem guestController_take {guest after : Guest} {message : Option Message}
    (given : gem5GuestController.take guest = .ok (message, after)) (inbox : List Message) :
    guest.step inbox .take = some (after, inbox, []) ∧ after.location = guest.location := by
  obtain ⟨⟨found, incoming⟩, taken, same⟩ := bind_eq_ok.mp given
  cases same
  refine ⟨?_, rfl⟩
  simp only [Guest.step, Guest.take, taken, ok_bind]

theorem guestController_submit {guest after : Guest} {data : Message}
    (accepted : gem5GuestController.submit guest data = .ok after) (inbox : List Message) :
    guest.step inbox (.submit data []) = some (after, inbox, []) ∧
      after.location = guest.location := by
  change guest.submit data [] = .ok after at accepted
  refine ⟨by simp only [Guest.step, accepted], ?_⟩
  rw [Guest.submit] at accepted
  split_ifs at accepted
  obtain ⟨outgoing, -, same⟩ := bind_eq_ok.mp accepted
  cases same
  rfl

namespace World

def hostSide (world : World) : Side where
  node := world.hostNode
  heard := world.hostHeard
  submitted := world.system.host.submitted
  taken := world.system.host.taken
  serving := world.hostMain.serving

def guestSide (world : World) : Side where
  node := world.guestNode
  heard := world.guestHeard
  submitted := world.system.guest.submitted
  taken := world.system.guest.taken
  serving := world.guestMain.serving

structure Calm (world : World) : Prop where
  host : world.hostMain.calling = false → world.system.host.app = .idle
  guest : world.guestMain ≠ .running → world.system.guest.location = .idle

def Moved (system after : System) : Prop :=
  after = system ∨ ∃ event, system.step event = some after

structure Advances (world after : World) : Prop where
  host : world.hostSide.Move after.hostSide
  guest : world.guestSide.Move after.guestSide
  calm : after.Calm
  system : Moved world.system after.system

theorem moved_host {system : System} {host : Host} {event : HostEvent}
    (stepped : system.host.step system.toHost event = some (host, system.toHost, [])) :
    Moved system { system with host := host } := by
  refine .inr ⟨.host event, ?_⟩
  rw [System.step, stepped]
  simp

theorem moved_guest {system : System} {guest : Guest} {event : GuestEvent}
    (stepped : system.guest.step system.toGuest event = some (guest, system.toGuest, [])) :
    Moved system { system with guest := guest } := by
  refine .inr ⟨.guest event, ?_⟩
  rw [System.step, stepped]
  simp

theorem Side.Move.refl (side : Side) : side.Move side := .still side.serving id

variable {world : World}

/-- The host's main function goes on, with a call of its controller that neither submits nor
takes. -/
theorem host_goes (calm : world.Calm) {host : Host} {main : HostMain} (count : Int)
    (calls : Nat) (untouched : world.system.host.Untouched host)
    (earlier : main.serving = true → world.hostMain.serving = true)
    (idle : main.calling = false → host.app = .idle)
    (moved : Moved world.system { world.system with host := host }) :
    world.Advances ({ world with hostMain := main, count := count, calls := calls }.setHost host) where
  host := by
    have still : world.hostSide.Move { world.hostSide with serving := main.serving } :=
      .still _ earlier
    simpa only [hostSide, setHost, untouched.submitted, untouched.taken] using still
  guest := Side.Move.refl _
  calm := ⟨idle, calm.guest⟩
  system := moved

theorem host_main (calm : world.Calm) {main : HostMain} (idle : world.system.host.app = .idle)
    (earlier : main.serving = true → world.hostMain.serving = true) :
    world.Advances { world with hostMain := main } :=
  host_goes calm world.count world.calls ⟨rfl, rfl⟩ earlier (fun _ => idle) (.inl rfl)

theorem guest_goes (calm : world.Calm) {guest : Guest} {main : GuestMain}
    (untouched : world.system.guest.Untouched guest)
    (earlier : main.serving = true → world.guestMain.serving = true)
    (idle : main ≠ .running → guest.location = .idle)
    (moved : Moved world.system { world.system with guest := guest }) :
    world.Advances ({ world with guestMain := main }.setGuest guest) where
  host := Side.Move.refl _
  guest := by
    have still : world.guestSide.Move { world.guestSide with serving := main.serving } :=
      .still _ earlier
    simpa only [guestSide, setGuest, untouched.submitted, untouched.taken] using still
  calm := ⟨calm.host, idle⟩
  system := moved

theorem guest_main (calm : world.Calm) {main : GuestMain}
    (idle : world.system.guest.location = .idle)
    (earlier : main.serving = true → world.guestMain.serving = true) :
    world.Advances { world with guestMain := main } :=
  guest_goes calm ⟨rfl, rfl⟩ earlier (fun _ => idle) (.inl rfl)

theorem host_exchange (settings : HostSettings) {world : World} (calm : world.Calm)
    (valid : world.system.Valid) {second : Bool} {stage : Stage}
    (place : world.hostMain = .exchange second stage) {progress : Progress} {node : Bridge}
    {host : Host}
    (known : advance gem5HostController stage (world.hostNode, world.system.host) =
      (progress, node, host)) :
    world.Advances (({ world with hostNode := node }.setHost host).hostProceeds settings second
      progress) := by
  have idle : world.system.host.app = .idle := calm.host (by rw [place]; rfl)
  have move := advance_side gem5HostController_records stage world.hostNode valid.host
    world.hostHeard
  have made := advance_state gem5HostController stage world.hostNode world.system.host
  simp only [known] at move made
  have start : world.hostSide = ⟨world.hostNode, world.hostHeard, world.system.host.submitted,
      world.system.host.taken, true⟩ := by
    simp only [hostSide, place, HostMain.serving]
  rw [← start] at move
  have called : Moved world.system { world.system with host := host } ∧ host.app = .idle := by
    rcases made with same | ⟨-, ⟨message, given⟩ | ⟨data, accepted⟩⟩
    · rw [same]
      exact ⟨.inl rfl, idle⟩
    · obtain ⟨stepped, kept, -⟩ := hostController_take given world.system.toHost
      exact ⟨moved_host stepped, kept.trans idle⟩
    · obtain ⟨stepped, kept, -⟩ := hostController_submit accepted world.system.toHost
      exact ⟨moved_host stepped, kept.trans idle⟩
  cases progress with
  | goes stage => exact ⟨move, Side.Move.refl _, ⟨fun _ => called.2, calm.guest⟩, called.1⟩
  | threw what => exact ⟨move, Side.Move.refl _, ⟨fun _ => called.2, calm.guest⟩, called.1⟩
  | returned =>
    cases second with
    | true => exact ⟨move, Side.Move.refl _, ⟨fun _ => called.2, calm.guest⟩, called.1⟩
    | false =>
      have same : host = world.system.host := by
        rcases made with same | ⟨goes, -⟩
        · exact same
        · exact absurd rfl goes
      subst same
      have untouched := world.system.host.stepInterval_untouched (settings.interval * 1000)
      rw [← untouched.submitted, ← untouched.taken] at move
      have stepped : world.system.host.step world.system.toHost
          (.step (settings.interval * 1000)) =
          some (world.system.host.stepInterval (settings.interval * 1000), world.system.toHost, []) :=
        if_pos idle
      exact ⟨move, Side.Move.refl _, ⟨fun quiet => absurd quiet.symm Bool.false_ne_true, calm.guest⟩,
        moved_host stepped⟩

theorem guest_exchange (calm : world.Calm) (valid : world.system.Valid)
    {stage : Stage} (place : world.guestMain = .exchange stage) {progress : Progress}
    {node : Bridge} {guest : Guest}
    (known : advance gem5GuestController stage (world.guestNode, world.system.guest) =
      (progress, node, guest)) :
    world.Advances (({ world with guestNode := node }.setGuest guest).guestProceeds progress) := by
  have idle : world.system.guest.location = .idle := calm.guest (by rw [place]; simp)
  have move := advance_side gem5GuestController_records stage world.guestNode valid.guest
    world.guestHeard
  have made := advance_state gem5GuestController stage world.guestNode world.system.guest
  simp only [known] at move made
  have start : world.guestSide = ⟨world.guestNode, world.guestHeard, world.system.guest.submitted,
      world.system.guest.taken, true⟩ := by
    simp only [guestSide, place, GuestMain.serving]
  rw [← start] at move
  have called : Moved world.system { world.system with guest := guest } ∧
      guest.location = .idle := by
    rcases made with same | ⟨-, ⟨message, given⟩ | ⟨data, accepted⟩⟩
    · rw [same]
      exact ⟨.inl rfl, idle⟩
    · obtain ⟨stepped, kept⟩ := guestController_take given world.system.toGuest
      exact ⟨moved_guest stepped, kept.trans idle⟩
    · obtain ⟨stepped, kept⟩ := guestController_submit accepted world.system.toGuest
      exact ⟨moved_guest stepped, kept.trans idle⟩
  cases progress <;> exact ⟨Side.Move.refl _, move, ⟨calm.host, fun _ => called.2⟩, called.1⟩

theorem hostStep_advances {settings : HostSettings} {world after : World} (calm : world.Calm)
    (valid : world.system.Valid) {action : HostAction}
    (taken : world.hostStep settings action = some after) : world.Advances after := by
  cases action with
  | ready result =>
    simp only [hostStep] at taken
    split_ifs at taken with place
    have idle := calm.host (by rw [place]; rfl)
    cases result with
    | ok _ =>
      cases taken
      exact host_main calm idle fun _ => by rw [place]; rfl
    | error what =>
      cases taken
      exact host_main calm idle fun _ => by rw [place]; rfl
  | check running =>
    simp only [hostStep] at taken
    by_cases place : world.hostMain = .loop
    · rw [if_pos place] at taken
      have idle := calm.host (by rw [place]; rfl)
      cases taken
      exact host_main calm idle fun _ => by rw [place]; rfl
    · rw [if_neg place] at taken
      cases taken
  | advance =>
    simp only [hostStep] at taken
    cases place : world.hostMain with
    | exchange second stage =>
      simp only [place] at taken
      cases taken
      exact host_exchange settings calm valid place rfl
    | waiting | loop | stepping | stopping | stopped | ended =>
      simp only [place, reduceCtorEq] at taken
  | arrive key payload =>
    simp only [hostStep] at taken
    split at taken
    case h_2 => cases taken
    case h_1 second place =>
      split_ifs at taken with listed
      have idle := calm.host (by rw [place]; rfl)
      have serves : world.hostMain.serving = true := by rw [place]; rfl
      rcases arrive_cases key payload world.hostNode with ⟨queued, within⟩ | ⟨what, thrown⟩
      · simp only [queued] at taken
        cases taken
        exact ⟨.hears serves key payload (List.contains_iff_mem.mp listed) within,
          Side.Move.refl _, ⟨fun _ => idle, calm.guest⟩, .inl rfl⟩
      · simp only [thrown] at taken
        cases taken
        exact host_main calm idle fun _ => serves
  | stop shutdown =>
    simp only [hostStep] at taken
    split at taken
    case h_2 => cases taken
    case h_1 thrown place =>
      have idle := calm.host (by rw [place]; rfl)
      cases taken
      refine host_goes calm _ _ (world.system.host.stop_untouched shutdown)
        (fun serves => absurd serves Bool.false_ne_true)
        (fun quiet => absurd quiet.symm Bool.false_ne_true) ?_
      have stepped : world.system.host.step world.system.toHost (.stop shutdown) =
          some (world.system.host.stop shutdown, world.system.toHost, []) := if_pos idle
      exact moved_host stepped
  | returns =>
    simp only [hostStep] at taken
    split at taken
    case h_1 result place idle found =>
      cases taken
      exact host_main calm idle fun _ => by rw [place]; rfl
    case h_2 thrown result place idle found =>
      cases taken
      refine host_main calm idle fun serves => ?_
      cases thrown <;> exact absurd serves (by simp [afterStop, HostMain.serving])
    case h_3 => cases taken

theorem guestStep_advances {world after : World} (calm : world.Calm)
    (valid : world.system.Valid) {action : GuestAction}
    (taken : world.guestStep action = some after) : world.Advances after := by
  cases action with
  | look ready cancelled late =>
    simp only [guestStep] at taken
    by_cases place : world.guestMain = .waiting
    · rw [if_pos place] at taken
      have idle := calm.guest (by rw [place]; simp)
      have serves : world.guestMain.serving = true := by rw [place]; rfl
      split_ifs at taken
      · cases taken
        exact guest_main calm idle fun _ => serves
      · cases taken
        exact guest_main calm idle fun _ => serves
      · cases taken
        exact guest_main calm idle fun _ => serves
      · cases taken
        exact guest_main calm idle id
    · rw [if_neg place] at taken
      cases taken
  | check running =>
    simp only [guestStep] at taken
    by_cases place : world.guestMain = .loop
    · rw [if_pos place] at taken
      have idle := calm.guest (by rw [place]; simp)
      have serves : world.guestMain.serving = true := by rw [place]; rfl
      split_ifs at taken
      · cases taken
        have stepped : world.system.guest.step world.system.toGuest .runNext =
            some (world.system.guest.runNext, world.system.toGuest, []) := if_pos idle
        exact guest_goes calm world.system.guest.runNext_untouched (fun _ => serves)
          (fun other => absurd rfl other) (moved_guest stepped)
      · cases taken
        exact guest_main calm idle fun _ => serves
    · rw [if_neg place] at taken
      cases taken
  | advance =>
    simp only [guestStep] at taken
    cases place : world.guestMain with
    | exchange stage =>
      simp only [place] at taken
      cases taken
      exact guest_exchange calm valid place rfl
    | waiting | loop | running | ended => simp only [place, reduceCtorEq] at taken
  | arrive key payload =>
    simp only [guestStep] at taken
    split at taken
    case h_2 => cases taken
    case h_1 place =>
      split_ifs at taken with listed
      have idle := calm.guest (by rw [place]; simp)
      have serves : world.guestMain.serving = true := by rw [place]; rfl
      rcases arrive_cases key payload world.guestNode with ⟨queued, within⟩ | ⟨what, thrown⟩
      · simp only [queued] at taken
        cases taken
        exact ⟨Side.Move.refl _, .hears serves key payload (List.contains_iff_mem.mp listed) within,
          ⟨calm.host, fun _ => idle⟩, .inl rfl⟩
      · simp only [thrown] at taken
        cases taken
        exact guest_main calm idle fun _ => serves
  | returns =>
    simp only [guestStep] at taken
    split at taken
    case h_1 result place idle found =>
      cases taken
      exact guest_main calm idle fun _ => by rw [place]; rfl
    case h_2 => cases taken

theorem step_advances {settings : HostSettings} {world after : World} (calm : world.Calm)
    (valid : world.system.Valid) {event : WorldEvent}
    (taken : world.step settings event = some after) : world.Advances after := by
  cases event with
  | host event =>
    simp only [step] at taken
    split_ifs at taken with inner
    obtain ⟨system, stepped, rfl⟩ := Option.map_eq_some_iff.mp taken
    obtain ⟨⟨host, inbox, sent⟩, moved, same⟩ := Option.bind_eq_some_iff.mp stepped
    cases same
    obtain ⟨untouched, settles⟩ := Host.inner_step inner moved
    refine ⟨?_, Side.Move.refl _, ⟨fun quiet => settles.rests (calm.host quiet), calm.guest⟩,
      .inr ⟨_, stepped⟩⟩
    have still : world.hostSide.Move world.hostSide := Side.Move.refl _
    simpa only [hostSide, untouched.submitted, untouched.taken] using still
  | guest event =>
    simp only [step] at taken
    split_ifs at taken with inner
    obtain ⟨system, stepped, rfl⟩ := Option.map_eq_some_iff.mp taken
    obtain ⟨⟨guest, inbox, sent⟩, moved, same⟩ := Option.bind_eq_some_iff.mp stepped
    cases same
    obtain ⟨untouched, busy⟩ := Guest.inner_step inner moved
    refine ⟨Side.Move.refl _, ?_, ⟨calm.host, fun other => absurd (calm.guest other) busy⟩,
      .inr ⟨_, stepped⟩⟩
    have still : world.guestSide.Move world.guestSide := Side.Move.refl _
    simpa only [guestSide, untouched.submitted, untouched.taken] using still
  | hostMain action => exact hostStep_advances calm valid taken
  | guestMain action => exact guestStep_advances calm valid taken

end World

end Chimaera.Ros
