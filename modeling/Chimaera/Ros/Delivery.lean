import Chimaera.Ros.Sides

/-! Messages from a topic of one side to the topic of the other, in every interleaving of
the two programs. A message passes three hops: the queue of the node that heard it, the two
controllers with the transport, and the node that publishes it. -/

namespace Chimaera.Ros
open Base.BigEndian Base.Unsigned Base.Transition Base.Relay Control Bridge

/-! ## Nodes -/

namespace Bridge

def parse (bytes : Message) : ByteString × ByteString :=
  let length := decodeLength ((bytes.drop 4).take 4)
  ((bytes.drop 8).take length, bytes.drop (8 + length))

theorem parse_frame {key : ByteString} (short : key.length ≤ maxKey) (payload : ByteString) :
    parse (frame key payload) = (key, payload) := by
  obtain ⟨-, -, header, body⟩ := frame_parts short payload
  rw [parse, header, ← List.drop_drop, body, List.take_left, List.drop_left]

theorem parse_frames {messages : List (ByteString × ByteString)}
    (short : ∀ message ∈ messages, message.1.length ≤ maxKey) :
    (frames messages).map parse = messages := by
  rw [frames, List.map_map]
  calc messages.map (parse ∘ fun message => frame message.1 message.2)
      _ = messages.map id := by
        apply List.map_congr_left
        intro message member
        exact parse_frame (short message member) message.2
      _ = messages := List.map_id messages

structure Fresh (bridge : Bridge) : Prop where
  outgoing : bridge.outgoing = []
  published : bridge.Published []

theorem connectRoute_fresh {ros : Rclcpp} {side : ByteString} {bridge after : Bridge}
    {route : Route} (fresh : bridge.Fresh)
    (connected : connectRoute ros side bridge route = .ok after) : after.Fresh := by
  obtain ⟨-, -, connected⟩ := bind_eq_ok.mp connected
  by_cases sends : isOutgoing side route = true
  · rw [if_pos sends] at connected
    cases connected
    exact ⟨fresh.outgoing, fresh.published⟩
  · rw [if_neg sends] at connected
    cases connected
    refine ⟨fresh.outgoing, ?_⟩
    intro entry member
    simp only [emplace] at member
    split_ifs at member
    · exact fresh.published entry member
    · rcases List.mem_append.mp member with member | member
      · exact fresh.published entry member
      · rw [List.mem_singleton.mp member]
        rfl

theorem connectRoutes_fresh {ros : Rclcpp} {side : ByteString} {routes : List Route}
    {bridge after : Bridge} (fresh : bridge.Fresh)
    (connected : connectRoutes ros side bridge routes = .ok after) : after.Fresh := by
  induction routes generalizing bridge with
  | nil =>
    cases connected
    exact fresh
  | cons route rest ih =>
    obtain ⟨next, first, later⟩ := bind_eq_ok.mp connected
    exact ih (connectRoute_fresh fresh first) later

def Built (side : ByteString) (routes : List Route) (byteLimit : Int) (bridge : Bridge) : Prop :=
  ∃ (parse : ByteString → Option Value) (files : ByteString → Option ByteString) (ros : Rclcpp)
      (path : ByteString) (queueLimit : Int),
    loadConfig parse path (files path) = .ok routes ∧
    create ros (fun path => loadConfig parse path (files path)) side path byteLimit queueLimit =
      .ok bridge

variable {side : ByteString} {routes : List Route} {byteLimit : Int} {bridge : Bridge}

theorem Built.fresh (built : Built side routes byteLimit bridge) : bridge.Fresh := by
  obtain ⟨parse, files, ros, path, queueLimit, loaded, created⟩ := built
  unfold create at created
  split_ifs at created
  obtain ⟨list, -, created⟩ := bind_eq_ok.mp created
  obtain ⟨-, -, connected⟩ := bind_eq_ok.mp created
  apply connectRoutes_fresh ?_ connected
  refine ⟨rfl, ?_⟩
  intro entry member
  cases member

theorem Built.serves (built : Built side routes byteLimit bridge) :
    Accepted routes ∧ Serves side routes byteLimit.toNat bridge := by
  obtain ⟨parse, files, ros, path, queueLimit, loaded, created⟩ := built
  have accepted := loadConfig_accepted loaded
  obtain ⟨opened, limit⟩ := create_opened loaded accepted created
  exact ⟨accepted, opened, limit⟩

theorem Serves.keys {limit : Nat} (serves : Serves side routes limit bridge) (key : ByteString) :
    key ∈ bridge.keys ↔ ∃ route ∈ routes, isOutgoing side route = true ∧ route.key = key := by
  rw [Bridge.keys, serves.opened.subscriptions, outgoingEndpoints]
  simp [and_assoc]

end Bridge

theorem Side.Move.serves {side after : Side} (move : side.Move after) {name : ByteString}
    {routes : List Route} {limit : Nat} (serves : Serves name routes limit side.node) :
    Serves name routes limit after.node := by
  obtain ⟨⟨publishers, subscriptions⟩, limits⟩ := serves
  cases move with
  | publishes active key payload short =>
    exact ⟨⟨(endpoints_publish side.node key payload).trans publishers, subscriptions⟩, limits⟩
  | _ => exact ⟨⟨publishers, subscriptions⟩, limits⟩

namespace World

structure Invariant (world : World) : Prop where
  calm : world.Calm
  system : world.system.Invariant
  host : world.hostSide.Sound
  guest : world.guestSide.Sound

variable {settings : HostSettings}

theorem step_invariant (world : World) (event : WorldEvent)
    (after : World) (holds : world.Invariant) (taken : world.step settings event = some after) :
    after.Invariant := by
  have advances := step_advances holds.calm holds.system.valid taken
  refine ⟨advances.calm, ?_, advances.host.sound holds.host, advances.guest.sound holds.guest⟩
  rcases advances.system with same | ⟨event, stepped⟩
  · rw [same]
    exact holds.system
  · exact System.step_invariant _ event _ holds.system stepped

theorem sound_fresh {node : Bridge} (fresh : node.Fresh) (serving : Bool) :
    Side.Sound ⟨node, [], [], [], serving⟩ where
  sends := faithful_of_whole fresh.outgoing.symm
  known := nofun
  receives := ⟨[], faithful_of_whole rfl, fresh.published, nofun⟩

theorem invariant_initial (settings : HostSettings) {host guest : Bridge} (hosting : host.Fresh)
    (guesting : guest.Fresh) (start : GuestMain) :
    (initial settings host guest start).Invariant where
  calm := ⟨fun _ => rfl, fun _ => rfl⟩
  system := System.invariant_initial _
  host := sound_fresh hosting _
  guest := sound_fresh guesting _

structure Operates (hostRoutes guestRoutes : List Route) (hostLimit guestLimit : Nat)
    (world : World) : Prop where
  invariant : world.Invariant
  host : Serves (literal "host") hostRoutes hostLimit world.hostNode
  guest : Serves (literal "guest") guestRoutes guestLimit world.guestNode

variable {hostRoutes guestRoutes : List Route}

theorem step_operates {hostLimit guestLimit : Nat} (world : World) (event : WorldEvent)
    (after : World) (operates : world.Operates hostRoutes guestRoutes hostLimit guestLimit)
    (taken : world.step settings event = some after) :
    after.Operates hostRoutes guestRoutes hostLimit guestLimit := by
  have advances := step_advances operates.invariant.calm operates.invariant.system.valid taken
  exact ⟨step_invariant world event after operates.invariant taken,
    advances.host.serves operates.host, advances.guest.serves operates.guest⟩

theorem reachable_operates {host guest : Bridge} {start : GuestMain} {hostLimit guestLimit : Int}
    (hosting : Built (literal "host") hostRoutes hostLimit host)
    (guesting : Built (literal "guest") guestRoutes guestLimit guest) {world : World}
    (reached : Reachable (step settings) (initial settings host guest start) world) :
    world.Operates hostRoutes guestRoutes hostLimit.toNat guestLimit.toNat := by
  apply reached.invariant step_operates
  exact ⟨invariant_initial settings hosting.fresh guesting.fresh start, hosting.serves.2,
    guesting.serves.2⟩

end World

/-! ## From topic to topic -/

/-- What the publishers of a node have published of the messages that the other node has
heard. -/
structure Delivered (heard : List (ByteString × ByteString)) (node : Bridge) (waiting : Batch)
    (intact : Prop) : Prop where
  /-- No message is altered, duplicated, reordered or invented. -/
  ordered : ∀ entry ∈ node.publishers, entry.2.published <+: payloads entry.1 heard
  /-- None is lost while everything works. -/
  whole : intact → ∀ entry ∈ node.publishers,
    payloads entry.1 heard = entry.2.published ++ payloads entry.1 (waiting.map parse)

theorem payloads_append (key : ByteString) (first second : List (ByteString × ByteString)) :
    payloads key (first ++ second) = payloads key first ++ payloads key second := by
  simp only [payloads, List.filter_append, List.map_append]

theorem delivered_of_hop {heard published : List (ByteString × ByteString)} {node : Bridge}
    {waiting : Batch} {intact : Prop}
    (faithful : Faithful ⟨frames heard, frames published, waiting, intact⟩)
    (brief : ∀ message ∈ heard, message.1.length ≤ maxKey)
    (short : ∀ message ∈ published, message.1.length ≤ maxKey)
    (holds : node.Published published) : Delivered heard node waiting intact where
  ordered entry member := by
    have passed := faithful.ordered.map parse
    rw [parse_frames brief, parse_frames short] at passed
    rw [holds entry member]
    exact (passed.filter _).map _
  whole works entry member := by
    have total := congrArg (List.map parse) (faithful.whole works)
    rw [List.map_append, parse_frames brief, parse_frames short] at total
    rw [holds entry member, total, payloads_append]

theorem Side.Sound.brief {side : Side} (sound : side.Sound) {name : ByteString}
    {routes : List Route} {limit : Nat} (accepted : Accepted routes)
    (serves : Serves name routes limit side.node) :
    ∀ message ∈ side.heard, message.1.length ≤ maxKey := by
  intro message member
  obtain ⟨route, listed, -, key⟩ := (serves.keys _).mp (sound.known message member).1
  rw [← key]
  exact (accepted.sound route listed).short

namespace World

def toGuest (world : World) : Batch := world.system.downwardHop.waiting ++ world.hostNode.outgoing

def toHost (world : World) : Batch := world.system.upwardHop.waiting ++ world.guestNode.outgoing

structure Intact (world : World) : Prop where
  hostMain : world.hostMain.serving = true
  guestMain : world.guestMain.serving = true
  guest : world.system.guest.failure = ""
  host : world.system.host.failure = ""

/-- What one side has heard, the other accepts: both have the same routes and limit. -/
theorem heard_accepted {source : Side} {destination : Bridge} {side other : ByteString}
    {routes : List Route} {limit : Nat} (accepted : Accepted routes)
    (opposite : Opposite side other) (sound : source.Sound)
    (sends : Serves side routes limit source.node)
    (receives : Serves other routes limit destination)
    (serialized : ∀ message ∈ source.heard, 4 ≤ message.2.length) {bytes : Message}
    (member : bytes ∈ frames source.heard) : destination.Accepts bytes := by
  obtain ⟨message, heard, rfl⟩ := List.mem_map.mp member
  obtain ⟨listed, within⟩ := sound.known message heard
  obtain ⟨route, found, outgoing, key⟩ := (sends.keys _).mp listed
  have incoming : isOutgoing other route = false := by simpa [outgoing] using opposite route
  refine ⟨message.1, message.2, ?_, ?_, serialized message heard, ?_, rfl⟩
  · rw [← key]
    exact (accepted.sound route found).short
  · exact (receives.opened.knows _).mpr ⟨route, found, incoming, key⟩
  · rw [receives.limit, ← sends.limit]
    exact within

/-- An exchange that finds only frames its node accepts does not throw while it receives. -/
theorem advance_receive_fine {γ : Type} {controller : DataController γ} {node : Bridge}
    {state after : γ} {message : Option Message}
    (given : controller.take state = .ok (message, after))
    (accepts : ∀ bytes ∈ message, node.Accepts bytes) (what : ByteString) :
    (advance controller .receive (node, state)).1 ≠ .threw what := by
  cases message with
  | none => simp [advance, given]
  | some bytes =>
    obtain ⟨published, done⟩ := submit_accepted (accepts bytes rfl)
    simp [advance, given, done]

/-- In every interleaving of the programs, their controllers and the transport, each publisher
has published a beginning of what the other side heard on its route. While everything works,
the rest is on its way. -/
theorem messages_delivered {settings : HostSettings} {host guest : Bridge} {start : GuestMain}
    {hostRoutes guestRoutes : List Route} {hostLimit guestLimit : Int}
    (hosting : Built (literal "host") hostRoutes hostLimit host)
    (guesting : Built (literal "guest") guestRoutes guestLimit guest) {world : World}
    (reached : Reachable (step settings) (initial settings host guest start) world) :
    Delivered world.hostHeard world.guestNode world.toGuest world.Intact ∧
      Delivered world.guestHeard world.hostNode world.toHost world.Intact := by
  have operates := reachable_operates hosting guesting reached
  have holds := operates.invariant
  obtain ⟨toGuest, receives, guestPublished, guestShort⟩ := holds.guest.receives
  obtain ⟨toHost, returns, hostPublished, hostShort⟩ := holds.host.receives
  constructor
  · have down := (holds.host.sends.chain holds.system.downward_faithful rfl).chain receives rfl
    refine delivered_of_hop ⟨fun intact => ?_, down.ordered⟩
      (holds.host.brief hosting.serves.1 operates.host) guestShort guestPublished
    exact down.whole ⟨⟨intact.hostMain, intact.guest, intact.host⟩, intact.guestMain⟩
  · have up := (holds.guest.sends.chain holds.system.upward_faithful rfl).chain returns rfl
    refine delivered_of_hop ⟨fun intact => ?_, up.ordered⟩
      (holds.guest.brief guesting.serves.1 operates.guest) hostShort hostPublished
    exact up.whole ⟨⟨intact.guestMain, intact.guest, intact.host⟩, intact.hostMain⟩

/-- Two programs of one configuration, whose middleware hands over serialized messages, never
refuse each other's frames. -/
theorem frames_never_refused {settings : HostSettings} {host guest : Bridge} {start : GuestMain}
    {routes : List Route} {byteLimit : Int} (hosting : Built (literal "host") routes byteLimit host)
    (guesting : Built (literal "guest") routes byteLimit guest) {world : World}
    (reached : Reachable (step settings) (initial settings host guest start) world)
    (hostSerialized : ∀ message ∈ world.hostHeard, 4 ≤ message.2.length)
    (guestSerialized : ∀ message ∈ world.guestHeard, 4 ≤ message.2.length) (what : ByteString) :
    (advance gem5HostController .receive (world.hostNode, world.system.host)).1 ≠ .threw what ∧
      (advance gem5GuestController .receive (world.guestNode, world.system.guest)).1 ≠
        .threw what := by
  have operates := reachable_operates hosting guesting reached
  have holds := operates.invariant
  have accepted := hosting.serves.1
  have reversed : Opposite (literal "guest") (literal "host") := fun route => by
    rw [opposite_sides route, Bool.not_not]
  constructor
  · obtain ⟨after, given, -⟩ := gem5HostController_gives holds.system.valid.host
    apply advance_receive_fine given
    intro bytes first
    apply heard_accepted accepted reversed holds.guest operates.guest operates.host guestSerialized
    have waiting : bytes ∈ world.system.host.delivered := by
      rw [Host.delivered]
      simp [List.mem_of_head? first]
    have drained := holds.system.up.ordered.subset waiting
    exact holds.guest.sends.ordered.subset (List.mem_append_left _ drained)
  · obtain ⟨after, given, -⟩ := gem5GuestController_gives holds.system.valid.guest
    apply advance_receive_fine given
    intro bytes first
    apply heard_accepted accepted opposite_sides holds.host operates.host operates.guest
      hostSerialized
    have waiting : bytes ∈ world.system.guest.taken ++ world.system.guest.incoming.contents :=
      List.mem_append_right _ (List.mem_of_head? first)
    have drained := holds.system.down.ordered.subset waiting
    exact holds.host.sends.ordered.subset (List.mem_append_left _ drained)

def sampleHost : Bridge where
  byteLimit := 4096
  queueLimit := 128
  subscriptions := [⟨literal "/a", literal "t", sampleRoute.qos, sampleRoute.key⟩]

def sampleGuest : Bridge where
  byteLimit := 4096
  queueLimit := 128
  publishers := [(sampleRoute.key, ⟨literal "/b", literal "t", sampleRoute.qos, []⟩)]

theorem built_sampleHost : Built (literal "host") [sampleRoute] 4096 sampleHost :=
  ⟨fun _ => some sampleRoot, fun _ => some [1], ⟨id, fun _ _ _ => .ok ()⟩, [1], 128, rfl, rfl⟩

theorem built_sampleGuest : Built (literal "guest") [sampleRoute] 4096 sampleGuest :=
  ⟨fun _ => some sampleRoot, fun _ => some [1], ⟨id, fun _ _ _ => .ok ()⟩, [1], 128, rfl, rfl⟩

def sampleSettings : HostSettings := ⟨100000, 10000, 1, by decide, by decide, by decide, by decide⟩

/-- The host hears a message before its first step; the guest starts up, polls and publishes
it. -/
def firstMessage : List WorldEvent :=
  [.hostMain (.ready (.ok ())), .hostMain (.check true), .hostMain .advance,
    .hostMain (.arrive sampleRoute.key [0, 1, 0, 0]), .hostMain .advance, .hostMain .advance,
    .hostMain .advance, .guestMain (.check true), .guest .send, .host .workerReceive,
    .host .workerLock, .host .workerSend, .guest .receive, .guest .drain, .guest .send,
    .host .workerReceive, .host .workerLock, .host .workerSend, .guest .receive,
    .guestMain .returns, .guestMain .advance]

theorem messages_delivered_first :
    ∃ world, Reachable (step sampleSettings)
        (initial sampleSettings sampleHost sampleGuest .loop) world ∧
      ∃ entry ∈ world.guestNode.publishers, entry.2.published = [[0, 1, 0, 0]] ∧
        [[0, 1, 0, 0]] <+: payloads entry.1 world.hostHeard := by
  have ran : (run (step sampleSettings) (initial sampleSettings sampleHost sampleGuest .loop)
      firstMessage).map (fun world => world.guestNode.publishers) =
        some [(sampleRoute.key, ⟨literal "/b", literal "t", sampleRoute.qos, [[0, 1, 0, 0]]⟩)] := by
    decide +kernel
  obtain ⟨world, reached, published⟩ := Option.map_eq_some_iff.mp ran
  have delivered := (messages_delivered built_sampleHost built_sampleGuest ⟨_, reached⟩).1
  refine ⟨world, ⟨_, reached⟩, _, by rw [published]; exact List.mem_cons_self, rfl, ?_⟩
  exact delivered.ordered (sampleRoute.key, _) (by rw [published]; exact List.mem_cons_self)

/-- The same run; the message is not refused. -/
theorem frames_never_refused_first :
    ∃ world, Reachable (step sampleSettings)
        (initial sampleSettings sampleHost sampleGuest .loop) world ∧
      world.hostHeard ≠ [] ∧ ∀ what,
        (advance gem5GuestController .receive (world.guestNode, world.system.guest)).1 ≠
          .threw what := by
  have ran : (run (step sampleSettings) (initial sampleSettings sampleHost sampleGuest .loop)
      (firstMessage.take 20)).map (fun world => (world.hostHeard, world.guestHeard)) =
        some ([(sampleRoute.key, [0, 1, 0, 0])], []) := by decide +kernel
  obtain ⟨world, reached, heard⟩ := Option.map_eq_some_iff.mp ran
  obtain ⟨hosted, guested⟩ := Prod.mk.inj heard
  refine ⟨world, ⟨_, reached⟩, by rw [hosted]; exact List.cons_ne_nil _ _, fun what => ?_⟩
  have fine := frames_never_refused built_sampleHost built_sampleGuest ⟨_, reached⟩
    (by rw [hosted]; decide) (by rw [guested]; decide) what
  exact fine.2

end World

end Chimaera.Ros
