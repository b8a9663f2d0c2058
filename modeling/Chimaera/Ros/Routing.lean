import Mathlib.Data.List.Nodup
import Chimaera.Base.Transition
import Chimaera.Ros.Node

/-! Route framing between a host and a guest node of one configuration. The constructor
registers one endpoint per route, in the direction its side has; no later call changes that.
With the keys of an accepted configuration this decides every frame. -/

namespace Chimaera.Ros
open Base.BigEndian Base.Unsigned Base.Transition Control

namespace Bridge

def endpoints (bridge : Bridge) : List (ByteString × ByteString × ByteString × QoS) :=
  bridge.publishers.map fun (key, publisher) =>
    (key, publisher.topic, publisher.type, publisher.qos)

def incomingEndpoints (side : ByteString) (routes : List Route) :
    List (ByteString × ByteString × ByteString × QoS) :=
  (routes.filter fun route => !isOutgoing side route).map fun route =>
    (route.key, sideTopic side route, route.type, route.qos)

def outgoingEndpoints (side : ByteString) (routes : List Route) : List Subscription :=
  (routes.filter (isOutgoing side)).map fun route =>
    ⟨sideTopic side route, route.type, route.qos, route.key⟩

structure Opened (side : ByteString) (routes : List Route) (bridge : Bridge) : Prop where
  publishers : bridge.endpoints = incomingEndpoints side routes
  subscriptions : bridge.subscriptions = outgoingEndpoints side routes

theorem knows_iff_endpoint (bridge : Bridge) (key : ByteString) :
    bridge.Knows key ↔ key ∈ bridge.endpoints.map Prod.fst := by
  rw [Knows, endpoints, List.map_map]
  rfl

variable {side : ByteString} {routes : List Route} {bridge : Bridge}

theorem Opened.knows (opened : Opened side routes bridge) (key : ByteString) :
    bridge.Knows key ↔ ∃ route ∈ routes, isOutgoing side route = false ∧ route.key = key := by
  rw [knows_iff_endpoint, opened.publishers]
  simp [incomingEndpoints, and_assoc]

/-! ## The constructor -/

theorem connectRoute_opened {ros : Rclcpp} {bridge after : Bridge} {done : List Route}
    {route : Route} (opened : Opened side done bridge)
    (fresh : ∀ other ∈ done, other.key ≠ route.key)
    (connected : connectRoute ros side bridge route = .ok after) :
    Opened side (done ++ [route]) after ∧ after.byteLimit = bridge.byteLimit := by
  obtain ⟨-, -, connected⟩ := bind_eq_ok.mp connected
  by_cases sends : isOutgoing side route = true
  · rw [if_pos sends] at connected
    cases connected
    refine ⟨⟨?_, ?_⟩, rfl⟩
    · have before := opened.publishers
      simp only [endpoints, incomingEndpoints] at before ⊢
      simp [before, sends]
    · simpa [outgoingEndpoints, sends] using opened.subscriptions
  · rw [if_neg sends] at connected
    cases connected
    have absent : ¬(bridge.publishers.any fun entry => entry.1 == route.key) = true := by
      rw [knows_iff, opened.knows]
      rintro ⟨other, member, -, same⟩
      exact fresh other member same
    refine ⟨⟨?_, ?_⟩, rfl⟩
    · have before := opened.publishers
      simp only [endpoints, incomingEndpoints] at before ⊢
      rw [emplace, if_neg absent, List.map_append, before]
      simp [sends]
    · simpa [outgoingEndpoints, sends] using opened.subscriptions

theorem connectRoutes_opened {ros : Rclcpp} {routes done : List Route} {bridge after : Bridge}
    (opened : Opened side done bridge) (keys : ((done ++ routes).map Route.key).Nodup)
    (connected : connectRoutes ros side bridge routes = .ok after) :
    Opened side (done ++ routes) after ∧ after.byteLimit = bridge.byteLimit := by
  induction routes generalizing done bridge with
  | nil =>
    cases connected
    rw [List.append_nil]
    exact ⟨opened, rfl⟩
  | cons route rest ih =>
    obtain ⟨next, first, later⟩ := bind_eq_ok.mp connected
    have fresh : ∀ other ∈ done, other.key ≠ route.key := by
      intro other member same
      rw [List.map_append, List.nodup_append] at keys
      exact keys.2.2 _ (List.mem_map_of_mem member) _ (List.mem_map_of_mem List.mem_cons_self) same
    obtain ⟨extended, limit⟩ := connectRoute_opened opened fresh first
    rw [List.append_cons] at keys ⊢
    obtain ⟨all, same⟩ := ih extended keys later
    exact ⟨all, same.trans limit⟩

theorem create_opened {ros : Rclcpp} {load : ByteString → Except ByteString (List Route)}
    {side path : ByteString} {byteLimit queueLimit : Int}
    (loaded : load path = .ok routes) (accepted : Accepted routes)
    (created : create ros load side path byteLimit queueLimit = .ok bridge) :
    Opened side routes bridge ∧ bridge.byteLimit = byteLimit.toNat := by
  unfold create at created
  split_ifs at created
  rw [loaded, ok_bind] at created
  obtain ⟨-, -, connected⟩ := bind_eq_ok.mp created
  have start : Opened side [] { byteLimit := byteLimit.toNat, queueLimit := queueLimit.toNat } :=
    ⟨rfl, rfl⟩
  exact connectRoutes_opened start accepted.keys connected

/-! ## Calls -/

inductive Call where
  | callback (key payload : ByteString)
  | take
  | submit (bytes : Message)
  deriving DecidableEq, Repr

def after (method : EStateM ByteString Bridge Unit) (bridge : Bridge) : Bridge :=
  match method.run bridge with
  | .ok _ after => after
  | .error _ after => after

def act (bridge : Bridge) : Call → Option Bridge
  | .callback key payload => some (after (callback key payload) bridge)
  | .take => some bridge.take.2
  | .submit bytes => some (after (submit bytes) bridge)

structure Serves (side : ByteString) (routes : List Route) (limit : Nat) (bridge : Bridge) :
    Prop where
  opened : Opened side routes bridge
  limit : bridge.byteLimit = limit

theorem endpoints_publish (bridge : Bridge) (key payload : ByteString) :
    (bridge.publish key payload).endpoints = bridge.endpoints := by
  rw [endpoints, publish, List.map_map]
  apply List.map_congr_left
  rintro ⟨name, publisher⟩ -
  by_cases same : name = key
  · simp [same]
  · simp [same]

theorem callback_serves {limit : Nat}
    (serves : Serves side routes limit bridge) (key payload : ByteString) :
    Serves side routes limit (after (callback key payload) bridge) := by
  by_cases excess : bridge.byteLimit < payload.length ∨
      bridge.queueLimit ≤ bridge.outgoing.length
  · rw [after, callback_refused excess]
    exact serves
  · obtain ⟨within, room⟩ := not_or.mp excess
    rw [after, callback_run (Nat.le_of_not_lt within) (Nat.lt_of_not_le room)]
    exact ⟨⟨serves.opened.publishers, serves.opened.subscriptions⟩, serves.limit⟩

theorem act_serves {limit : Nat} (bridge : Bridge)
    (call : Call) (next : Bridge) (serves : Serves side routes limit bridge)
    (acted : bridge.act call = some next) : Serves side routes limit next := by
  cases call with
  | callback key payload =>
    cases acted
    exact callback_serves serves key payload
  | take =>
    cases acted
    rw [take]
    cases bridge.outgoing with
    | nil => exact serves
    | cons bytes rest =>
      exact ⟨⟨serves.opened.publishers, serves.opened.subscriptions⟩, serves.limit⟩
  | submit bytes =>
    cases acted
    by_cases accepts : bridge.Accepts bytes
    · obtain ⟨key, payload, short, known, low, high, rfl⟩ := accepts
      rw [after, submit_frame short known low high]
      refine ⟨⟨?_, serves.opened.subscriptions⟩, serves.limit⟩
      exact (endpoints_publish bridge key payload).trans serves.opened.publishers
    · obtain ⟨what, refused⟩ := submit_refused accepts
      rw [after, refused]
      exact serves

def Running (side : ByteString) (routes : List Route) (byteLimit : Int) (bridge : Bridge) : Prop :=
  ∃ (parse : ByteString → Option Value) (files : ByteString → Option ByteString) (ros : Rclcpp)
      (path : ByteString) (queueLimit : Int) (initial : Bridge),
    loadConfig parse path (files path) = .ok routes ∧
    create ros (fun path => loadConfig parse path (files path)) side path byteLimit queueLimit =
      .ok initial ∧ Reachable act initial bridge

theorem Running.accepted {byteLimit : Int}
    (running : Running side routes byteLimit bridge) : Accepted routes := by
  obtain ⟨parse, files, ros, path, queueLimit, initial, loaded, -⟩ := running
  exact loadConfig_accepted loaded

theorem Running.serves {byteLimit : Int} (running : Running side routes byteLimit bridge) :
    Serves side routes byteLimit.toNat bridge := by
  obtain ⟨parse, files, ros, path, queueLimit, initial, loaded, created, reached⟩ := running
  obtain ⟨opened, limit⟩ := create_opened loaded (loadConfig_accepted loaded) created
  exact reached.invariant act_serves ⟨opened, limit⟩

structure Carries (routes : List Route) (side other : ByteString) (limit : Nat)
    (source destination : Bridge) : Prop where
  /-- The callback of a route builds its frame. -/
  built : ∀ route ∈ routes, isOutgoing side route = true →
    ⟨sideTopic side route, route.type, route.qos, route.key⟩ ∈ source.subscriptions ∧
    ∀ payload, payload.length ≤ limit → source.outgoing.length < source.queueLimit →
      (callback route.key payload).run source =
        .ok () { source with outgoing := source.outgoing ++ [frame route.key payload] }
  /-- The other side publishes the payload on the publisher of the route and nowhere else. -/
  delivered : ∀ route ∈ routes, isOutgoing side route = true → ∀ payload, 4 ≤ payload.length →
    payload.length ≤ limit →
      (submit (frame route.key payload)).run destination =
        .ok () { destination.publish route.key payload with
          received := destination.received + 1 } ∧
      (route.key, sideTopic other route, route.type, route.qos) ∈ destination.endpoints
  unique : (destination.publishers.map Prod.fst).Nodup
  /-- The side that built a frame rejects it. -/
  returned : ∀ route ∈ routes, isOutgoing side route = true → ∀ payload, ∃ what,
    (submit (frame route.key payload)).run source = .error what source
  accepts : ∀ bytes, (∃ after, (submit bytes).run destination = .ok () after) ↔
    ∃ route ∈ routes, isOutgoing other route = false ∧ ∃ payload : ByteString,
      4 ≤ payload.length ∧ payload.length ≤ limit ∧ bytes = frame route.key payload
  unchanged : ∀ bytes what after, (submit bytes).run destination = .error what after →
    after = destination

theorem frame_injective {key other payload rest : ByteString} (short : key.length ≤ maxKey)
    (brief : other.length ≤ maxKey) (same : frame key payload = frame other rest) :
    key = other ∧ payload = rest := by
  have first := frame_parts short payload
  have second := frame_parts brief rest
  rw [same] at first
  have lengths : key.length = other.length := first.2.2.1.symm.trans second.2.2.1
  exact List.append_inj (first.2.2.2.symm.trans second.2.2.2) lengths

def Opposite (side other : ByteString) : Prop :=
  ∀ route, isOutgoing side route = !isOutgoing other route

theorem Serves.carries {side other : ByteString} {limit : Nat} {source destination : Bridge}
    (accepted : Accepted routes) (opposite : Opposite side other)
    (sends : Serves side routes limit source) (receives : Serves other routes limit destination) :
    Carries routes side other limit source destination where
  built route member outgoing := by
    constructor
    · rw [sends.opened.subscriptions]
      exact List.mem_map.mpr ⟨route, List.mem_filter.mpr ⟨member, outgoing⟩, rfl⟩
    · intro payload within room
      rw [← sends.limit] at within
      exact callback_run within room
  delivered route member outgoing payload low high := by
    have incoming : isOutgoing other route = false := by simpa [outgoing] using opposite route
    have known := (receives.opened.knows route.key).mpr ⟨route, member, incoming, rfl⟩
    rw [← receives.limit] at high
    refine ⟨submit_frame (accepted.sound route member).short known low high, ?_⟩
    rw [receives.opened.publishers]
    exact List.mem_map.mpr ⟨route, List.mem_filter.mpr ⟨member, by simp [incoming]⟩, rfl⟩
  unique := by
    have keys : destination.publishers.map Prod.fst =
        (routes.filter fun route => !isOutgoing other route).map Route.key := by
      have listed := congrArg (List.map Prod.fst) receives.opened.publishers
      rw [endpoints, incomingEndpoints, List.map_map, List.map_map] at listed
      exact listed
    rw [keys]
    exact accepted.keys.sublist (List.filter_sublist.map _)
  returned route member outgoing payload := by
    apply submit_refused
    rintro ⟨key, rest, short, known, -, -, same⟩
    obtain ⟨rfl, -⟩ := frame_injective (accepted.sound route member).short short same
    obtain ⟨twin, found, incoming, key⟩ := (sends.opened.knows _).mp known
    have equal : twin = route := List.inj_on_of_nodup_map accepted.keys found member key
    rw [equal, outgoing] at incoming
    cases incoming
  accepts bytes := by
    constructor
    · rintro ⟨after, done⟩
      by_cases accepts : destination.Accepts bytes
      · obtain ⟨key, payload, -, known, low, high, same⟩ := accepts
        obtain ⟨route, member, incoming, rfl⟩ := (receives.opened.knows key).mp known
        exact ⟨route, member, incoming, payload, low, receives.limit ▸ high, same⟩
      · obtain ⟨what, refused⟩ := submit_refused accepts
        rw [refused] at done
        cases done
    · rintro ⟨route, member, incoming, payload, low, high, rfl⟩
      have known := (receives.opened.knows route.key).mpr ⟨route, member, incoming, rfl⟩
      rw [← receives.limit] at high
      exact ⟨_, submit_frame (accepted.sound route member).short known low high⟩
  unchanged bytes what after refused := by
    by_cases accepts : destination.Accepts bytes
    · obtain ⟨next, done⟩ := submit_accepted accepts
      rw [done] at refused
      cases refused
    · obtain ⟨text, same⟩ := submit_refused accepts
      rw [same] at refused
      cases refused
      rfl

theorem opposite_sides : Opposite (literal "host") (literal "guest") := by
  intro route
  have differ : (literal "guest" == literal "host") = false := by decide
  rw [isOutgoing, isOutgoing, differ, beq_self_eq_true]
  cases route.direction == literal "host_to_guest" <;> rfl

def sampleRoot : Value :=
  .object [(literal "version", .int 1), (literal "topics", .array [
    .object [(literal "host_topic", .text (literal "/a")),
      (literal "guest_topic", .text (literal "/b")), (literal "type", .text (literal "t")),
      (literal "direction", .text (literal "host_to_guest")),
      (literal "qos", .object [(literal "history", .text (literal "keep_last")),
        (literal "depth", .int 1), (literal "reliability", .text (literal "reliable")),
        (literal "durability", .text (literal "volatile"))])]])]

def sampleRoute : Route where
  hostTopic := literal "/a"
  guestTopic := literal "/b"
  type := literal "t"
  direction := literal "host_to_guest"
  qos := ⟨1, .reliable, .volatile⟩
  key := routeKey [literal "/a", literal "/b", literal "t", literal "host_to_guest",
    literal "keep_last", Base.Netstring.digits 1, literal "reliable", literal "volatile"]

/-- It gives a node on either side, with all limits the constructor accepts. -/
theorem running_sample (known : side = literal "host" ∨ side = literal "guest")
    (byteLimit queueLimit : Int) (bytes : 4 ≤ byteLimit ∧ byteLimit ≤ 67106808)
    (messages : 1 ≤ queueLimit ∧ queueLimit ≤ 1000000) :
    ∃ bridge, Running side [sampleRoute] byteLimit bridge ∧ bridge.outgoing = [] ∧
      bridge.received = 0 ∧ bridge.byteLimit = byteLimit.toNat ∧
      bridge.queueLimit = queueLimit.toNat := by
  let ros : Rclcpp := ⟨id, fun _ _ _ => .ok ()⟩
  have limits : ¬(byteLimit < 4 ∨ byteLimit > maxByteLimit ∨ queueLimit < 1 ∨
      queueLimit > maxQueueLimit) := by
    simp only [maxByteLimit, maxQueueLimit]
    omega
  have created : ∃ bridge, create ros (fun _ => .ok [sampleRoute]) side [1] byteLimit queueLimit =
      .ok bridge ∧ bridge.outgoing = [] ∧ bridge.received = 0 ∧
      bridge.byteLimit = byteLimit.toNat ∧ bridge.queueLimit = queueLimit.toNat := by
    rcases known with rfl | rfl
    · rw [create, if_neg (by decide), if_neg (by decide), if_neg limits]
      exact ⟨_, rfl, rfl, rfl, rfl, rfl⟩
    · rw [create, if_neg (by decide), if_neg (by decide), if_neg limits]
      exact ⟨_, rfl, rfl, rfl, rfl, rfl⟩
  obtain ⟨bridge, created, rest⟩ := created
  exact ⟨bridge, ⟨fun _ => some sampleRoot, fun _ => some [1], ros, [1], queueLimit, bridge, rfl,
    created, [], rfl⟩, rest⟩

end Bridge

end Chimaera.Ros
