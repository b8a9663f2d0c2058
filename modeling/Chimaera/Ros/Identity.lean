import Chimaera.Ros.Routing

/-! The identity of a route. Its key is read back part by part, so two loaded routes share a
key only where they agree in every part; the history is `keep_last` in all of them. One side
of a node then has a publisher for each route it receives on, and its topics are apart. -/

namespace Chimaera.Ros
open Base.BigEndian Base.Unsigned Control

theorem Reliability.name_injective : ∀ {first second : Reliability},
    first.name = second.name → first = second := by
  intro first second
  cases first <;> cases second <;> decide

theorem Durability.name_injective : ∀ {first second : Durability},
    first.name = second.name → first = second := by
  intro first second
  cases first <;> cases second <;> decide

structure Route.Same (first second : Route) : Prop where
  hostTopic : first.hostTopic = second.hostTopic
  guestTopic : first.guestTopic = second.guestTopic
  type : first.type = second.type
  direction : first.direction = second.direction
  depth : first.qos.depth = second.qos.depth
  reliability : first.qos.reliability = second.qos.reliability
  durability : first.qos.durability = second.qos.durability

theorem Route.parts_eq_iff {first second : Route} :
    first.parts = second.parts ↔ first.Same second := by
  constructor
  · intro same
    simp only [parts, QoS.parts, List.cons_append, List.nil_append, List.cons.injEq] at same
    obtain ⟨host, guest, type, direction, -, depth, reliability, durability, -⟩ := same
    exact ⟨host, guest, type, direction, Base.Netstring.digits_injective depth,
      Reliability.name_injective reliability, Durability.name_injective durability⟩
  · intro same
    rw [parts, parts, QoS.parts, QoS.parts, same.hostTopic, same.guestTopic, same.type,
      same.direction, same.depth, same.reliability, same.durability]

def Loadable (route : Route) : Prop :=
  ∃ parse path file routes, loadConfig parse path file = .ok routes ∧ route ∈ routes

theorem Loadable.key_eq {route : Route} (loadable : Loadable route) :
    route.key = routeKey route.parts := by
  obtain ⟨parse, path, file, routes, loaded, member⟩ := loadable
  exact ((loadConfig_ok loaded).1 route member).2

theorem Loadable.short {route : Route} (loadable : Loadable route) :
    route.key.length ≤ maxKey := by
  obtain ⟨parse, path, file, routes, loaded, member⟩ := loadable
  exact ((loadConfig_ok loaded).1 route member).1.short

namespace Bridge

/-- The header of a frame with a key of this length is not what `submit` refuses. -/
theorem submit_header {key : ByteString} (short : key.length ≤ maxKey) (payload : ByteString)
    (bridge : Bridge) :
    (submit (frame key payload)).run bridge ≠
      .error (literal "invalid bridge route header length") bridge := by
  obtain ⟨long, version, header, body⟩ := frame_parts short payload
  have rest : (frame key payload).length - 8 = key.length + payload.length := by
    rw [← List.length_drop, body, List.length_append]
  have limit : key.length ≤ 2048 := short
  simp only [submit, version, header, body, List.take_left, rest, ne_eq, not_true_eq_false,
    or_false, if_neg (Nat.not_lt.mpr long)]
  rw [if_neg (by omega)]
  simp only [EStateM.run_bind, EStateM.run_get]
  split_ifs with unknown
  · intro refused
    exact absurd (EStateM.Result.error.inj refused).1 (by decide)
  · simp only [EStateM.run_bind, EStateM.run_get]
    split_ifs with size
    · intro refused
      exact absurd (EStateM.Result.error.inj refused).1 (by decide)
    · intro refused
      cases refused

variable {routes : List Route}

theorem resolveTopics_ok {ros : Rclcpp} {side : ByteString} {resolved : List ByteString}
    (apart : resolved.Nodup) (checked : resolveTopics ros side routes resolved = .ok ()) :
    (resolved ++ routes.map fun route => ros.resolve (sideTopic side route)).Nodup := by
  induction routes generalizing resolved with
  | nil => simpa using apart
  | cons route rest ih =>
    rw [resolveTopics_cons] at checked
    split_ifs at checked with repeated
    have more := List.Nodup.concat repeated apart
    rw [List.concat_eq_append] at more
    rw [List.map_cons, List.append_cons]
    exact ih more checked

theorem sideTopics_nodup (distinct : Distinct [] [] routes)
    (side : ByteString) : (routes.map (sideTopic side)).Nodup := by
  by_cases host : side = literal "host"
  · have topics : sideTopic side = Route.hostTopic := funext fun _ => if_pos host
    rw [topics]
    exact distinct.hosts
  · have topics : sideTopic side = Route.guestTopic := funext fun _ => if_neg host
    rw [topics]
    exact distinct.guests

theorem create_ok {ros : Rclcpp} {load : ByteString → Except ByteString (List Route)}
    {side path : ByteString} {byteLimit queueLimit : Int} {bridge : Bridge}
    (loaded : load path = .ok routes)
    (created : create ros load side path byteLimit queueLimit = .ok bridge) :
    resolveTopics ros side routes [] = .ok () := by
  unfold create at created
  split_ifs at created
  rw [loaded, ok_bind] at created
  obtain ⟨_, checked, -⟩ := bind_eq_ok.mp created
  exact checked

/-- No route is both sent and received on, so no topic is subscribed to and published. -/
theorem Opened.topics_apart {ros : Rclcpp} {side : ByteString} {bridge : Bridge}
    (opened : Opened side routes bridge)
    (apart : (routes.map fun route => ros.resolve (sideTopic side route)).Nodup)
    {subscription : Subscription} (subscribed : subscription ∈ bridge.subscriptions)
    {key : ByteString} {publisher : Publisher} (published : (key, publisher) ∈ bridge.publishers) :
    ros.resolve subscription.topic ≠ ros.resolve publisher.topic := by
  rw [opened.subscriptions] at subscribed
  obtain ⟨sent, outgoing, rfl⟩ := List.mem_map.mp subscribed
  have listed : (key, publisher.topic, publisher.type, publisher.qos) ∈ bridge.endpoints :=
    List.mem_map_of_mem published
  rw [opened.publishers] at listed
  obtain ⟨received, incoming, same⟩ := List.mem_map.mp listed
  obtain ⟨sentMember, sends⟩ := List.mem_filter.mp outgoing
  obtain ⟨receivedMember, receives⟩ := List.mem_filter.mp incoming
  have topic : sideTopic side received = publisher.topic := (Prod.mk.inj (Prod.mk.inj same).2).1
  intro equal
  rw [← topic] at equal
  have one := List.inj_on_of_nodup_map apart sentMember receivedMember equal
  rw [one, Bool.eq_false_of_not_eq_true' receives] at sends
  cases sends

end Bridge

/-- A key stands for its route: keys of loaded routes agree exactly where all fields do. In one
configuration they are apart, every publisher is kept, no side subscribes to a topic it
publishes, and no key is too long for the header check of the receiver. -/
theorem route_identity_unambiguous :
    (∀ first second, Loadable first → Loadable second →
      (first.key = second.key ↔ first.Same second)) ∧
    (∀ parse (files : ByteString → Option ByteString) path routes,
      loadConfig parse path (files path) = .ok routes →
      (routes.map Route.key).Nodup ∧ (∀ side, (routes.map (Bridge.sideTopic side)).Nodup) ∧
      ∀ ros side byteLimit queueLimit bridge,
        Bridge.create ros (fun path => loadConfig parse path (files path)) side path byteLimit
          queueLimit = .ok bridge →
        bridge.endpoints = Bridge.incomingEndpoints side routes ∧
        ∀ subscription ∈ bridge.subscriptions, ∀ entry ∈ bridge.publishers,
          subscription.topic ≠ entry.2.topic ∧
          ros.resolve subscription.topic ≠ ros.resolve entry.2.topic) ∧
    ∀ route, Loadable route → route.key.length ≤ 2048 ∧ ∀ payload bridge,
      (Bridge.submit (Bridge.frame route.key payload)).run bridge ≠
        .error (literal "invalid bridge route header length") bridge := by
  refine ⟨?_, ?_, ?_⟩
  · intro first second loadable other
    rw [loadable.key_eq, other.key_eq, ← Route.parts_eq_iff]
    exact ⟨Base.Netstring.flatMap_field_injective, congrArg routeKey⟩
  · intro parse files path routes loaded
    have accepted := loadConfig_accepted loaded
    refine ⟨accepted.keys, Bridge.sideTopics_nodup (loadConfig_ok loaded).2, ?_⟩
    intro ros side byteLimit queueLimit bridge created
    obtain ⟨opened, -⟩ := Bridge.create_opened loaded accepted created
    refine ⟨opened.publishers, ?_⟩
    intro subscription subscribed entry published
    have apart := Bridge.resolveTopics_ok List.nodup_nil (Bridge.create_ok loaded created)
    have resolved := opened.topics_apart apart subscribed published
    exact ⟨fun same => resolved (congrArg ros.resolve same), resolved⟩
  · intro route loadable
    exact ⟨loadable.short, Bridge.submit_header loadable.short⟩

def entryOf (host guest direction : String) : Value :=
  .object [(literal "host_topic", .text (literal host)),
    (literal "guest_topic", .text (literal guest)), (literal "type", .text (literal "t")),
    (literal "direction", .text (literal direction)),
    (literal "qos", .object [(literal "history", .text (literal "keep_last")),
      (literal "depth", .int 1), (literal "reliability", .text (literal "reliable")),
      (literal "durability", .text (literal "volatile"))])]

def routeOf (host guest direction : String) : Route where
  hostTopic := literal host
  guestTopic := literal guest
  type := literal "t"
  direction := literal direction
  qos := ⟨1, .reliable, .volatile⟩
  key := routeKey [literal host, literal guest, literal "t", literal direction,
    literal "keep_last", Base.Netstring.digits 1, literal "reliable", literal "volatile"]

def pairRoot : Value :=
  .object [(literal "version", .int 1), (literal "topics", .array
    [entryOf "/a1" "/1b" "host_to_guest", entryOf "/a" "/11b" "guest_to_host"])]

def pairRoutes : List Route :=
  [routeOf "/a1" "/1b" "host_to_guest", routeOf "/a" "/11b" "guest_to_host"]

theorem route_identity_pair :
    ∃ bridge, Bridge.create ⟨id, fun _ _ _ => .ok ()⟩
        (fun path => loadConfig (fun _ => some pairRoot) path (some [1])) (literal "host") [1] 4096
        128 = .ok bridge ∧
      bridge.subscriptions.length = 1 ∧ bridge.publishers.length = 1 ∧
      (pairRoutes.map Route.key).Nodup ∧
      bridge.endpoints = Bridge.incomingEndpoints (literal "host") pairRoutes ∧
      (∀ subscription ∈ bridge.subscriptions, ∀ entry ∈ bridge.publishers,
        subscription.topic ≠ entry.2.topic) ∧
      ∀ first ∈ pairRoutes, ∀ second ∈ pairRoutes, first.key = second.key ↔ first.Same second := by
  obtain ⟨keys, files, -⟩ := route_identity_unambiguous
  have loaded : loadConfig (fun _ => some pairRoot) [1] (some [1]) = .ok pairRoutes := rfl
  have loadable : ∀ route ∈ pairRoutes, Loadable route := fun route member =>
    ⟨_, _, _, _, loaded, member⟩
  obtain ⟨apart, -, built⟩ := files (fun _ => some pairRoot) (fun _ => some [1]) [1] _ loaded
  have created : ∃ bridge, Bridge.create ⟨id, fun _ _ _ => .ok ()⟩
      (fun path => loadConfig (fun _ => some pairRoot) path (some [1])) (literal "host") [1] 4096
      128 = .ok bridge ∧ bridge.subscriptions.length = 1 ∧ bridge.publishers.length = 1 :=
    ⟨_, rfl, rfl, rfl⟩
  obtain ⟨bridge, created, sends, receives⟩ := created
  obtain ⟨endpoints, topics⟩ := built _ _ _ _ bridge created
  exact ⟨bridge, created, sends, receives, apart, endpoints,
    fun subscription subscribed entry published => (topics subscription subscribed entry published).1,
    fun first one second other => keys first second (loadable first one) (loadable second other)⟩

end Chimaera.Ros
