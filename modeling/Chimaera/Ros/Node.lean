import Chimaera.Base.Calls
import Chimaera.Control.Queues
import Chimaera.Ros.Config

/-! The `Bridge` node: its constructor, the callback of a subscription, and the two ends of
its queue. Topic names are resolved and endpoints created by rclcpp. A publisher keeps what
was published on it. Methods are written as they change the node, so that a throw leaves
what was done before it. -/

namespace Chimaera.Ros
open Base.BigEndian Base.Calls Control

structure Rclcpp where
  resolve : ByteString → ByteString
  endpoint : ByteString → ByteString → QoS → Except ByteString Unit

structure Subscription where
  topic : ByteString
  type : ByteString
  qos : QoS
  key : ByteString
  deriving DecidableEq, Repr

structure Publisher where
  topic : ByteString
  type : ByteString
  qos : QoS
  published : List ByteString := []
  deriving DecidableEq, Repr

structure Bridge where
  byteLimit : Nat
  queueLimit : Nat
  outgoing : List Message := []
  transmitted : Nat := 0
  received : Nat := 0
  publishers : List (ByteString × Publisher) := []
  subscriptions : List Subscription := []
  deriving DecidableEq, Repr

namespace Bridge

def maxByteLimit : Int := 64 * 1024 * 1024 - 2056

def maxQueueLimit : Int := 1000000

def sideTopic (side : ByteString) (route : Route) : ByteString :=
  if side = literal "host" then route.hostTopic else route.guestTopic

def isOutgoing (side : ByteString) (route : Route) : Bool :=
  (side == literal "host") == (route.direction == literal "host_to_guest")

def resolveTopics (ros : Rclcpp) (side : ByteString) :
    List Route → List ByteString → Except ByteString Unit
  | [], _ => .ok ()
  | route :: rest, resolved =>
      let topic := ros.resolve (sideTopic side route)
      if topic ∈ resolved then .error (literal "remapped bridge topics overlap: " ++ topic)
      else resolveTopics ros side rest (resolved ++ [topic])

theorem resolveTopics_cons (ros : Rclcpp) (side : ByteString) (route : Route) (rest : List Route)
    (resolved : List ByteString) :
    resolveTopics ros side (route :: rest) resolved =
      if ros.resolve (sideTopic side route) ∈ resolved then
        .error (literal "remapped bridge topics overlap: " ++ ros.resolve (sideTopic side route))
      else resolveTopics ros side rest (resolved ++ [ros.resolve (sideTopic side route)]) := rfl

/-- `emplace` keeps an entry that is there. -/
def emplace (publishers : List (ByteString × Publisher)) (key : ByteString)
    (publisher : Publisher) : List (ByteString × Publisher) :=
  if publishers.any fun entry => entry.1 == key then publishers
  else publishers ++ [(key, publisher)]

def connectRoute (ros : Rclcpp) (side : ByteString) (bridge : Bridge) (route : Route) :
    Except ByteString Bridge := do
  let topic := sideTopic side route
  ros.endpoint topic route.type route.qos
  if isOutgoing side route then
    .ok { bridge with
      subscriptions := bridge.subscriptions ++ [⟨topic, route.type, route.qos, route.key⟩] }
  else
    .ok { bridge with
      publishers := emplace bridge.publishers route.key
        { topic := topic, type := route.type, qos := route.qos } }

def connectRoutes (ros : Rclcpp) (side : ByteString) :
    Bridge → List Route → Except ByteString Bridge
  | bridge, [] => .ok bridge
  | bridge, route :: rest => do
      let bridge ← connectRoute ros side bridge route
      connectRoutes ros side bridge rest

def create (ros : Rclcpp) (load : ByteString → Except ByteString (List Route)) (side : ByteString)
    (path : ByteString) (byteLimit queueLimit : Int) : Except ByteString Bridge :=
  if side ≠ literal "host" ∧ side ≠ literal "guest" then .error (literal "invalid bridge side")
  else if path = [] then .error (literal "config_file is required")
  else if byteLimit < 4 ∨ byteLimit > maxByteLimit ∨ queueLimit < 1 ∨ queueLimit > maxQueueLimit then
    .error (literal "invalid serialized byte or pending message limit")
  else do
    let routes ← load path
    resolveTopics ros side routes []
    connectRoutes ros side { byteLimit := byteLimit.toNat, queueLimit := queueLimit.toNat } routes

/-- A transport frame: version, length of the key, key and serialized message. -/
def frame (key payload : ByteString) : Message :=
  let length := key.length % 0x100000000
  literal "CBR1" ++ [24, 16, 8, 0].map (fun shift => UInt8.ofNat (length >>> shift)) ++ key ++ payload

def callback (key payload : ByteString) : EStateM ByteString Bridge Unit := do
  if payload.length > (← get).byteLimit then
    throw (literal "bridge outgoing queue or serialized message limit exceeded")
  else
    let bytes := frame key payload
    if (← get).outgoing.length ≥ (← get).queueLimit then
      throw (literal "bridge outgoing queue or serialized message limit exceeded")
    else modify fun bridge => { bridge with outgoing := bridge.outgoing ++ [bytes] }

def take (bridge : Bridge) : Option Message × Bridge :=
  match bridge.outgoing with
  | [] => (none, bridge)
  | bytes :: rest =>
      (some bytes, { bridge with outgoing := rest, transmitted := bridge.transmitted + 1 })

def publish (bridge : Bridge) (key payload : ByteString) : Bridge :=
  { bridge with
    publishers := bridge.publishers.map fun (name, publisher) =>
      if name = key then
        (name, { publisher with published := publisher.published ++ [payload] })
      else (name, publisher) }

def decodeLength (bytes : List Byte) : Nat :=
  bytes.foldl (fun length byte => ((length <<< 8) % 0x100000000) ||| byte.toNat) 0

def submit (bytes : Message) : EStateM ByteString Bridge Unit := do
  if bytes.length < 8 ∨ bytes.take 4 ≠ literal "CBR1" then
    throw (literal "invalid bridge frame/version")
  else
    let length := decodeLength ((bytes.drop 4).take 4)
    if length > 2048 ∨ length > bytes.length - 8 then
      throw (literal "invalid bridge route header length")
    else
      let key := (bytes.drop 8).take length
      if !(← get).publishers.any fun entry => entry.1 == key then
        throw (literal "unknown incoming route/direction or mismatched bridge configuration")
      else
        let size := bytes.length - 8 - length
        if size < 4 ∨ size > (← get).byteLimit then
          throw (literal "invalid incoming serialized message size")
        else
          modify fun bridge => bridge.publish key (bytes.drop (8 + length))
          modify fun bridge => { bridge with received := bridge.received + 1 }

/-! ## Frames -/

theorem length_magic : (literal "CBR1").length = 4 := by decide

theorem frame_eq {key : ByteString} (short : key.length ≤ maxKey) (payload : ByteString) :
    frame key payload = literal "CBR1" ++ (write 4 key.length ++ (key ++ payload)) := by
  have small : key.length % 0x100000000 = key.length :=
    Nat.mod_eq_of_lt (lt_of_le_of_lt short (by decide))
  have header : [24, 16, 8, 0].map (fun shift => UInt8.ofNat (key.length >>> shift)) =
      write 4 key.length := by
    simp only [List.map_cons, List.map_nil, write, Nat.shiftRight_eq_div_pow]
    rfl
  rw [frame, small, header, List.append_assoc, List.append_assoc]

theorem decodeLength_eq {bytes : List Byte} (four : bytes.length = 4) :
    decodeLength bytes = read bytes :=
  foldl_shift_word (by decide) bytes four.le

/-- The parts of a frame, as `submit` cuts them. -/
theorem frame_parts {key : ByteString} (short : key.length ≤ maxKey) (payload : ByteString) :
    8 ≤ (frame key payload).length ∧ (frame key payload).take 4 = literal "CBR1" ∧
      decodeLength (((frame key payload).drop 4).take 4) = key.length ∧
      (frame key payload).drop 8 = key ++ payload := by
  have small : key.length < 256 ^ 4 := lt_of_le_of_lt short (by decide)
  have front : (frame key payload).drop 4 = write 4 key.length ++ (key ++ payload) := by
    rw [frame_eq short, List.drop_left' length_magic]
  refine ⟨?_, ?_, ?_, ?_⟩
  · simp only [frame_eq short, List.length_append, length_magic, write_length]
    omega
  · rw [frame_eq short, List.take_left' length_magic]
  · rw [front, List.take_left' (write_length 4 _), decodeLength_eq (write_length 4 _),
      read_write_of_lt small]
  · rw [show 8 = 4 + 4 from rfl, ← List.drop_drop, front, List.drop_left' (write_length 4 _)]

theorem frame_of_header {bytes : Message} (long : 8 ≤ bytes.length)
    (version : bytes.take 4 = literal "CBR1") (within : decodeLength ((bytes.drop 4).take 4) ≤ 2048)
    (inside : decodeLength ((bytes.drop 4).take 4) ≤ bytes.length - 8) :
    ((bytes.drop 8).take (decodeLength ((bytes.drop 4).take 4))).length =
        decodeLength ((bytes.drop 4).take 4) ∧
      bytes = frame ((bytes.drop 8).take (decodeLength ((bytes.drop 4).take 4)))
        (bytes.drop (8 + decodeLength ((bytes.drop 4).take 4))) := by
  have four : ((bytes.drop 4).take 4).length = 4 := by
    rw [List.length_take, List.length_drop]
    omega
  generalize known : decodeLength ((bytes.drop 4).take 4) = length at within inside ⊢
  have size : ((bytes.drop 8).take length).length = length := by
    rw [List.length_take, List.length_drop]
    omega
  have header : write 4 length = (bytes.drop 4).take 4 := by
    rw [← known, decodeLength_eq four]
    nth_rewrite 1 [← four]
    exact write_read _
  have second : bytes.drop 8 = (bytes.drop 4).drop 4 := by rw [List.drop_drop]
  have third : bytes.drop (8 + length) = (bytes.drop 8).drop length := by rw [List.drop_drop]
  refine ⟨size, ?_⟩
  rw [frame_eq (le_of_eq_of_le size within), size, header, ← version, third,
    List.take_append_drop, second, List.take_append_drop, List.take_append_drop]

/-! ## The methods in closed form -/

variable {bridge : Bridge}

variable {key payload : ByteString}

theorem callback_run (within : payload.length ≤ bridge.byteLimit)
    (room : bridge.outgoing.length < bridge.queueLimit) :
    (callback key payload).run bridge =
      .ok () { bridge with outgoing := bridge.outgoing ++ [frame key payload] } := by
  simp only [callback, EStateM.run_bind, EStateM.run_get, if_neg (Nat.not_lt.mpr within),
    if_neg (Nat.not_le.mpr room)]
  rfl

theorem callback_refused
    (excess : bridge.byteLimit < payload.length ∨ bridge.queueLimit ≤ bridge.outgoing.length) :
    (callback key payload).run bridge =
      .error (literal "bridge outgoing queue or serialized message limit exceeded") bridge := by
  by_cases large : bridge.byteLimit < payload.length
  · simp only [callback, EStateM.run_bind, EStateM.run_get, gt_iff_lt, if_pos large]
    rfl
  · have full := excess.resolve_left large
    simp only [callback, EStateM.run_bind, EStateM.run_get, gt_iff_lt, if_neg large, ge_iff_le,
      if_pos full]
    rfl

def Knows (bridge : Bridge) (key : ByteString) : Prop := key ∈ bridge.publishers.map Prod.fst

theorem knows_iff (bridge : Bridge) (key : ByteString) :
    (bridge.publishers.any fun entry => entry.1 == key) = true ↔ bridge.Knows key := by
  simp [Knows]

theorem submit_frame (short : key.length ≤ maxKey)
    (known : bridge.Knows key) (low : 4 ≤ payload.length)
    (high : payload.length ≤ bridge.byteLimit) :
    (submit (frame key payload)).run bridge =
      .ok () { bridge.publish key payload with received := bridge.received + 1 } := by
  obtain ⟨long, version, header, body⟩ := frame_parts short payload
  have rest : (frame key payload).length - 8 = key.length + payload.length := by
    rw [← List.length_drop, body, List.length_append]
  have tail : (frame key payload).drop (8 + key.length) = payload := by
    rw [← List.drop_drop, body, List.drop_left]
  have found := (knows_iff bridge key).mpr known
  have limit : key.length ≤ 2048 := short
  simp only [submit, version, header, body, List.take_left, rest, tail, ne_eq, not_true_eq_false,
    or_false, if_neg (Nat.not_lt.mpr long)]
  rw [if_neg (by omega)]
  simp only [EStateM.run_bind, EStateM.run_get, found, Bool.not_true, Bool.false_eq_true, if_false,
    Nat.add_sub_cancel_left]
  rw [if_neg (by omega)]
  rfl

def Accepts (bridge : Bridge) (bytes : Message) : Prop :=
  ∃ key payload, key.length ≤ maxKey ∧ bridge.Knows key ∧ 4 ≤ payload.length ∧
    payload.length ≤ bridge.byteLimit ∧ bytes = frame key payload

theorem submit_accepted {bytes : Message} (accepts : bridge.Accepts bytes) :
    ∃ after, (submit bytes).run bridge = .ok () after := by
  obtain ⟨key, payload, short, known, low, high, rfl⟩ := accepts
  exact ⟨_, submit_frame short known low high⟩

theorem submit_refused {bytes : Message} (refuses : ¬bridge.Accepts bytes) :
    ∃ what, (submit bytes).run bridge = .error what bridge := by
  by_cases malformed : bytes.length < 8 ∨ bytes.take 4 ≠ literal "CBR1"
  · rw [submit, if_pos malformed]
    exact ⟨_, rfl⟩
  obtain ⟨long, version⟩ := not_or.mp malformed
  generalize known : decodeLength ((bytes.drop 4).take 4) = length
  by_cases outside : length > 2048 ∨ length > bytes.length - 8
  · simp only [submit, if_neg malformed, known, if_pos outside]
    exact ⟨_, rfl⟩
  obtain ⟨within, inside⟩ := not_or.mp outside
  obtain ⟨size, whole⟩ := frame_of_header (Nat.le_of_not_lt long) (not_not.mp version)
    (known ▸ Nat.le_of_not_lt within) (known ▸ Nat.le_of_not_lt inside)
  rw [known] at size whole
  simp only [submit, if_neg malformed, known, if_neg outside, EStateM.run_bind, EStateM.run_get]
  by_cases found : bridge.Knows ((bytes.drop 8).take length)
  · have present := (knows_iff _ _).mpr found
    simp only [present, Bool.not_true, Bool.false_eq_true, if_false, EStateM.run_bind,
      EStateM.run_get]
    by_cases bad : bytes.length - 8 - length < 4 ∨ bytes.length - 8 - length > bridge.byteLimit
    · rw [if_pos bad]
      exact ⟨_, rfl⟩
    · exfalso
      apply refuses
      have cut : (bytes.drop (8 + length)).length = bytes.length - 8 - length := by
        rw [List.length_drop]
        omega
      obtain ⟨low, high⟩ := not_or.mp bad
      refine ⟨_, _, size.trans_le (Nat.le_of_not_lt within), found, ?_, ?_, whole⟩
      · rw [cut]; exact Nat.le_of_not_lt low
      · rw [cut]; exact Nat.le_of_not_lt high
  · have absent : (bridge.publishers.any fun entry =>
        entry.1 == (bytes.drop 8).take length) = false := by
      rw [Bool.eq_false_iff]
      exact fun present => found ((knows_iff _ _).mp present)
    simp only [absent, Bool.not_false, if_true]
    exact ⟨_, rfl⟩

end Bridge

end Chimaera.Ros
