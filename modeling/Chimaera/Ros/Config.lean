import Mathlib.Data.List.Nodup
import Chimaera.Base.Netstring

/-! The route configuration of the bridge: `load_config` with its checks in their order.
Text is bytes, as in `std::string`. The JSON parser and the file are outside; a value is what
json-c hands out, an object with each name once. -/

namespace Chimaera.Ros
open Base.BigEndian Base.Text Base.Unsigned

abbrev ByteString := List Byte

def literal (source : String) : ByteString := Base.Netstring.ascii (text source)

inductive Kind where
  | null
  | boolean
  | double
  | int
  | object
  | array
  | string
  deriving DecidableEq, Repr

/-- A JSON value; the fraction of a double is of no use to the configuration. -/
inductive Value where
  | null
  | boolean (value : Bool)
  | double
  | int (value : Int)
  | object (entries : List (ByteString × Value))
  | array (items : List Value)
  | text (value : ByteString)

def Value.kind : Value → Kind
  | .null => .null
  | .boolean _ => .boolean
  | .double => .double
  | .int _ => .int
  | .object _ => .object
  | .array _ => .array
  | .text _ => .string

def Value.int64 : Value → Int
  | .int value => max (-9223372036854775808) (min value 9223372036854775807)
  | _ => 0

def Value.bytes : Value → ByteString
  | .text value => value
  | _ => []

def Value.items : Value → List Value
  | .array items => items
  | _ => []

def Value.fields (object : Value) (allowed : List String) : Except ByteString Unit :=
  match object with
  | .object entries =>
      match entries.find? fun entry => !(allowed.map literal).contains entry.1 with
      | some entry => .error (literal "unsupported configuration/QoS field: " ++ entry.1)
      | none => .ok ()
  | _ => .error (literal "configuration entry must be an object")

def Value.field (object : Value) (name : String) (kind : Kind) : Except ByteString Value :=
  let refused : Except ByteString Value := .error (literal "missing or invalid field: " ++ literal name)
  match object with
  | .object entries =>
      match entries.lookup (literal name) with
      | some value => if value.kind = kind then .ok value else refused
      | none => refused
  | _ => refused

def Value.string (object : Value) (name : String) : Except ByteString ByteString := do
  let value ← object.field name .string
  let result := value.bytes
  if result = [] ∨ result.length > 256 ∨ 0 ∈ result then
    .error (literal "invalid string: " ++ literal name)
  else .ok result

inductive Reliability where
  | reliable
  | bestEffort
  deriving DecidableEq, Repr

inductive Durability where
  | volatile
  | transientLocal
  deriving DecidableEq, Repr

/-- The history is always `keep_last`. -/
structure QoS where
  depth : Nat
  reliability : Reliability
  durability : Durability
  deriving DecidableEq, Repr

structure Route where
  hostTopic : ByteString
  guestTopic : ByteString
  type : ByteString
  direction : ByteString
  key : ByteString
  qos : QoS
  deriving DecidableEq, Repr

def reliability (name : ByteString) : Except ByteString Reliability :=
  if name = literal "reliable" then .ok .reliable
  else if name = literal "best_effort" then .ok .bestEffort
  else .error (literal "reliability must be reliable or best_effort")

def durability (name : ByteString) : Except ByteString Durability :=
  if name = literal "volatile" then .ok .volatile
  else if name = literal "transient_local" then .ok .transientLocal
  else .error (literal "durability must be volatile or transient_local")

/-- The wire identity of a route: every part with its length in front. -/
def routeKey (parts : List ByteString) : ByteString := parts.flatMap Base.Netstring.field

def qosOf (entry : Value) : Except ByteString (QoS × List ByteString) := do
  let qos ← entry.field "qos" .object
  qos.fields ["history", "depth", "reliability", "durability"]
  let history ← qos.string "history"
  let reliabilityName ← qos.string "reliability"
  let durabilityName ← qos.string "durability"
  let depth := (← qos.field "depth" .int).int64
  if history ≠ literal "keep_last" ∨ depth < 1 ∨ depth > 128 then
    .error (literal "supported history is keep_last with depth 1..128")
  else
    let reliability ← reliability reliabilityName
    let durability ← durability durabilityName
    .ok (⟨depth.toNat, reliability, durability⟩,
      [history, Base.Netstring.digits depth.toNat, reliabilityName, durabilityName])

def loadRoute (hosts guests : List ByteString) (entry : Value) : Except ByteString Route := do
  entry.fields ["host_topic", "guest_topic", "type", "direction", "qos"]
  let hostTopic ← entry.string "host_topic"
  let guestTopic ← entry.string "guest_topic"
  let type ← entry.string "type"
  let direction ← entry.string "direction"
  if hostTopic.head? ≠ some 47 ∨ guestTopic.head? ≠ some 47 then
    .error (literal "topic names must be absolute")
  else if hostTopic ∈ hosts ∨ guestTopic ∈ guests then
    .error (literal "each topic may appear only once per side (avoid echo loops)")
  else if direction ≠ literal "host_to_guest" ∧ direction ≠ literal "guest_to_host" then
    .error (literal "direction must be host_to_guest or guest_to_host")
  else
    let (qos, parts) ← qosOf entry
    let key := routeKey ([hostTopic, guestTopic, type, direction] ++ parts)
    .ok { hostTopic, guestTopic, type, direction, key, qos }

def loadRoutes (hosts guests : List ByteString) : List Value → Except ByteString (List Route)
  | [] => .ok []
  | entry :: rest => do
      let route ← loadRoute hosts guests entry
      let routes ← loadRoutes (hosts ++ [route.hostTopic]) (guests ++ [route.guestTopic]) rest
      .ok (route :: routes)

def loadConfig (parse : ByteString → Option Value) (path : ByteString)
    (file : Option ByteString) : Except ByteString (List Route) :=
  match file with
  | none => .error (literal "cannot open bridge config: " ++ path)
  | some content =>
      if content = [] ∨ content.length > 1024 * 1024 then
        .error (literal "bridge config must be between 1 byte and 1 MiB")
      else
        match parse content with
        | none => .error (literal "invalid JSON in " ++ path)
        | some root => do
            root.fields ["version", "topics"]
            let version ← root.field "version" .int
            if version.int64 ≠ 1 then .error (literal "unsupported bridge config version")
            else
              let topics ← root.field "topics" .array
              if topics.items.length = 0 ∨ topics.items.length > 128 then
                .error (literal "require 1..128 topic routes")
              else loadRoutes [] [] topics.items

/-! ## What an accepted configuration is -/

def maxKey : Nat := 2048

structure Route.Sound (route : Route) : Prop where
  direction : route.direction = literal "host_to_guest" ∨ route.direction = literal "guest_to_host"
  identity : ∃ rest, route.key = Base.Netstring.field route.hostTopic ++ rest
  short : route.key.length ≤ maxKey

theorem Value.string_ok {object : Value} {name : String} {result : ByteString}
    (read : object.string name = .ok result) : result.length ≤ 256 := by
  obtain ⟨value, -, checked⟩ := bind_eq_ok.mp read
  dsimp only at checked
  split_ifs at checked with bad
  cases checked
  exact Nat.le_of_not_lt fun long => bad (.inr (.inl long))

def Reliability.name : Reliability → ByteString
  | .reliable => literal "reliable"
  | .bestEffort => literal "best_effort"

def Durability.name : Durability → ByteString
  | .volatile => literal "volatile"
  | .transientLocal => literal "transient_local"

theorem Reliability.length_name (policy : Reliability) : policy.name.length ≤ 11 := by
  cases policy <;> decide

theorem Durability.length_name (policy : Durability) : policy.name.length ≤ 15 := by
  cases policy <;> decide

theorem reliability_ok {name : ByteString} {policy : Reliability}
    (read : reliability name = .ok policy) : name = policy.name := by
  unfold reliability at read
  split_ifs at read with first second
  · cases read; exact first
  · cases read; exact second

theorem durability_ok {name : ByteString} {policy : Durability}
    (read : durability name = .ok policy) : name = policy.name := by
  unfold durability at read
  split_ifs at read with first second
  · cases read; exact first
  · cases read; exact second

def QoS.parts (qos : QoS) : List ByteString :=
  [literal "keep_last", Base.Netstring.digits qos.depth, qos.reliability.name, qos.durability.name]

def Route.parts (route : Route) : List ByteString :=
  [route.hostTopic, route.guestTopic, route.type, route.direction] ++ route.qos.parts

theorem length_digits_le {n : Nat} (small : n ≤ 128) : (Base.Netstring.digits n).length ≤ 3 := by
  rw [Base.Netstring.digits, Base.Netstring.ascii, List.length_map]
  exact Nat.toDigits_length 10 _ 3 (by decide) (lt_of_le_of_lt small (by decide))

theorem length_routeKey_cons (part : ByteString) (parts : List ByteString)
    (short : part.length < 1000) :
    (routeKey (part :: parts)).length ≤ part.length + 4 + (routeKey parts).length := by
  have first := Base.Netstring.length_field_le short
  simp only [routeKey, List.flatMap_cons, List.length_append]
  omega

theorem qosOf_ok {entry : Value} {qos : QoS} {parts : List ByteString}
    (read : qosOf entry = .ok (qos, parts)) : parts = qos.parts ∧ qos.depth ≤ 128 := by
  unfold qosOf at read
  obtain ⟨object, -, read⟩ := bind_eq_ok.mp read
  obtain ⟨-, -, read⟩ := bind_eq_ok.mp read
  obtain ⟨history, -, read⟩ := bind_eq_ok.mp read
  obtain ⟨reliabilityName, -, read⟩ := bind_eq_ok.mp read
  obtain ⟨durabilityName, -, read⟩ := bind_eq_ok.mp read
  obtain ⟨depth, -, read⟩ := bind_eq_ok.mp read
  by_cases bad : history ≠ literal "keep_last" ∨ depth.int64 < 1 ∨ depth.int64 > 128
  · rw [if_pos bad] at read
    cases read
  rw [if_neg bad] at read
  obtain ⟨delivery, first, read⟩ := bind_eq_ok.mp read
  obtain ⟨storage, second, read⟩ := bind_eq_ok.mp read
  cases read
  have kept : history = literal "keep_last" := not_not.mp fun other => bad (.inl other)
  refine ⟨?_, ?_⟩
  · rw [QoS.parts, kept, reliability_ok first, durability_ok second]
  · have small : depth.int64.toNat ≤ 128 := by omega
    exact small

theorem QoS.length_parts {qos : QoS} (small : qos.depth ≤ 128) :
    (routeKey qos.parts).length ≤ 54 := by
  have kept : (literal "keep_last").length = 9 := by decide
  have few := length_digits_le small
  have one := qos.reliability.length_name
  have two := qos.durability.length_name
  calc (routeKey qos.parts).length
      ≤ (literal "keep_last").length + 4 + ((Base.Netstring.digits qos.depth).length + 4 +
          (qos.reliability.name.length + 4 + (qos.durability.name.length + 4 + 0))) := by
        apply (length_routeKey_cons _ _ (by omega)).trans (Nat.add_le_add_left ?_ _)
        apply (length_routeKey_cons _ _ (by omega)).trans (Nat.add_le_add_left ?_ _)
        apply (length_routeKey_cons _ _ (by omega)).trans (Nat.add_le_add_left ?_ _)
        exact length_routeKey_cons _ _ (by omega)
    _ ≤ 54 := by omega

theorem loadRoute_ok {hosts guests : List ByteString} {entry : Value} {route : Route}
    (read : loadRoute hosts guests entry = .ok route) :
    route.Sound ∧ route.key = routeKey route.parts ∧ route.hostTopic ∉ hosts ∧
      route.guestTopic ∉ guests := by
  unfold loadRoute at read
  obtain ⟨-, -, read⟩ := bind_eq_ok.mp read
  obtain ⟨hostTopic, first, read⟩ := bind_eq_ok.mp read
  obtain ⟨guestTopic, second, read⟩ := bind_eq_ok.mp read
  obtain ⟨type, third, read⟩ := bind_eq_ok.mp read
  obtain ⟨direction, -, read⟩ := bind_eq_ok.mp read
  split_ifs at read with relative repeated other
  obtain ⟨⟨qos, parts⟩, policies, read⟩ := bind_eq_ok.mp read
  cases read
  obtain ⟨rfl, small⟩ := qosOf_ok policies
  have known : direction = literal "host_to_guest" ∨ direction = literal "guest_to_host" := by
    by_contra neither
    exact other (not_or.mp neither)
  have brief : direction.length ≤ 13 := by
    rcases known with same | same
    · rw [same]; decide
    · rw [same]; decide
  refine ⟨⟨known, ⟨_, rfl⟩, ?_⟩, rfl, not_or.mp repeated⟩
  have rest := QoS.length_parts small
  have a := Value.string_ok first
  have b := Value.string_ok second
  have c := Value.string_ok third
  calc (routeKey (hostTopic :: guestTopic :: type :: direction :: qos.parts)).length
      ≤ hostTopic.length + 4 + (guestTopic.length + 4 + (type.length + 4 +
          (direction.length + 4 + (routeKey qos.parts).length))) := by
        apply (length_routeKey_cons _ _ (by omega)).trans (Nat.add_le_add_left ?_ _)
        apply (length_routeKey_cons _ _ (by omega)).trans (Nat.add_le_add_left ?_ _)
        apply (length_routeKey_cons _ _ (by omega)).trans (Nat.add_le_add_left ?_ _)
        exact length_routeKey_cons _ _ (by omega)
    _ ≤ 2048 := by omega

structure Distinct (hosts guests : List ByteString) (routes : List Route) : Prop where
  hosts : (hosts ++ routes.map Route.hostTopic).Nodup
  guests : (guests ++ routes.map Route.guestTopic).Nodup

variable {routes : List Route}

theorem loadRoutes_ok {entries : List Value} {hosts guests : List ByteString}
    (before : hosts.Nodup ∧ guests.Nodup) (read : loadRoutes hosts guests entries = .ok routes) :
    (∀ route ∈ routes, route.Sound ∧ route.key = routeKey route.parts) ∧
      Distinct hosts guests routes := by
  induction entries generalizing hosts guests routes with
  | nil =>
    cases read
    exact ⟨nofun, by simpa using before.1, by simpa using before.2⟩
  | cons entry rest ih =>
    obtain ⟨route, first, read⟩ := bind_eq_ok.mp read
    obtain ⟨later, others, read⟩ := bind_eq_ok.mp read
    cases read
    obtain ⟨sound, identity, freshHost, freshGuest⟩ := loadRoute_ok first
    have hostsApart := List.Nodup.concat freshHost before.1
    have guestsApart := List.Nodup.concat freshGuest before.2
    rw [List.concat_eq_append] at hostsApart guestsApart
    obtain ⟨sounds, distinct⟩ := ih ⟨hostsApart, guestsApart⟩ others
    refine ⟨List.forall_mem_cons.mpr ⟨⟨sound, identity⟩, sounds⟩, ?_, ?_⟩
    · rw [List.map_cons, List.append_cons]
      exact distinct.hosts
    · rw [List.map_cons, List.append_cons]
      exact distinct.guests

variable {parse : ByteString → Option Value} {file : Option ByteString}

theorem loadConfig_entries {path : ByteString} (loaded : loadConfig parse path file = .ok routes) :
    ∃ entries, loadRoutes [] [] entries = .ok routes := by
  unfold loadConfig at loaded
  split at loaded
  · cases loaded
  split_ifs at loaded
  split at loaded
  · cases loaded
  obtain ⟨-, -, loaded⟩ := bind_eq_ok.mp loaded
  obtain ⟨version, -, loaded⟩ := bind_eq_ok.mp loaded
  split_ifs at loaded
  obtain ⟨topics, -, loaded⟩ := bind_eq_ok.mp loaded
  split_ifs at loaded
  exact ⟨_, loaded⟩

theorem loadConfig_ok {path : ByteString} (loaded : loadConfig parse path file = .ok routes) :
    (∀ route ∈ routes, route.Sound ∧ route.key = routeKey route.parts) ∧
      Distinct [] [] routes := by
  obtain ⟨entries, read⟩ := loadConfig_entries loaded
  exact loadRoutes_ok ⟨List.nodup_nil, List.nodup_nil⟩ read

structure Accepted (routes : List Route) : Prop where
  sound : ∀ route ∈ routes, route.Sound
  keys : (routes.map Route.key).Nodup

theorem loadConfig_accepted {path : ByteString}
    (loaded : loadConfig parse path file = .ok routes) : Accepted routes := by
  obtain ⟨read, topics⟩ := loadConfig_ok loaded
  have sound : ∀ route ∈ routes, route.Sound := fun route member => (read route member).1
  have distinct := topics.hosts
  refine ⟨sound, ?_⟩
  rw [List.nil_append, List.Nodup, List.pairwise_map] at distinct
  rw [List.Nodup, List.pairwise_map]
  apply List.Pairwise.imp_of_mem ?_ distinct
  intro first second member other differ same
  obtain ⟨rest, identity⟩ := (sound first member).identity
  obtain ⟨tail, otherIdentity⟩ := (sound second other).identity
  rw [identity, otherIdentity] at same
  exact differ (Base.Netstring.field_append_inj.mp same).1

end Chimaera.Ros
