import Chimaera.Base.BigEndian

/-! The results of a transport and the frame header of `framing.hpp`: a message travels
as eight bytes of size, most significant first, and then its payload. Header and payload
are separate packets on separate connections. Towards the host, gem5 puts an envelope in
front of each packet: its length as a word in the byte order of the machine. -/

namespace Chimaera.Transport
open Base.BigEndian Base.Unsigned

inductive TransportError where
  | none
  | invalidArgument
  | disconnected
  | ioError
  deriving DecidableEq, Repr

structure SendResult where
  error : TransportError
  message : String
  deriving DecidableEq, Repr

def SendResult.none : SendResult := ⟨.none, ""⟩

def SendResult.ok (result : SendResult) : Bool := result.error == .none

structure ReceiveResult where
  data : List Byte
  error : TransportError
  message : String
  deriving DecidableEq, Repr

def ReceiveResult.ok (result : ReceiveResult) : Bool := result.error == .none

def SendResult.received (failure : SendResult) : ReceiveResult :=
  ⟨[], failure.error, failure.message⟩

def ReceiveResult.delivered (data : List Byte) : ReceiveResult := ⟨data, .none, ""⟩

@[simp] theorem SendResult.none_ok : SendResult.none.ok = true := rfl

@[simp] theorem ReceiveResult.delivered_ok (data : List Byte) :
    (ReceiveResult.delivered data).ok = true := rfl

@[simp] theorem ReceiveResult.delivered_data (data : List Byte) :
    (ReceiveResult.delivered data).data = data := rfl

def maxMessageSize : Nat := 64 * 1024 * 1024

def headerSize : Nat := 8

def encodeHeader (size : Nat) : List Byte :=
  ([7, 6, 5, 4, 3, 2, 1, 0].foldl
    (fun (header, size) i => (header.set i (UInt8.ofNat (size &&& 0xff)), size >>> 8))
    (List.replicate headerSize 0, size)).1

def decodeHeader (header : List Byte) : Nat :=
  header.foldl (fun size byte => ((size <<< 8) % modulus) ||| byte.toNat) 0

theorem encodeHeader_eq (size : Nat) : encodeHeader size = write 8 size := by
  have byte := ofNat_shift_mask size
  simp only [encodeHeader, headerSize, List.foldl_cons, List.foldl_nil, List.replicate,
    List.set_cons_succ, List.set_cons_zero, ← Nat.shiftRight_add, Nat.reduceAdd, write]
  rw [← byte 7, ← byte 6, ← byte 5, ← byte 4, ← byte 3, ← byte 2, ← byte 1, ← byte 0]
  rfl

@[simp] theorem encodeHeader_length (size : Nat) : (encodeHeader size).length = headerSize := by
  rw [encodeHeader_eq, write_length]
  rfl

theorem maxMessageSize_lt : maxMessageSize < modulus := by decide

theorem decodeHeader_encodeHeader {size : Nat} (within : size ≤ maxMessageSize) :
    decodeHeader (encodeHeader size) = size := by
  have bound : size < 256 ^ 8 := lt_of_le_of_lt within (by decide)
  rw [decodeHeader, foldl_shift_eq_read _ (by simp [headerSize]), encodeHeader_eq,
    read_write_of_lt bound]

def packets (data : List Byte) : List (List Byte) :=
  encodeHeader data.length :: if data = [] then [] else [data]

theorem packets_ne_nil (data packet : List Byte) (member : packet ∈ packets data) :
    packet ≠ [] := by
  rcases List.mem_cons.mp member with header | payload
  · intro empty
    have length := encodeHeader_length data.length
    rw [← header, empty] at length
    cases length
  · by_cases empty : data = []
    · simp [empty] at payload
    · simp only [if_neg empty, List.mem_singleton] at payload
      exact payload ▸ empty

inductive Endian where
  | little
  | big
  deriving DecidableEq, Repr

def Endian.bytes (native : Endian) (value : Nat) : List Byte :=
  match native with
  | .little => (write 8 value).reverse
  | .big => write 8 value

def Endian.value (native : Endian) (bytes : List Byte) : Nat :=
  match native with
  | .little => read bytes.reverse
  | .big => read bytes

@[simp] theorem Endian.bytes_length (native : Endian) (value : Nat) :
    (native.bytes value).length = 8 := by
  cases native <;> simp [Endian.bytes]

theorem Endian.value_bytes (native : Endian) {value : Nat} (bound : value < modulus) :
    native.value (native.bytes value) = value := by
  have fits : value < 256 ^ 8 := bound
  cases native <;> simp [Endian.bytes, Endian.value, read_write_of_lt fits]

def envelope (native : Endian) (packet : List Byte) : List Byte :=
  native.bytes packet.length ++ packet

end Chimaera.Transport
