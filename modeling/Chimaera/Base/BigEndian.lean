import Mathlib.Data.Nat.Digits.Defs
import Mathlib.Tactic.Ring
import Chimaera.Base.Unsigned

/-! Fixed-width big-endian words over bytes: a word of a given width is written
most significant byte first, and reading inverts writing in both directions. C code
writes a word with shifts and masks and reads it by shifting bytes in. -/

namespace Chimaera.Base.BigEndian
open Unsigned

abbrev Byte := UInt8

def write : Nat → Nat → List Byte
  | 0, _ => []
  | width + 1, value => UInt8.ofNat (value / 256 ^ width) :: write width value

def read (bytes : List Byte) : Nat :=
  bytes.foldl (fun value byte => value * 256 + byte.toNat) 0

@[simp] theorem write_length (width value : Nat) : (write width value).length = width := by
  induction width with
  | zero => rfl
  | succ width ih => simp only [write, List.length_cons, ih]

private theorem foldl_read (bytes : List Byte) (start : Nat) :
    bytes.foldl (fun value byte => value * 256 + byte.toNat) start =
      start * 256 ^ bytes.length + read bytes := by
  induction bytes generalizing start with
  | nil => simp [read]
  | cons byte rest ih =>
    simp only [read, List.foldl_cons, List.length_cons]
    rw [ih, ih (0 * 256 + byte.toNat), pow_succ]
    ring

theorem read_cons (byte : Byte) (rest : List Byte) :
    read (byte :: rest) = byte.toNat * 256 ^ rest.length + read rest := by
  have unfolded := foldl_read rest (0 * 256 + byte.toNat)
  simpa only [read, List.foldl_cons, Nat.zero_mul, Nat.zero_add] using unfolded

theorem read_lt (bytes : List Byte) : read bytes < 256 ^ bytes.length := by
  induction bytes with
  | nil => simp [read]
  | cons byte rest ih =>
    rw [read_cons, List.length_cons, pow_succ]
    have small : byte.toNat < 256 := byte.toNat_lt
    calc
      byte.toNat * 256 ^ rest.length + read rest
          < byte.toNat * 256 ^ rest.length + 256 ^ rest.length := Nat.add_lt_add_left ih _
      _ = (byte.toNat + 1) * 256 ^ rest.length := by ring
      _ ≤ 256 * 256 ^ rest.length := Nat.mul_le_mul_right _ small
      _ = 256 ^ rest.length * 256 := Nat.mul_comm _ _

theorem read_write (width value : Nat) : read (write width value) = value % 256 ^ width := by
  induction width with
  | zero => simp [write, read, Nat.mod_one]
  | succ width ih =>
    rw [write, read_cons, ih, write_length]
    have byte : (UInt8.ofNat (value / 256 ^ width)).toNat = value / 256 ^ width % 256 := by
      simp [UInt8.toNat_ofNat']
    rw [byte, pow_succ, Nat.mod_mul]
    ring

theorem read_write_of_lt {width value : Nat} (bound : value < 256 ^ width) :
    read (write width value) = value := by
  rw [read_write, Nat.mod_eq_of_lt bound]

/-- Writing sees only the residue, so a leading byte does not disturb the bytes below it. -/
theorem write_add_mul (width value high : Nat) :
    write width (high * 256 ^ width + value) = write width value := by
  induction width generalizing high with
  | zero => rfl
  | succ width ih =>
    have heads : UInt8.ofNat ((high * 256 ^ (width + 1) + value) / 256 ^ width) =
        UInt8.ofNat (value / 256 ^ width) := by
      have positive : 0 < 256 ^ width := by positivity
      have shifted : high * 256 ^ (width + 1) + value = value + 256 ^ width * (256 * high) := by ring
      rw [shifted, Nat.add_mul_div_left _ _ positive]
      apply UInt8.toNat_inj.mp
      simp only [UInt8.toNat_ofNat', Nat.add_mul_mod_self_left]
    have tails : high * 256 ^ (width + 1) + value = high * 256 * 256 ^ width + value := by ring
    rw [write, write, heads, tails, ih]

theorem write_read (bytes : List Byte) : write bytes.length (read bytes) = bytes := by
  induction bytes with
  | nil => rfl
  | cons byte rest ih =>
    rw [List.length_cons, write, read_cons, write_add_mul, ih]
    have positive : 0 < 256 ^ rest.length := by positivity
    have head : (byte.toNat * 256 ^ rest.length + read rest) / 256 ^ rest.length = byte.toNat := by
      rw [Nat.mul_comm, Nat.mul_add_div positive, Nat.div_eq_of_lt (read_lt rest), Nat.add_zero]
    rw [head, UInt8.ofNat_toNat]

theorem write_injective {width first second : Nat} (low : first < 256 ^ width)
    (high : second < 256 ^ width) (same : write width first = write width second) :
    first = second := by
  rw [← read_write_of_lt low, same, read_write_of_lt high]

theorem ofNat_shift_mask (value exponent : Nat) :
    UInt8.ofNat ((value >>> (8 * exponent)) &&& 255) = UInt8.ofNat (value / 256 ^ exponent) := by
  have masked := Nat.and_two_pow_sub_one_eq_mod (value >>> (8 * exponent)) 8
  apply UInt8.toNat_inj.mp
  rw [show (255 : Nat) = 2 ^ 8 - 1 by decide, masked, Nat.shiftRight_eq_div_pow, Nat.pow_mul]
  simp [UInt8.toNat_ofNat']

/-- Shifting bytes into a word that has room for them never pushes one out of it. -/
private theorem shift_in_eq {word capacity : Nat} (size : word = 256 ^ capacity)
    (bytes : List Byte) (value width : Nat) (bound : value < 256 ^ width)
    (fits : width + bytes.length ≤ capacity) :
    bytes.foldl (fun value byte => ((value <<< 8) % word) ||| byte.toNat) value =
      bytes.foldl (fun value byte => value * 256 + byte.toNat) value := by
  induction bytes generalizing value width with
  | nil => rfl
  | cons byte rest ih =>
    rw [List.length_cons] at fits
    have small : byte.toNat < 2 ^ 8 := byte.toNat_lt
    have room : value * 256 + byte.toNat < 256 ^ (width + 1) := by
      rw [pow_succ]
      have := Nat.mul_le_mul_right 256 (Nat.succ_le_of_lt bound)
      omega
    have wide : 256 ^ (width + 1) ≤ word := by
      rw [size]
      exact Nat.pow_le_pow_right (by decide) (by omega)
    have narrow : value * 2 ^ 8 < word :=
      lt_of_lt_of_le (lt_of_le_of_lt (Nat.le_add_right _ _) room) wide
    have step : ((value <<< 8) % word) ||| byte.toNat = value * 256 + byte.toNat := by
      rw [Nat.shiftLeft_eq, Nat.mod_eq_of_lt narrow, Nat.mul_comm,
        ← Nat.two_pow_add_eq_or_of_lt small]
      omega
    rw [List.foldl_cons, List.foldl_cons, step]
    exact ih _ (width + 1) room (by omega)

theorem foldl_shift_word {word capacity : Nat} (size : word = 256 ^ capacity) (bytes : List Byte)
    (fits : bytes.length ≤ capacity) :
    bytes.foldl (fun value byte => ((value <<< 8) % word) ||| byte.toNat) 0 = read bytes :=
  shift_in_eq size bytes 0 0 (by decide) (by omega)

theorem foldl_shift_eq_read (bytes : List Byte) (fits : bytes.length ≤ 8) :
    bytes.foldl (fun value byte => ((value <<< 8) % modulus) ||| byte.toNat) 0 = read bytes :=
  foldl_shift_word (by decide) bytes fits

end Chimaera.Base.BigEndian
