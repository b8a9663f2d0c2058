import Chimaera.Base.BigEndian
import Chimaera.Base.Text

/-! Base64 with padding: three bytes are four digits of six bits. -/

namespace Chimaera.Base.Base64
open BigEndian Text

def alphabet : Line := text "ABCDEFGHIJKLMNOPQRSTUVWXYZabcdefghijklmnopqrstuvwxyz0123456789+/"

def digit (sextet : Nat) : Char := alphabet.getD sextet '='

def sextet (c : Char) : Option Nat := alphabet.findIdx? (· == c)

def encode : List Byte → Line
  | [] => []
  | [a] => [digit (a.toNat / 4), digit (a.toNat % 4 * 16), '=', '=']
  | [a, b] =>
      [digit (a.toNat / 4), digit (a.toNat % 4 * 16 + b.toNat / 16), digit (b.toNat % 16 * 4), '=']
  | a :: b :: c :: rest =>
      digit (a.toNat / 4) :: digit (a.toNat % 4 * 16 + b.toNat / 16) ::
        digit (b.toNat % 16 * 4 + c.toNat / 64) :: digit (c.toNat % 64) :: encode rest

def first (w x : Nat) : Byte := UInt8.ofNat (w * 4 + x / 16)

def second (x y : Nat) : Byte := UInt8.ofNat (x % 16 * 16 + y / 4)

def third (y z : Nat) : Byte := UInt8.ofNat (y % 4 * 64 + z)

def decode : Line → Option (List Byte)
  | [] => some []
  | w :: x :: y :: z :: rest =>
      if y = '=' ∧ z = '=' ∧ rest = [] then do
        let w ← sextet w
        let x ← sextet x
        some [first w x]
      else if z = '=' ∧ rest = [] then do
        let w ← sextet w
        let x ← sextet x
        let y ← sextet y
        some [first w x, second x y]
      else do
        let w ← sextet w
        let x ← sextet x
        let y ← sextet y
        let z ← sextet z
        let bytes ← decode rest
        some (first w x :: second x y :: third y z :: bytes)
  | _ => none

theorem sextet_digit {n : Nat} (small : n < 64) : sextet (digit n) = some n := by
  have all : ∀ n < 64, sextet (digit n) = some n := by decide +kernel
  exact all n small

theorem digit_ne_pad {n : Nat} (small : n < 64) : digit n ≠ '=' := by
  have all : ∀ n < 64, digit n ≠ '=' := by decide +kernel
  exact all n small

theorem digit_mem {n : Nat} (small : n < 64) : digit n ∈ alphabet := by
  have all : ∀ n < 64, alphabet.contains (digit n) = true := by decide +kernel
  exact List.contains_iff_mem.mp (all n small)

theorem byte_eq {n : Nat} {byte : Byte} (same : n = byte.toNat) : UInt8.ofNat n = byte := by
  rw [same, UInt8.ofNat_toNat]

theorem first_eq (a : Byte) {low : Nat} (small : low < 16) :
    first (a.toNat / 4) (a.toNat % 4 * 16 + low) = a := by
  apply byte_eq
  omega

theorem second_eq (high : Nat) (b : Byte) {low : Nat} (small : low < 4) :
    second (high * 16 + b.toNat / 16) (b.toNat % 16 * 4 + low) = b := by
  have bound := b.toNat_lt
  apply byte_eq
  omega

theorem third_eq (high : Nat) (c : Byte) :
    third (high * 4 + c.toNat / 64) (c.toNat % 64) = c := by
  have bound := c.toNat_lt
  apply byte_eq
  omega

theorem decode_full {w x y z : Nat} (ws : w < 64) (xs : x < 64) (ys : y < 64) (zs : z < 64)
    {rest : Line} {bytes : List Byte} (later : decode rest = some bytes) :
    decode (digit w :: digit x :: digit y :: digit z :: rest) =
      some (first w x :: second x y :: third y z :: bytes) := by
  have pad := digit_ne_pad zs
  simp [decode, pad, sextet_digit ws, sextet_digit xs, sextet_digit ys, sextet_digit zs, later]

theorem decode_two {w x y : Nat} (ws : w < 64) (xs : x < 64) (ys : y < 64) :
    decode [digit w, digit x, digit y, '='] = some [first w x, second x y] := by
  have pad := digit_ne_pad ys
  simp [decode, pad, sextet_digit ws, sextet_digit xs, sextet_digit ys]

theorem decode_one {w x : Nat} (ws : w < 64) (xs : x < 64) :
    decode [digit w, digit x, '=', '='] = some [first w x] := by
  simp [decode, sextet_digit ws, sextet_digit xs]

theorem decode_encode (bytes : List Byte) : decode (encode bytes) = some bytes := by
  induction bytes using encode.induct with
  | case1 => rfl
  | case2 a =>
    have bound := a.toNat_lt
    have whole : first (a.toNat / 4) (a.toNat % 4 * 16) = a := first_eq a (by decide : 0 < 16)
    rw [encode, decode_one (by omega) (by omega), whole]
  | case3 a b =>
    have bound := a.toNat_lt
    have limit := b.toNat_lt
    have low : b.toNat / 16 < 16 := by omega
    have whole : second (a.toNat % 4 * 16 + b.toNat / 16) (b.toNat % 16 * 4) = b :=
      second_eq _ b (by decide : 0 < 4)
    rw [encode, decode_two (by omega) (by omega) (by omega), first_eq a low, whole]
  | case4 a b c rest ih =>
    have bound := a.toNat_lt
    have limit := b.toNat_lt
    have last := c.toNat_lt
    have low : b.toNat / 16 < 16 := by omega
    have lower : c.toNat / 64 < 4 := by omega
    rw [encode, decode_full (by omega) (by omega) (by omega) (by omega) ih, first_eq a low,
      second_eq _ b lower, third_eq]

theorem mem_encode {bytes : List Byte} {c : Char} (member : c ∈ encode bytes) :
    c ∈ alphabet ∨ c = '=' := by
  induction bytes using encode.induct with
  | case1 => cases member
  | case2 a =>
    have bound := a.toNat_lt
    simp only [encode, List.mem_cons, List.not_mem_nil, or_false] at member
    rcases member with rfl | rfl | rfl | rfl
    · exact .inl (digit_mem (by omega))
    · exact .inl (digit_mem (by omega))
    · exact .inr rfl
    · exact .inr rfl
  | case3 a b =>
    have bound := a.toNat_lt
    have limit := b.toNat_lt
    simp only [encode, List.mem_cons, List.not_mem_nil, or_false] at member
    rcases member with rfl | rfl | rfl | rfl
    · exact .inl (digit_mem (by omega))
    · exact .inl (digit_mem (by omega))
    · exact .inl (digit_mem (by omega))
    · exact .inr rfl
  | case4 a b c rest ih =>
    have bound := a.toNat_lt
    have limit := b.toNat_lt
    have last := c.toNat_lt
    simp only [encode, List.mem_cons] at member
    rcases member with rfl | rfl | rfl | rfl | member
    · exact .inl (digit_mem (by omega))
    · exact .inl (digit_mem (by omega))
    · exact .inl (digit_mem (by omega))
    · exact .inl (digit_mem (by omega))
    · exact ih member

end Chimaera.Base.Base64
