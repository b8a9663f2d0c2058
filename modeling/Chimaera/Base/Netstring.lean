import Mathlib.Data.List.Basic
import Chimaera.Base.BigEndian
import Chimaera.Base.Text

/-! Byte strings with their length in front. A reader that knows where one starts knows
where it ends, so a sequence of them can be taken apart in one way only. -/

namespace Chimaera.Base.Netstring
open BigEndian Text

def ascii (line : Line) : List Byte := line.map fun c => UInt8.ofNat c.toNat

def digits (n : Nat) : List Byte := ascii (decimal n)

def colon : Byte := 58

def field (part : List Byte) : List Byte := digits part.length ++ colon :: part

theorem colon_not_mem_digits (n : Nat) : colon ∉ digits n := by
  intro member
  obtain ⟨c, found, same⟩ := List.mem_map.mp member
  obtain ⟨low, high⟩ := digit_range (isDigit_of_mem_decimal found)
  have value := congrArg UInt8.toNat same
  rw [UInt8.toNat_ofNat', Nat.mod_eq_of_lt (by omega)] at value
  have code : colon.toNat = 58 := rfl
  omega

theorem digits_injective {m n : Nat} (same : digits m = digits n) : m = n := by
  have restored : ∀ k, (digits k).map (fun byte => Char.ofNat byte.toNat) = decimal k := by
    intro k
    rw [digits, ascii, List.map_map]
    nth_rewrite 2 [← List.map_id (decimal k)]
    apply List.map_congr_left
    intro c member
    obtain ⟨-, high⟩ := digit_range (isDigit_of_mem_decimal member)
    simp only [Function.comp_apply, UInt8.toNat_ofNat', id_eq]
    rw [Nat.mod_eq_of_lt (by omega), Char.ofNat_toNat]
  have lines : decimal m = decimal n := by rw [← restored m, ← restored n, same]
  rw [← number_decimal m, lines, number_decimal]

theorem field_append_inj {first second rest other : List Byte} :
    field first ++ rest = field second ++ other ↔ first = second ∧ rest = other := by
  constructor
  · intro same
    simp only [field, List.append_assoc, List.cons_append] at same
    obtain ⟨lengths, bodies⟩ :=
      append_mark_inj (colon_not_mem_digits _) (colon_not_mem_digits _) same
    exact List.append_inj bodies (digits_injective lengths)
  · rintro ⟨rfl, rfl⟩
    rfl

/-- A sequence of fields can be read in one way only, whatever the fields hold. -/
theorem flatMap_field_injective {first second : List (List Byte)}
    (same : first.flatMap field = second.flatMap field) : first = second := by
  induction first generalizing second with
  | nil =>
    cases second with
    | nil => rfl
    | cons part rest => simp [field] at same
  | cons part first ih =>
    cases second with
    | nil => simp [field] at same
    | cons other second =>
      rw [List.flatMap_cons, List.flatMap_cons] at same
      obtain ⟨rfl, rests⟩ := field_append_inj.mp same
      rw [ih rests]

theorem length_field_le {part : List Byte} (short : part.length < 1000) :
    (field part).length ≤ part.length + 4 := by
  have few : (decimal part.length).length ≤ 3 :=
    Nat.toDigits_length 10 _ 3 (by decide) (lt_of_lt_of_le short (by decide))
  simp only [field, digits, ascii, List.length_append, List.length_map, List.length_cons]
  omega

end Chimaera.Base.Netstring
