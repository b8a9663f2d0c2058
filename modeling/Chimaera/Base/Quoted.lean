import Mathlib.Data.Char
import Chimaera.Base.Text

/-! The words of a JSON text in ASCII: quoted strings with their escapes, and numbers. No word is
the beginning of another one, so a text is read back in one way only. -/

namespace Chimaera.Base.Quoted
open Text

/-! ## Strings -/

def hexDigit (n : Nat) : Char := if n < 10 then Char.ofNat (48 + n) else Char.ofNat (87 + n)

def codeUnit (n : Nat) : Line :=
  ['\\', 'u', hexDigit (n / 4096 % 16), hexDigit (n / 256 % 16), hexDigit (n / 16 % 16),
    hexDigit (n % 16)]

inductive Code where
  | plain (c : Char)
  | short (mark : Char)
  | unit (n : Nat)
  | pair (high low : Nat)
  deriving DecidableEq, Repr

def Code.text : Code → Line
  | .plain c => [c]
  | .short mark => ['\\', mark]
  | .unit n => codeUnit n
  | .pair high low => codeUnit high ++ codeUnit low

def short (c : Char) : Option Char :=
  if c = '"' then some '"'
  else if c = '\\' then some '\\'
  else if c = '\n' then some 'n'
  else if c = '\r' then some 'r'
  else if c = '\t' then some 't'
  else if c = '\x0c' then some 'f'
  else if c = '\x08' then some 'b'
  else none

/-- `ensure_ascii`: a character outside printable ASCII goes over as UTF-16. -/
def code (c : Char) : Code :=
  match short c with
  | some mark => .short mark
  | none =>
    if 32 ≤ c.toNat ∧ c.toNat ≤ 126 then .plain c
    else if c.toNat < 65536 then .unit c.toNat
    else .pair (55296 + (c.toNat - 65536) / 1024) (56320 + (c.toNat - 65536) % 1024)

def quote (value : Line) : Line := '"' :: (value.flatMap (fun c => (code c).text) ++ ['"'])

def hexValue (c : Char) : Nat := if c.toNat < 58 then c.toNat - 48 else c.toNat - 87

theorem hexValue_hexDigit {n : Nat} (small : n < 16) : hexValue (hexDigit n) = n := by
  have all : ∀ n < 16, hexValue (hexDigit n) = n := by decide
  exact all n small

theorem codeUnit_unique {n m : Nat} (first : n < 65536) (second : m < 65536) {rest other : Line}
    (same : codeUnit n ++ rest = codeUnit m ++ other) : n = m ∧ rest = other := by
  simp only [codeUnit, List.cons_append, List.nil_append, List.cons.injEq, true_and] at same
  obtain ⟨a, b, c, d, rests⟩ := same
  have digit : ∀ x y : Nat, hexDigit (x % 16) = hexDigit (y % 16) → x % 16 = y % 16 := by
    intro x y equal
    rw [← hexValue_hexDigit (Nat.mod_lt x (by decide)), equal,
      hexValue_hexDigit (Nat.mod_lt y (by decide))]
  have top := digit _ _ a
  have upper := digit _ _ b
  have lower := digit _ _ c
  have last := digit _ _ d
  exact ⟨by omega, rests⟩

def Code.Fine : Code → Prop
  | .plain c => c ≠ '\\' ∧ c ≠ '"'
  | .short mark => mark ≠ 'u'
  | .unit n => n < 55296 ∨ 57343 < n ∧ n < 65536
  | .pair high low => 55296 ≤ high ∧ high < 56320 ∧ 56320 ≤ low ∧ low < 57344

theorem short_ne {c mark : Char} (found : short c = some mark) : mark ≠ 'u' := by
  unfold short at found
  split_ifs at found <;> (cases found; decide)

def long (mark : Char) : Char :=
  if mark = 'n' then '\n'
  else if mark = 'r' then '\r'
  else if mark = 't' then '\t'
  else if mark = 'f' then '\x0c'
  else if mark = 'b' then '\x08'
  else mark

theorem long_short {c mark : Char} (found : short c = some mark) : long mark = c := by
  unfold short at found
  split_ifs at found with same same same same same same same <;>
    (rw [same, ← Option.some.inj found]; rfl)

theorem code_fine (c : Char) : (code c).Fine := by
  unfold code
  cases found : short c with
  | some mark => exact short_ne found
  | none =>
    have valid : c.toNat < 55296 ∨ 57343 < c.toNat ∧ c.toNat < 1114112 := c.valid
    simp only
    split_ifs with printable small
    · unfold short at found
      split_ifs at found with quoted slash
      exact ⟨slash, quoted⟩
    · change c.toNat < 55296 ∨ 57343 < c.toNat ∧ c.toNat < 65536
      omega
    · change 55296 ≤ _ ∧ _ < 56320 ∧ 56320 ≤ _ ∧ _ < 57344
      omega

theorem code_injective {c d : Char} (same : code c = code d) : c = d := by
  have number : c.toNat = d.toNat → c = d := fun equal => Char.toNat_inj.mp equal
  unfold code at same
  cases first : short c with
  | some mark =>
    cases second : short d with
    | some other =>
      rw [first, second] at same
      cases same
      rw [← long_short first, long_short second]
    | none =>
      rw [first, second] at same
      simp only at same
      split_ifs at same
  | none =>
    cases second : short d with
    | some other =>
      rw [first, second] at same
      simp only at same
      split_ifs at same
    | none =>
      rw [first, second] at same
      simp only at same
      split_ifs at same with a b e f g h
      · exact Code.plain.inj same
      · exact number (Code.unit.inj same)
      · obtain ⟨high, low⟩ := Code.pair.inj same
        apply number
        omega

theorem code_unique {first second : Code} (fine : first.Fine) (good : second.Fine)
    {rest other : Line} (same : first.text ++ rest = second.text ++ other) :
    first = second ∧ rest = other := by
  cases first with
  | plain c =>
    cases second with
    | plain d =>
      obtain ⟨rfl, rests⟩ := List.cons.inj same
      exact ⟨rfl, rests⟩
    | _ => exact absurd (List.cons.inj same).1 fine.1
  | short mark =>
    cases second with
    | plain d => exact absurd (List.cons.inj same).1.symm good.1
    | short other =>
      obtain ⟨rfl, rests⟩ := List.cons.inj (List.cons.inj same).2
      exact ⟨rfl, rests⟩
    | _ => exact absurd (List.cons.inj (List.cons.inj same).2).1 fine
  | unit n =>
    have small : n < 65536 := by
      change n < 55296 ∨ 57343 < n ∧ n < 65536 at fine
      omega
    cases second with
    | plain d => exact absurd (List.cons.inj same).1.symm good.1
    | short mark => exact absurd (List.cons.inj (List.cons.inj same).2).1.symm good
    | unit m =>
      change m < 55296 ∨ 57343 < m ∧ m < 65536 at good
      obtain ⟨rfl, rests⟩ := codeUnit_unique small (by omega) same
      exact ⟨rfl, rests⟩
    | pair high low =>
      change 55296 ≤ high ∧ high < 56320 ∧ 56320 ≤ low ∧ low < 57344 at good
      change n < 55296 ∨ 57343 < n ∧ n < 65536 at fine
      rw [Code.text, Code.text, List.append_assoc] at same
      obtain ⟨equal, -⟩ := codeUnit_unique small (by omega) same
      omega
  | pair high low =>
    change 55296 ≤ high ∧ high < 56320 ∧ 56320 ≤ low ∧ low < 57344 at fine
    cases second with
    | plain d => exact absurd (List.cons.inj same).1.symm good.1
    | short mark => exact absurd (List.cons.inj (List.cons.inj same).2).1.symm good
    | unit m =>
      change m < 55296 ∨ 57343 < m ∧ m < 65536 at good
      rw [Code.text, Code.text, List.append_assoc] at same
      obtain ⟨equal, -⟩ := codeUnit_unique (by omega) (by omega) same
      omega
    | pair top bottom =>
      change 55296 ≤ top ∧ top < 56320 ∧ 56320 ≤ bottom ∧ bottom < 57344 at good
      rw [Code.text, Code.text, List.append_assoc, List.append_assoc] at same
      obtain ⟨rfl, lows⟩ := codeUnit_unique (by omega) (by omega) same
      obtain ⟨rfl, rests⟩ := codeUnit_unique (by omega) (by omega) lows
      exact ⟨rfl, rests⟩

theorem code_head {written : Code} (fine : written.Fine) :
    ∃ c rest, written.text = c :: rest ∧ c ≠ '"' := by
  cases written with
  | plain c => exact ⟨c, [], rfl, fine.2⟩
  | _ => exact ⟨'\\', _, rfl, by decide⟩

theorem quote_unique {first second rest other : Line}
    (same : quote first ++ rest = quote second ++ other) : first = second ∧ rest = other := by
  suffices inside : ∀ first second : Line,
      first.flatMap (fun c => (code c).text) ++ '"' :: rest =
        second.flatMap (fun c => (code c).text) ++ '"' :: other →
      first = second ∧ rest = other by
    rw [quote, quote, List.cons_append, List.cons_append, List.append_assoc,
      List.append_assoc] at same
    exact inside first second (List.cons.inj same).2
  intro first
  induction first with
  | nil =>
    intro second equal
    cases second with
    | nil => exact ⟨rfl, (List.cons.inj equal).2⟩
    | cons d second =>
      obtain ⟨head, tail, shape, inner⟩ := code_head (code_fine d)
      rw [List.flatMap_cons, shape] at equal
      exact absurd (List.cons.inj equal).1.symm inner
  | cons c first ih =>
    intro second equal
    cases second with
    | nil =>
      obtain ⟨head, tail, shape, inner⟩ := code_head (code_fine c)
      rw [List.flatMap_cons, shape] at equal
      exact absurd (List.cons.inj equal).1 inner
    | cons d second =>
      rw [List.flatMap_cons, List.flatMap_cons, List.append_assoc, List.append_assoc] at equal
      obtain ⟨codes, rests⟩ := code_unique (code_fine c) (code_fine d) equal
      obtain ⟨rfl, done⟩ := ih second rests
      exact ⟨by rw [code_injective codes], done⟩

/-! ## Numbers -/

def numeral (c : Char) : Bool := c.isDigit || c = '+' || c = '-' || c = '.' || c = 'e'

def signed (n : Int) : Line := if n < 0 then '-' :: decimal n.natAbs else decimal n.natAbs

theorem numeral_of_digit {c : Char} (digit : c.isDigit = true) : numeral c = true := by
  simp [numeral, digit]

theorem signed_numeral (n : Int) : signed n ≠ [] ∧ ∀ c ∈ signed n, numeral c = true := by
  have digits : ∀ c ∈ decimal n.natAbs, numeral c = true := fun c member =>
    numeral_of_digit (isDigit_of_mem_decimal member)
  unfold signed
  split_ifs with negative
  · exact ⟨List.cons_ne_nil _ _, List.forall_mem_cons.mpr ⟨by decide, digits⟩⟩
  · exact ⟨decimal_ne_nil _, digits⟩

theorem decimal_injective {n m : Nat} (same : decimal n = decimal m) : n = m := by
  rw [← number_decimal n, same, number_decimal]

theorem signed_injective {n m : Int} (same : signed n = signed m) : n = m := by
  have minus : ∀ k : Nat, ∀ rest, decimal k ≠ '-' :: rest := by
    intro k rest shape
    have digit := isDigit_of_mem_decimal (shape ▸ List.mem_cons_self)
    exact absurd digit (by decide)
  unfold signed at same
  split_ifs at same with first second second
  · have sizes := decimal_injective (List.cons.inj same).2
    omega
  · exact absurd same.symm (minus _ _)
  · exact absurd same (minus _ _)
  · have sizes := decimal_injective same
    omega

theorem numeral_unique {first second rest other : Line} (fine : ∀ c ∈ first, numeral c = true)
    (good : ∀ c ∈ second, numeral c = true) (ends : Stops numeral rest)
    (stops : Stops numeral other) (same : first ++ rest = second ++ other) :
    first = second ∧ rest = other := by
  have taken := takeWhile_run fine ends
  have found := takeWhile_run good stops
  rw [same] at taken
  exact ⟨taken.1.symm.trans found.1, taken.2.symm.trans found.2⟩

end Chimaera.Base.Quoted
