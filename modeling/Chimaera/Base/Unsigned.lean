import Mathlib.Data.Nat.Basic

/-! Unsigned 64-bit arithmetic under two readings of one program text. The machine
wraps around. The trapping reading stops where the machine would wrap, so a
computation on which both readings agree has no wrapping operation in it. -/

namespace Chimaera.Base.Unsigned

section Outcome

variable {ε α β : Type}

@[simp] theorem ok_bind (value : α) (next : α → Except ε β) :
    (Except.ok value >>= next) = next value := rfl

@[simp] theorem error_bind (error : ε) (next : α → Except ε β) :
    ((Except.error error : Except ε α) >>= next) = .error error := rfl

theorem eq_ok_of_toOption {result : Except ε α} {value : α}
    (found : result.toOption = some value) : result = .ok value := by
  cases result with
  | error => cases found
  | ok => rw [Option.some.inj found]

theorem bind_eq_ok {first : Except ε α} {next : α → Except ε β} {result : β} :
    (first >>= next) = .ok result ↔ ∃ value, first = .ok value ∧ next value = .ok result := by
  cases first with
  | error error => simp
  | ok value => simp

end Outcome

def modulus : Nat := 0x10000000000000000

def hour : Int := 3600000000000

inductive Mode where
  | machine
  | trapping
  deriving DecidableEq, Repr

/-- The fault of the trapping reading; no modelled program throws this text. -/
def wrapped : String := "unsigned operation wraps"

def Mode.sub (mode : Mode) (a b : Nat) : Except String Nat :=
  match mode with
  | .machine => .ok ((a + (modulus - b % modulus)) % modulus)
  | .trapping => if b ≤ a then .ok (a - b) else .error wrapped

def Mode.add (mode : Mode) (a b : Nat) : Except String Nat :=
  match mode with
  | .machine => .ok ((a + b) % modulus)
  | .trapping => if a + b < modulus then .ok (a + b) else .error wrapped

def Mode.mul (mode : Mode) (a b : Nat) : Except String Nat :=
  match mode with
  | .machine => .ok (a * b % modulus)
  | .trapping => if a * b < modulus then .ok (a * b) else .error wrapped

theorem Mode.sub_exact (mode : Mode) {a b : Nat} (ordered : b ≤ a) (bound : a < modulus) :
    mode.sub a b = .ok (a - b) := by
  cases mode with
  | trapping => simp only [Mode.sub, if_pos ordered]
  | machine =>
    have small : b < modulus := lt_of_le_of_lt ordered bound
    have split : a + (modulus - b) = (a - b) + modulus := by omega
    simp only [Mode.sub, Nat.mod_eq_of_lt small, split, Nat.add_mod_right]
    rw [Nat.mod_eq_of_lt (by omega)]

theorem Mode.add_exact (mode : Mode) {a b : Nat} (bound : a + b < modulus) :
    mode.add a b = .ok (a + b) := by
  cases mode with
  | trapping => simp only [Mode.add, if_pos bound]
  | machine => simp only [Mode.add, Nat.mod_eq_of_lt bound]

theorem Mode.mul_exact (mode : Mode) {a b : Nat} (bound : a * b < modulus) :
    mode.mul a b = .ok (a * b) := by
  cases mode with
  | trapping => simp only [Mode.mul, if_pos bound]
  | machine => simp only [Mode.mul, Nat.mod_eq_of_lt bound]

end Chimaera.Base.Unsigned
