import Mathlib.Data.List.Basic
import Mathlib.Data.List.Range

/-! The content of a file under writes at a position and changes of its size, and the search for
the next position with a property. -/

namespace Chimaera.Base.Files

section Content

variable {α : Type} (filler : α)

/-- A block written at a position; a gap between the end and the position is filled. -/
def overwrite (content : List α) (position : Nat) (block : List α) : List α :=
  (content ++ List.replicate (position - content.length) filler).take position ++ block ++
    content.drop (position + block.length)

def resize (content : List α) (size : Nat) : List α :=
  content.take size ++ List.replicate (size - content.length) filler

end Content

section Search

variable {found : Nat → Bool} {start limit index : Nat}

def firstFrom (found : Nat → Bool) (start limit : Nat) : Option Nat :=
  (List.range' start (limit - start)).find? found

theorem firstFrom_eq_some (first : firstFrom found start limit = some index) :
    start ≤ index ∧ index < limit ∧ found index = true ∧
      ∀ before, start ≤ before → before < index → found before = false := by
  obtain ⟨here, member, none⟩ := List.find?_range'_eq_some.mp first
  have bounds := List.mem_range'_1.mp member
  refine ⟨bounds.1, by omega, here, ?_⟩
  intro before after less
  simpa using none before after less

end Search

end Chimaera.Base.Files
