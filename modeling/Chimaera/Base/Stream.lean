import Mathlib.Data.List.Basic

/-! Partial transfers over a byte stream. An operation of the environment moves a
nonempty chunk of at most what it is offered, or fails for good; a transfer repeats it
until all that was wanted has moved. -/

namespace Chimaera.Base.Stream

variable {α σ : Type*}

/-- Move `wanted` items from the front of a stream. A turn is offered the number of items
it could move at most; `some extra` moves `extra + 1` of them, `none` ends the transfer.
The result holds the moved items and the rest of the stream. -/
def transfer (turn : σ → Nat → Option Nat × σ) (state : σ) (stream : List α) (wanted : Nat) :
    Option (List α × List α) × σ :=
  if wanted = 0 then (some ([], stream), state)
  else
    match turn state (min wanted stream.length) with
    | (none, state) => (none, state)
    | (some extra, state) =>
        match transfer turn state (stream.drop (extra + 1)) (wanted - (extra + 1)) with
        | (none, state) => (none, state)
        | (some (moved, rest), state) => (some (stream.take (extra + 1) ++ moved, rest), state)
termination_by wanted

def Progress (turn : σ → Nat → Option Nat × σ) (Good : σ → Prop) : Prop :=
  ∀ state limit, Good state → 0 < limit →
    ∃ extra after, turn state limit = (some extra, after) ∧ extra < limit ∧ Good after

theorem transfer_exact {turn : σ → Nat → Option Nat × σ} {Good : σ → Prop}
    (progress : Progress turn Good) (state : σ) (stream : List α) (wanted : Nat)
    (good : Good state) (available : wanted ≤ stream.length) :
    ∃ after, transfer turn state stream wanted =
      (some (stream.take wanted, stream.drop wanted), after) ∧ Good after := by
  induction wanted using Nat.strongRecOn generalizing state stream with
  | ind wanted ih =>
    rw [transfer]
    by_cases done : wanted = 0
    · subst done
      exact ⟨state, by simp, good⟩
    · have offered : min wanted stream.length = wanted := Nat.min_eq_left available
      obtain ⟨extra, next, turned, within, kept⟩ :=
        progress state wanted good (Nat.pos_of_ne_zero done)
      have left : wanted - (extra + 1) ≤ (stream.drop (extra + 1)).length := by
        rw [List.length_drop]
        omega
      obtain ⟨after, moved, reached⟩ :=
        ih (wanted - (extra + 1)) (by omega) next (stream.drop (extra + 1)) kept left
      have whole : extra + 1 + (wanted - (extra + 1)) = wanted := by omega
      refine ⟨after, ?_, reached⟩
      rw [if_neg done, offered, turned]
      simp only [moved]
      rw [← List.take_add, List.drop_drop, whole]

def Outcome {β : Type*} (Good Bad : σ → Prop) : Option β × σ → Prop
  | (none, after) => Bad after
  | (some _, after) => Good after

theorem transfer_outcome {turn : σ → Nat → Option Nat × σ} {Good Bad : σ → Prop}
    (turns : ∀ state limit, Good state → Outcome Good Bad (turn state limit)) (state : σ)
    (stream : List α) (wanted : Nat) (good : Good state) :
    Outcome Good Bad (transfer turn state stream wanted) := by
  induction wanted using Nat.strongRecOn generalizing state stream with
  | ind wanted ih =>
    rw [transfer]
    by_cases done : wanted = 0
    · rw [if_pos done]
      exact good
    rw [if_neg done]
    have turned := turns state (min wanted stream.length) good
    rcases outcome : turn state (min wanted stream.length) with ⟨_ | extra, next⟩
    · rw [outcome] at turned
      exact turned
    rw [outcome] at turned
    have rest := ih (wanted - (extra + 1)) (by omega) next (stream.drop (extra + 1)) turned
    rcases moved : transfer turn next (stream.drop (extra + 1)) (wanted - (extra + 1)) with
      ⟨_ | items, after⟩
    · rw [moved] at rest
      simp only [moved]
      exact rest
    · rw [moved] at rest
      simp only [moved]
      exact rest

end Chimaera.Base.Stream
