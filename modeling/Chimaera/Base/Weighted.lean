import Mathlib.Algebra.Order.Field.Basic
import Mathlib.Algebra.BigOperators.Group.List.Basic
import Mathlib.Tactic.Linarith
import Mathlib.Tactic.Positivity
import Mathlib.Tactic.Ring
import Mathlib.Tactic.FieldSimp

/-! Averages of samples that carry a weight: a list of pairs of a weight and a value.
An average depends only on how much weight each value has, not on how many samples share
that weight. -/

namespace Chimaera.Base.Weighted

section Sums

variable {K α : Type} [Field K]

def total (samples : List (K × α)) : K := (samples.map Prod.fst).sum

def moment (f : α → K) (samples : List (K × α)) : K :=
  (samples.map fun sample => f sample.2 * sample.1).sum

theorem total_split (before after : List (K × α)) (u v : K) (value : α) :
    total (before ++ (u, value) :: (v, value) :: after) =
      total (before ++ (u + v, value) :: after) := by
  simp only [total, List.map_append, List.map_cons, List.sum_append, List.sum_cons]
  ring

theorem moment_split (f : α → K) (before after : List (K × α)) (u v : K) (value : α) :
    moment f (before ++ (u, value) :: (v, value) :: after) =
      moment f (before ++ (u + v, value) :: after) := by
  simp only [moment, List.map_append, List.map_cons, List.sum_append, List.sum_cons]
  ring

theorem moment_centred (f : α → K) (centre : K) (samples : List (K × α)) :
    moment (fun x => (f x - centre) ^ 2) samples =
      moment (fun x => f x ^ 2) samples - 2 * centre * moment f samples +
        centre ^ 2 * total samples := by
  induction samples with
  | nil => simp [moment, total]
  | cons sample rest ih =>
    simp only [moment, total, List.map_cons, List.sum_cons] at ih ⊢
    rw [ih]
    ring

end Sums

section Order

theorem max?_congr {K : Type} [LinearOrder K] {xs ys : List K}
    (same : ∀ value, value ∈ xs ↔ value ∈ ys) : xs.max? = ys.max? := by
  apply Option.ext
  intro value
  simp only [List.max?_eq_some_iff, same]

variable {K α : Type} [Field K] [LinearOrder K] {samples : List (K × α)}

theorem moment_filter_pos (f : α → K) (weights : ∀ sample ∈ samples, 0 ≤ sample.1) :
    moment f (samples.filter fun sample => decide (0 < sample.1)) = moment f samples := by
  induction samples with
  | nil => rfl
  | cons sample rest ih =>
    have others := ih fun other member => weights other (List.mem_cons_of_mem _ member)
    have here := weights sample List.mem_cons_self
    rcases here.lt_or_eq with positive | zero
    · simp only [moment, List.filter_cons, decide_eq_true positive, if_true, List.map_cons,
        List.sum_cons] at others ⊢
      rw [others]
    · simp only [moment, List.filter_cons, ← zero, lt_irrefl, decide_false, Bool.false_eq_true,
        if_false, List.map_cons, List.sum_cons, mul_zero, zero_add] at others ⊢
      exact others

theorem total_filter_pos (weights : ∀ sample ∈ samples, 0 ≤ sample.1) :
    total (samples.filter fun sample => decide (0 < sample.1)) = total samples := by
  have same := moment_filter_pos (fun _ => 1) weights
  simp only [moment, one_mul] at same
  exact same

variable [IsStrictOrderedRing K] {f : α → K}

theorem moment_nonneg (weights : ∀ sample ∈ samples, 0 ≤ sample.1)
    (values : ∀ sample ∈ samples, 0 ≤ f sample.2) : 0 ≤ moment f samples := by
  apply List.sum_nonneg
  intro term member
  obtain ⟨sample, inside, rfl⟩ := List.mem_map.mp member
  exact mul_nonneg (values sample inside) (weights sample inside)

theorem mean_sq_le (weights : ∀ sample ∈ samples, 0 ≤ sample.1) (positive : 0 < total samples) :
    (moment f samples / total samples) ^ 2 ≤
      moment (fun x => f x ^ 2) samples / total samples := by
  have spread : 0 ≤ moment (fun x => (f x - moment f samples / total samples) ^ 2) samples :=
    moment_nonneg weights fun sample _ => sq_nonneg _
  rw [moment_centred] at spread
  rw [le_div_iff₀ positive]
  have square : (moment f samples / total samples) ^ 2 * total samples =
      moment f samples / total samples * moment f samples := by
    rw [sq, mul_assoc, div_mul_cancel₀ _ positive.ne']
  linarith

theorem mean_le {bound : K} (weights : ∀ sample ∈ samples, 0 ≤ sample.1)
    (values : ∀ sample ∈ samples, f sample.2 ≤ bound) (positive : 0 < total samples) :
    moment f samples / total samples ≤ bound := by
  rw [div_le_iff₀ positive]
  clear positive
  induction samples with
  | nil => simp [moment, total]
  | cons sample rest ih =>
    have first := mul_le_mul_of_nonneg_right (values sample List.mem_cons_self)
      (weights sample List.mem_cons_self)
    have others := ih (fun other member => weights other (List.mem_cons_of_mem _ member))
      (fun other member => values other (List.mem_cons_of_mem _ member))
    simp only [moment, total, List.map_cons, List.sum_cons] at others ⊢
    linarith

end Order

end Chimaera.Base.Weighted
