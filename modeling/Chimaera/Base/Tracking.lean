import Mathlib.Algebra.Order.Group.Abs
import Mathlib.Algebra.BigOperators.Group.List.Basic

/-! Following a moving target with an imprecise actuator. Each round moves the target
forward and asks the follower for exactly what is then missing, or for nothing if it is
ahead. The error of one round does not add to the errors of the rounds before. -/

namespace Chimaera.Base.Tracking

variable {α : Type*} [AddCommGroup α] [LinearOrder α]

structure Corrects (tolerance target position increment next : α) : Prop where
  forward : 0 ≤ increment
  ahead : target + increment ≤ position → next = position
  behind : position < target + increment →
    |next - position - (target + increment - position)| ≤ tolerance

theorem Corrects.near [IsOrderedAddMonoid α] {tolerance target position increment next : α}
    (round : Corrects tolerance target position increment next)
    (before : |position - target| ≤ tolerance) : |next - (target + increment)| ≤ tolerance := by
  rcases le_or_gt (target + increment) position with ahead | behind
  · rw [round.ahead ahead, abs_of_nonneg (sub_nonneg.mpr ahead)]
    calc position - (target + increment)
        = position - target - increment := sub_add_eq_sub_sub _ _ _
      _ ≤ position - target := sub_le_self _ round.forward
      _ ≤ |position - target| := le_abs_self _
      _ ≤ tolerance := before
  · have missed := round.behind behind
    rwa [sub_sub_sub_cancel_right] at missed

inductive Path (tolerance : α) : α → α → List α → α → α → Prop
  | done (target position : α) : Path tolerance target position [] target position
  | round {target position increment next lastTarget lastPosition : α} {increments : List α}
      (first : Corrects tolerance target position increment next)
      (later : Path tolerance (target + increment) next increments lastTarget lastPosition) :
      Path tolerance target position (increment :: increments) lastTarget lastPosition

theorem Path.target_eq {tolerance target position lastTarget lastPosition : α} {increments : List α}
    (path : Path tolerance target position increments lastTarget lastPosition) :
    lastTarget = target + increments.sum := by
  induction path with
  | done => simp
  | round first later ih => rw [ih, List.sum_cons, add_assoc]

/-- The error after any number of rounds is at most that of one. -/
theorem Path.near [IsOrderedAddMonoid α] {tolerance target position lastTarget lastPosition : α}
    {increments : List α} (path : Path tolerance target position increments lastTarget lastPosition)
    (before : |position - target| ≤ tolerance) : |lastPosition - lastTarget| ≤ tolerance := by
  induction path with
  | done => exact before
  | round first later ih => exact ih (first.near before)

end Chimaera.Base.Tracking
