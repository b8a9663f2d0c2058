import Mathlib.Algebra.BigOperators.Group.List.Basic
import Mathlib.Data.List.Chain

/-! A path measured in segments. Each segment is exact on its own; the whole path is as long
as the sum of its segments, at every point of it, exactly if the segments join. -/

namespace Chimaera.Base.Segments

variable {α : Type*} [AddCommGroup α]

structure Segment (α : Type*) where
  base : α
  length : α
  finish : α

def Exact (segment : Segment α) : Prop := segment.finish = segment.base + segment.length

def Contiguous (segments : List (Segment α)) : Prop :=
  segments.IsChain fun earlier later => later.base = earlier.finish

def Telescopes (segments : List (Segment α)) : Prop :=
  ∀ first ∈ segments.head?, ∀ last ∈ segments.getLast?,
    last.finish = first.base + (segments.map Segment.length).sum

variable {segments : List (Segment α)}

theorem telescopes_append {last : Segment α} (exactly : Exact last)
    (before : Telescopes segments) (joined : ∀ earlier ∈ segments.getLast?,
      last.base = earlier.finish) : Telescopes (segments ++ [last]) := by
  intro first head final tail
  rw [List.getLast?_append, List.getLast?_singleton, Option.some_or, Option.mem_some_iff] at tail
  subst tail
  rw [List.map_append, List.sum_append, List.map_singleton, List.sum_singleton, ← add_assoc]
  cases recent : segments.getLast? with
  | none =>
    rw [List.getLast?_eq_none_iff] at recent
    subst recent
    cases head
    rw [List.map_nil, List.sum_nil, add_zero]
    exact exactly
  | some earlier =>
    have nonempty : segments ≠ [] := by
      rintro rfl
      cases recent
    obtain ⟨other, rest, rfl⟩ := List.exists_cons_of_ne_nil nonempty
    cases head
    have far := before _ rfl earlier recent
    have join := joined earlier recent
    calc last.finish = last.base + last.length := exactly
      _ = earlier.finish + last.length := by rw [join]
      _ = _ := by rw [far]

theorem contiguous_of_telescopes {last earlier : Segment α}
    (exactly : Exact last) (before : Telescopes segments)
    (after : Telescopes (segments ++ [last])) (recent : earlier ∈ segments.getLast?) :
    last.base = earlier.finish := by
  have nonempty : segments ≠ [] := by
    rintro rfl
    cases recent
  obtain ⟨first, rest, rfl⟩ := List.exists_cons_of_ne_nil nonempty
  have far := before first rfl earlier recent
  have further := after first rfl last List.getLast?_concat
  rw [List.map_append, List.sum_append, List.map_singleton, List.sum_singleton, ← add_assoc,
    ← far] at further
  exact add_right_cancel (exactly.symm.trans further)

theorem contiguous_iff_telescopes (exactly : ∀ one ∈ segments, Exact one) :
    Contiguous segments ↔ ∀ front rest, segments = front ++ rest → Telescopes front := by
  induction segments using List.reverseRecOn with
  | nil =>
    constructor
    · intro _ front rest split first head
      obtain ⟨rfl, -⟩ := List.append_eq_nil_iff.mp split.symm
      cases head
    · intro _
      exact .nil
  | append_singleton segments last ih =>
    have earlier : ∀ one ∈ segments, Exact one := fun one member =>
      exactly one (List.mem_append_left _ member)
    have final : Exact last := exactly last (by simp)
    unfold Contiguous at ih ⊢
    rw [List.isChain_append]
    constructor
    · rintro ⟨chained, -, joins⟩ front rest split
      have fronts := (ih earlier).mp chained
      rcases List.eq_nil_or_concat rest with rfl | ⟨init, other, rfl⟩
      · rw [List.append_nil] at split
        subst split
        exact telescopes_append final (fronts segments [] (by simp))
          (fun one recent => joins one recent last rfl)
      · rw [List.concat_eq_append, ← List.append_assoc] at split
        exact fronts front init (List.append_inj_left' split rfl)
    · intro fronts
      have shorter : ∀ front rest, segments = front ++ rest → Telescopes front := by
        intro front rest split
        exact fronts front (rest ++ [last]) (by rw [split, List.append_assoc])
      refine ⟨(ih earlier).mpr shorter, .singleton _, ?_⟩
      intro one recent other newest
      cases newest
      exact contiguous_of_telescopes final (shorter segments [] (by simp))
        (fronts (segments ++ [last]) [] (by simp)) recent

end Chimaera.Base.Segments
