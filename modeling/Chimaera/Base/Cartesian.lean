import Mathlib.Algebra.BigOperators.Group.List.Basic
import Mathlib.Data.List.Forall2
import Mathlib.Data.List.Nodup
import Mathlib.Data.List.Range

/-! Cartesian products of lists. The places of the elements taken are told apart even where
the elements are equal. -/

namespace Chimaera.Base.Cartesian

variable {α : Type*}

/-- All ways to take one element of each list; the last varies fastest. -/
def product : List (List α) → List (List α)
  | [] => [[]]
  | choices :: rest => choices.flatMap fun choice => (product rest).map (choice :: ·)

theorem length_product (lists : List (List α)) :
    (product lists).length = (lists.map List.length).prod := by
  induction lists with
  | nil => rfl
  | cons choices rest ih =>
    simp only [product, List.length_flatMap, List.length_map, List.map_const', List.sum_replicate_nat,
      ih, List.map_cons, List.prod_cons]

variable {lists : List (List α)}

theorem mem_product {tuple : List α} :
    tuple ∈ product lists ↔ List.Forall₂ (· ∈ ·) tuple lists := by
  induction lists generalizing tuple with
  | nil => simp [product]
  | cons choices rest ih =>
    simp only [product, List.mem_flatMap, List.mem_map, ih, List.forall₂_cons_right_iff]
    constructor
    · rintro ⟨choice, member, others, related, rfl⟩
      exact ⟨choice, others, member, related, rfl⟩
    · rintro ⟨choice, others, member, related, rfl⟩
      exact ⟨choice, member, others, related, rfl⟩

theorem nodup_product (distinct : ∀ choices ∈ lists, choices.Nodup) :
    (product lists).Nodup := by
  induction lists with
  | nil => exact List.nodup_singleton _
  | cons choices rest ih =>
    obtain ⟨first, others⟩ := List.forall_mem_cons.mp distinct
    rw [product, List.nodup_flatMap]
    refine ⟨fun choice _ => (ih others).map List.cons_injective, ?_⟩
    apply first.imp
    intro one two different tuple inOne inTwo
    obtain ⟨tail, -, rfl⟩ := List.mem_map.mp inOne
    obtain ⟨other, -, same⟩ := List.mem_map.mp inTwo
    exact different (List.cons.inj same).1.symm

def places (lists : List (List α)) : List (List Nat) :=
  product (lists.map fun choices => List.range choices.length)

inductive Picks : List (List α) → List Nat → List α → Prop where
  | nil : Picks [] [] []
  | cons {choices : List α} {rest : List (List α)} {place : Nat} {others : List Nat} {value : α}
      {values : List α} (found : choices[place]? = some value) (later : Picks rest others values) :
      Picks (choices :: rest) (place :: others) (value :: values)

theorem mem_places {tuple : List Nat} :
    tuple ∈ places lists ↔ List.Forall₂ (fun place choices => place < choices.length) tuple lists := by
  rw [places, mem_product, List.forall₂_map_right_iff]
  simp only [List.mem_range]

theorem nodup_places (lists : List (List α)) : (places lists).Nodup := by
  apply nodup_product
  intro choices member
  obtain ⟨source, -, rfl⟩ := List.mem_map.mp member
  exact List.nodup_range

theorem picks_range (choices : List α) :
    List.Forall₂ (fun place value => choices[place]? = some value)
      (List.range choices.length) choices := by
  rw [List.forall₂_iff_get]
  refine ⟨List.length_range, ?_⟩
  intro place first second
  simp only [List.get_eq_getElem, List.getElem_range]
  exact List.getElem?_eq_getElem second

theorem picks_product (lists : List (List α)) :
    List.Forall₂ (Picks lists) (places lists) (product lists) := by
  induction lists with
  | nil => exact .cons .nil .nil
  | cons choices rest ih =>
    apply List.rel_flatMap (picks_range choices)
    intro place value found
    rw [List.forall₂_map_left_iff, List.forall₂_map_right_iff]
    exact ih.imp fun _ _ later => .cons found later

end Chimaera.Base.Cartesian
