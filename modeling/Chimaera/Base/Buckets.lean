import Mathlib.Data.List.Induction
import Mathlib.Data.List.Sort
import Chimaera.Base.Dictionary
import Chimaera.Base.Text

/-! Entries sorted by name, in the order of code points, and items gathered in buckets under a
name that is computed from each. -/

namespace Chimaera.Base.Buckets
open Text Dictionary

/-! ## The order of names -/

def lineLe : Line → Line → Bool
  | [], _ => true
  | _ :: _, [] => false
  | c :: first, d :: second => c.toNat < d.toNat || (c.toNat = d.toNat && lineLe first second)

theorem lineLe_cons {c d : Char} {first second : Line} :
    lineLe (c :: first) (d :: second) = true ↔
      c.toNat < d.toNat ∨ c.toNat = d.toNat ∧ lineLe first second = true := by
  simp [lineLe]

theorem lineLe_total (first second : Line) :
    lineLe first second = true ∨ lineLe second first = true := by
  induction first generalizing second with
  | nil => exact Or.inl rfl
  | cons c first ih =>
    cases second with
    | nil => exact Or.inr rfl
    | cons d second =>
      rw [lineLe_cons, lineLe_cons]
      rcases Nat.lt_trichotomy c.toNat d.toNat with less | same | more
      · exact Or.inl (Or.inl less)
      · exact (ih second).imp (fun before => Or.inr ⟨same, before⟩)
          fun after => Or.inr ⟨same.symm, after⟩
      · exact Or.inr (Or.inl more)

theorem lineLe_trans {first second third : Line} (early : lineLe first second = true)
    (late : lineLe second third = true) : lineLe first third = true := by
  induction first generalizing second third with
  | nil => rfl
  | cons c first ih =>
    cases second with
    | nil => cases early
    | cons d second =>
      cases third with
      | nil => cases late
      | cons e third =>
        rw [lineLe_cons] at early late ⊢
        rcases early with less | ⟨same, within⟩
        · rcases late with later | ⟨equal, -⟩
          · exact Or.inl (less.trans later)
          · exact Or.inl (equal ▸ less)
        · rcases late with later | ⟨equal, inside⟩
          · exact Or.inl (same ▸ later)
          · exact Or.inr ⟨same.trans equal, ih within inside⟩

theorem lineLe_antisymm {first second : Line} (before : lineLe first second = true)
    (after : lineLe second first = true) : first = second := by
  induction first generalizing second with
  | nil =>
    cases second with
    | nil => rfl
    | cons d second => cases after
  | cons c first ih =>
    cases second with
    | nil => cases before
    | cons d second =>
      rw [lineLe_cons] at before after
      have heads : c.toNat = d.toNat := by omega
      have within := before.resolve_left (by omega)
      have inside := after.resolve_left (by omega)
      rw [Char.toNat_inj.mp heads, ih within.2 inside.2]

section

variable {α β : Type}

def ByName (first second : Line × α) : Prop := lineLe first.1 second.1 = true

instance : DecidableRel (ByName : Line × α → Line × α → Prop) := fun _ _ =>
  inferInstanceAs (Decidable (_ = true))

instance : Std.Total (ByName : Line × α → Line × α → Prop) where
  total first second := lineLe_total first.1 second.1

instance : IsTrans (Line × α) ByName where
  trans _ _ _ early late := lineLe_trans early late

def sortByName (entries : List (Line × α)) : List (Line × α) := entries.insertionSort ByName

theorem sortByName_perm (entries : List (Line × α)) : (sortByName entries).Perm entries :=
  List.perm_insertionSort ByName entries

theorem sortByName_map (compute : Line × α → β) (entries : List (Line × α)) :
    (sortByName entries).map (fun entry => (entry.1, compute entry)) =
      sortByName (entries.map fun entry => (entry.1, compute entry)) :=
  List.map_insertionSort ByName ByName _ entries fun _ _ _ _ => Iff.rfl

theorem sortByName_eq {first second : List (Line × α)} (same : first.Perm second)
    (distinct : (first.map Prod.fst).Nodup) : sortByName first = sortByName second := by
  have sorted := (sortByName_perm first).trans (same.trans (sortByName_perm second).symm)
  refine sorted.eq_of_pairwise ?_ (List.pairwise_insertionSort ByName first)
    (List.pairwise_insertionSort ByName second)
  intro entry other here there before after
  have names : entry.1 = other.1 := lineLe_antisymm before after
  have inFirst := (sortByName_perm first).mem_iff.mp here
  have inSecond := same.mem_iff.mpr ((sortByName_perm second).mem_iff.mp there)
  exact List.inj_on_of_nodup_map distinct inFirst inSecond names

end

/-! ## Buckets -/

section

variable {κ α : Type} [DecidableEq κ]

/-- `dict.setdefault(key, []).append(item)` -/
def collect (entries : List (κ × List α)) (key : κ) (item : α) : List (κ × List α) :=
  assign entries key ((entries.lookup key).getD [] ++ [item])

def buckets (key : α → κ) (items : List α) : List (κ × List α) :=
  items.foldl (fun entries item => collect entries (key item) item) []

theorem buckets_snoc (key : α → κ) (items : List α) (item : α) :
    buckets key (items ++ [item]) = collect (buckets key items) (key item) item := by
  rw [buckets, List.foldl_append]
  rfl

theorem lookup_buckets (key : α → κ) (items : List α) (name : κ) :
    ((buckets key items).lookup name).getD [] = items.filter fun item => key item = name := by
  induction items using List.reverseRecOn with
  | nil => rfl
  | append_singleton items item ih =>
    rw [buckets_snoc, collect, lookup_assign, List.filter_append]
    by_cases same : name = key item
    · rw [if_pos same, ← same, ih]
      simp [same]
    · rw [if_neg same, ih]
      simp [Ne.symm same]

theorem buckets_distinct (key : α → κ) (items : List α) :
    ((buckets key items).map Prod.fst).Nodup := by
  induction items using List.reverseRecOn with
  | nil => exact List.nodup_nil
  | append_singleton items item ih =>
    rw [buckets_snoc]
    exact distinct_assign ih _ _

theorem buckets_filled (key : α → κ) (items : List α) :
    ∀ entry ∈ buckets key items, entry.2 ≠ [] := by
  induction items using List.reverseRecOn with
  | nil => exact fun entry member => absurd member List.not_mem_nil
  | append_singleton items item ih =>
    rintro ⟨name, members⟩ member
    have found := lookup_of_mem (buckets_distinct key (items ++ [item])) member
    rw [buckets_snoc, collect, lookup_assign] at found
    split_ifs at found with same
    · rw [← Option.some.inj found]
      exact List.append_ne_nil_of_right_ne_nil _ (List.cons_ne_nil _ _)
    · exact ih (name, members) (mem_of_lookup found)

theorem mem_buckets {key : α → κ} {items : List α} {entry : κ × List α}
    (member : entry ∈ buckets key items) :
    entry.2 = items.filter fun item => key item = entry.1 := by
  have found := lookup_of_mem (buckets_distinct key items) member
  rw [← lookup_buckets, found]
  rfl

theorem exists_bucket (key : α → κ) {items : List α} {item : α} (member : item ∈ items) :
    ∃ entry ∈ buckets key items, entry.1 = key item ∧ item ∈ entry.2 := by
  have inside : item ∈ ((buckets key items).lookup (key item)).getD [] := by
    rw [lookup_buckets, List.mem_filter]
    exact ⟨member, decide_eq_true rfl⟩
  cases found : (buckets key items).lookup (key item) with
  | none =>
    rw [found] at inside
    exact absurd inside List.not_mem_nil
  | some members =>
    rw [found] at inside
    exact ⟨(key item, members), mem_of_lookup found, rfl, inside⟩

theorem flatMap_assign (entries : List (κ × List α)) (key : κ) (item : α) :
    ((collect entries key item).flatMap Prod.snd).Perm (entries.flatMap Prod.snd ++ [item]) := by
  unfold collect
  induction entries with
  | nil => exact List.Perm.refl _
  | cons entry rest ih =>
    obtain ⟨name, old⟩ := entry
    rw [assign, lookup_cons]
    by_cases same : name = key
    · rw [if_pos same, if_pos same.symm, List.flatMap_cons, List.flatMap_cons, Option.getD_some,
        List.append_assoc, List.append_assoc]
      exact List.perm_append_comm.append_left old
    · rw [if_neg same, if_neg (Ne.symm same), List.flatMap_cons, List.flatMap_cons,
        List.append_assoc]
      exact ih.append_left old

theorem buckets_perm (key : α → κ) (items : List α) :
    ((buckets key items).flatMap Prod.snd).Perm items := by
  induction items using List.reverseRecOn with
  | nil => exact List.Perm.refl _
  | append_singleton items item ih =>
    rw [buckets_snoc]
    exact (flatMap_assign _ _ _).trans (ih.append_right [item])

end

theorem mem_names_buckets {κ α : Type} [DecidableEq κ] {key : α → κ} {items : List α} {name : κ} :
    name ∈ (buckets key items).map Prod.fst ↔ ∃ item ∈ items, key item = name := by
  constructor
  · intro member
    obtain ⟨entry, present, rfl⟩ := List.mem_map.mp member
    obtain ⟨item, inside⟩ := List.exists_mem_of_ne_nil _ (buckets_filled key items entry present)
    rw [mem_buckets present, List.mem_filter, decide_eq_true_eq] at inside
    exact ⟨item, inside⟩
  · rintro ⟨item, member, rfl⟩
    obtain ⟨entry, present, name, -⟩ := exists_bucket key member
    exact List.mem_map.mpr ⟨entry, present, name⟩

theorem sorted_buckets {α : Type} (key : α → Line) (items : List α) :
    sortByName (buckets key items) =
      (sortByName ((buckets key items).map fun entry => (entry.1, ()))).map fun entry =>
        (entry.1, items.filter fun item => key item = entry.1) := by
  rw [sortByName_map, List.map_map]
  congr 1
  conv_lhs => rw [← List.map_id (buckets key items)]
  apply List.map_congr_left
  intro entry member
  exact Prod.ext rfl (mem_buckets member)

/-- Sorted buckets of the same items in another order differ in the order of their members. -/
theorem buckets_reorder {α : Type} (key : α → Line) {items order : List α}
    (same : order.Perm items) :
    List.Forall₂ (fun first second => first.1 = second.1 ∧ first.2.Perm second.2)
      (sortByName (buckets key items)) (sortByName (buckets key order)) := by
  have names : ((buckets key items).map Prod.fst).Perm ((buckets key order).map Prod.fst) := by
    rw [List.perm_ext_iff_of_nodup (buckets_distinct key items) (buckets_distinct key order)]
    intro name
    rw [mem_names_buckets, mem_names_buckets]
    simp only [same.mem_iff]
  have labels : ∀ entries : List (Line × List α), entries.map (fun entry => (entry.1, ())) =
      (entries.map Prod.fst).map fun name => (name, ()) := fun entries => by
    rw [List.map_map]
    rfl
  have sorted := sortByName_eq (names.map fun name => (name, ())) (by
    rw [List.map_map]
    exact (List.map_id _).symm ▸ buckets_distinct key items)
  rw [sorted_buckets, sorted_buckets key order, labels, labels, sorted, List.forall₂_map_left_iff,
    List.forall₂_map_right_iff, List.forall₂_same]
  intro entry member
  exact ⟨rfl, (same.filter _).symm⟩

end Chimaera.Base.Buckets
