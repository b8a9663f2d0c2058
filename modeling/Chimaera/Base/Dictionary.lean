import Mathlib.Data.List.Pairwise
import Mathlib.Data.List.Perm.Basic

/-! Dictionaries as lists of entries in the order of insertion. An assignment keeps the place
of a key that is there. -/

namespace Chimaera.Base.Dictionary

variable {κ ν : Type} [BEq κ]

def override (entries changes : List (κ × ν)) : List (κ × ν) :=
  entries.map fun (key, value) => (key, (changes.lookup key).getD value)

theorem override_comm {first second : List (κ × ν)}
    (apart : ∀ key, first.lookup key = none ∨ second.lookup key = none) (entries : List (κ × ν)) :
    override (override entries first) second = override (override entries second) first := by
  simp only [override, List.map_map]
  apply List.map_congr_left
  rintro ⟨key, value⟩ -
  rcases apart key with none | none
  · simp [none]
  · simp [none]

def Disjoint (first second : List (κ × ν)) : Prop :=
  ∀ key, first.lookup key = none ∨ second.lookup key = none

instance : Std.Symm (Disjoint : List (κ × ν) → List (κ × ν) → Prop) where
  symm _ _ disjoint key := (disjoint key).symm

def Apart (changes : List (List (κ × ν))) : Prop := changes.Pairwise Disjoint

theorem Apart.perm {changes order : List (List (κ × ν))} (apart : Apart changes)
    (same : order.Perm changes) (entries : List (κ × ν)) :
    order.foldl override entries = changes.foldl override entries := by
  have reordered : Apart order := (same.pairwise_iff symm).mpr apart
  apply same.foldl_eq'
  intro first member second other start
  by_cases equal : first = second
  · rw [equal]
  · apply override_comm
    exact List.Pairwise.forall reordered member other equal

section Lookup

variable [LawfulBEq κ] [DecidableEq κ]

def assign : List (κ × ν) → κ → ν → List (κ × ν)
  | [], key, value => [(key, value)]
  | (name, old) :: rest, key, value =>
      if name = key then (key, value) :: rest else (name, old) :: assign rest key value

theorem lookup_cons (name key : κ) (value : ν) (rest : List (κ × ν)) :
    ((name, value) :: rest).lookup key = if key = name then some value else rest.lookup key := by
  rw [List.lookup_cons]
  by_cases same : key = name
  · rw [if_pos same, same, beq_self_eq_true]
  · rw [if_neg same, beq_false_of_ne same]

variable {entries : List (κ × ν)}

theorem mem_of_lookup {key : κ} {value : ν}
    (found : entries.lookup key = some value) : (key, value) ∈ entries := by
  induction entries with
  | nil => cases found
  | cons entry rest ih =>
    obtain ⟨name, other⟩ := entry
    rw [lookup_cons] at found
    by_cases same : key = name
    · rw [if_pos same] at found
      cases found
      rw [same]
      exact List.mem_cons_self
    · rw [if_neg same] at found
      exact List.mem_cons_of_mem _ (ih found)

theorem lookup_of_mem {key : κ} {value : ν}
    (distinct : (entries.map Prod.fst).Nodup) (member : (key, value) ∈ entries) :
    entries.lookup key = some value := by
  induction entries with
  | nil => exact absurd member List.not_mem_nil
  | cons entry rest ih =>
    obtain ⟨name, other⟩ := entry
    obtain ⟨fresh, later⟩ := List.nodup_cons.mp distinct
    rw [lookup_cons]
    rcases List.mem_cons.mp member with same | inside
    · obtain ⟨rfl, rfl⟩ := Prod.mk.inj same
      rw [if_pos rfl]
    · have apart : key ≠ name := by
        rintro rfl
        exact fresh (List.mem_map.mpr ⟨(key, value), inside, rfl⟩)
      rw [if_neg apart, ih later inside]

theorem lookup_eq_none {key : κ} :
    entries.lookup key = none ↔ key ∉ entries.map Prod.fst := by
  induction entries with
  | nil => exact ⟨fun _ => List.not_mem_nil, fun _ => rfl⟩
  | cons entry rest ih =>
    obtain ⟨name, value⟩ := entry
    rw [lookup_cons, List.map_cons, List.mem_cons, not_or]
    by_cases same : key = name
    · rw [if_pos same]
      exact ⟨fun none => absurd none (Option.some_ne_none value), fun apart => absurd same apart.1⟩
    · rw [if_neg same, ih]
      exact ⟨fun absent => ⟨same, absent⟩, fun apart => apart.2⟩

theorem lookup_assign (entries : List (κ × ν)) (name key : κ) (value : ν) :
    (assign entries name value).lookup key =
      if key = name then some value else entries.lookup key := by
  induction entries with
  | nil => rw [assign, lookup_cons]
  | cons entry rest ih =>
    obtain ⟨other, old⟩ := entry
    rw [assign]
    by_cases present : other = name
    · rw [if_pos present, lookup_cons, lookup_cons, present]
      by_cases same : key = name
      · rw [if_pos same, if_pos same]
      · rw [if_neg same, if_neg same, if_neg same]
    · rw [if_neg present, lookup_cons, lookup_cons, ih]
      by_cases same : key = other
      · have apart : key ≠ name := fun equal => present (same ▸ equal)
        rw [if_pos same, if_neg apart, if_pos same]
      · rw [if_neg same, if_neg same]

omit [BEq κ] [LawfulBEq κ] in
theorem mem_of_mem_assign {key : κ} {value : ν} {entry : κ × ν}
    (member : entry ∈ assign entries key value) : entry ∈ entries ∨ entry = (key, value) := by
  induction entries with
  | nil => exact .inr (List.mem_singleton.mp member)
  | cons head rest ih =>
    rw [assign] at member
    split_ifs at member with same
    · rcases List.mem_cons.mp member with rfl | member
      · exact .inr rfl
      · exact .inl (List.mem_cons_of_mem _ member)
    · rcases List.mem_cons.mp member with rfl | member
      · exact .inl List.mem_cons_self
      · exact (ih member).imp_left (List.mem_cons_of_mem _)

theorem keys_assign (entries : List (κ × ν)) (key : κ) (value : ν) :
    (assign entries key value).map Prod.fst =
      if key ∈ entries.map Prod.fst then entries.map Prod.fst
      else entries.map Prod.fst ++ [key] := by
  induction entries with
  | nil => rfl
  | cons entry rest ih =>
    obtain ⟨name, old⟩ := entry
    rw [assign]
    by_cases same : name = key
    · simp [same]
    · rw [if_neg same, List.map_cons, ih]
      by_cases later : key ∈ rest.map Prod.fst
      · simp only [List.map_cons, List.mem_cons, later, or_true, if_true]
      · have absent : ¬ (key = name ∨ key ∈ rest.map Prod.fst) := by
          rintro (equal | member)
          · exact same equal.symm
          · exact later member
        simp only [List.map_cons, List.mem_cons, if_neg later, if_neg absent, List.cons_append]

theorem distinct_assign (distinct : (entries.map Prod.fst).Nodup)
    (key : κ) (value : ν) : ((assign entries key value).map Prod.fst).Nodup := by
  rw [keys_assign]
  split_ifs with present
  · exact distinct
  · rw [List.nodup_append]
    refine ⟨distinct, List.pairwise_singleton _ _, ?_⟩
    rintro name member other added rfl
    exact present (List.mem_singleton.mp added ▸ member)

/-- `entries.update(changes)` -/
def update (entries changes : List (κ × ν)) : List (κ × ν) :=
  changes.foldl (fun result change => assign result change.1 change.2) entries

theorem distinct_update (distinct : (entries.map Prod.fst).Nodup)
    (changes : List (κ × ν)) : ((update entries changes).map Prod.fst).Nodup := by
  induction changes generalizing entries with
  | nil => exact distinct
  | cons change rest ih => exact ih (distinct_assign distinct change.1 change.2)

theorem lookup_update {changes : List (κ × ν)} (distinct : (changes.map Prod.fst).Nodup)
    (entries : List (κ × ν)) (key : κ) :
    (update entries changes).lookup key = (changes.lookup key).or (entries.lookup key) := by
  induction changes generalizing entries with
  | nil => rfl
  | cons change rest ih =>
    obtain ⟨name, value⟩ := change
    obtain ⟨fresh, later⟩ := List.nodup_cons.mp distinct
    have step : update entries ((name, value) :: rest) = update (assign entries name value) rest :=
      rfl
    rw [step, ih later, lookup_assign, lookup_cons]
    by_cases same : key = name
    · rw [if_pos same, if_pos same, same, lookup_eq_none.mpr fresh]
      rfl
    · rw [if_neg same, if_neg same]

theorem lookup_override (entries changes : List (κ × ν)) (key : κ) :
    (override entries changes).lookup key =
      (entries.lookup key).map fun value => (changes.lookup key).getD value := by
  induction entries with
  | nil => rfl
  | cons entry rest ih =>
    obtain ⟨name, value⟩ := entry
    rw [override, List.map_cons, lookup_cons, lookup_cons]
    by_cases same : key = name
    · rw [if_pos same, if_pos same, same, Option.map_some]
    · rw [if_neg same, if_neg same]
      exact ih

theorem lookup_foldl_unchanged {changes : List (List (κ × ν))} {key : κ}
    (unchanged : ∀ change ∈ changes, change.lookup key = none) (entries : List (κ × ν)) :
    (changes.foldl override entries).lookup key = entries.lookup key := by
  induction changes generalizing entries with
  | nil => rfl
  | cons first rest ih =>
    obtain ⟨none, others⟩ := List.forall_mem_cons.mp unchanged
    rw [List.foldl_cons, ih others, lookup_override, none]
    simp

theorem lookup_foldl_changed {changes : List (List (κ × ν))} (apart : Apart changes)
    {change : List (κ × ν)} (member : change ∈ changes) {key : κ} {value : ν}
    (found : change.lookup key = some value) (entries : List (κ × ν)) :
    (changes.foldl override entries).lookup key = (entries.lookup key).map fun _ => value := by
  obtain ⟨before, after, rfl⟩ := List.append_of_mem member
  have order : (before ++ after ++ [change]).Perm (before ++ change :: after) := by
    rw [List.append_assoc]
    exact (List.perm_append_singleton change after).append_left before
  have others : ∀ other ∈ before ++ after, other.lookup key = none := by
    intro other inside
    obtain ⟨-, later, across⟩ := List.pairwise_append.mp apart
    have clash : other.lookup key = none ∨ change.lookup key = none := by
      rcases List.mem_append.mp inside with first | second
      · exact across other first change List.mem_cons_self key
      · exact ((List.pairwise_cons.mp later).1 other second key).symm
    exact clash.resolve_right (by rw [found]; simp)
  rw [← apart.perm order, List.foldl_append, List.foldl_cons, List.foldl_nil, lookup_override,
    found, lookup_foldl_unchanged others]
  rfl

/-- Entries whose values are replaced one by one, by a computation that may fail. -/
theorem mapM_entries {ε : Type} {compute : κ → ν → Except ε ν} {entries results : List (κ × ν)}
    (computed : (entries.mapM fun (key, value) => do
      let result ← compute key value
      .ok (key, result)) = .ok results) :
    results.map Prod.fst = entries.map Prod.fst ∧
      ∀ key value, entries.lookup key = some value →
        ∃ result, compute key value = .ok result ∧ results.lookup key = some result := by
  induction entries generalizing results with
  | nil =>
    cases computed
    exact ⟨rfl, nofun⟩
  | cons entry rest ih =>
    obtain ⟨name, value⟩ := entry
    rw [List.mapM_cons] at computed
    cases first : compute name value with
    | error what =>
      simp only [first] at computed
      cases computed
    | ok result =>
      cases later : rest.mapM fun (key, value) => do
          let result ← compute key value
          Except.ok (key, result) with
      | error what =>
        simp only [first, later] at computed
        cases computed
      | ok others =>
        simp only [first, later] at computed
        cases computed
        obtain ⟨keys, found⟩ := ih later
        refine ⟨congrArg (name :: ·) keys, ?_⟩
        intro key old present
        rw [lookup_cons] at present ⊢
        by_cases same : key = name
        · rw [if_pos same] at present ⊢
          obtain rfl := Option.some.inj present
          exact ⟨result, same ▸ first, rfl⟩
        · rw [if_neg same] at present ⊢
          exact found key old present

end Lookup

end Chimaera.Base.Dictionary
