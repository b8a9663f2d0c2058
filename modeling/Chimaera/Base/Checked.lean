import Chimaera.Base.Unsigned
import Mathlib.Data.List.Basic
import Mathlib.Order.Lattice

/-! Programs over indexed stores and divisors, read so that an access out of range or
a division by zero is a fault. `Returns` is total correctness: the program comes to a
result, and the result satisfies the postcondition. -/

namespace Chimaera.Base.Checked
open Unsigned

inductive Fault where
  | outOfRange
  | divisionByZero
  /-- A clamp whose lower end is above its upper end. -/
  | crossedBounds
  deriving DecidableEq, Repr

section Operations

variable {α : Type}

def fetch (items : List α) (index : Nat) : Except Fault α :=
  match items[index]? with
  | some item => .ok item
  | none => .error .outOfRange

def quotient [Zero α] [Div α] [DecidableEq α] (a b : α) : Except Fault α :=
  if b = 0 then .error .divisionByZero else .ok (a / b)

def remainder (a b : Nat) : Except Fault Nat :=
  if b = 0 then .error .divisionByZero else .ok (a % b)

def clamp [LinearOrder α] (value low high : α) : Except Fault α :=
  if high < low then .error .crossedBounds
  else .ok (if value < low then low else if high < value then high else value)

end Operations

/-- The program returns, and what it returns satisfies `post`. -/
def Returns {ε α : Type} (program : Except ε α) (post : α → Prop) : Prop :=
  ∃ value, program = .ok value ∧ post value

section Rules

variable {ε α β σ : Type}

theorem Returns.ok {post : α → Prop} {value : α} (holds : post value) :
    Returns (.ok value : Except ε α) post := ⟨value, rfl, holds⟩

theorem Returns.bind {program : Except ε α} {next : α → Except ε β} {middle : α → Prop}
    {post : β → Prop} (first : Returns program middle)
    (second : ∀ value, program = .ok value → middle value → Returns (next value) post) :
    Returns (program >>= next) post := by
  obtain ⟨value, ran, holds⟩ := first
  obtain ⟨result, finished, reached⟩ := second value ran holds
  refine ⟨result, ?_, reached⟩
  rw [ran, ok_bind, finished]

theorem Returns.mono {program : Except ε α} {post weaker : α → Prop}
    (returns : Returns program post) (weaken : ∀ value, post value → weaker value) :
    Returns program weaker := by
  obtain ⟨value, ran, holds⟩ := returns
  exact ⟨value, ran, weaken value holds⟩

variable {items : List α} {compute : α → Except ε β}

variable {body : σ → α → Except ε σ}

/-- The rule of a loop over a list: the invariant speaks of the items already done. -/
theorem Returns.fold {start : σ} {invariant : List α → σ → Prop}
    (initial : invariant [] start)
    (step : ∀ done item state, item ∈ items → invariant done state →
      Returns (body state item) (invariant (done ++ [item]))) :
    Returns (items.foldlM body start) (invariant items) := by
  suffices general : ∀ (rest done : List α) (state : σ), (∀ item ∈ rest, item ∈ items) →
      invariant done state → Returns (rest.foldlM body state) (invariant (done ++ rest)) by
    exact general items [] start (fun _ member => member) initial
  intro rest
  induction rest with
  | nil =>
    intro done state _ holds
    rw [List.append_nil]
    exact Returns.ok holds
  | cons item rest ih =>
    intro done state inside holds
    rw [List.foldlM_cons]
    have stepped := step done item state (inside item List.mem_cons_self) holds
    refine stepped.bind fun next _ kept => ?_
    have finished := ih (done ++ [item]) next
      (fun other member => inside other (List.mem_cons_of_mem item member)) kept
    rwa [List.append_assoc] at finished

/-- The rule of a loop whose invariant does not depend on what has been done. -/
theorem Returns.loop {start : σ} {invariant : σ → Prop}
    (initial : invariant start)
    (step : ∀ item state, item ∈ items → invariant state →
      Returns (body state item) invariant) :
    Returns (items.foldlM body start) invariant := by
  have kept : Returns (items.foldlM body start) ((fun _ => invariant) items) :=
    Returns.fold initial fun _ item state member holds => step item state member holds
  exact kept

theorem foldlM_preserves {invariant : σ → Prop}
    (step : ∀ state item next, invariant state → body state item = .ok next → invariant next)
    {items : List α} {start final : σ} (initial : invariant start)
    (ran : items.foldlM body start = .ok final) : invariant final := by
  induction items generalizing start with
  | nil =>
    cases ran
    exact initial
  | cons item items ih =>
    rw [List.foldlM_cons] at ran
    obtain ⟨next, stepped, later⟩ := bind_eq_ok.mp ran
    exact ih (step start item next initial stepped) later

theorem mapM_returns {result : α → β} (each : ∀ item ∈ items, compute item = .ok (result item)) :
    items.mapM compute = .ok (items.map result) := by
  induction items with
  | nil => rfl
  | cons item items ih =>
    obtain ⟨first, later⟩ := List.forall_mem_cons.mp each
    rw [List.mapM_cons, first, ih later]
    rfl

theorem Returns.mapM {related : α → β → Prop}
    (each : ∀ item ∈ items, Returns (compute item) (related item)) :
    Returns (items.mapM compute) (List.Forall₂ related items) := by
  induction items with
  | nil => exact Returns.ok .nil
  | cons item items ih =>
    obtain ⟨first, later⟩ := List.forall_mem_cons.mp each
    rw [List.mapM_cons]
    refine first.bind fun value _ holds => ?_
    refine (ih later).bind fun values _ rest => ?_
    exact Returns.ok (.cons holds rest)

theorem forall_of_mapM {results : List β} (computed : items.mapM compute = .ok results) :
    List.Forall₂ (fun item result => compute item = .ok result) items results := by
  induction items generalizing results with
  | nil =>
    cases computed
    exact .nil
  | cons item items ih =>
    rw [List.mapM_cons] at computed
    obtain ⟨first, here, rest⟩ := bind_eq_ok.mp computed
    obtain ⟨others, there, made⟩ := bind_eq_ok.mp rest
    cases made
    exact .cons here (ih there)

theorem mem_of_mapM {results : List β} (computed : items.mapM compute = .ok results) :
    ∀ result ∈ results, ∃ item ∈ items, compute item = .ok result := by
  induction items generalizing results with
  | nil =>
    cases computed
    exact fun result member => absurd member List.not_mem_nil
  | cons item items ih =>
    rw [List.mapM_cons] at computed
    obtain ⟨first, here, rest⟩ := bind_eq_ok.mp computed
    obtain ⟨others, there, made⟩ := bind_eq_ok.mp rest
    cases made
    intro result member
    rcases List.mem_cons.mp member with rfl | later
    · exact ⟨item, List.mem_cons_self, here⟩
    · obtain ⟨source, inside, same⟩ := ih there result later
      exact ⟨source, List.mem_cons_of_mem item inside, same⟩

theorem mem_of_optionMapM {item : Option α} {result : Option β}
    (computed : item.mapM compute = .ok result) :
    ∀ value ∈ result, ∃ written, compute written = .ok value := by
  cases item with
  | none =>
    cases computed
    intro value present
    cases present
  | some written =>
    obtain ⟨made, ran, rest⟩ := bind_eq_ok.mp computed
    cases rest
    intro value present
    cases present
    exact ⟨written, ran⟩

end Rules

section Specifications

variable {α : Type}

theorem fetch_eq_ok {items : List α} {index : Nat} {item : α} :
    fetch items index = .ok item ↔ items[index]? = some item := by
  unfold fetch
  cases items[index]? with
  | none => simp
  | some found => simp

theorem fetch_returns {items : List α} {index : Nat} (inside : index < items.length) :
    Returns (fetch items index) (fun item => items[index]? = some item) := by
  have found := List.getElem?_eq_getElem inside
  exact ⟨items[index], fetch_eq_ok.mpr found, found⟩

theorem quotient_returns [Zero α] [Div α] [DecidableEq α] {a b : α} (nonzero : b ≠ 0) :
    Returns (quotient a b) (fun value => value = a / b) :=
  ⟨a / b, if_neg nonzero, rfl⟩

theorem remainder_returns {a b : Nat} (positive : 0 < b) :
    Returns (remainder a b) (fun value => value = a % b) :=
  ⟨a % b, if_neg (Nat.ne_of_gt positive), rfl⟩

theorem clamp_returns [LinearOrder α] {value low high : α} (ordered : low ≤ high) :
    Returns (clamp value low high) (fun result => low ≤ result ∧ result ≤ high) := by
  refine ⟨_, if_neg (not_lt.mpr ordered), ?_⟩
  split
  · exact ⟨le_rfl, ordered⟩
  · rename_i above
    split
    · exact ⟨ordered, le_rfl⟩
    · rename_i below
      exact ⟨not_lt.mp above, not_lt.mp below⟩

end Specifications

end Chimaera.Base.Checked
