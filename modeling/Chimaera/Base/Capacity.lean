import Mathlib.Data.List.Basic
import Mathlib.Order.Lattice

/-! Vectors by their elements and their capacity, under the operations of one call. Storage
comes from an allocator that may refuse. Each request is recorded, an explicit reservation
apart from the growth of an operation that found no room. -/

namespace Chimaera.Base.Capacity

structure Buffer (α : Type) where
  elements : List α
  capacity : Nat
  fits : elements.length ≤ capacity

inductive Request where
  | reserve (room : Nat)
  | growth (room : Nat)
  deriving DecidableEq, Repr

inductive Failure where
  | badAlloc
  | runtimeError (what : String)
  deriving DecidableEq, Repr

/-- The answer to a request for room: a refusal, or how much more than asked for is there. -/
abbrev Allocator := Nat → Option Nat

structure Memory (α ρ : Type) where
  buffer : Buffer α
  rest : ρ
  requests : List Request := []

variable {α ρ : Type}

namespace Buffer

def empty : Buffer α := ⟨[], 0, Nat.le_refl 0⟩

def enlarge (buffer : Buffer α) (room : Nat) : Buffer α :=
  ⟨buffer.elements, max buffer.capacity room, buffer.fits.trans (le_max_left _ _)⟩

def push (buffer : Buffer α) (element : α) : Buffer α where
  elements := buffer.elements ++ [element]
  capacity := max buffer.capacity (buffer.elements.length + 1)
  fits := by
    rw [List.length_append]
    exact le_max_right _ _

def replace (buffer : Buffer α) (elements : List α)
    (fewer : elements.length ≤ buffer.elements.length) : Buffer α :=
  ⟨elements, buffer.capacity, fewer.trans buffer.fits⟩

/-- `std::move` of the elements from an index on to the front; what they leave behind is
the moved-from value. -/
def moveDown (buffer : Buffer α) (gone : α) (start : Nat) : Buffer α :=
  buffer.replace (buffer.elements.drop start ++
      List.replicate (buffer.elements.length - (buffer.elements.length - start)) gone) (by
    rw [List.length_append, List.length_drop, List.length_replicate]
    omega)

def truncate (buffer : Buffer α) (count : Nat) : Buffer α :=
  buffer.replace (buffer.elements.take count) (by
    rw [List.length_take]
    omega)

def eraseIf (buffer : Buffer α) (gone : α → Bool) : Buffer α :=
  buffer.replace (buffer.elements.filter fun element => !gone element) (List.length_filter_le _ _)

def set (buffer : Buffer α) (index : Nat) (element : α) : Buffer α :=
  buffer.replace (buffer.elements.set index element) (by rw [List.length_set])

def clear (buffer : Buffer α) : Buffer α := buffer.replace [] (Nat.zero_le _)

@[simp] theorem elements_empty : (empty : Buffer α).elements = [] := rfl

@[simp] theorem elements_enlarge (buffer : Buffer α) (room : Nat) :
    (buffer.enlarge room).elements = buffer.elements := rfl

theorem le_capacity_enlarge (buffer : Buffer α) (room : Nat) :
    room ≤ (buffer.enlarge room).capacity := le_max_right _ _

theorem ext {first second : Buffer α} (elements : first.elements = second.elements)
    (capacity : first.capacity = second.capacity) : first = second := by
  cases first
  cases second
  cases elements
  cases capacity
  rfl

theorem push_within {buffer : Buffer α} (enough : buffer.elements.length + 1 ≤ buffer.capacity)
    (element : α) : (buffer.push element).capacity = buffer.capacity := max_eq_left enough

/-- Moving the rest down and cutting the vector to it leaves the rest, in the same storage. -/
theorem truncate_moveDown (buffer : Buffer α) (gone : α) (start : Nat) :
    (buffer.moveDown gone start).truncate (buffer.elements.length - start) =
      buffer.replace (buffer.elements.drop start) (by
        rw [List.length_drop]
        omega) := by
  apply Buffer.ext
  · have size : buffer.elements.length - start = (buffer.elements.drop start).length :=
      List.length_drop.symm
    change List.take _ (buffer.elements.drop start ++ _) = buffer.elements.drop start
    rw [size, List.take_left]
  · rfl

end Buffer

/-! ## Operations -/

/-- One request: refused, it is the exception; granted, the elements move to larger storage. -/
def allocate (allocator : Allocator) (request : Request) (room : Nat) :
    EStateM Failure (Memory α ρ) Unit := do
  modify fun memory => { memory with requests := memory.requests ++ [request] }
  match allocator room with
  | none => throw .badAlloc
  | some extra =>
      modify fun memory => { memory with buffer := memory.buffer.enlarge (room + extra) }

def reserve (allocator : Allocator) (room : Nat) : EStateM Failure (Memory α ρ) Unit := do
  if room > (← get).buffer.capacity then allocate allocator (.reserve room) room

def pushBack (allocator : Allocator) (element : α) : EStateM Failure (Memory α ρ) Unit := do
  let memory ← get
  if memory.buffer.elements.length = memory.buffer.capacity then
    let room := memory.buffer.elements.length + 1
    allocate allocator (.growth room) room
  modify fun memory => { memory with buffer := memory.buffer.push element }

/-- The loop that pushes the elements of another container by `std::move`; each leaves its
moved-from value behind among the other variables. -/
def pushMoved (allocator : Allocator) (leave : Nat → ρ → ρ) :
    Nat → List α → EStateM Failure (Memory α ρ) Unit
  | _, [] => pure ()
  | index, element :: later => do
      pushBack allocator element
      modify fun memory => { memory with rest := leave index memory.rest }
      pushMoved allocator leave (index + 1) later

def pushFill (allocator : Allocator) (element : α) : Nat → EStateM Failure (Memory α ρ) Unit
  | 0 => pure ()
  | count + 1 => do
      pushBack allocator element
      pushFill allocator element count

def resize (allocator : Allocator) (element : α) (count : Nat) :
    EStateM Failure (Memory α ρ) Unit := do
  let size := (← get).buffer.elements.length
  if count ≤ size then
    modify fun memory => { memory with buffer := memory.buffer.truncate count }
  else pushFill allocator element (count - size)

def checked {α σ : Type} (result : Except String α) : EStateM Failure σ α :=
  match result with
  | .ok value => pure value
  | .error what => throw (.runtimeError what)

@[simp] theorem checked_ok {α σ : Type} (value : α) :
    (checked (.ok value) : EStateM Failure σ α) = pure value := rfl

/-! ## Statements in turn -/

section Sequence

variable {σ β γ : Type}

theorem run_bind_ok {first : EStateM Failure σ β} {state next : σ} {value : β}
    (returned : first.run state = .ok value next) (later : β → EStateM Failure σ γ) :
    (first >>= later).run state = (later value).run next := by
  rw [EStateM.run_bind, returned]

theorem run_bind_error {first : EStateM Failure σ β} {state next : σ} {failure : Failure}
    (thrown : first.run state = .error failure next) (later : β → EStateM Failure σ γ) :
    (first >>= later).run state = .error failure next := by
  rw [EStateM.run_bind, thrown]

theorem run_modify (change : σ → σ) (state : σ) :
    (modify change : EStateM Failure σ PUnit).run state = .ok () (change state) := rfl

end Sequence

/-! ## Within the capacity -/

structure Reserved (room : Nat) (before after : Memory α ρ) : Prop where
  elements : after.buffer.elements = before.buffer.elements
  enough : room ≤ after.buffer.capacity
  rest : after.rest = before.rest
  requests : after.requests = before.requests ∨
    ∃ asked, after.requests = before.requests ++ [.reserve asked]

/-- A computation that reserves room: it leaves the room, or ends by a refused request and has
changed nothing. -/
def Reserves (allocator : Allocator) (room : Nat) (before : Memory α ρ)
    (outcome : EStateM.Result Failure (Memory α ρ) Unit) : Prop :=
  (∃ after, outcome = .ok () after ∧ Reserved room before after) ∨
    ∃ asked, allocator asked = none ∧ outcome =
      .error .badAlloc { before with requests := before.requests ++ [.reserve asked] }

variable {allocator : Allocator} {memory : Memory α ρ}

theorem Reserves.of_enough {room : Nat}
    (enough : room ≤ memory.buffer.capacity) : Reserves allocator room memory (.ok () memory) :=
  .inl ⟨memory, rfl, rfl, enough, rfl, .inl rfl⟩

theorem Reserves.mono {room needed : Nat} {outcome : EStateM.Result Failure (Memory α ρ) Unit}
    (reserves : Reserves allocator room memory outcome) (less : needed ≤ room) :
    Reserves allocator needed memory outcome := by
  rcases reserves with ⟨after, returned, reserved⟩ | refused
  · exact .inl ⟨after, returned, { reserved with enough := less.trans reserved.enough }⟩
  · exact .inr refused

theorem reserve_run (memory : Memory α ρ) (room : Nat) (allocator : Allocator) :
    Reserves allocator room memory ((reserve allocator room).run memory) := by
  by_cases more : room > memory.buffer.capacity
  · simp only [reserve, EStateM.run_bind, EStateM.run_get, if_pos more, allocate]
    cases answer : allocator room with
    | none => exact .inr ⟨room, answer, rfl⟩
    | some extra =>
      have grown := memory.buffer.le_capacity_enlarge (room + extra)
      exact .inl ⟨_, rfl, rfl, (Nat.le_add_right room extra).trans grown, rfl, .inr ⟨room, rfl⟩⟩
  · simp only [reserve, EStateM.run_bind, EStateM.run_get, if_neg more]
    exact Reserves.of_enough (Nat.not_lt.mp more)

theorem pushBack_within (enough : memory.buffer.elements.length + 1 ≤ memory.buffer.capacity)
    (allocator : Allocator) (element : α) :
    (pushBack allocator element).run memory =
      .ok () { memory with buffer := memory.buffer.push element } := by
  have room : memory.buffer.elements.length ≠ memory.buffer.capacity := by omega
  simp only [pushBack, EStateM.run_bind, EStateM.run_get, if_neg room]
  rfl

theorem resize_within {count : Nat}
    (fewer : count ≤ memory.buffer.elements.length) (allocator : Allocator) (element : α) :
    (resize allocator element count).run memory =
      .ok () { memory with buffer := memory.buffer.truncate count } := by
  simp only [resize, EStateM.run_bind, EStateM.run_get, if_pos fewer]
  rfl

/-- As long as the capacity is enough for all of them, pushing elements requests nothing. -/
theorem pushMoved_within {elements : List α}
    (enough : memory.buffer.elements.length + elements.length ≤ memory.buffer.capacity)
    (allocator : Allocator) (leave : Nat → ρ → ρ) (index : Nat) :
    ∃ after, (pushMoved allocator leave index elements).run memory = .ok () after ∧
      after.buffer.elements = memory.buffer.elements ++ elements ∧
      after.buffer.capacity = memory.buffer.capacity ∧ after.requests = memory.requests ∧
      after.rest = (List.range' index elements.length).foldl (fun rest i => leave i rest)
        memory.rest := by
  induction elements generalizing memory index with
  | nil => exact ⟨memory, rfl, (List.append_nil _).symm, rfl, rfl, rfl⟩
  | cons element later ih =>
    rw [List.length_cons] at enough
    have room : memory.buffer.elements.length + 1 ≤ memory.buffer.capacity := by omega
    let next : Memory α ρ := { memory with
      buffer := memory.buffer.push element, rest := leave index memory.rest }
    have same : next.buffer.capacity = memory.buffer.capacity := Buffer.push_within room element
    have longer : next.buffer.elements.length = memory.buffer.elements.length + 1 :=
      List.length_append
    have fits : next.buffer.elements.length + later.length ≤ next.buffer.capacity := by omega
    obtain ⟨after, ran, pushed, capacity, requests, rest⟩ := ih fits (index + 1)
    refine ⟨after, ?_, ?_, capacity.trans same, requests, ?_⟩
    · rw [← ran, pushMoved, EStateM.run_bind, pushBack_within room]
      rfl
    · rw [pushed]
      exact (List.append_assoc _ [element] later).trans rfl
    · rw [rest, List.length_cons, List.range'_succ, List.foldl_cons]

/-! ## Calls that reserve first -/

def final {σ : Type} : EStateM.Result Failure σ Unit → σ
  | .ok _ after => after
  | .error _ after => after

/-- A call that can only fail before it has changed anything: it makes at most one request, the
explicit reservation, and a refusal leaves the vector and the other variables as they were. -/
structure Guarded (allocator : Allocator) (before : Memory α ρ)
    (outcome : EStateM.Result Failure (Memory α ρ) Unit) : Prop where
  explicit : ∀ request ∈ (final outcome).requests, ∃ room, request = .reserve room
  once : (final outcome).requests.length ≤ 1
  unchanged : ∀ failure after, outcome = .error failure after →
    after.buffer = before.buffer ∧ after.rest = before.rest
  refused : ∀ after, outcome = .error .badAlloc after →
    ∃ room, after.requests = [.reserve room] ∧ allocator room = none

theorem Guarded.of_throw {before : Memory α ρ} (fresh : before.requests = [])
    (what : String) : Guarded allocator before (.error (.runtimeError what) before) where
  explicit := by
    intro request member
    rw [final, fresh] at member
    cases member
  once := by
    rw [final, fresh]
    exact Nat.zero_le 1
  unchanged := by
    intro failure after thrown
    cases thrown
    exact ⟨rfl, rfl⟩
  refused := by
    intro after thrown
    cases thrown

theorem Guarded.of_refusal {before : Memory α ρ}
    (fresh : before.requests = []) {room : Nat} (refusal : allocator room = none) :
    Guarded allocator before
      (.error .badAlloc { before with requests := before.requests ++ [.reserve room] }) where
  explicit := by
    intro request member
    simp only [final, fresh, List.nil_append, List.mem_singleton] at member
    exact ⟨room, member⟩
  once := by
    rw [final, fresh]
    exact Nat.le_refl 1
  unchanged := by
    intro failure after thrown
    cases thrown
    exact ⟨rfl, rfl⟩
  refused := by
    intro after thrown
    cases thrown
    exact ⟨room, by rw [fresh, List.nil_append], refusal⟩

theorem Guarded.of_return {before after : Memory α ρ}
    (requests : after.requests = [] ∨ ∃ asked, after.requests = [.reserve asked]) :
    Guarded allocator before (.ok () after) where
  explicit := by
    intro request member
    rw [final] at member
    rcases requests with none | ⟨room, one⟩
    · rw [none] at member
      cases member
    · rw [one] at member
      exact ⟨room, List.mem_singleton.mp member⟩
  once := by
    rw [final]
    rcases requests with none | ⟨room, one⟩
    · rw [none]
      exact Nat.zero_le 1
    · rw [one]
      exact Nat.le_refl 1
  unchanged := by
    intro failure later thrown
    cases thrown
  refused := by
    intro later thrown
    cases thrown

structure Agrees {σ β : Type} (described : Except String β) (view : σ → β)
    (outcome : EStateM.Result Failure σ Unit) : Prop where
  returned : ∀ after, outcome = .ok () after → described = .ok (view after)
  threw : ∀ what after, outcome = .error (.runtimeError what) after → described = .error what

section Agrees

variable {σ β : Type} {described : Except String β} {view : σ → β} {after : σ}

theorem Agrees.of_throw {what : String} (refused : described = .error what) :
    Agrees described view (.error (.runtimeError what) after) := by
  constructor
  · intro later returned
    cases returned
  · intro other later thrown
    cases thrown
    exact refused

theorem Agrees.of_refusal : Agrees described view (.error .badAlloc after) := by
  constructor
  · intro later returned
    cases returned
  · intro what later thrown
    cases thrown

theorem Agrees.of_return (accepted : described = .ok (view after)) :
    Agrees described view (.ok () after) := by
  constructor
  · intro later returned
    cases returned
    exact accepted
  · intro what later thrown
    cases thrown

end Agrees

end Chimaera.Base.Capacity
