import Mathlib.Data.Finset.Card
import Mathlib.Data.Finset.SDiff
import Mathlib.Order.Bounds.Defs

/-! Exploration of a graph by a stack of pending nodes that may hold nodes twice. A visit
pushes the successors of a node or raises; it may also change a state of its own. -/

namespace Chimaera.Base.Worklist

variable {α τ ε : Type}

structure State (α τ : Type) where
  selected : List α
  pending : List α
  rest : τ

def round [DecidableEq α] (visit : τ → α → Except ε (List α × τ)) (state : State α τ) (node : α)
    (later : List α) : Except ε (State α τ) :=
  if node ∈ state.selected then .ok { state with pending := later }
  else
    match visit state.rest node with
    | .error raised => .error raised
    | .ok (pushed, rest) => .ok ⟨state.selected ++ [node], pushed.reverse ++ later, rest⟩

/-- `while pending`, with a bound on its rounds. -/
def loop [DecidableEq α] (visit : τ → α → Except ε (List α × τ)) :
    Nat → State α τ → Option (Except ε (State α τ))
  | _, ⟨selected, [], rest⟩ => some (.ok ⟨selected, [], rest⟩)
  | 0, ⟨_, _ :: _, _⟩ => none
  | fuel + 1, ⟨selected, node :: later, rest⟩ =>
      match round visit ⟨selected, node :: later, rest⟩ node later with
      | .error raised => some (.error raised)
      | .ok next => loop visit fuel next

inductive Reaches (edge : α → α → Prop) (roots : List α) : α → Prop
  | root {node : α} (member : node ∈ roots) : Reaches edge roots node
  | next {node successor : α} (reached : Reaches edge roots node) (leads : edge node successor) :
      Reaches edge roots successor

def Closed (edge : α → α → Prop) (roots : List α) : Set (Set α) :=
  { nodes | (∀ node ∈ roots, node ∈ nodes) ∧
    ∀ node ∈ nodes, ∀ successor, edge node successor → successor ∈ nodes }

theorem reaches_of_closed {edge : α → α → Prop} {roots : List α} {nodes : Set α}
    (closed : nodes ∈ Closed edge roots) {node : α} (reached : Reaches edge roots node) :
    node ∈ nodes := by
  induction reached with
  | root member => exact closed.1 _ member
  | next _ leads inside => exact closed.2 _ inside _ leads

def Explores (visit : τ → α → Except ε (List α × τ)) (edge : α → α → Prop)
    (Fine : α → Prop) : Prop :=
  ∀ rest node pushed after, visit rest node = .ok (pushed, after) →
    Fine node ∧ ∀ successor, successor ∈ pushed ↔ edge node successor

/-- What the rounds keep: all nodes in hand are reached, and what has to be selected is selected
or pending. -/
structure Invariant (edge : α → α → Prop) (Fine : α → Prop) (roots : List α) (state : State α τ) :
    Prop where
  reached : ∀ node, node ∈ state.selected ∨ node ∈ state.pending → Reaches edge roots node
  fine : ∀ node ∈ state.selected, Fine node
  roots : ∀ node ∈ roots, node ∈ state.selected ∨ node ∈ state.pending
  followed : ∀ node ∈ state.selected, ∀ successor, edge node successor →
    successor ∈ state.selected ∨ successor ∈ state.pending

theorem Invariant.start {edge : α → α → Prop} {Fine : α → Prop} (roots : List α) (rest : τ) :
    Invariant edge Fine roots ⟨[], roots.reverse, rest⟩ := by
  constructor
  · intro node member
    rcases member with selected | pending
    · cases selected
    · exact .root (List.mem_reverse.mp pending)
  · intro node member
    cases member
  · intro node member
    exact .inr (List.mem_reverse.mpr member)
  · intro node member
    cases member

section Rounds

variable [DecidableEq α] {visit : τ → α → Except ε (List α × τ)}

theorem loop_done (fuel : Nat) (selected : List α) (rest : τ) :
    loop visit fuel ⟨selected, [], rest⟩ = some (.ok ⟨selected, [], rest⟩) := by
  cases fuel with
  | zero => rfl
  | succ fuel => rfl

theorem loop_round (fuel : Nat) (selected : List α) (node : α) (later : List α) (rest : τ) :
    loop visit (fuel + 1) ⟨selected, node :: later, rest⟩ =
      match round visit ⟨selected, node :: later, rest⟩ node later with
      | .error raised => some (.error raised)
      | .ok next => loop visit fuel next := rfl

theorem loop_mono {fuel more : Nat} (enough : fuel ≤ more) {state : State α τ}
    {outcome : Except ε (State α τ)} (ended : loop visit fuel state = some outcome) :
    loop visit more state = some outcome := by
  induction fuel generalizing more state with
  | zero =>
    obtain ⟨selected, pending, rest⟩ := state
    cases pending with
    | nil =>
      rw [loop_done] at ended ⊢
      exact ended
    | cons node later => cases ended
  | succ fuel ih =>
    obtain ⟨more, rfl⟩ : ∃ rounds, more = rounds + 1 := ⟨more - 1, by omega⟩
    obtain ⟨selected, pending, rest⟩ := state
    cases pending with
    | nil =>
      rw [loop_done] at ended ⊢
      exact ended
    | cons node later =>
      rw [loop_round] at ended ⊢
      cases taken : round visit ⟨selected, node :: later, rest⟩ node later with
      | error raised =>
        rw [taken] at ended
        exact ended
      | ok next =>
        rw [taken] at ended
        exact ih (by omega) ended

end Rounds

section Exploration

variable [DecidableEq α] {visit : τ → α → Except ε (List α × τ)} {edge : α → α → Prop}
  {Fine : α → Prop}

theorem round_cases (explores : Explores visit edge Fine) (state : State α τ) (node : α)
    (later : List α) :
    (node ∈ state.selected ∧ round visit state node later = .ok { state with pending := later }) ∨
    (∃ (pushed : List α) (after : τ), node ∉ state.selected ∧ Fine node ∧
      (∀ successor, successor ∈ pushed ↔ edge node successor) ∧
      round visit state node later =
        .ok ⟨state.selected ++ [node], pushed.reverse ++ later, after⟩) ∨
    ∃ raised, visit state.rest node = .error raised ∧
      round visit state node later = .error raised := by
  by_cases again : node ∈ state.selected
  · exact .inl ⟨again, if_pos again⟩
  · right
    cases visited : visit state.rest node with
    | error raised =>
      refine .inr ⟨raised, rfl, ?_⟩
      rw [round, if_neg again, visited]
    | ok result =>
      obtain ⟨pushed, after⟩ := result
      obtain ⟨fine, successors⟩ := explores _ _ _ _ visited
      refine .inl ⟨pushed, after, again, fine, successors, ?_⟩
      rw [round, if_neg again, visited]

/-- Each round takes a node off the stack or selects one more of finitely many. -/
theorem loop_terminates (explores : Explores visit edge Fine) {nodes : Finset α}
    (finite : ∀ node, Fine node → node ∈ nodes) (state : State α τ) :
    ∃ fuel outcome, loop visit fuel state = some outcome := by
  generalize measure : (nodes \ state.selected.toFinset).card = left
  induction left using Nat.strongRecOn generalizing state with
  | ind left fewer =>
    obtain ⟨selected, pending, rest⟩ := state
    induction pending with
    | nil => exact ⟨0, _, loop_done 0 selected rest⟩
    | cons node later ih =>
      rcases round_cases explores ⟨selected, node :: later, rest⟩ node later with
        ⟨-, taken⟩ | ⟨pushed, after, new, fine, -, taken⟩ | ⟨raised, -, taken⟩
      · obtain ⟨fuel, outcome, ended⟩ := ih measure
        refine ⟨fuel + 1, outcome, ?_⟩
        rw [loop_round, taken]
        exact ended
      · have less : (nodes \ (selected ++ [node]).toFinset).card < left := by
          rw [← measure]
          apply Finset.card_lt_card
          apply (Finset.ssubset_iff_of_subset _).mpr
          · exact ⟨node, by simp [finite node fine, new], by simp⟩
          · intro other member
            simp only [List.toFinset_append, Finset.mem_sdiff, Finset.mem_union,
              List.mem_toFinset, not_or] at member ⊢
            exact ⟨member.1, member.2.1⟩
        obtain ⟨fuel, outcome, ended⟩ :=
          fewer _ less ⟨selected ++ [node], pushed.reverse ++ later, after⟩ rfl
        refine ⟨fuel + 1, outcome, ?_⟩
        rw [loop_round, taken]
        exact ended
      · refine ⟨1, .error raised, ?_⟩
        rw [loop_round, taken]

theorem Invariant.round (explores : Explores visit edge Fine) {roots : List α}
    {state next : State α τ} (holds : Invariant edge Fine roots state) {node : α}
    {later : List α} (pending : state.pending = node :: later)
    (taken : round visit state node later = .ok next) : Invariant edge Fine roots next := by
  have here : Reaches edge roots node := holds.reached node (by simp [pending])
  rcases round_cases explores state node later with
    ⟨again, same⟩ | ⟨pushed, after, -, fine, successors, same⟩ | ⟨raised, -, same⟩
  · rw [same] at taken
    cases taken
    have still : ∀ other, other ∈ state.selected ∨ other ∈ state.pending →
        other ∈ state.selected ∨ other ∈ later := by
      intro other member
      rw [pending, List.mem_cons] at member
      rcases member with selected | rfl | later
      · exact .inl selected
      · exact .inl again
      · exact .inr later
    constructor
    · intro other member
      apply holds.reached
      rw [pending, List.mem_cons]
      exact member.imp_right .inr
    · exact holds.fine
    · intro other member
      exact still other (holds.roots other member)
    · intro other member successor leads
      exact still successor (holds.followed other member successor leads)
  · rw [same] at taken
    cases taken
    have still : ∀ other, other ∈ state.selected ∨ other ∈ state.pending →
        other ∈ state.selected ++ [node] ∨ other ∈ pushed.reverse ++ later := by
      intro other member
      rw [pending, List.mem_cons] at member
      rcases member with selected | rfl | later
      · exact .inl (List.mem_append_left _ selected)
      · exact .inl List.mem_append_cons_self
      · exact .inr (List.mem_append_right _ later)
    constructor
    · intro other member
      simp only [List.mem_append, List.mem_singleton, List.mem_reverse] at member
      rcases member with (selected | rfl) | push | later
      · exact holds.reached other (.inl selected)
      · exact here
      · exact here.next ((successors other).mp push)
      · exact holds.reached other (.inr (by simp [pending, later]))
    · intro other member
      rcases List.mem_append.mp member with selected | new
      · exact holds.fine other selected
      · rw [List.mem_singleton.mp new]
        exact fine
    · intro other member
      exact still other (holds.roots other member)
    · intro other member successor leads
      rcases List.mem_append.mp member with selected | new
      · exact still successor (holds.followed other selected successor leads)
      · rw [List.mem_singleton.mp new] at leads
        right
        rw [List.mem_append, List.mem_reverse]
        exact .inl ((successors successor).mpr leads)
  · rw [same] at taken
    cases taken

/-- The rounds keep the invariant until the stack is empty, or a visit of a reached node raises. -/
theorem loop_sound (explores : Explores visit edge Fine) {roots : List α} {state : State α τ}
    (holds : Invariant edge Fine roots state) {fuel : Nat} {outcome : Except ε (State α τ)}
    (ended : loop visit fuel state = some outcome) :
    (∃ final, outcome = .ok final ∧ Invariant edge Fine roots final ∧ final.pending = []) ∨
    ∃ raised node rest, outcome = .error raised ∧ Reaches edge roots node ∧
      visit rest node = .error raised := by
  induction fuel generalizing state with
  | zero =>
    obtain ⟨selected, pending, rest⟩ := state
    cases pending with
    | nil =>
      rw [loop_done] at ended
      exact .inl ⟨_, (Option.some.inj ended).symm, holds, rfl⟩
    | cons node later => cases ended
  | succ fuel ih =>
    obtain ⟨selected, pending, rest⟩ := state
    cases pending with
    | nil =>
      rw [loop_done] at ended
      exact .inl ⟨_, (Option.some.inj ended).symm, holds, rfl⟩
    | cons node later =>
      rw [loop_round] at ended
      cases taken : round visit ⟨selected, node :: later, rest⟩ node later with
      | ok next =>
        rw [taken] at ended
        exact ih (holds.round explores rfl taken) ended
      | error raised =>
        rw [taken] at ended
        right
        refine ⟨raised, node, rest, (Option.some.inj ended).symm, holds.reached node (by simp), ?_⟩
        rcases round_cases explores ⟨selected, node :: later, rest⟩ node later with
          ⟨-, same⟩ | ⟨pushed, after, -, -, -, same⟩ | ⟨other, visited, same⟩
        · rw [same] at taken
          cases taken
        · rw [same] at taken
          cases taken
        · rw [same] at taken
          cases taken
          exact visited

/-- The loop ends: with the least closed set, all of it fine, or by raising at a reached node that
is not. -/
theorem exploration (explores : Explores visit edge Fine) {nodes : Finset α}
    (finite : ∀ node, Fine node → node ∈ nodes) (roots : List α) (rest : τ) :
    ∃ fuel outcome,
      (∀ more, fuel ≤ more → loop visit more ⟨[], roots.reverse, rest⟩ = some outcome) ∧
      ((∃ final, outcome = .ok final ∧ (∀ node, Reaches edge roots node → Fine node) ∧
          IsLeast (Closed edge roots) { node | node ∈ final.selected }) ∨
        ∃ raised node rest, outcome = .error raised ∧ Reaches edge roots node ∧
          visit rest node = .error raised) := by
  obtain ⟨fuel, outcome, ended⟩ := loop_terminates explores finite ⟨[], roots.reverse, rest⟩
  refine ⟨fuel, outcome, fun more enough => loop_mono enough ended, ?_⟩
  rcases loop_sound explores (Invariant.start roots rest) ended with
    ⟨final, returned, holds, done⟩ | raises
  · left
    have none : ∀ node, node ∉ final.pending := by
      intro node member
      rw [done] at member
      cases member
    have closed : { node | node ∈ final.selected } ∈ Closed edge roots := by
      constructor
      · intro node member
        exact (holds.roots node member).resolve_right (none node)
      · intro node member successor leads
        exact (holds.followed node member successor leads).resolve_right (none successor)
    refine ⟨final, returned, ?_, closed, ?_⟩
    · intro node reached
      exact holds.fine node (reaches_of_closed closed reached)
    · intro other contains node member
      exact reaches_of_closed contains (holds.reached node (.inl member))
  · exact .inr raises

end Exploration

end Chimaera.Base.Worklist
