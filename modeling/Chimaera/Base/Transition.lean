import Mathlib.Logic.Relation

/-! Runs of a machine given by a partial step function. An event that is not
enabled in a state has no successor there, so a run exists exactly when every
event of it is enabled in turn. -/

namespace Chimaera.Base.Transition

variable {σ ε τ α : Type*}

def run (step : σ → ε → Option σ) : σ → List ε → Option σ
  | state, [] => some state
  | state, event :: rest => (step state event).bind fun next => run step next rest

def Reachable (step : σ → ε → Option σ) (initial state : σ) : Prop :=
  ∃ events, run step initial events = some state

@[simp] theorem run_nil (step : σ → ε → Option σ)
    (state : σ) : run step state [] = some state := rfl

theorem run_cons (step : σ → ε → Option σ) (state final : σ) (event : ε) (rest : List ε) :
    run step state (event :: rest) = some final ↔
      ∃ next, step state event = some next ∧ run step next rest = some final := by
  simp only [run, Option.bind_eq_some_iff]

theorem run_append (step : σ → ε → Option σ) (state final : σ) (first second : List ε) :
    run step state (first ++ second) = some final ↔
      ∃ middle, run step state first = some middle ∧ run step middle second = some final := by
  induction first generalizing state with
  | nil => simp
  | cons event rest ih =>
    simp only [List.cons_append, run_cons, ih]
    constructor
    · rintro ⟨next, taken, middle, reached, later⟩
      exact ⟨middle, ⟨next, taken, reached⟩, later⟩
    · rintro ⟨middle, ⟨next, taken, reached⟩, later⟩
      exact ⟨next, taken, middle, reached, later⟩

variable {step : σ → ε → Option σ} {Inv : σ → Prop}

theorem run_preserves
    (keep : ∀ state event after, Inv state → step state event = some after → Inv after)
    {state final : σ} {events : List ε} (start : Inv state)
    (ran : run step state events = some final) : Inv final := by
  induction events generalizing state with
  | nil => cases ran; exact start
  | cons event rest ih =>
    obtain ⟨next, taken, later⟩ := (run_cons step state final event rest).mp ran
    exact ih (keep state event next start taken) later

/-- What every enabled step keeps under a guard is kept by a run that meets the guard at each
step. -/
theorem run_preserves_guarded {Guard : σ → ε → Prop}
    (keep : ∀ state event after, Inv state → Guard state event → step state event = some after →
      Inv after) {state final : σ} {events : List ε} (start : Inv state)
    (guarded : ∀ front event rest before, events = front ++ event :: rest →
      run step state front = some before → Guard before event)
    (ran : run step state events = some final) : Inv final := by
  induction events generalizing state with
  | nil => cases ran; exact start
  | cons event rest ih =>
    obtain ⟨next, taken, later⟩ := (run_cons step state final event rest).mp ran
    apply ih (keep state event next start (guarded [] event rest state rfl rfl) taken) ?_ later
    intro front other tail before split reached
    apply guarded (event :: front) other tail before
    · rw [split, List.cons_append]
    · exact (run_cons step state before event front).mpr ⟨next, taken, reached⟩

def Along (step : σ → ε → Option σ) (Guard : σ → ε → Prop) : σ → List ε → Prop
  | _, [] => True
  | state, event :: rest =>
      Guard state event ∧ ∀ next, step state event = some next → Along step Guard next rest

instance Along.decide (step : σ → ε → Option σ) (Guard : σ → ε → Prop)
    [∀ state event, Decidable (Guard state event)] :
    ∀ state events, Decidable (Along step Guard state events)
  | _, [] => .isTrue trivial
  | state, event :: rest =>
      have := fun next => Along.decide step Guard next rest
      inferInstanceAs (Decidable (Guard state event ∧
        ∀ next ∈ step state event, Along step Guard next rest))

theorem Along.guarded {Guard : σ → ε → Prop} {state : σ} {events : List ε}
    (along : Along step Guard state events) (front : List ε) (event : ε)
    (rest : List ε) (before : σ) (split : events = front ++ event :: rest)
    (ran : run step state front = some before) : Guard before event := by
  induction front generalizing state events with
  | nil =>
    cases ran
    subst split
    exact along.1
  | cons first front ih =>
    subst split
    obtain ⟨next, taken, later⟩ := (run_cons step state before first front).mp ran
    exact ih (along.2 next taken) rfl later

theorem Reachable.invariant {initial state : σ}
    (keep : ∀ state event after, Inv state → step state event = some after → Inv after)
    (start : Inv initial) (reached : Reachable step initial state) : Inv state := by
  obtain ⟨events, ran⟩ := reached
  exact run_preserves keep start ran

/-- Events for the items of a list run to the end if each is enabled after those before it. -/
theorem run_map (Inv : σ → List α → Prop) (event : α → ε)
    (items : List α) {state : σ} (start : Inv state [])
    (enabled : ∀ state done item rest, items = done ++ item :: rest → Inv state done →
      ∃ next, step state (event item) = some next ∧ Inv next (done ++ [item])) :
    ∃ final, run step state (items.map event) = some final ∧ Inv final items := by
  suffices general : ∀ rest done state, items = done ++ rest → Inv state done →
      ∃ final, run step state (rest.map event) = some final ∧ Inv final items from
    general items [] state rfl start
  intro rest
  induction rest with
  | nil =>
    intro done state split holds
    rw [List.append_nil] at split
    exact ⟨state, rfl, split ▸ holds⟩
  | cons item rest ih =>
    intro done state split holds
    obtain ⟨next, taken, extended⟩ := enabled state done item rest split holds
    obtain ⟨final, ran, reached⟩ := ih (done ++ [item]) next (by simp [split]) extended
    exact ⟨final, (run_cons step state final (event item) _).mpr ⟨next, taken, ran⟩, reached⟩

/-- A simulation that answers every concrete step by zero or one abstract moves
answers a whole run by a path of abstract moves. -/
theorem run_simulated {Move : τ → τ → Prop} (Rel : σ → τ → Prop)
    (answer : ∀ state event after abstract, Rel state abstract → step state event = some after →
      ∃ next, Relation.ReflGen Move abstract next ∧ Rel after next)
    {state final : σ} {events : List ε} {abstract : τ} (start : Rel state abstract)
    (ran : run step state events = some final) :
    ∃ last, Relation.ReflTransGen Move abstract last ∧ Rel final last := by
  induction events generalizing state abstract with
  | nil => cases ran; exact ⟨abstract, .refl, start⟩
  | cons event rest ih =>
    obtain ⟨next, taken, later⟩ := (run_cons step state final event rest).mp ran
    obtain ⟨moved, path, related⟩ := answer state event next abstract start taken
    obtain ⟨last, further, finished⟩ := ih related later
    exact ⟨last, path.to_reflTransGen.trans further, finished⟩

end Chimaera.Base.Transition
