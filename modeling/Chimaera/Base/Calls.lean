import Mathlib.Data.List.Induction

/-! Sequences of calls on one object, together with what each call returned. A call that
does not return has no result, and no later call is made. -/

namespace Chimaera.Base.Calls

variable {σ γ ρ ι : Type*}

/-- Inside a method that changes its object, a computed value changes nothing. -/
@[simp] theorem ofExcept_ok {ε σ α : Type} (value : α) :
    (MonadExcept.ofExcept (.ok value : Except ε α) : EStateM ε σ α) = pure value := rfl

def calls (perform : σ → γ → Option (ρ × σ)) : σ → List γ → Option (List (γ × ρ) × σ)
  | state, [] => some ([], state)
  | state, call :: rest =>
      (perform state call).bind fun (result, next) =>
        (calls perform next rest).map fun (trace, final) => ((call, result) :: trace, final)

variable {perform : σ → γ → Option (ρ × σ)} {trace : List (γ × ρ)}

theorem calls_cons {state final : σ} {call : γ} {rest : List γ} :
    calls perform state (call :: rest) = some (trace, final) ↔
      ∃ result next tail, perform state call = some (result, next) ∧
        calls perform next rest = some (tail, final) ∧ trace = (call, result) :: tail := by
  simp only [calls, Option.bind_eq_some_iff, Option.map_eq_some_iff, Prod.mk.injEq, Prod.exists]
  constructor
  · rintro ⟨result, next, made, tail, _, later, rfl, rfl⟩
    exact ⟨result, next, tail, made, later, rfl⟩
  · rintro ⟨result, next, tail, made, later, rfl⟩
    exact ⟨result, next, made, tail, final, later, rfl, rfl⟩

theorem calls_append {state final : σ} {front rest : List γ} :
    calls perform state (front ++ rest) = some (trace, final) ↔
      ∃ first middle second, calls perform state front = some (first, middle) ∧
        calls perform middle rest = some (second, final) ∧ trace = first ++ second := by
  induction front generalizing state trace with
  | nil =>
    constructor
    · intro made
      exact ⟨[], state, trace, rfl, made, rfl⟩
    · rintro ⟨first, middle, second, none, made, rfl⟩
      cases none
      exact made
  | cons call front ih =>
    simp only [List.cons_append, calls_cons, ih]
    constructor
    · rintro ⟨result, next, tail, made, ⟨first, middle, second, before, later, rfl⟩, rfl⟩
      exact ⟨_, middle, second, ⟨result, next, first, made, before, rfl⟩, later, rfl⟩
    · rintro ⟨_, middle, second, ⟨result, next, first, made, before, rfl⟩, later, rfl⟩
      exact ⟨result, next, _, made, ⟨first, middle, second, before, later, rfl⟩, rfl⟩

/-- After some calls have been made, the rest continues from the state they left. -/
theorem calls_after {state middle : σ} {front : List γ} {done : List (γ × ρ)}
    (made : calls perform state front = some (done, middle)) (rest : List γ) :
    calls perform state (front ++ rest) =
      (calls perform middle rest).map fun (later, final) => (done ++ later, final) := by
  apply Option.ext
  rintro ⟨trace, final⟩
  simp only [calls_append, made, Option.some.injEq, Prod.mk.injEq, Option.map_eq_some_iff,
    Prod.exists]
  constructor
  · rintro ⟨first, reached, later, ⟨rfl, rfl⟩, further, rfl⟩
    exact ⟨later, final, further, rfl, rfl⟩
  · rintro ⟨later, last, further, rfl, rfl⟩
    exact ⟨done, middle, later, ⟨rfl, rfl⟩, further, rfl⟩

theorem calls_snoc {state middle final : σ} {front : List γ} {call : γ} {result : ρ}
    (before : calls perform state front = some (trace, middle))
    (made : perform middle call = some (result, final)) :
    calls perform state (front ++ [call]) = some (trace ++ [(call, result)], final) := by
  apply calls_append.mpr
  exact ⟨trace, middle, [(call, result)], before,
    calls_cons.mpr ⟨result, final, [], made, rfl, rfl⟩, rfl⟩

theorem calls_events {state final : σ} {events : List γ}
    (made : calls perform state events = some (trace, final)) :
    trace.map Prod.fst = events := by
  induction events generalizing state trace with
  | nil => cases made; rfl
  | cons call rest ih =>
    obtain ⟨result, next, tail, -, later, rfl⟩ := calls_cons.mp made
    rw [List.map_cons, ih later]

/-- What every call keeps, together with the history so far, holds after all of them. -/
theorem calls_invariant (Inv : List (γ × ρ) → σ → Prop)
    (keep : ∀ done state call result next, Inv done state →
      perform state call = some (result, next) → Inv (done ++ [(call, result)]) next)
    {state final : σ} {events : List γ} {trace : List (γ × ρ)} (start : Inv [] state)
    (made : calls perform state events = some (trace, final)) : Inv trace final := by
  suffices general : ∀ events done state trace, Inv done state →
      calls perform state events = some (trace, final) → Inv (done ++ trace) final from
    general events [] state trace start made
  intro events
  induction events with
  | nil =>
    intro done state trace holds none
    cases none
    rwa [List.append_nil]
  | cons call rest ih =>
    intro done state trace holds some
    obtain ⟨result, next, tail, called, later, rfl⟩ := calls_cons.mp some
    have further := ih _ _ _ (keep done state call result next holds called) later
    rwa [List.append_assoc, List.singleton_append] at further

/-- Objects that answer every call alike, whatever the reading `ι` of their code, make one
trace. -/
theorem calls_total {perform : ι → σ → γ → Option (ρ × σ)} (Inv : List (γ × ρ) → σ → Prop)
    {initial : σ} (start : Inv [] initial)
    (answer : ∀ done state call, Inv done state → ∃ result next,
      (∀ reading, perform reading state call = some (result, next)) ∧
        Inv (done ++ [(call, result)]) next) (events : List γ) :
    ∃ trace final, (∀ reading, calls (perform reading) initial events = some (trace, final)) ∧
      Inv trace final := by
  induction events using List.reverseRecOn with
  | nil => exact ⟨[], initial, fun _ => rfl, start⟩
  | append_singleton front call ih =>
    obtain ⟨trace, state, made, holds⟩ := ih
    obtain ⟨result, next, answered, kept⟩ := answer trace state call holds
    exact ⟨trace ++ [(call, result)], next,
      fun reading => calls_snoc (made reading) (answered reading), kept⟩

/-! ## Calls that change nothing -/

def heard (perform : σ → γ → Option (ρ × σ)) (silent : σ → γ → Bool) :
    σ → List γ → List (γ × ρ)
  | _, [] => []
  | state, call :: rest =>
      match perform state call with
      | none => []
      | some (result, next) =>
          if silent state call then heard perform silent next rest
          else (call, result) :: heard perform silent next rest

/-- Calls that leave the object as it is can be left out: the others return what they did and
the object ends as before. -/
theorem calls_heard {silent : σ → γ → Bool}
    (still : ∀ state call result next, silent state call = true →
      perform state call = some (result, next) → next = state)
    {state final : σ} {events : List γ} {trace : List (γ × ρ)}
    (made : calls perform state events = some (trace, final)) :
    (heard perform silent state events).Sublist trace ∧
      calls perform state ((heard perform silent state events).map Prod.fst) =
        some (heard perform silent state events, final) := by
  induction events generalizing state trace with
  | nil =>
    cases made
    exact ⟨List.Sublist.refl _, rfl⟩
  | cons call rest ih =>
    obtain ⟨result, next, tail, called, later, rfl⟩ := calls_cons.mp made
    obtain ⟨among, again⟩ := ih later
    simp only [heard, called]
    by_cases quiet : silent state call = true
    · have same := still state call result next quiet called
      subst same
      rw [if_pos quiet]
      exact ⟨among.cons _, again⟩
    · rw [if_neg quiet]
      refine ⟨among.cons_cons _, ?_⟩
      apply calls_cons.mpr
      exact ⟨result, next, _, called, again, rfl⟩

end Chimaera.Base.Calls
