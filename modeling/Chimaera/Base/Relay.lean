import Mathlib.Data.List.Basic

/-! A stage that passes items on in their order. While it is intact, what has come in is what
has gone out followed by what waits; when it breaks, it passes nothing more on, so what has
gone out stays a beginning of what has come in. Stages that feed each other form one stage. -/

namespace Chimaera.Base.Relay

variable {α : Type*}

structure Hop (α : Type*) where
  input : List α
  output : List α
  waiting : List α
  intact : Prop

structure Faithful (relay : Hop α) : Prop where
  whole : relay.intact → relay.input = relay.output ++ relay.waiting
  ordered : relay.output <+: relay.input

theorem faithful_of_whole {relay : Hop α} (whole : relay.input = relay.output ++ relay.waiting) :
    Faithful relay where
  whole _ := whole
  ordered := ⟨relay.waiting, whole.symm⟩

variable {relay after : Hop α}

theorem Faithful.enters (faithful : Faithful relay) {fresh : List α} (intact : relay.intact)
    (input : after.input = relay.input ++ fresh) (output : after.output = relay.output)
    (waiting : after.waiting = relay.waiting ++ fresh) : Faithful after := by
  apply faithful_of_whole
  rw [input, output, waiting, faithful.whole intact, List.append_assoc]

theorem Faithful.leaves (faithful : Faithful relay) {sent : List α} (intact : relay.intact)
    (input : after.input = relay.input) (output : after.output = relay.output ++ sent)
    (waiting : relay.waiting = sent ++ after.waiting) : Faithful after := by
  apply faithful_of_whole
  rw [input, output, List.append_assoc, ← waiting, faithful.whole intact]

/-- The stage breaks; what still comes in is lost. -/
theorem Faithful.breaks (faithful : Faithful relay) (broken : ¬after.intact)
    (input : relay.input <+: after.input) (output : after.output = relay.output) :
    Faithful after where
  whole intact := absurd intact broken
  ordered := by
    rw [output]
    exact faithful.ordered.trans input

theorem Faithful.stays (faithful : Faithful relay) (input : after.input = relay.input)
    (output : after.output = relay.output)
    (waiting : after.intact → relay.intact ∧ after.waiting = relay.waiting) : Faithful after where
  whole intact := by
    obtain ⟨before, same⟩ := waiting intact
    rw [input, output, same, faithful.whole before]
  ordered := by
    rw [input, output]
    exact faithful.ordered

def Hop.chain (first second : Hop α) : Hop α where
  input := first.input
  output := second.output
  waiting := second.waiting ++ first.waiting
  intact := first.intact ∧ second.intact

theorem Faithful.chain {first second : Hop α} (before : Faithful first) (behind : Faithful second)
    (feeds : second.input = first.output) : Faithful (first.chain second) where
  whole intact := by
    calc first.input
        _ = first.output ++ first.waiting := before.whole intact.1
        _ = second.output ++ second.waiting ++ first.waiting := by
          rw [← feeds, behind.whole intact.2]
        _ = second.output ++ (second.waiting ++ first.waiting) := List.append_assoc _ _ _
  ordered := by
    have passed := behind.ordered
    rw [feeds] at passed
    exact passed.trans before.ordered

end Chimaera.Base.Relay
