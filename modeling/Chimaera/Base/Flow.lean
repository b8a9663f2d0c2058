import Mathlib.Data.List.Basic

/-! A one-way flow of items between two parties that may stop for good. The sender drains
items, holds them and puts them on a channel; the receiver takes them off. While both
work, every drained item is accounted for; what the receiver keeps is at any time a
beginning of what was drained. -/

namespace Chimaera.Base.Flow

variable {α : Type*}

/-- `arrived` is what a working receiver has got, `kept` the part of it that survives
when it stops. -/
structure Pipe (α : Type*) where
  drained : List α
  held : List α
  channel : List α
  arrived : List α
  kept : List α
  sending : Prop
  receiving : Prop

structure Conserved (pipe : Pipe α) : Prop where
  accounted : pipe.receiving →
    ∃ lost, pipe.drained = pipe.arrived ++ pipe.channel ++ lost ∧ (pipe.sending → lost = pipe.held)
  ordered : pipe.kept <+: pipe.drained

/-- A move of the sender: it drains fresh items, sends some of what it holds and may lose
the rest when it stops. A stopped sender does nothing. -/
structure Sends (pipe after : Pipe α) : Prop where
  moved : ∃ fresh sent lost, after.drained = pipe.drained ++ fresh ∧
    after.channel = pipe.channel ++ sent ∧ pipe.held ++ fresh = sent ++ after.held ++ lost ∧
    (after.sending → pipe.sending ∧ lost = []) ∧ (¬pipe.sending → fresh = [] ∧ sent = [])
  arrived : after.arrived = pipe.arrived
  kept : after.kept = pipe.kept
  receiving : after.receiving → pipe.receiving

/-- A move of the receiver: while it works it takes items off the channel in order, and
when it stops it keeps no more than before. -/
structure Receives (pipe after : Pipe α) : Prop where
  drained : after.drained = pipe.drained
  held : after.held = pipe.held
  sending : after.sending → pipe.sending
  working : after.receiving → pipe.receiving ∧
    pipe.arrived ++ pipe.channel = after.arrived ++ after.channel ∧ after.kept <+: after.arrived
  stopped : ¬after.receiving → after.kept <+: pipe.kept

theorem Conserved.sends {pipe after : Pipe α} (conserved : Conserved pipe)
    (move : Sends pipe after) : Conserved after := by
  obtain ⟨fresh, sent, lost, drained, channel, split, stays, stopped⟩ := move.moved
  refine ⟨fun receiving => ?_, ?_⟩
  · obtain ⟨before, total, pending⟩ := conserved.accounted (move.receiving receiving)
    by_cases sending : pipe.sending
    · refine ⟨after.held ++ lost, ?_, fun still => by rw [(stays still).2, List.append_nil]⟩
      rw [drained, total, pending sending, channel, move.arrived, List.append_assoc _ _ fresh, split]
      simp only [List.append_assoc]
    · obtain ⟨noneFresh, noneSent⟩ := stopped sending
      refine ⟨before, ?_, fun still => absurd (stays still).1 sending⟩
      rw [drained, total, channel, move.arrived, noneFresh, noneSent, List.append_nil,
        List.append_nil]
  · rw [move.kept, drained]
    exact conserved.ordered.trans (List.prefix_append _ _)

theorem Conserved.receives {pipe after : Pipe α} (conserved : Conserved pipe)
    (move : Receives pipe after) : Conserved after := by
  have accounted : after.receiving → ∃ lost,
      after.drained = after.arrived ++ after.channel ++ lost ∧
        (after.sending → lost = after.held) := by
    intro receiving
    obtain ⟨before, same, -⟩ := move.working receiving
    obtain ⟨lost, total, pending⟩ := conserved.accounted before
    exact ⟨lost, by rw [move.drained, total, same],
      fun still => by rw [move.held, pending (move.sending still)]⟩
  refine ⟨accounted, ?_⟩
  by_cases receiving : after.receiving
  · obtain ⟨lost, total, -⟩ := accounted receiving
    rw [total, List.append_assoc]
    exact (move.working receiving).2.2.trans (List.prefix_append _ _)
  · rw [move.drained]
    exact (move.stopped receiving).trans conserved.ordered

theorem Conserved.total {pipe : Pipe α} (conserved : Conserved pipe) (sending : pipe.sending)
    (receiving : pipe.receiving) :
    pipe.drained = pipe.arrived ++ pipe.channel ++ pipe.held := by
  obtain ⟨lost, total, pending⟩ := conserved.accounted receiving
  rw [total, pending sending]

end Chimaera.Base.Flow
