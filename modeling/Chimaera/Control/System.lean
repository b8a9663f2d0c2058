import Chimaera.Base.Transition
import Chimaera.Control.Host

/-! Guest and host over a reliable in-order transport: what one end sends, the other
receives in the same order. Events of the guest, of the application thread and of the
worker interleave freely. -/

namespace Chimaera.Control
open Base.BigEndian Base.Unsigned Base.Transition

structure System where
  guest : Guest
  host : Host
  toHost : List Message
  toGuest : List Message
  deriving DecidableEq, Repr

inductive Event where
  | guest (event : GuestEvent)
  | host (event : HostEvent)

namespace System

def initial (poll : PollInterval) : System := ⟨{}, { poll := poll }, [], []⟩

def step (system : System) : Event → Option System
  | .guest event => do
      let (guest, inbox, sent) ← system.guest.step system.toGuest event
      some { system with guest := guest, toGuest := inbox, toHost := system.toHost ++ sent }
  | .host event => do
      let (host, inbox, sent) ← system.host.step system.toHost event
      some { system with host := host, toHost := inbox, toGuest := system.toGuest ++ sent }

structure Valid (system : System) : Prop where
  guest : system.guest.Valid
  host : system.host.Valid

theorem valid_initial (poll : PollInterval) : Valid (initial poll) where
  guest := Guest.valid_initial
  host := Host.valid_initial poll

/-- A step of the system is a move of one end, which reads its own channel and appends to
the other. -/
theorem step_cases {system after : System} {event : Event} (valid : Valid system)
    (taken : system.step event = some after) :
    (∃ guest inbox sent, system.guest.Move system.toGuest guest inbox sent ∧
      after = { system with guest := guest, toGuest := inbox, toHost := system.toHost ++ sent }) ∨
    ∃ host inbox sent, system.host.Move system.toHost host inbox sent ∧
      after = { system with host := host, toHost := inbox, toGuest := system.toGuest ++ sent } := by
  cases event with
  | guest event =>
    obtain ⟨⟨guest, inbox, sent⟩, moved, same⟩ := Option.bind_eq_some_iff.mp taken
    exact .inl ⟨guest, inbox, sent, Guest.step_move valid.guest moved, (Option.some.inj same).symm⟩
  | host event =>
    obtain ⟨⟨host, inbox, sent⟩, moved, same⟩ := Option.bind_eq_some_iff.mp taken
    exact .inr ⟨host, inbox, sent, Host.step_move valid.host moved, (Option.some.inj same).symm⟩

theorem step_valid (system : System) (event : Event) (after : System) (valid : Valid system)
    (taken : system.step event = some after) : Valid after := by
  rcases step_cases valid taken with ⟨guest, inbox, sent, move, rfl⟩ | ⟨host, inbox, sent, move, rfl⟩
  · exact ⟨move.valid valid.guest, valid.host⟩
  · exact ⟨valid.guest, move.valid valid.host⟩

end System

end Chimaera.Control
