import SlotRadio.Contact.Automaton
import SlotRadio.Station.Arbitration
/-!
# Operators who hear each other

Several automatic operators share a band.  In each slot they are given
their commands, it is decided who may transmit, every operator begins
the slot, and every message on the air reaches all the others, unless it
is lost.

* `Band.begin` — the slot begins for all, with the given grants;
* `Band.deliver` — the messages on the air are heard;
* `Band.cycle` — a whole slot, the grants being decided by arbitration.
-/

namespace SlotRadio

/-- An operator on the band, and the level at which the others hear it. -/
structure Party where
  operator : Nat
  snr : Int
  automaton : Automaton

/-- What one slot has brought to an operator, who is shown as it was at the
beginning of the slot. -/
structure PartyReport where
  party : Party
  outcome : SlotOutcome

namespace Band

/-- Gives a command to an operator. -/
def command (parties : List Party) (operator : Nat) (c : Command) : List Party :=
  parties.map fun p =>
    if p.operator = operator then { p with automaton := (p.automaton.obey c).1 } else p

/-- The wishes to transmit. -/
def claims (parties : List Party) : List Claim :=
  parties.map fun p =>
    ⟨p.operator, p.automaton.station, p.automaton.contact.phase.inProgress⟩

/-- A slot begins for every operator. -/
def begin (slot : Slot) (granted : Nat → Bool) (parties : List Party) : List PartyReport :=
  parties.map fun p =>
    let (automaton, outcome) := p.automaton.beginSlot slot (granted p.operator)
    ⟨{ p with automaton }, outcome⟩

/-- A message as the decoder of another operator gives it. -/
def frameOf (snr : Int) (t : Transmission) : Frame :=
  ⟨t.message, snr, 0, 0, t.slotStartMs⟩

/-- Every operator but the sender hears a frame. -/
def hearFrom (sender : Nat) (f : Frame) (parties : List Party) : List Party :=
  parties.map fun p =>
    if p.operator = sender then p else { p with automaton := p.automaton.receive f }

/-- The messages on the air are heard, in the order of the operators,
unless they are lost. -/
def deliver (lost : Nat → Bool) (reports : List PartyReport) : List Party :=
  reports.foldl
    (fun parties r =>
      match r.outcome.transmission with
      | some t =>
        if lost r.party.operator then parties
        else hearFrom r.party.operator (frameOf r.party.snr t) parties
      | none => parties)
    (reports.map (·.party))

/-- What one slot has brought: the refusals, and the operators in their
order. -/
structure CycleReport where
  refusals : List Refusal
  reports : List PartyReport

/-- One slot: commands, arbitration, the beginning, and what is heard. -/
def cycle (mode : Mode) (separation : Nat) (slot : Slot) (commands : List (Nat × Command))
    (lost : Nat → Bool) (parties : List Party) : List Party × CycleReport :=
  let parties := commands.foldl (fun ps (operator, c) => command ps operator c) parties
  let grant := Grant.ofClaims mode slot (claims parties) separation
  let reports := begin slot grant.allows parties
  (deliver lost reports, ⟨grant.refusals, reports⟩)

end Band

end SlotRadio
