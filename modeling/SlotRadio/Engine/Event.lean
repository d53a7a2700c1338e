import SlotRadio.Audio.MixPlan
import SlotRadio.Config.Fault
import SlotRadio.Contact.Basic
import SlotRadio.Station.Arbitration
import SlotRadio.Timing.Slot
/-!
# What the engine reports

Everything that happens is reported as a stream of events.  A request
that cannot be met is answered with a fault.
-/

namespace SlotRadio

/-- One report.  With the beginning of a slot come the last composite and the
frames of the slot before; a deadline is the last moment to play a composite.
`mixUnderrun` is a mix that found nothing to play, `mixOverrun` one that was
asked for after its playback time, and after `mixFailed` the cache is empty. -/
inductive Event where
  | slotStart (slot : Slot) (previous : Option Slot) (previousMix : Option Composite)
      (previousFrames : List Frame)
  | checkpoint (c : Checkpoint)
  | deadline (slot : Slot)
  | clockAnomaly (jumpMs : Int) (resynced : Slot)
  | scheduleOverrun (slotId : Nat) (skipped : List Nat) (lateMs : Nat)
  | contact (e : ContactEvent)
  | refusal (c : Refusal)
  | mixReady (slotStartMs : Nat) (audio : Composite)
  | mixUnderrun (slotStartMs : Nat)
  | mixOverrun (slotStartMs : Nat)
  | mixFailed (slotStartMs : Nat) (fault : MixFault)

/-- Why a request cannot be met: two operators would be in conflict, something
is wrong with the audio or its mix, there is no such operator or there is one
already, no slot has begun yet, the audio is for a slot that is over, or the
engine has been shut down. -/
inductive EngineFault where
  | overlap (o : Overlap)
  | mix (f : MixFault)
  | unknownOperator (operator : Nat)
  | duplicateOperator (operator : Nat)
  | noSlot
  | staleSlot (slotStartMs : Nat)
  | closed
  deriving DecidableEq, Repr

/-- The report of a fault; a crashed worker leaves none. -/
def EngineFault.message : EngineFault → Option String
  | overlap o => some o.message
  | mix f => f.message
  | unknownOperator operator =>
    some ("unknown operator " ++ Decimal.naturalText operator)
  | duplicateOperator operator =>
    some ("operator " ++ Decimal.naturalText operator ++ " already registered")
  | noSlot => some "no slot observed yet"
  | staleSlot start =>
    some ("audio for slot starting at " ++ Decimal.naturalText start ++
      " ms is no longer current")
  | closed => some "runtime channel closed"

end SlotRadio
