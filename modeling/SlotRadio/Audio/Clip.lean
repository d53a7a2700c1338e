import SlotRadio.Audio.Arithmetic
/-!
# Clips and composites

A **clip** is the audio of one operator for one slot.  A **composite**
is what is played: several clips added up.
-/

namespace SlotRadio

/-- The length in seconds of so many samples. -/
def seconds (samples rate : Nat) : Float :=
  if rate = 0 then 0 else Float.ofNat samples / Float.ofNat rate

/-- The encoded audio of one operator for one slot: `rate` samples a second,
each between minus one and one.  The encoder names its requests so that a
repetition is recognised. -/
structure Clip where
  operator : Nat
  samples : Array Float32
  rate : Nat
  encodedAtMs : Nat
  slotStartMs : Nat
  request : Option Nat

/-- The length of a clip in seconds. -/
def Clip.seconds (c : Clip) : Float :=
  SlotRadio.seconds c.samples.size c.rate

/-- Mixed audio, and the operators that are heard in it. -/
structure Composite where
  samples : Array Float32
  rate : Nat
  operators : List Nat

namespace Composite

/-- The length of a composite in seconds. -/
def seconds (c : Composite) : Float :=
  SlotRadio.seconds c.samples.size c.rate

/-- The largest sample of a composite, without its sign. -/
def peak (c : Composite) : Float32 :=
  Arithmetic.peak c.samples

end Composite

end SlotRadio
