import SlotRadio.Audio.Arithmetic
/-!
# Linear interpolation

A signal is brought from one rate to another by reading it at evenly
spaced positions, each value being a weighted mean of the two samples
around the position.  Positions are computed in one kind of number and
samples in another; `narrow` turns a weight from the first into the
second.

`outputLength` is the number of samples that a conversion gives: the
least that covers the whole input.
-/

namespace SlotRadio

/-- The number of samples that `length` samples become. -/
def outputLength (length fromRate toRate : Nat) : Nat :=
  if fromRate = 0 then 0 else (length * toRate + fromRate - 1) / fromRate

namespace Linear

variable {π σ : Type} [Position π] [Arithmetic σ]

/-- Where output sample `i` is read, in input samples. -/
def position (fromRate toRate i : Nat) : π :=
  Arithmetic.ofNat i / (Arithmetic.ofNat toRate / Arithmetic.ofNat fromRate)

/-- Output sample `i`. -/
def sample (narrow : π → σ) (samples : Array σ) (fromRate toRate i : Nat) : σ :=
  let at_ : π := position fromRate toRate i
  let last := samples.size - 1
  let lower := min (Position.floor at_) last
  let upper := min (lower + 1) last
  let weight := narrow (at_ - Arithmetic.ofNat lower)
  samples.getD lower Arithmetic.zero * (Arithmetic.one - weight) +
    samples.getD upper Arithmetic.zero * weight

/-- A signal at another rate. -/
def convert (narrow : π → σ) (samples : Array σ) (fromRate toRate : Nat) : Array σ :=
  if samples.isEmpty ∨ fromRate = 0 ∨ toRate = 0 then #[]
  else if fromRate = toRate then samples
  else
    Array.ofFn fun i : Fin (outputLength samples.size fromRate toRate) =>
      sample narrow samples fromRate toRate i

end Linear

/-- A recorded signal at another rate. -/
def interpolate (samples : Array Float32) (fromRate toRate : Nat) : Array Float32 :=
  Linear.convert Float.toFloat32 samples fromRate toRate

end SlotRadio
