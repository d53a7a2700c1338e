import SlotRadio.Audio.BlockFilter
/-!
# Rate conversion

Two conversions are at hand: by the block filter, which is better, and
linear, which is quick and never fails.  `convertRate` uses the one it is
asked for, and the linear one where the better one fails.
-/

namespace SlotRadio

/-- The conversion to use: by the block filter, or linear. -/
inductive Quality where
  | spectral
  | linear
  deriving DecidableEq, Repr

/-- A converted signal; `fellBack` is true when the linear conversion
stood in for the better one. -/
structure Converted where
  samples : Array Float32
  fellBack : Bool

/-- The conversion by the block filter. -/
def convertByBlocks (samples : Array Float32) (fromRate toRate : Nat) :
    Except ConversionFault (Array Float32) :=
  BlockFilter.resampler.convert samples fromRate toRate

/-- A signal at another rate, or nothing if the worker crashed. -/
def convertRate (samples : Array Float32) (fromRate toRate : Nat) (quality : Quality) :
    Option Converted :=
  if fromRate = toRate then some ⟨samples, false⟩
  else
    match quality with
    | .linear => some ⟨interpolate samples fromRate toRate, false⟩
    | .spectral =>
      match convertByBlocks samples fromRate toRate with
      | .ok out => some ⟨out, false⟩
      | .error (.invalidRate ..) | .error .unavailable | .error .failed =>
        some ⟨interpolate samples fromRate toRate, true⟩
      | .error .crashed => none

end SlotRadio
