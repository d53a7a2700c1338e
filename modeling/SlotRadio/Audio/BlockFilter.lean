import SlotRadio.Audio.Fourier
import SlotRadio.Audio.Resampler
/-!
# A resampler that filters blocks

Each block of `inBlock` input samples becomes `outBlock` output samples:
its spectrum is multiplied by that of a low-pass filter, cut off or
extended to the other length, and turned back, the second half of the
result being added to the next block.

The filter is fed 1024 samples at a time, the last time fewer, which
count as followed by silence.  It keeps what does not fill a block.

* `Framing` — the block lengths for a pair of rates;
* `BlockFilter.feed` — one feeding, which fails if the sum of a block is
  no finite sample;
* `BlockFilter.resampler` — the filter as a resampler.
-/

namespace SlotRadio

/-- The number of samples fed at a time. -/
def feedLength : Nat := 1024

/-- The block lengths of a conversion, in samples. -/
structure Framing where
  inBlock : Nat
  outBlock : Nat
  deriving DecidableEq, Repr

namespace Framing

/-- The block lengths for two rates: the least multiples of the reduced
rates with at least half a feed in the input block. -/
def ofRates (fromRate toRate : Nat) : Framing :=
  let g := Nat.gcd fromRate toRate
  let unit := fromRate / g
  let times := (feedLength / 2 + unit - 1) / unit
  ⟨times * unit, times * (toRate / g)⟩

/-- The samples by which the output is late. -/
def delay (f : Framing) : Nat :=
  f.outBlock / 2

end Framing

namespace BlockFilter

open SlotRadio.Fourier

/-- The relative cut-off frequency of a filter with `taps` values. -/
def cutoff (taps : Nat) : Float :=
  let n := Float.ofNat taps
  1 / (13.745202940783823 / n + 121.73532586374934 / (n * n) +
    5964.163279612051 / (n * n * n) + 1)

/-- The squared four-term Blackman-Harris window. -/
def window (taps k : Nat) : Float :=
  let t := 2 * pi * Float.ofNat k / Float.ofNat taps
  let w := 0.35875 - 0.48829 * t.cos + 0.14128 * (2 * t).cos - 0.01168 * (3 * t).cos
  w * w

/-- The sine of `pi x` divided by `pi x`. -/
def sinc (x : Float) : Float :=
  if x == 0 then 1 else (pi * x).sin / (pi * x)

/-- The values of the low-pass filter, before scaling. -/
def taps (f : Framing) : FloatArray :=
  let edge :=
    if f.outBlock < f.inBlock then
      cutoff f.outBlock * Float.ofNat f.outBlock / Float.ofNat f.inBlock
    else cutoff f.inBlock
  let middle := Float.ofNat (f.inBlock / 2)
  f.inBlock.fold
    (fun k _ out =>
      out.push (window f.inBlock k * sinc ((Float.ofNat k - middle) * edge)))
    (.emptyWithCapacity f.inBlock)

/-- A list of numbers followed by zeros. -/
def padded (xs : FloatArray) (size : Nat) : FloatArray :=
  (size - xs.size).fold (fun _ _ out => out.push 0) xs

/-- The spectrum of the filter, scaled so that a constant signal keeps
its level. -/
def kernel (f : Framing) : Spectrum :=
  let raw := taps f
  let scale := raw.foldl (· + ·) 0 * Float.ofNat (2 * f.inBlock)
  let scaled := raw.foldl (fun out x => out.push (x / scale)) (.emptyWithCapacity raw.size)
  ofReal (padded scaled (2 * f.inBlock))

/-- The number of bins of an input block that are kept. -/
def keptBins (f : Framing) : Nat :=
  if f.inBlock < f.outBlock then f.inBlock + 1 else f.outBlock

/-- The filtered form of an input block with the given spectrum: twice
the length of an output block, the second half belonging to the next
one. -/
def filterBlock (f : Framing) (filter spectrum : Spectrum) : FloatArray :=
  toReal f.outBlock <| .ofFn (f.outBlock + 1) fun k =>
    if k < keptBins f then times (spectrum.value k) (filter.value k) else (0, 0)

/-- Input block `b`, with silence after the end of the input. -/
def inputBlock (f : Framing) (samples : Array Float32) (b : Nat) : FloatArray :=
  f.inBlock.fold
    (fun k _ out => out.push (samples.getD (b * f.inBlock + k) 0).toFloat)
    (.emptyWithCapacity f.inBlock)

/-- True for the spectrum of a block that the filter can work on: its
sum is a finite sample. -/
def sound (spectrum : Spectrum) : Bool :=
  (spectrum.value 0).1.isFinite

/-- What some blocks give, one after the other: the samples that are
complete, and what belongs to the next block. -/
structure Output where
  samples : Array Float32
  overlap : FloatArray

/-- Adds the next block. -/
def Output.extend (f : Framing) (out : Output) (filtered : FloatArray) : Output where
  samples :=
    f.outBlock.fold
      (fun k _ samples => samples.push (entry filtered k + entry out.overlap k).toFloat32)
      out.samples
  overlap :=
    f.outBlock.fold (fun k _ overlap => overlap.push (entry filtered (f.outBlock + k)))
      (.emptyWithCapacity f.outBlock)

/-- A filter at work: the block lengths, the spectrum of the filter, the
input samples that wait for the rest of their block, and what belongs to
the next output block. -/
structure State where
  framing : Framing
  filter : Spectrum
  saved : Array Float32
  overlap : FloatArray

/-- A filter that has been fed nothing. -/
def State.start (fromRate toRate : Nat) : State :=
  let f := Framing.ofRates fromRate toRate
  ⟨f, kernel f, #[], padded .empty f.outBlock⟩

/-- The samples of a feeding, with silence after the rest of a signal. -/
def frames : Feed → Array Float32
  | .whole samples => samples
  | .part samples => samples ++ Array.replicate (feedLength - samples.size) 0
  | .silence => Array.replicate feedLength 0

/-- Filters the first `count` blocks of `input`, or gives nothing if one
of them is not sound. -/
def State.filterBlocks (s : State) (input : Array Float32) (count : Nat) : Option Output :=
  (List.range count).foldlM
    (fun out b =>
      let spectrum := ofReal (padded (inputBlock s.framing input b) (2 * s.framing.inBlock))
      if sound spectrum then
        some (out.extend s.framing (filterBlock s.framing s.filter spectrum))
      else none)
    ⟨#[], s.overlap⟩

/-- One feeding: the blocks that are complete are filtered, and the rest
is kept. -/
def feed (s : State) (piece : Feed) : Except ConversionFault (Array Float32 × State) :=
  if (frames piece).size ≠ feedLength then .error .failed
  else
    let input := s.saved ++ frames piece
    let count := input.size / s.framing.inBlock
    match s.filterBlocks input count with
    | none => .error .crashed
    | some out =>
      .ok (out.samples,
        { s with saved := input.drop (count * s.framing.inBlock), overlap := out.overlap })

/-- The filter as a resampler. -/
def resampler : Resampler where
  State := State
  start fromRate toRate := some (.start fromRate toRate)
  delay s := s.framing.delay
  wanted _ := feedLength
  wanted_pos _ := Nat.zero_lt_succ _
  feed := feed

end BlockFilter

end SlotRadio
