import SlotRadio.Audio.Clip
import SlotRadio.Audio.Conversion
import SlotRadio.Decimal.Digits
import SlotRadio.Word
/-!
# One mix

A `MixPlan` is a fixed list of clips and everything else that a mix
depends on.  `MixPlan.run` brings the clips to the highest of their
rates, takes away what should have been played already, and adds up what
is left.

* A clip with nothing left is not in the composite.
* A single clip is passed on as it is.
* Several clips are added sample by sample, shorter ones being silent at
  the end.  If the sum would clip it is scaled so that its peak is the
  configured one (`blend`).
* A result that is not finite is refused.
-/

namespace SlotRadio

/-- Why there is no mix: audio was offered without a rate, so many operators
are cached already, the mix for a slot is not finite or was not done in time,
or the worker failed.  A worker that crashed leaves no reason. -/
inductive MixFault where
  | zeroRate (operator : Nat)
  | cacheFull (limit : Nat)
  | nonFinite (slotStartMs : Nat)
  | expired (slotStartMs : Nat)
  | worker (reason : Option String)
  deriving DecidableEq, Repr

/-- The report of a fault; a crashed worker leaves none. -/
def MixFault.message : MixFault → Option String
  | zeroRate operator =>
    some ("operator " ++ Decimal.naturalText operator ++ " audio has a zero sample rate")
  | cacheFull limit =>
    some ("audio cache full (" ++ Decimal.naturalText limit ++ " operators)")
  | nonFinite start =>
    some ("non-finite sample in mix for slot starting at " ++ Decimal.naturalText start)
  | expired start =>
    some ("mix for slot starting at " ++ Decimal.naturalText start ++
      " did not finish before the slot ended")
  | worker reason => reason.map ("mix worker failed: " ++ ·)

/-- What a mix gives if it does not fail: something to play, or nothing that
is left. -/
inductive MixResult where
  | composite (audio : Composite)
  | silence

/-- A finished mix, with the number of clips that needed the linear conversion
and the peak of the sum before scaling. -/
structure MixSummary where
  outcome : MixResult
  fallbacks : Nat
  peakBefore : Float32

namespace Blend

variable {α : Type} [Arithmetic α]

open Arithmetic

/-- Adds a signal to a running sum that is at least as long. -/
def addTo (sum signal : Array α) : Array α :=
  sum.mapIdx fun i x => if h : i < signal.size then x + signal[i] else x

/-- The sample-wise sum of several signals. -/
def sum (signals : List (Array α)) : Array α :=
  let length := signals.foldl (fun n s => max n s.size) 0
  signals.foldl addTo (Array.replicate length zero)

/-- Brings a signal down to a peak, if it is above full scale. -/
def limited (ceiling : α) (signal : Array α) : Array α :=
  let top := peak signal
  if less one top then
    let scale := ceiling / top
    signal.map (· * scale)
  else signal

/-- What is played for a list of signals, and the peak before scaling. -/
def blend (ceiling : α) : List (Array α) → Array α × α
  | [solo] => (solo, peak solo)
  | signals =>
    let total := sum signals
    (limited ceiling total, peak total)

end Blend

/-- A fixed list of clips to be mixed, in the order of the cache.  The first
`elapsedMs` of each should have been played already. -/
structure MixPlan where
  clips : List Clip
  elapsedMs : Nat
  quality : Quality
  normalizePeak : Float32
  slotStartMs : Nat

namespace MixPlan

/-- The same plan with another conversion. -/
def usingQuality (plan : MixPlan) (quality : Quality) : MixPlan :=
  { plan with quality }

/-- The highest rate among the clips, if there are any. -/
def targetRate? (plan : MixPlan) : Option Nat :=
  (plan.clips.map (·.rate)).max?

/-- The number of samples that should have been played already, counted
in sixty-four bits. -/
def trim (plan : MixPlan) (rate : Nat) : Nat :=
  plan.elapsedMs * rate / 1000 % Word.count

/-- The clips at one rate, or nothing if the worker crashed. -/
def converted? (plan : MixPlan) (rate : Nat) : Option (List (Nat × Converted)) :=
  plan.clips.mapM fun clip =>
    (convertRate clip.samples clip.rate rate plan.quality).map (clip.operator, ·)

/-- The signals that have something left, without what should have been
played already. -/
def remaining (plan : MixPlan) (rate : Nat) (signals : List (Nat × Converted)) :
    List (Nat × Array Float32) :=
  (signals.filter fun (_, s) => plan.trim rate < s.samples.size).map fun (operator, s) =>
    (operator, s.samples.drop (plan.trim rate))

/-- The outcome for the signals that are left. -/
def assemble (plan : MixPlan) (rate fallbacks : Nat) (streams : List (Nat × Array Float32)) :
    Except MixFault MixSummary :=
  if streams.isEmpty then .ok ⟨.silence, fallbacks, 0⟩
  else
    let (samples, peakBefore) := Blend.blend plan.normalizePeak (streams.map (·.2))
    if peakBefore.isFinite && samples.all (·.isFinite) then
      .ok ⟨.composite ⟨samples, rate, streams.map (·.1)⟩, fallbacks, peakBefore⟩
    else .error (.nonFinite plan.slotStartMs)

/-- Mixes. -/
def run (plan : MixPlan) : Except MixFault MixSummary :=
  match plan.targetRate? with
  | none => .ok ⟨.silence, 0, 0⟩
  | some rate =>
    match plan.converted? rate with
    | none => .error (.worker none)
    | some signals =>
      plan.assemble rate (signals.countP fun (_, s) => s.fellBack)
        (plan.remaining rate signals)

end MixPlan

end SlotRadio
