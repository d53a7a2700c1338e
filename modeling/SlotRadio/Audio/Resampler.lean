import SlotRadio.Audio.Linear
/-!
# Conversion by a resampler

The better of the two rate conversions is left to a resampler, which is
fed a signal piece by piece and gives a block of samples for each piece.
A block may be empty: the resampler keeps what it cannot use yet.

Here is what is fed to a resampler and what is made of its blocks,
whatever the resampler is.

* It is fed the signal in pieces of the length that it wants
  (`feedWhole`), and then the rest, if there is any (`feedRest`).
* Then it is fed silence until what has come out covers the signal and
  the delay of the resampler, or a feeding gives nothing (`flush`).
* What has come out is returned without the delay, and cut or filled up
  with silence to the length that the signal has at the new rate
  (`convert`).
-/

namespace SlotRadio

/-- Why a conversion by a resampler gives nothing: one of the rates is
zero, the resampler cannot be set up, it refuses a piece, or the worker
that runs it does not survive. -/
inductive ConversionFault where
  | invalidRate (fromRate toRate : Nat)
  | unavailable
  | failed
  | crashed
  deriving DecidableEq, Repr

/-- What a resampler is fed at a time: a piece of the length that it
wants, the rest of a signal, which is shorter, or silence. -/
inductive Feed where
  | whole (samples : Array Float32)
  | part (samples : Array Float32)
  | silence

/-- A resampler.  It is set up for two rates by `start`, if it can be.
What comes out is `delay` samples late.  A piece that is not the rest of
a signal has `wanted` samples, which are never none; `feed` takes a piece
and gives the block that comes out and the state after it. -/
structure Resampler where
  State : Type
  start : Nat → Nat → Option State
  delay : State → Nat
  wanted : State → Nat
  wanted_pos : ∀ s, 0 < wanted s
  feed : State → Feed → Except ConversionFault (Array Float32 × State)

namespace Resampler

/-- Feeds the pieces of a signal from `pos` on, and appends what comes
out; gives where the rest begins. -/
def feedWhole (r : Resampler) (samples : Array Float32) (pos : Nat) (s : r.State)
    (out : Array Float32) : Except ConversionFault (Nat × r.State × Array Float32) :=
  if r.wanted s ≤ samples.size - pos then
    match r.feed s (.whole (samples.extract pos (pos + r.wanted s))) with
    | .ok (block, next) => r.feedWhole samples (pos + r.wanted s) next (out ++ block)
    | .error fault => .error fault
  else .ok (pos, s, out)
termination_by samples.size - pos
decreasing_by
  have hpos := r.wanted_pos s
  omega

/-- Feeds what is left of a signal from `pos` on. -/
def feedRest (r : Resampler) (samples : Array Float32) (pos : Nat) (s : r.State)
    (out : Array Float32) : Except ConversionFault (r.State × Array Float32) :=
  if pos < samples.size then
    match r.feed s (.part (samples.extract pos samples.size)) with
    | .ok (block, next) => .ok (next, out ++ block)
    | .error fault => .error fault
  else .ok (s, out)

/-- Feeds silence until `goal` samples have come out or a feeding gives
nothing. -/
def flush (r : Resampler) (goal : Nat) (s : r.State) (out : Array Float32) :
    Except ConversionFault (Array Float32) :=
  if out.size < goal then
    match r.feed s .silence with
    | .ok (block, next) => if block.size = 0 then .ok out else r.flush goal next (out ++ block)
    | .error fault => .error fault
  else .ok out
termination_by goal - out.size
decreasing_by
  rw [Array.size_append]
  omega

/-- All that comes out for a signal, with `goal` samples wanted. -/
def collect (r : Resampler) (samples : Array Float32) (goal : Nat) (s : r.State) :
    Except ConversionFault (Array Float32) := do
  let (pos, s, out) ← r.feedWhole samples 0 s #[]
  let (s, out) ← r.feedRest samples pos s out
  r.flush goal s out

/-- A signal cut, or filled up with silence, to a length. -/
def fitted (samples : Array Float32) (length : Nat) : Array Float32 :=
  samples.take length ++ Array.replicate (length - samples.size) 0

/-- A recorded signal at another rate, without the resampler's delay. -/
def convert (r : Resampler) (samples : Array Float32) (fromRate toRate : Nat) :
    Except ConversionFault (Array Float32) :=
  if fromRate = 0 ∨ toRate = 0 then .error (.invalidRate fromRate toRate)
  else
    let expected := outputLength samples.size fromRate toRate
    if expected = 0 then .ok #[]
    else
      match r.start fromRate toRate with
      | none => .error .unavailable
      | some s =>
        (r.collect samples (expected + r.delay s) s).map fun out =>
          fitted (out.drop (r.delay s)) expected

end Resampler

end SlotRadio
