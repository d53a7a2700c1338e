/-!
# Arithmetic of samples

Mixing and interpolation add, scale and compare samples.  They are
written once over any type with these operations, so that the same
definition runs on floating-point samples and can be read over exact
fractions.

* `Arithmetic` — what mixing needs;
* `Position` — what else is needed to walk along a signal in fractional
  steps.
-/

namespace SlotRadio

/-- Numbers that samples can be.  `ofNat` gives the number of a count and
`abs` the size without the sign; `less` is false if either is no number, and
`finite` for what is no finite number. -/
class Arithmetic (α : Type) extends Add α, Sub α, Mul α, Div α where
  ofNat : Nat → α
  abs : α → α
  less : α → α → Bool
  finite : α → Bool

/-- Numbers that positions in a signal can be; `floor` is the last count that
is not beyond a position. -/
class Position (α : Type) extends Arithmetic α where
  floor : α → Nat

namespace Arithmetic

/-- Samples as they are recorded and played. -/
instance : Arithmetic Float32 where
  ofNat := Float32.ofNat
  abs := Float32.abs
  less a b := a < b
  finite := Float32.isFinite

/-- Positions in a recorded signal. -/
instance : Position Float where
  ofNat := Float.ofNat
  abs := Float.abs
  less a b := a < b
  finite := Float.isFinite
  floor x := x.floor.toUInt64.toNat

/-- Exact fractions. -/
instance : Position Rat where
  ofNat n := n
  abs := Rat.abs
  less a b := a < b
  finite _ := true
  floor x := x.floor.toNat

variable {α : Type} [Arithmetic α]

/-- Silence. -/
def zero : α := ofNat 0

/-- Full scale. -/
def one : α := ofNat 1

/-- The larger of two numbers, where something that is no number counts
for nothing on the right. -/
def larger (a b : α) : α :=
  if less a b then b else a

/-- The largest sample of a signal, without its sign. -/
def peak (samples : Array α) : α :=
  samples.foldl (fun p s => larger p (abs s)) zero

end Arithmetic

end SlotRadio
