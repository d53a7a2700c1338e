/-!
# The shortest decimal of a binary number

A binary floating-point number stands for all reals that are rounded to
it.  Its shortest decimal is the one among these reals that has the
fewest digits; of several with equally few it is the nearest to the
number itself, and of two equally near ones the one with the even last
digit.

* `Interval` — the reals that round to a number, in whole multiples of a
  power of two;
* `onGrid?` — the best multiple of a power of ten among them;
* `shortest` — the multiple of the greatest power of ten that has one.

All comparisons are between natural numbers.
-/

namespace SlotRadio.Decimal

/-- A decimal number: a significand times a power of ten. -/
structure Scientific where
  significand : Nat
  exponent : Int
  deriving DecidableEq, Repr

/-- The reals that round to a binary number: those between `low` and
`high` times two to the power of `exponent`. -/
structure Interval where
  low : Nat
  value : Nat
  high : Nat
  exponent : Int
  closed : Bool
  deriving DecidableEq, Repr

namespace Interval

/-- The reals that round to `mantissa` times two to the power of
`exponent`; below the least mantissa of a binade the numbers are twice
as close. -/
def of (mantissa : Nat) (exponent : Int) (narrowBelow : Bool) : Interval where
  low := if narrowBelow then 4 * mantissa - 1 else 4 * mantissa - 2
  value := 4 * mantissa
  high := 4 * mantissa + 2
  exponent := exponent - 2
  closed := mantissa % 2 == 0

/-- The factor by which bounds are multiplied when they are counted in
units of ten to the power of `k`. -/
def scale (i : Interval) (k : Int) : Nat :=
  Nat.pow 2 i.exponent.toNat * Nat.pow 10 (-k).toNat

/-- The size of such a unit, in the same measure. -/
def unit (i : Interval) (k : Int) : Nat :=
  Nat.pow 2 (-i.exponent).toNat * Nat.pow 10 k.toNat

/-- True if `d` times ten to the power of `k` lies in the interval. -/
def contains (i : Interval) (k : Int) (d : Nat) : Bool :=
  let x := d * i.unit k
  let low := i.low * i.scale k
  let high := i.high * i.scale k
  if i.closed then low ≤ x && x ≤ high else low < x && x < high

/-- The multiple of ten to the power of `k` in the interval that is
nearest to the number. -/
def onGrid? (i : Interval) (k : Int) : Option Nat :=
  let value := i.value * i.scale k
  let unit := i.unit k
  let below := value / unit
  let rest := value % unit
  match i.contains k below, i.contains k (below + 1) with
  | true, true =>
    if 2 * rest < unit then some below
    else if unit < 2 * rest then some (below + 1)
    else some (if below % 2 = 0 then below else below + 1)
  | true, false => some below
  | false, true => some (below + 1)
  | false, false => none

end Interval

/-- The first hit when going down from the power `k`, for at most `fuel`
steps. -/
def search (i : Interval) : Nat → Int → Scientific
  | 0, k => ⟨(i.onGrid? k).getD 0, k⟩
  | fuel + 1, k =>
    match i.onGrid? k with
    | some d => ⟨d, k⟩
    | none => search i fuel (k - 1)

/-- The shortest decimal in an interval whose reals are below ten to the
power of `top` and whose width is at least ten to the power of `top`
less `span`. -/
def shortest (i : Interval) (top : Int) (span : Nat) : Scientific :=
  search i span top

end SlotRadio.Decimal
