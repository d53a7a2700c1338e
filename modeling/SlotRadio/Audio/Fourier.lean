/-!
# Discrete Fourier transform

The transform of `n` complex numbers, computed factor by factor: a
transform of `p * m` values is put together from `p` transforms of `m`
values each.  The recursion is on the list of the prime factors of `n`.
If one of them is large, the transform is computed as a convolution
instead, by transforms whose length is a power of two.

A real signal of even length is taken in pairs, each pair as one complex
number, so that a transform of half its length gives its spectrum.

The numbers have more digits than samples have, but not a wider range:
what is too large for a sample is infinite here too.

* `factors` — the prime factors, by trial division;
* `transformByFactors`, `transformByChirp` — the two ways;
* `transform` — the forward transform, by the cheaper way;
* `ofReal` and `toReal` — to the spectrum of a real signal and back,
  neither of them scaled.
-/

namespace SlotRadio.Fourier

/-- Number `i` of a list, and zero beyond its end. -/
def entry (xs : FloatArray) (i : Nat) : Float :=
  if h : i < xs.size then xs.get i h else 0

/-- The number itself, but infinite where a sample would be. -/
def held (x : Float) : Float :=
  let sample := x.toFloat32
  if sample.isFinite then x else sample.toFloat

/-- Complex numbers, real and imaginary parts apart. -/
structure Spectrum where
  re : FloatArray
  im : FloatArray

namespace Spectrum

/-- The first `n` values of a sequence. -/
def ofFn (n : Nat) (value : Nat → Float × Float) : Spectrum :=
  n.fold
    (fun k _ (out : Spectrum) =>
      let (re, im) := value k
      ⟨out.re.push re, out.im.push im⟩)
    ⟨.emptyWithCapacity n, .emptyWithCapacity n⟩

/-- Value `k`, and zero beyond the end. -/
def value (z : Spectrum) (k : Nat) : Float × Float :=
  (entry z.re k, entry z.im k)

/-- Real and imaginary parts changed over. -/
def swapped (z : Spectrum) : Spectrum :=
  ⟨z.im, z.re⟩

end Spectrum

/-- The prime factors of `n` from `d` on. -/
def factorsFrom : Nat → Nat → Nat → List Nat
  | 0, _, n => if n ≤ 1 then [] else [n]
  | fuel + 1, d, n =>
    if n ≤ 1 then []
    else if n < d * d then [n]
    else if n % d = 0 then d :: factorsFrom fuel d (n / d)
    else factorsFrom fuel (d + 1) n

/-- The prime factors of a number, in ascending order. -/
def factors (n : Nat) : List Nat :=
  factorsFrom n 2 n

/-- The number pi. -/
def pi : Float := 3.14159265358979323846

/-- The `n`-th roots of unity, in clockwise order. -/
def roots (n : Nat) : Spectrum :=
  .ofFn n fun k =>
    let angle := 2 * pi * Float.ofNat k / Float.ofNat n
    (angle.cos, -angle.sin)

/-- Adds up entry `j` of all parts, each turned by `step` more than the
one before it. -/
def gather (w : Spectrum) (j step : Nat) :
    List Spectrum → Nat → Float → Float → Float × Float
  | [], _, re, im => (held re, held im)
  | part :: rest, turn, re, im =>
    let c := entry w.re turn
    let s := entry w.im turn
    let x := entry part.re j
    let y := entry part.im j
    let turned := turn + step
    gather w j step rest (if turned < w.re.size then turned else turned - w.re.size)
      (re + (c * x - s * y)) (im + (c * y + s * x))

/-- The transform of every `stride`-th value from `offset` on; the
factors are those of the number of such values. -/
def transformFrom (w input : Spectrum) : List Nat → Nat → Nat → Spectrum
  | [], offset, _ => .ofFn 1 fun _ => input.value offset
  | p :: rest, offset, stride =>
    let parts := (List.range p).map fun r =>
      transformFrom w input rest (offset + r * stride) (stride * p)
    let m := rest.foldl (· * ·) 1
    .ofFn (p * m) fun k => gather w (k % m) (k * stride % w.re.size) parts 0 0 0

/-- The transform of a list, by its factors. -/
def transformByFactors (input : Spectrum) : Spectrum :=
  let n := input.re.size
  transformFrom (roots n) input (factors n) 0 1

/-- The product of two complex numbers. -/
def times (a b : Float × Float) : Float × Float :=
  (held (a.1 * b.1 - a.2 * b.2), held (a.1 * b.2 + a.2 * b.1))

/-- The roots of unity of order `2 * n` whose exponents are the squares
of the numbers below `n`, in clockwise order. -/
def chirp (n : Nat) : Spectrum :=
  .ofFn n fun j =>
    let angle := pi * Float.ofNat (j * j % (2 * n)) / Float.ofNat n
    (angle.cos, -angle.sin)

/-- The transform of a list, as a convolution.  Twice a product of two
positions is the sum of their squares less the square of their
difference, so the values are multiplied by the chirp, convolved with
its conjugate, and multiplied by the chirp again. -/
def transformByChirp (input : Spectrum) : Spectrum :=
  let n := input.re.size
  let size := (2 * n).nextPowerOfTwo
  let c := chirp n
  let response (i : Nat) : Float × Float :=
    ((c.value i).1 / Float.ofNat size, -(c.value i).2 / Float.ofNat size)
  let a := transformByFactors <| .ofFn size fun j =>
    if j < n then times (input.value j) (c.value j) else (0, 0)
  let b := transformByFactors <| .ofFn size fun j =>
    if j < n then response j else if size - j < n then response (size - j) else (0, 0)
  let products : Spectrum := .ofFn size fun k => times (a.value k) (b.value k)
  let y := (transformByFactors products.swapped).swapped
  .ofFn n fun k => times (c.value k) (y.value k)

/-- The largest prime factor that is worth a transform by factors. -/
def largeFactor : Nat := 128

/-- The transform of a list of complex numbers. -/
def transform (input : Spectrum) : Spectrum :=
  if (factors input.re.size).all (· ≤ largeFactor) then transformByFactors input
  else transformByChirp input

/-- What two opposite bins have in common and what the one has over the
other, joined again with the second of them turned. -/
def rejoined (turn a b : Float × Float) : Float × Float :=
  let (c, s) := turn
  let sum := (held (a.1 + b.1), held (a.2 + b.2))
  let rest := (held (a.1 - b.1), held (a.2 - b.2))
  (sum.1 + (sum.2 * c + rest.1 * s), rest.2 + (sum.2 * s - rest.1 * c))

/-- The spectrum of a real signal of length `2 * m`, up to bin `m`. -/
def ofReal (signal : FloatArray) : Spectrum :=
  let m := signal.size / 2
  let w := roots (2 * m)
  let pairs : Spectrum := .ofFn m fun j => (entry signal (2 * j), entry signal (2 * j + 1))
  let z := transform pairs
  .ofFn (m + 1) fun k =>
    if k = 0 then (held ((z.value 0).1 + (z.value 0).2), 0)
    else if k = m then (held ((z.value 0).1 - (z.value 0).2), 0)
    else if 2 * k = m then ((z.value k).1, -(z.value k).2)
    else
      let (re, im) := rejoined (w.value k) (z.value k) (z.value (m - k))
      (held (re / 2), held (im / 2))

/-- The real signal of length `2 * m` whose spectrum up to bin `m` is
the given one, without the division by its length. -/
def toReal (m : Nat) (bins : Spectrum) : FloatArray :=
  let w := roots (2 * m)
  let z : Spectrum := .ofFn m fun k =>
    if k = 0 then
      (held ((bins.value 0).1 + (bins.value m).1), held ((bins.value 0).1 - (bins.value m).1))
    else if 2 * k = m then (held (2 * (bins.value k).1), held (-2 * (bins.value k).2))
    else
      let (c, s) := w.value k
      let (re, im) := rejoined (-c, s) (bins.value k) (bins.value (m - k))
      (held re, held im)
  let pairs := (transform z.swapped).swapped
  m.fold (fun j _ out => (out.push (pairs.value j).1).push (pairs.value j).2)
    (.emptyWithCapacity (2 * m))

end SlotRadio.Fourier
