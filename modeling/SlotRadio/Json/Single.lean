import SlotRadio.Decimal.Binary32
import SlotRadio.Json.Codec
/-!
# Floating-point numbers in JSON

A floating-point number of thirty-two bits may be written as any number;
it is first read with more precision and then rounded (`narrow`).  It is
written with its shortest decimal, and as `null` if it is not finite.
-/

namespace SlotRadio.Json

/-- A number without its last `n` binary digits, rounded to the nearest;
of two equally near ones to the even one. -/
def dropBits (m n : Nat) : Nat :=
  let unit := Nat.pow 2 n
  let kept := m / unit
  let dropped := 2 * (m % unit)
  if unit < dropped ∨ (dropped = unit ∧ kept % 2 = 1) then kept + 1 else kept

/-- The number of thirty-two bits that is nearest to one of sixty-four.  A
carry out of the fraction goes to the exponent, and one out of the exponent
makes the number infinite. -/
def narrow (x : Float) : Float32 :=
  let bits := x.toBits.toNat
  let sign := bits / 0x8000000000000000
  let biased := bits / 0x10000000000000 % 0x800
  let fraction := bits % 0x10000000000000
  let size :=
    if biased = 0x7ff then if fraction = 0 then 0x7f800000 else 0x7fc00000
    -- Too small for a full fraction: the distance of the results is fixed.
    else if biased ≤ 896 then
      dropBits (if biased = 0 then fraction else 0x10000000000000 + fraction) (926 - biased)
    else min 0x7f800000 (dropBits ((biased - 896) * 0x10000000000000 + fraction) 29)
  .ofBits (.ofNat (sign * 0x80000000 + size))

/-- The document of a floating-point number. -/
def Document.single (x : Float32) : Document :=
  match Decimal.single? x with
  | some text => .literal text
  | none => .null

/-- Floating-point numbers of thirty-two bits. -/
def Codec.single : Codec Float32 where
  read input :=
    match readAnyNumber input with
    | .error f => .error f
    | .ok (.integer n, rest) => .ok (Float32.ofInt n, rest)
    | .ok (.real x, rest) => .ok (narrow x, rest)
  write := .single

end SlotRadio.Json
