import SlotRadio.Decimal.Digits
import SlotRadio.Decimal.Shortest
/-!
# Writing samples in decimal

A thirty-two bit floating-point number is written with the digits of its
shortest decimal.  `Style` says where the point goes: numbers between
two powers of ten are written out, with at least one digit after the
point, and the others with an exponent.
-/

namespace SlotRadio.Decimal

/-- How a decimal number is laid out.  It has an exponent below ten to the
power of `positionalFrom` and from ten to the power of `positionalBelow` on;
`exponentSign` stands before a positive one. -/
structure Style where
  positionalFrom : Int
  positionalBelow : Int
  exponentSign : List Char

namespace Style

/-- Numbers from a millionth to below ten million million are written
out; a positive exponent has its sign. -/
def single : Style where
  positionalFrom := -6
  positionalBelow := 13
  exponentSign := ['+']

/-- The text of a decimal number. -/
def text (style : Style) (d : Scientific) : List Char :=
  let digits := natural d.significand
  let point := Int.ofNat digits.length + d.exponent
  if style.positionalBelow < point ∨ point ≤ style.positionalFrom then
    let exponent := point - 1
    let sign := if exponent < 0 then [] else style.exponentSign
    let rest := digits.drop 1
    digits.take 1 ++ (if rest.isEmpty then [] else '.' :: rest) ++
      'e' :: (sign ++ integer exponent)
  else if point ≤ 0 then
    '0' :: '.' :: (List.replicate (-point).toNat '0' ++ digits)
  else if 0 ≤ d.exponent then
    digits ++ List.replicate d.exponent.toNat '0' ++ ['.', '0']
  else
    digits.take point.toNat ++ '.' :: digits.drop point.toNat

end Style

/-- The interval of the positive number with the given bits, sign
aside. -/
def interval32 (bits : Nat) : Interval :=
  let fraction := bits % 0x800000
  let biased := bits / 0x800000 % 0x100
  if biased = 0 then .of fraction (-149) false
  else .of (0x800000 + fraction) (Int.ofNat biased - 150) (fraction == 0 && 1 < biased)

/-- The shortest decimal of the positive number with the given bits. -/
def shortest32 (bits : Nat) : Scientific :=
  shortest (interval32 bits) 39 86

/-- A finite number in decimal, or nothing. -/
def single? (x : Float32) : Option (List Char) :=
  if x.isFinite then
    let bits := x.toBits.toNat
    let sign := if bits / 0x80000000 % 2 = 1 then ['-'] else []
    let size := bits % 0x80000000
    let digits :=
      if size = 0 then ['0', '.', '0'] else Style.single.text (shortest32 size)
    some (sign ++ digits)
  else none

end SlotRadio.Decimal
