import SlotRadio.Decimal.Digits
import SlotRadio.Json.Reader
import SlotRadio.Word
/-!
# Reading JSON numbers

A number without fraction and exponent is an integer as long as it fits
into sixty-four bits, with or without a sign; every other number is a
floating-point number.

The value of a floating-point number is computed from a **significand**
of sixty-four bits and a power of ten.  Digits before the point that do
not fit into the significand count only as a power of ten; digits after
the point that do not fit are dropped.  The significand is then
multiplied or divided by the power of ten.  A result beyond the largest
number is refused.
-/

namespace SlotRadio.Json

/-- A number as it was read: a whole number, or any other. -/
inductive Number where
  | integer (n : Int)
  | real (x : Float)

/-- The digits at the front of a text. -/
def takeDigits : Input → List Nat × Input
  | [] => ([], [])
  | c :: rest =>
    match Decimal.digitOf? c with
    | some d => (d :: (takeDigits rest).1, (takeDigits rest).2)
    | none => ([], c :: rest)

/-- The greatest significand. -/
def maxSignificand : Nat := Word.count - 1

/-- The significand of the digits before the point, and the number of
digits that did not fit. -/
def gatherWhole (v : Nat) : List Nat → Nat × Nat
  | [] => (v, 0)
  | d :: ds =>
    if maxSignificand < v * 10 + d then (v, (d :: ds).length)
    else gatherWhole (v * 10 + d) ds

/-- The significand with the digits after the point that fit, and their
number. -/
def gatherFraction (v : Nat) : List Nat → Nat × Nat
  | [] => (v, 0)
  | d :: ds =>
    if maxSignificand < v * 10 + d then (v, 0)
    else ((gatherFraction (v * 10 + d) ds).1, (gatherFraction (v * 10 + d) ds).2 + 1)

/-- A power of ten as a floating-point number. -/
def tenTo (n : Nat) : Float :=
  Float.ofScientific 1 false n

/-- Division by ten to the power of `n`, in steps that the number
format can hold. -/
def divideByTen (x : Float) (n : Nat) : Float :=
  if n ≤ 308 then x / tenTo n
  else if x == 0 then x
  else divideByTen (x / tenTo 308) (n - 308)
termination_by n

/-- A significand times a power of ten. -/
def realOf (significand : Nat) (exponent : Int) : Except Fault Float :=
  let x := Float.ofNat significand
  if exponent < 0 then .ok (divideByTen x (-exponent).toNat)
  else if exponent ≤ 308 then
    let y := x * tenTo exponent.toNat
    if y.isInf then .error .malformed else .ok y
  else if significand = 0 then .ok x
  else .error .malformed

/-- Reads an exponent, behind its letter. -/
def readExponent (significand : Nat) (start : Int) (input : Input) :
    Except Fault (Float × Input) :=
  let (positive, unsigned) :=
    match input with
    | c :: rest =>
      if c = '+' then (true, rest) else if c = '-' then (false, rest) else (true, input)
    | [] => (true, [])
  match takeDigits unsigned with
  | ([], []) => .error .truncated
  | ([], _ :: _) => .error .malformed
  | (d :: ds, rest) =>
    let size := Decimal.ofDigits (d :: ds)
    if 0x7fffffff < size then
      if significand ≠ 0 ∧ positive = true then .error .malformed else .ok (0, rest)
    else
      match realOf significand (if positive then start + size else start - size) with
      | .ok x => .ok (x, rest)
      | .error f => .error f

/-- True at the letter of an exponent. -/
def startsExponent : Input → Bool
  | c :: _ => c == 'e' || c == 'E'
  | [] => false

/-- Reads what may follow the digits after the point. -/
def readScaled (significand : Nat) (start : Int) (input : Input) :
    Except Fault (Float × Input) :=
  if startsExponent input then readExponent significand start (input.drop 1)
  else
    match realOf significand start with
    | .ok x => .ok (x, input)
    | .error f => .error f

/-- Reads what follows the digits before the point, where that makes a
floating-point number. -/
def readReal (significand extra : Nat) (input : Input) : Except Fault (Float × Input) :=
  match input with
  | '.' :: rest =>
    match takeDigits rest with
    | ([], []) => .error .truncated
    | ([], _ :: _) => .error .malformed
    | (d :: ds, left) =>
      let (all, kept) := gatherFraction significand (d :: ds)
      readScaled all (Int.ofNat extra - Int.ofNat kept) left
  | _ => readScaled significand extra input

/-- Reads a number without its sign. -/
def readUnsigned (negative : Bool) (input : Input) : Except Fault (Number × Input) :=
  match takeDigits input with
  | ([], []) => .error .truncated
  | ([], _ :: _) => .error .malformed
  | (0 :: _ :: _, _) => .error .malformed
  | (d :: ds, rest) =>
    let (significand, extra) := gatherWhole 0 (d :: ds)
    let whole :=
      extra = 0 ∧ ¬ startsExponent rest ∧ rest.head? ≠ some '.' ∧
        (negative = true → 0 < significand ∧ significand ≤ 0x8000000000000000)
    if whole then
      .ok (.integer (if negative then -Int.ofNat significand else Int.ofNat significand), rest)
    else
      match readReal significand extra rest with
      | .ok (x, left) => .ok (.real (if negative then -x else x), left)
      | .error f => .error f

/-- Reads a number. -/
def readNumber (input : Input) : Except Fault (Number × Input) :=
  match input with
  | '-' :: rest => readUnsigned true rest
  | _ => readUnsigned false input

/-- True at the front of a number. -/
def startsNumber (c : Char) : Bool :=
  c == '-' || (Decimal.digitOf? c).isSome

/-! ## Numbers that nobody wants -/

/-- Goes over an exponent, behind its letter. -/
def skipExponent (input : Input) : Except Fault Input :=
  let unsigned :=
    match input with
    | c :: rest => if c = '+' ∨ c = '-' then rest else input
    | [] => []
  match takeDigits unsigned with
  | ([], _) => .error .malformed
  | (_ :: _, rest) => .ok rest

/-- Goes over what may follow the digits after the point. -/
def skipScaled (input : Input) : Except Fault Input :=
  if startsExponent input then skipExponent (input.drop 1) else .ok input

/-- Goes over a number without its sign; it is not asked whether the
number can be held. -/
def skipUnsigned (input : Input) : Except Fault Input :=
  match takeDigits input with
  | ([], _) => .error .malformed
  | (0 :: _ :: _, _) => .error .malformed
  | (_ :: _, '.' :: rest) =>
    match takeDigits rest with
    | ([], _) => .error .malformed
    | (_ :: _, left) => skipScaled left
  | (_ :: _, rest) => skipScaled rest

/-- Goes over a number. -/
def skipNumber (input : Input) : Except Fault Input :=
  match input with
  | '-' :: rest => skipUnsigned rest
  | _ => skipUnsigned input

end SlotRadio.Json
