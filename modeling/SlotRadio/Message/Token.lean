import SlotRadio.Decimal.Digits
/-!
# Grid squares and signal reports

Two kinds of token carry information besides the calls.

* A **grid** is a four-character Maidenhead square: two letters `A`–`R`,
  then two digits.  `RR73` has that shape and is never a grid, because
  on the air it always means "roger, seventy-three".
* A **report** is a signal level in dB, written with its sign and two
  digits and held within thirty dB of zero.  Reading takes any two
  digits; `readReport_reportText` says that what was written reads back
  as the level that was meant.
-/

namespace SlotRadio

/-- A letter that may stand in a grid square. -/
def isField (c : Char) : Bool :=
  'A' ≤ c && c ≤ 'R'

/-- True for a four-character Maidenhead square such as `FN42`. -/
def isGridSquare (s : String) : Bool :=
  s != "RR73" &&
  match s.toList with
  | [a, b, c, d] => isField a && isField b && c.isDigit && d.isDigit
  | _ => false

/-- The level that is sent for a measured one: at most thirty dB away
from zero. -/
def clampReport (snr : Int) : Int :=
  max (-30) (min 30 snr)

/-- A report as it is sent: the sign and two digits. -/
def reportText (snr : Int) : List Char :=
  let level := clampReport snr
  let n := level.natAbs
  (if level < 0 then '-' else '+') ::
    [Decimal.digitChar (n / 10), Decimal.digitChar (n % 10)]

/-- Reads a sign and exactly two digits. -/
def readReport : List Char → Option Int
  | [sign, a, b] =>
    match Decimal.digitOf? a, Decimal.digitOf? b with
    | some x, some y =>
      if sign = '+' then some (Int.ofNat (x * 10 + y))
      else if sign = '-' then some (-Int.ofNat (x * 10 + y))
      else none
    | _, _ => none
  | _ => none

theorem clampReport_le (snr : Int) : -30 ≤ clampReport snr ∧ clampReport snr ≤ 30 := by
  unfold clampReport; omega

/-- A digit read from its own character is that digit. -/
theorem digitOf?_digitChar {d : Nat} (h : d < 10) :
    Decimal.digitOf? (Decimal.digitChar d) = some d := by
  have : d = 0 ∨ d = 1 ∨ d = 2 ∨ d = 3 ∨ d = 4 ∨ d = 5 ∨ d = 6 ∨ d = 7 ∨ d = 8 ∨ d = 9 := by
    omega
  rcases this with h | h | h | h | h | h | h | h | h | h <;> subst h <;> decide

/-- **A written report reads back as the level that was sent.** -/
theorem readReport_reportText (snr : Int) :
    readReport (reportText snr) = some (clampReport snr) := by
  have hb := clampReport_le snr
  generalize hk : clampReport snr = k at hb
  have h1 : k.natAbs / 10 < 10 := by omega
  have h2 : k.natAbs % 10 < 10 := by omega
  simp only [reportText, hk, readReport, digitOf?_digitChar h1, digitOf?_digitChar h2]
  by_cases hneg : k < 0
  · have hsign : ¬('-' = '+') := by decide
    simp only [hneg, if_true, hsign, if_false, Option.some.injEq, Int.ofNat_eq_natCast]
    omega
  · simp only [hneg, if_false, if_true, Option.some.injEq, Int.ofNat_eq_natCast]
    omega

end SlotRadio
