/-!
# Decimal digits of whole numbers

* `digits` — the digits of a natural number, most significant first,
  without leading zeros (`0` is the one digit `0`);
* `ofDigits` — the number that a list of digits stands for;
* `natural`, `integer` — the written forms.

`ofDigits_digits` is the law that ties the first two together.
-/

namespace SlotRadio.Decimal

/-- The digits of a number, most significant first. -/
def digits (n : Nat) : List Nat :=
  if n < 10 then [n] else digits (n / 10) ++ [n % 10]

/-- The number that a list of digits stands for. -/
def ofDigits (ds : List Nat) : Nat :=
  ds.foldl (fun v d => v * 10 + d) 0

theorem ofDigits_append_singleton (ds : List Nat) (d : Nat) :
    ofDigits (ds ++ [d]) = ofDigits ds * 10 + d := by
  simp [ofDigits]

/-- **Writing and reading the digits of a number gives it back.** -/
theorem ofDigits_digits (n : Nat) : ofDigits (digits n) = n := by
  induction n using Nat.strongRecOn with
  | ind n ih =>
    rw [digits]
    split
    · simp [ofDigits]
    · rw [ofDigits_append_singleton, ih (n / 10) (by omega)]
      omega

/-- Every digit of a number is below ten. -/
theorem lt_ten_of_mem_digits {n d : Nat} : d ∈ digits n → d < 10 := by
  induction n using Nat.strongRecOn with
  | ind n ih =>
    rw [digits]
    split
    · simp; omega
    · intro h
      rcases List.mem_append.1 h with h | h
      · exact ih (n / 10) (by omega) h
      · simp at h; omega

/-- The character of a digit. -/
def digitChar (d : Nat) : Char :=
  Char.ofNat (0x30 + d)

/-- The digit that a character stands for. -/
def digitOf? (c : Char) : Option Nat :=
  if '0' ≤ c ∧ c ≤ '9' then some (c.toNat - 0x30) else none

/-- A natural number in decimal. -/
def natural (n : Nat) : List Char :=
  (digits n).map digitChar

/-- A natural number in decimal, as a text. -/
def naturalText (n : Nat) : String :=
  String.ofList (natural n)

/-- An integer in decimal, with a minus sign where it is negative. -/
def integer : Int → List Char
  | .ofNat n => natural n
  | .negSucc n => '-' :: natural (n + 1)

end SlotRadio.Decimal
