import SlotRadio.Json.Single
import SlotRadio.Proofs.Json.Skipping
/-!
# Reading numbers

A number is read in the same way wherever it stands: what follows it does
not matter as long as it cannot belong to the number (`readNumber_append`).
So the text of a number need only be read alone; that of an integer, which
`Decimal.integer` writes, is read as this number (`readNumber_integer`).
-/

namespace SlotRadio.Json

/-! ## What follows a number -/

section

variable {rest : Input} (hrest : EndsNumber rest)

include hrest

/-- What follows a number is not taken for its exponent. -/
theorem EndsNumber.startsExponent_append (input : Input) :
    startsExponent (input ++ rest) = startsExponent input := by
  cases input with
  | nil => exact hrest.noExponent
  | cons c input => rfl

/-- What follows a number is not taken for its point. -/
theorem EndsNumber.head?_append (input : Input) :
    (input ++ rest).head? ≠ some '.' ↔ input.head? ≠ some '.' := by
  cases input with
  | nil => simp [hrest.noPoint]
  | cons c input => rfl

end

/-- The sign of an exponent, and what comes behind it. -/
def exponentSign : Input → Bool × Input
  | c :: rest =>
    if c = '+' then (true, rest) else if c = '-' then (false, rest) else (true, c :: rest)
  | [] => (true, [])

/-- The sign of an exponent is read without a look at what follows the
number. -/
theorem exponentSign_append {input : Input} (h : input ≠ []) (rest : Input) :
    exponentSign (input ++ rest) =
      ((exponentSign input).1, (exponentSign input).2 ++ rest) := by
  obtain ⟨c, input, rfl⟩ := List.exists_cons_of_ne_nil h
  simp only [List.cons_append, exponentSign]
  split
  · rfl
  · split <;> rfl

/-- What the digits of an exponent make of a number. -/
def scaledBy (significand : Nat) (start : Int) (positive : Bool) :
    List Nat × Input → Except Fault (Float × Input)
  | ([], []) => .error .truncated
  | ([], _ :: _) => .error .malformed
  | (d :: ds, rest) =>
    let size := Decimal.ofDigits (d :: ds)
    if 0x7fffffff < size then
      if significand ≠ 0 ∧ positive = true then .error .malformed else .ok (0, rest)
    else
      match realOf significand (if positive then start + size else start - size) with
      | .ok x => .ok (x, rest)
      | .error f => .error f

/-- An exponent is a sign and digits, and scales the number by both. -/
theorem readExponent_eq (significand : Nat) (start : Int) (input : Input) :
    readExponent significand start input =
      scaledBy significand start (exponentSign input).1 (takeDigits (exponentSign input).2) := by
  unfold scaledBy
  cases input <;> rfl

/-! ## A number in front of something else -/

section

variable {significand : Nat} {start : Int} {input left rest : Input} {x : Float}

/-- A number is scaled alike whatever follows its digits. -/
theorem scaledBy_append {positive : Bool} {ds : List Nat}
    (h : scaledBy significand start positive (ds, input) = .ok (x, left)) (rest : Input) :
    scaledBy significand start positive (ds, input ++ rest) = .ok (x, left ++ rest) := by
  cases ds with
  | nil => cases input <;> cases h
  | cons d ds =>
    unfold scaledBy at h ⊢
    dsimp only at h ⊢
    split
    · next hsize =>
      rw [if_pos hsize] at h
      split at h
      · cases h
      · next hsmall =>
        rw [if_neg hsmall]
        cases h
        rfl
    · next hsize =>
      rw [if_neg hsize] at h
      cases hreal : realOf significand
          (if positive then start + Decimal.ofDigits (d :: ds)
            else start - Decimal.ofDigits (d :: ds)) with
      | ok y =>
        rw [hreal] at h
        cases h
        rfl
      | error f =>
        rw [hreal] at h
        cases h

/-- An exponent is read alike whatever follows the number. -/
theorem readExponent_append (h : readExponent significand start input = .ok (x, left))
    (hrest : EndsNumber rest) :
    readExponent significand start (input ++ rest) = .ok (x, left ++ rest) := by
  rw [readExponent_eq] at h ⊢
  have hsome : input ≠ [] := by
    rintro rfl
    cases h
  rw [exponentSign_append hsome, takeDigits_append _ hrest.noDigit]
  exact scaledBy_append h rest

/-- What may stand behind the digits is read alike whatever follows the
number. -/
theorem readScaled_append (h : readScaled significand start input = .ok (x, left))
    (hrest : EndsNumber rest) :
    readScaled significand start (input ++ rest) = .ok (x, left ++ rest) := by
  unfold readScaled at h ⊢
  rw [hrest.startsExponent_append]
  split
  · next hstarts =>
    rw [if_pos hstarts] at h
    cases input with
    | nil => cases hstarts
    | cons c input => exact readExponent_append h hrest
  · next hstarts =>
    rw [if_neg hstarts] at h
    cases hreal : realOf significand start with
    | ok y =>
      rw [hreal] at h
      cases h
      rfl
    | error f =>
      rw [hreal] at h
      cases h

/-- A number with decimals is read alike whatever follows it. -/
theorem readReal_append {extra : Nat} (h : readReal significand extra input = .ok (x, left))
    (hrest : EndsNumber rest) :
    readReal significand extra (input ++ rest) = .ok (x, left ++ rest) := by
  unfold readReal at h
  split at h
  · next decimals =>
    rw [List.cons_append, readReal, takeDigits_append _ hrest.noDigit]
    generalize takeDigits decimals = taken at h ⊢
    obtain ⟨ds, after⟩ := taken
    cases ds with
    | nil => cases after <;> cases h
    | cons d ds => exact readScaled_append h hrest
  · next hpoint =>
    have hother : ∀ more, input ++ rest ≠ '.' :: more := by
      intro more heq
      refine (hrest.head?_append input).2 ?_ (by rw [heq]; rfl)
      intro hhead
      obtain ⟨more, rfl⟩ := List.head?_eq_some_iff.1 hhead
      exact hpoint _ rfl
    unfold readReal
    split
    · next heq => exact (hother _ heq).elim
    · exact readScaled_append h hrest

/-- The number whose digits before the point have this significand, and
leave this number of digits out. -/
def numberOf (negative : Bool) (significand extra : Nat) (rest : Input) :
    Except Fault (Number × Input) :=
  let whole :=
    extra = 0 ∧ ¬ startsExponent rest ∧ rest.head? ≠ some '.' ∧
      (negative = true → 0 < significand ∧ significand ≤ 0x8000000000000000)
  if whole then
    .ok (.integer (if negative then -Int.ofNat significand else Int.ofNat significand), rest)
  else
    match readReal significand extra rest with
    | .ok (x, left) => .ok (.real (if negative then -x else x), left)
    | .error f => .error f

/-- A number without its sign is read by its whole digits first, and then by
what comes behind them. -/
theorem readUnsigned_eq {d : Nat} {ds : List Nat} (negative : Bool)
    (h : takeDigits input = (d :: ds, rest)) (hreduced : d = 0 → ds = []) :
    readUnsigned negative input =
      numberOf negative (gatherWhole 0 (d :: ds)).1 (gatherWhole 0 (d :: ds)).2 rest := by
  unfold readUnsigned
  rw [h]
  split
  · next heq => cases heq
  · next heq => cases heq
  · next heq =>
    cases heq
    cases hreduced rfl
  · next heq =>
    cases heq
    rfl

/-- What is read as a number has digits, and no zero before others. -/
theorem takeDigits_of_readUnsigned {negative : Bool} {n : Number}
    (h : readUnsigned negative input = .ok (n, left)) :
    ∃ d ds after, takeDigits input = (d :: ds, after) ∧ (d = 0 → ds = []) := by
  unfold readUnsigned at h
  split at h
  · cases h
  · cases h
  · cases h
  · next d ds after hzero heq =>
    refine ⟨d, ds, after, heq, fun hd => ?_⟩
    cases ds with
    | nil => rfl
    | cons e es => exact (hzero _ _ hd rfl).elim

/-- What stands behind the whole part is read alike whatever follows the
number. -/
theorem numberOf_append {negative : Bool} {extra : Nat} {n : Number}
    (h : numberOf negative significand extra input = .ok (n, left)) (hrest : EndsNumber rest) :
    numberOf negative significand extra (input ++ rest) = .ok (n, left ++ rest) := by
  unfold numberOf at h ⊢
  simp only [hrest.startsExponent_append, hrest.head?_append]
  split
  · next hwhole =>
    rw [if_pos hwhole] at h
    cases h
    rfl
  · next hwhole =>
    rw [if_neg hwhole] at h
    cases hreal : readReal significand extra input with
    | ok taken =>
      obtain ⟨y, after⟩ := taken
      rw [hreal] at h
      rw [readReal_append hreal hrest]
      cases h
      rfl
    | error f =>
      rw [hreal] at h
      cases h

/-- A number without its sign is read alike whatever follows it. -/
theorem readUnsigned_append {negative : Bool} {n : Number}
    (h : readUnsigned negative input = .ok (n, left)) (hrest : EndsNumber rest) :
    readUnsigned negative (input ++ rest) = .ok (n, left ++ rest) := by
  obtain ⟨d, ds, after, htake, hreduced⟩ := takeDigits_of_readUnsigned h
  have htake' : takeDigits (input ++ rest) = (d :: ds, after ++ rest) := by
    rw [takeDigits_append _ hrest.noDigit, htake]
  rw [readUnsigned_eq _ htake hreduced] at h
  rw [readUnsigned_eq _ htake' hreduced]
  exact numberOf_append h hrest

/-- **What follows a number does not change how it is read**, as long as it ends the number: the
reading stops at the same place. -/
theorem readNumber_append {n : Number} (h : readNumber input = .ok (n, left))
    (hrest : EndsNumber rest) : readNumber (input ++ rest) = .ok (n, left ++ rest) := by
  unfold readNumber at h
  split at h
  · exact readUnsigned_append h hrest
  · next hsign =>
    cases input with
    | nil => cases h
    | cons c input =>
      unfold readNumber
      split
      · next heq =>
        obtain ⟨rfl, -⟩ := List.cons.inj heq
        exact (hsign _ rfl).elim
      · exact readUnsigned_append h hrest

end

/-! ## Whole numbers -/

/-- A digit is read as it is written. -/
theorem digitOf?_digitChar {d : Nat} (h : d < 10) :
    Decimal.digitOf? (Decimal.digitChar d) = some d := by
  revert d
  decide

/-- The digits of a number start with a zero only if it is zero. -/
theorem digits_eq_cons (n : Nat) :
    ∃ d ds, Decimal.digits n = d :: ds ∧ (d = 0 → n = 0 ∧ ds = []) := by
  induction n using Nat.strongRecOn with
  | ind n ih =>
    rw [Decimal.digits]
    split
    · exact ⟨n, [], rfl, fun h => ⟨h, rfl⟩⟩
    · next hten =>
      obtain ⟨d, ds, heq, hzero⟩ := ih (n / 10) (by omega)
      refine ⟨d, ds ++ [n % 10], by rw [heq]; rfl, fun h => ?_⟩
      have := (hzero h).1
      omega

/-- Written digits are read back, all of them. -/
theorem takeDigits_digitChar {ds : List Nat} (h : ∀ d ∈ ds, d < 10) :
    takeDigits (ds.map Decimal.digitChar) = (ds, []) := by
  induction ds with
  | nil => rfl
  | cons d ds ih =>
    rw [List.map_cons, takeDigits, digitOf?_digitChar (h d (by simp))]
    simp only [ih fun e he => h e (by simp [he])]

/-- A number in decimal is read back as its digits. -/
theorem takeDigits_natural (n : Nat) :
    takeDigits (Decimal.natural n) = (Decimal.digits n, []) :=
  takeDigits_digitChar fun _ => Decimal.lt_ten_of_mem_digits

/-- More digits make a number no smaller. -/
theorem le_foldl_digits (ds : List Nat) (v : Nat) : v ≤ ds.foldl (fun v d => v * 10 + d) v := by
  induction ds generalizing v with
  | nil => exact Nat.le_refl v
  | cons d ds ih => exact Nat.le_trans (by omega) (ih (v * 10 + d))

/-- Digits that fit into the significand all count. -/
theorem gatherWhole_eq {v : Nat} {ds : List Nat}
    (h : ds.foldl (fun v d => v * 10 + d) v ≤ maxSignificand) :
    gatherWhole v ds = (ds.foldl (fun v d => v * 10 + d) v, 0) := by
  induction ds generalizing v with
  | nil => rfl
  | cons d ds ih =>
    have hfits : v * 10 + d ≤ maxSignificand := Nat.le_trans (le_foldl_digits ds _) h
    rw [gatherWhole, if_neg (by omega), ih h]
    rfl

/-- The digits of a number are read as this number, with or without a sign,
if that fits into sixty-four bits. -/
theorem readUnsigned_natural {n : Nat} (negative : Bool) (h : n < Word.count)
    (hsign : negative = true → 0 < n ∧ n ≤ 0x8000000000000000) :
    readUnsigned negative (Decimal.natural n) =
      .ok (.integer (if negative then -Int.ofNat n else Int.ofNat n), []) := by
  obtain ⟨d, ds, hdigits, hzero⟩ := digits_eq_cons n
  have htake := takeDigits_natural n
  rw [hdigits] at htake
  have hvalue : (d :: ds).foldl (fun v d => v * 10 + d) 0 = n := by
    rw [← hdigits]
    exact Decimal.ofDigits_digits n
  have hgather : gatherWhole 0 (d :: ds) = (n, 0) := by
    have hfits : (d :: ds).foldl (fun v d => v * 10 + d) 0 ≤ maxSignificand := by
      rw [hvalue, maxSignificand]
      omega
    rw [gatherWhole_eq hfits, hvalue]
  rw [readUnsigned_eq _ htake fun hd => (hzero hd).2, hgather]
  exact if_pos ⟨rfl, by simp [startsExponent], by simp, hsign⟩

/-- A natural number is written in digits, and in at least one. -/
theorem digits_natural (n : Nat) : Digits (Decimal.natural n) where
  nonempty := by
    obtain ⟨d, ds, hdigits, -⟩ := digits_eq_cons n
    simp [Decimal.natural, hdigits]
  all := by
    intro c hc
    obtain ⟨d, hd, rfl⟩ := List.mem_map.1 hc
    rw [digitOf?_digitChar (Decimal.lt_ten_of_mem_digits hd)]
    rfl

/-- A natural number is written without a zero before other digits. -/
theorem whole_natural (n : Nat) : Whole (Decimal.natural n) where
  toDigits := digits_natural n
  reduced := by
    obtain ⟨d, ds, hdigits, hzero⟩ := digits_eq_cons n
    have hd : d < 10 := Decimal.lt_ten_of_mem_digits (n := n) (by simp [hdigits])
    intro hhead
    have hchar : Decimal.digitChar d = '0' := by simpa [Decimal.natural, hdigits] using hhead
    have hnone : d = 0 := by
      have := digitOf?_digitChar hd
      rw [hchar] at this
      exact (Option.some.inj this).symm
    rw [Decimal.natural, hdigits, (hzero hnone).2, List.map_singleton, hchar]

/-- What is written for an integer is a number. -/
theorem numeral_integer (n : Int) : Numeral (Decimal.integer n) := by
  have hmagnitude (k : Nat) : Magnitude (Decimal.natural k) := by
    simpa using Magnitude.whole (whole_natural k) .absent
  cases n with
  | ofNat n => exact .positive (hmagnitude n)
  | negSucc n => exact .negative (hmagnitude (n + 1))

/-- **An integer is read as it is written**, if it fits the range that the reader keeps exactly; a
larger one is read as a real number. -/
theorem readNumber_integer {n : Int} (hlow : -0x8000000000000000 ≤ n) (hhigh : n < Word.count) :
    readNumber (Decimal.integer n) = .ok (.integer n, []) := by
  cases n with
  | ofNat n =>
    have hread := readUnsigned_natural false (Int.ofNat_lt.1 hhigh) (by simp)
    show readNumber (Decimal.natural n) = _
    unfold readNumber
    split
    · next heq =>
      have hdigit := (digits_natural n).all '-' (by simp [heq])
      simp [Decimal.digitOf?] at hdigit
    · exact hread
  | negSucc n =>
    have hsmall : n + 1 ≤ 0x8000000000000000 := by omega
    exact readUnsigned_natural true (Nat.lt_of_le_of_lt hsmall (by decide))
      fun _ => ⟨Nat.succ_pos n, hsmall⟩

end SlotRadio.Json
