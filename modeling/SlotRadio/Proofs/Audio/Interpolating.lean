import Mathlib.Order.Bounds.Basic
import SlotRadio.Proofs.Audio.Loudness
import SlotRadio.Proofs.Audio.Shape
/-!
# Between two samples

Linear interpolation reads a signal at evenly spaced positions.  Over exact
fractions a position is the quotient `i * fromRate / toRate`; its whole part is
the sample before it, and what is left is the weight of the sample behind it.

The number of samples that come out is just small enough for this: the last
position still has a sample before it (`before_lt_of_lt`), so the cut at the
end of the signal never takes effect there, and only repeats the last sample
where there is none behind it.  Hence every sample that comes out lies between
two neighbours (`ReadsBetween`), and none is louder than the signal.

* `outputLength_le_iff` — the number of samples is the least that covers the
  signal;
* `position_rat`, `floor_position` — positions and their whole parts;
* `readsBetween_sample` — one sample;
* `interpolation_stays_inside` — all of this together.
-/

namespace SlotRadio

open Arithmetic

/-- A length is enough at the new rate exactly if it lasts at least as long,
so that the length of the conversion is the least one. -/
theorem outputLength_le_iff {length fromRate toRate m : Nat} (hfrom : 0 < fromRate) :
    outputLength length fromRate toRate ≤ m ↔ length * toRate ≤ m * fromRate := by
  rw [outputLength_eq, ceilDiv_le_iff_le_mul hfrom, Nat.mul_comm fromRate]

namespace Linear

variable {samples : Array Rat} {fromRate toRate i : Nat}

/-! ## Positions -/

/-- The position of a sample, as an exact fraction. -/
theorem position_rat (fromRate toRate i : Nat) :
    (position fromRate toRate i : Rat) = (i * fromRate : Nat) / toRate := by
  show (i : Rat) / (toRate / fromRate) = _
  rw [div_div_eq_mul_div, Nat.cast_mul]

/-- The whole part of a position. -/
theorem floor_position (fromRate toRate i : Nat) :
    Position.floor (position fromRate toRate i : Rat) = i * fromRate / toRate := by
  rw [position_rat]
  exact Rat.natFloor_natCast_div_natCast _ _

/-- **There is a sample before every position.** -/
theorem before_lt_of_lt (hfrom : 0 < fromRate) (hto : 0 < toRate)
    (hi : i < outputLength samples.size fromRate toRate) :
    i * fromRate / toRate < samples.size := by
  have hcovered : ¬samples.size * toRate ≤ i * fromRate := fun h =>
    (outputLength_le_iff hfrom).2 h |>.not_gt hi
  exact (Nat.div_lt_iff_lt_mul hto).2 (Nat.lt_of_not_le hcovered)

/-- What is left of a position besides its whole part. -/
def weight (fromRate toRate i : Nat) : Rat :=
  position fromRate toRate i - (i * fromRate / toRate : Nat)

/-- A weight is what is left of a whole part, from zero to below one. -/
theorem weight_bounds (hto : 0 < toRate) :
    0 ≤ weight fromRate toRate i ∧ weight fromRate toRate i < 1 := by
  have hto : (0 : Rat) < toRate := Nat.cast_pos.2 hto
  unfold weight
  rw [position_rat, ← Rat.natFloor_natCast_div_natCast]
  have hnonneg : (0 : Rat) ≤ (i * fromRate : Nat) / toRate := by positivity
  constructor
  · exact sub_nonneg.2 (Nat.floor_le hnonneg)
  · exact sub_lt_iff_lt_add'.2 (Nat.lt_floor_add_one _)

/-! ## Weighted means -/

/-- A weighted mean of two numbers lies between them. -/
theorem mean_bounds {a b weight : Rat} (hnonneg : 0 ≤ weight) (hle : weight ≤ 1) :
    min a b ≤ a * (1 - weight) + b * weight ∧ a * (1 - weight) + b * weight ≤ max a b := by
  have hother : 0 ≤ 1 - weight := sub_nonneg.2 hle
  have hone (c : Rat) : c = c * (1 - weight) + c * weight := by ring
  constructor
  · calc min a b = min a b * (1 - weight) + min a b * weight := hone _
      _ ≤ a * (1 - weight) + b * weight := by gcongr <;> simp
  · calc a * (1 - weight) + b * weight
        ≤ max a b * (1 - weight) + max a b * weight := by gcongr <;> simp
      _ = max a b := (hone _).symm

/-! ## One sample -/

/-- A value is read from a signal at a position, between two of its samples.
The whole part of the position is the sample before it, which is in the
signal; the other neighbour is the next sample, or the last one again.  What
is left of the position is the weight with which the mean of the neighbours is
taken, and so the value lies between them. -/
structure ReadsBetween (samples : Array Rat) (position : Rat) (before behind : Nat)
    (weight value : Rat) : Prop where
  whole : Position.floor position = before
  inside : before ≤ samples.size - 1
  neighbour : behind = before + 1 ∧ before < samples.size - 1 ∨
    behind = before ∧ before = samples.size - 1
  rest : position = before + weight
  nonneg : 0 ≤ weight
  lt_one : weight < 1
  mean : value = amplitude samples before * (1 - weight) + amplitude samples behind * weight
  between : min (amplitude samples before) (amplitude samples behind) ≤ value ∧
    value ≤ max (amplitude samples before) (amplitude samples behind)

/-- What is computed for an output sample, if there is a sample before its
position. -/
theorem sample_rat (hbefore : i * fromRate / toRate < samples.size) :
    sample id samples fromRate toRate i =
      amplitude samples (i * fromRate / toRate) * (1 - weight fromRate toRate i) +
        amplitude samples (min (i * fromRate / toRate + 1) (samples.size - 1)) *
          weight fromRate toRate i := by
  have huncut : min (Position.floor (position fromRate toRate i : Rat)) (samples.size - 1) =
      i * fromRate / toRate := by
    rw [floor_position]
    omega
  unfold sample
  dsimp only
  rw [huncut, zero_rat, one_rat]
  rfl

/-- **Every sample of the conversion is read between two of the signal**, if
its position lies in it. -/
theorem readsBetween_sample (hto : 0 < toRate) (hbefore : i * fromRate / toRate < samples.size) :
    ReadsBetween samples (position fromRate toRate i) (i * fromRate / toRate)
      (min (i * fromRate / toRate + 1) (samples.size - 1)) (weight fromRate toRate i)
      (sample id samples fromRate toRate i) := by
  obtain ⟨hnonneg, hlt⟩ : 0 ≤ weight fromRate toRate i ∧ weight fromRate toRate i < 1 :=
    weight_bounds hto
  have hmean := sample_rat hbefore
  refine ⟨floor_position .., by omega, by omega, ?_, hnonneg, hlt, hmean, ?_⟩
  · exact (add_sub_cancel _ _).symm
  · rw [hmean]
    exact mean_bounds hnonneg hlt.le

/-- A value between two samples is no louder than the louder one. -/
theorem ReadsBetween.abs_value_le {position weight value : Rat} {before behind : Nat}
    (h : ReadsBetween samples position before behind weight value) : |value| ≤ peak samples := by
  have hpeak := (isPeak_peak samples).highest
  obtain ⟨hlow, hhigh⟩ := h.between
  refine abs_le.2 ⟨?_, ?_⟩
  · exact (le_min (neg_le_of_abs_le (hpeak before)) (neg_le_of_abs_le (hpeak behind))).trans hlow
  · exact hhigh.trans (max_le (le_of_abs_le (hpeak before)) (le_of_abs_le (hpeak behind)))

/-! ## The whole signal -/

/-- At the same rate interpolation would read each sample as it is, so that
this case needs no treatment of its own. -/
theorem sample_of_same_rate (hrate : 0 < toRate) (hi : i < samples.size) :
    sample id samples toRate toRate i = samples[i] := by
  have hwhole : i * toRate / toRate = i := Nat.mul_div_cancel i hrate
  have hweight : weight toRate toRate i = 0 := by
    have hne : (toRate : Rat) ≠ 0 := Nat.cast_ne_zero.2 hrate.ne'
    rw [weight, position_rat, hwhole, Nat.cast_mul, mul_div_cancel_right₀ _ hne, sub_self]
  rw [sample_rat (by rwa [hwhole]), hwhole, hweight, amplitude_of_lt hi]
  ring

/-- At the same rate the length stays the same. -/
theorem outputLength_same {length rate : Nat} (hrate : 0 < rate) :
    outputLength length rate rate = length := by
  have hcovers : length * rate ≤ outputLength length rate rate * rate :=
    (outputLength_le_iff hrate).1 le_rfl
  exact Nat.le_antisymm ((outputLength_le_iff hrate).2 le_rfl)
    (Nat.le_of_mul_le_mul_right hcovers hrate)

/-- A conversion is made sample by sample. -/
theorem convert_eq (hsome : samples ≠ #[]) (hfrom : 0 < fromRate) (hto : 0 < toRate) :
    convert id samples fromRate toRate =
      Array.ofFn fun i : Fin (outputLength samples.size fromRate toRate) =>
        sample id samples fromRate toRate i := by
  have hgiven : ¬(samples.isEmpty ∨ fromRate = 0 ∨ toRate = 0) := by
    simp [hsome, hfrom.ne', hto.ne']
  unfold convert
  rw [if_neg hgiven]
  split
  · next heq =>
    subst heq
    refine Array.ext (by rw [Array.size_ofFn, outputLength_same hto]) fun i hi _ => ?_
    rw [Array.getElem_ofFn, sample_of_same_rate hto hi]
  · rfl

/-- **Linear interpolation covers the signal and stays inside it.**  Its
length is the least that covers the signal, each of its samples is read between
two neighbouring ones, and it is nowhere louder than the signal. -/
theorem interpolation_stays_inside (hsome : samples ≠ #[]) (hfrom : 0 < fromRate)
    (hto : 0 < toRate) :
    IsLeast {m | samples.size * toRate ≤ m * fromRate}
        (outputLength samples.size fromRate toRate) ∧
      (convert id samples fromRate toRate).size = outputLength samples.size fromRate toRate ∧
      (∀ i < outputLength samples.size fromRate toRate, ∃ behind weight,
        ReadsBetween samples (position fromRate toRate i) (i * fromRate / toRate) behind weight
          (amplitude (convert id samples fromRate toRate) i)) ∧
      peak (convert id samples fromRate toRate) ≤ peak samples := by
  have hconvert := convert_eq hsome hfrom hto
  have hsize : (convert id samples fromRate toRate).size =
      outputLength samples.size fromRate toRate := by
    rw [hconvert, Array.size_ofFn]
  have hreads : ∀ i < outputLength samples.size fromRate toRate, ∃ behind weight,
      ReadsBetween samples (position fromRate toRate i) (i * fromRate / toRate) behind weight
        (amplitude (convert id samples fromRate toRate) i) := by
    intro i hi
    have hvalue : amplitude (convert id samples fromRate toRate) i =
        sample id samples fromRate toRate i := by
      rw [amplitude_of_lt (hsize ▸ hi)]
      simp only [hconvert, Array.getElem_ofFn]
    rw [hvalue]
    exact ⟨_, _, readsBetween_sample hto (before_lt_of_lt hfrom hto hi)⟩
  refine ⟨⟨?_, fun m hm => (outputLength_le_iff hfrom).2 hm⟩, hsize, hreads, ?_⟩
  · exact (outputLength_le_iff hfrom).1 le_rfl
  · refine peak_le_iff.2 ⟨(isPeak_peak samples).nonneg, fun x hx => ?_⟩
    obtain ⟨i, hi, rfl⟩ := Array.mem_iff_getElem.1 hx
    obtain ⟨behind, weight, hread⟩ := hreads i (hsize ▸ hi)
    rw [← amplitude_of_lt hi]
    exact hread.abs_value_le

/-- At the last position there is no sample behind the one before it. -/
theorem interpolation_stays_inside_last :
    #[(1 : Rat), 0] ≠ #[] ∧ 0 < 2 ∧ 0 < 3 ∧ outputLength 2 2 3 = 3 ∧
      convert id #[(1 : Rat), 0] 2 3 = #[(1 : Rat), 1 / 3, 0] ∧
      (∃ behind weight, ReadsBetween #[1, 0] (position 2 3 2) 1 behind weight 0) ∧
      peak #[(1 : Rat), 1 / 3, 0] ≤ peak #[(1 : Rat), 0] := by
  have hsome : #[(1 : Rat), 0] ≠ #[] := by decide
  have hvalues : convert id #[(1 : Rat), 0] 2 3 = #[(1 : Rat), 1 / 3, 0] := by decide +kernel
  obtain ⟨-, -, hreads, hpeak⟩ := interpolation_stays_inside hsome
    (show 0 < 2 by decide) (show 0 < 3 by decide)
  have hlast := hreads 2 (by decide)
  rw [hvalues] at hlast hpeak
  exact ⟨hsome, by decide, by decide, by decide, hvalues, hlast, hpeak⟩

end Linear

end SlotRadio
