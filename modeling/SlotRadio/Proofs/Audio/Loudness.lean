import Mathlib.Algebra.Order.Field.Basic
import Mathlib.Data.Rat.Floor
import SlotRadio.Audio.Arithmetic
/-!
# How loud a signal is

Signals are read over exact fractions here.  The **amplitude** of a signal is
its sample at a moment, and nothing where the signal is over, so that signals
of different lengths can be compared and added moment by moment.

* `IsPeak` — the largest size that an amplitude has, said without the loop that
  looks for it;
* `isPeak_peak` — the loop finds it;
* `peak_le_iff` — a bound for the peak is one for all samples.
-/

namespace SlotRadio

/-- The sample of a signal at a moment; a signal that is over is silent. -/
def amplitude (signal : Array Rat) (i : Nat) : Rat :=
  signal.getD i 0

/-- The largest size that a wave has: it has it at some moment, and is never
larger. -/
structure IsPeak (wave : Nat → Rat) (top : Rat) : Prop where
  reached : ∃ i, |wave i| = top
  highest : ∀ i, |wave i| ≤ top

variable {signal : Array Rat} {wave wave' : Nat → Rat} {top gain : Rat} {i : Nat}

/-- Up to its end the amplitude of a signal is its sample. -/
theorem amplitude_of_lt (h : i < signal.size) : amplitude signal i = signal[i] := by
  simp [amplitude, h]

/-- Behind its end a signal is silent. -/
theorem amplitude_of_le (h : signal.size ≤ i) : amplitude signal i = 0 := by
  simp [amplitude, h]

/-- An amplitude is that of a sample, or the signal is over. -/
theorem amplitude_cases (signal : Array Rat) (i : Nat) :
    amplitude signal i ∈ signal ∨ amplitude signal i = 0 := by
  by_cases h : i < signal.size
  · rw [amplitude_of_lt h]
    exact .inl (Array.getElem_mem h)
  · exact .inr (amplitude_of_le (Nat.le_of_not_lt h))

/-! ## Peaks -/

/-- A peak is not negative. -/
theorem IsPeak.nonneg (h : IsPeak wave top) : 0 ≤ top := by
  obtain ⟨i, rfl⟩ := h.reached
  exact abs_nonneg _

/-- A wave that is scaled has the scaled peak. -/
theorem IsPeak.scaled (h : IsPeak wave top) (hgain : 0 ≤ gain)
    (hwave : ∀ i, wave' i = gain * wave i) : IsPeak wave' (gain * top) := by
  have hsize : ∀ i, |wave' i| = gain * |wave i| := fun i => by
    rw [hwave, abs_mul, abs_of_nonneg hgain]
  obtain ⟨i, hi⟩ := h.reached
  refine ⟨⟨i, by rw [hsize, hi]⟩, fun j => ?_⟩
  rw [hsize]
  exact mul_le_mul_of_nonneg_left (h.highest j) hgain

/-! ## Reading the arithmetic over exact fractions -/

namespace Arithmetic

theorem zero_rat : (zero : Rat) = 0 :=
  Nat.cast_zero

theorem one_rat : (one : Rat) = 1 :=
  Nat.cast_one

theorem abs_rat (x : Rat) : abs x = |x| := by
  show (if 0 ≤ x then x else -x) = |x|
  split
  · next h => rw [abs_of_nonneg h]
  · next h => rw [abs_of_neg (lt_of_not_ge h)]

theorem less_rat (x y : Rat) : less x y = decide (x < y) :=
  rfl

/-- For exact fractions the larger of two is the maximum, for none of them is
no number. -/
theorem larger_rat (x y : Rat) : larger x y = max x y := by
  unfold larger
  rw [less_rat]
  by_cases h : x < y
  · rw [if_pos (decide_eq_true h), max_eq_right h.le]
  · rw [if_neg (by simpa using h), max_eq_left (le_of_not_gt h)]

/-- The loop that looks for the peak, over exact fractions. -/
theorem peak_rat (signal : Array Rat) :
    peak signal = signal.toList.foldl (fun top x => max top |x|) 0 := by
  unfold peak
  simp only [larger_rat, abs_rat, zero_rat, Array.foldl_toList]

/-- What the loop has found is no larger than a bound exactly if nothing that
it has seen is. -/
theorem foldl_max_le_iff (samples : List Rat) (start bound : Rat) :
    samples.foldl (fun top x => max top |x|) start ≤ bound ↔
      start ≤ bound ∧ ∀ x ∈ samples, |x| ≤ bound := by
  induction samples generalizing start with
  | nil => simp
  | cons x samples ih =>
    rw [List.foldl_cons, ih, max_le_iff, List.forall_mem_cons, and_assoc]

/-- What the loop has found it has seen. -/
theorem foldl_max_cases (samples : List Rat) (start : Rat) :
    samples.foldl (fun top x => max top |x|) start = start ∨
      ∃ x ∈ samples, |x| = samples.foldl (fun top x => max top |x|) start := by
  induction samples generalizing start with
  | nil => exact .inl rfl
  | cons x samples ih =>
    rw [List.foldl_cons]
    obtain heq | ⟨y, hy, heq⟩ := ih (max start |x|)
    · rw [heq]
      obtain h | h := max_choice start |x|
      · exact .inl h
      · exact .inr ⟨x, by simp, h.symm⟩
    · exact .inr ⟨y, List.mem_cons_of_mem _ hy, heq⟩

end Arithmetic

open Arithmetic

/-- A peak is below a bound exactly if every sample is, and the bound is not
negative. -/
theorem peak_le_iff {bound : Rat} :
    peak signal ≤ bound ↔ 0 ≤ bound ∧ ∀ x ∈ signal, |x| ≤ bound := by
  rw [peak_rat, foldl_max_le_iff]
  simp only [Array.mem_toList_iff]

/-- **The peak of a signal** is the largest size of its amplitude. -/
theorem isPeak_peak (signal : Array Rat) : IsPeak (amplitude signal) (peak signal) := by
  have hnone : |amplitude signal signal.size| = 0 := by
    rw [amplitude_of_le le_rfl, abs_zero]
  obtain ⟨hzero, hall⟩ := peak_le_iff.1 (le_refl (peak signal))
  refine ⟨?_, fun i => ?_⟩
  · have hcases := foldl_max_cases signal.toList 0
    rw [← peak_rat] at hcases
    obtain heq | ⟨x, hx, heq⟩ := hcases
    · exact ⟨signal.size, by rw [hnone, heq]⟩
    · obtain ⟨i, hi, rfl⟩ := Array.mem_iff_getElem.1 (Array.mem_toList_iff.1 hx)
      exact ⟨i, by rw [amplitude_of_lt hi, heq]⟩
  · obtain h | h := amplitude_cases signal i
    · exact hall _ h
    · rw [h, abs_zero]
      exact hzero

end SlotRadio
