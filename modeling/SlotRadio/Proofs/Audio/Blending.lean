import SlotRadio.Proofs.Audio.Loudness
import SlotRadio.Proofs.Audio.Shape
/-!
# What is heard of several signals

A mix of several signals is their sum, moment by moment, brought down as a
whole if it would clip.  Over exact fractions this is said without the loops
that add and scale: `together` is the sum, and what is played for the signals
is this sum times one `Blend.gain`, whatever the lengths of the signals are.

* `amplitude_sum` — the running sum is the sum, because it is as long as the
  longest signal from the start;
* `amplitude_limited` — bringing a signal down scales all of it alike;
* `gain_mul_peak` — and brings its peak to the ceiling, if it was too high;
* `composite_never_clips` — all of this together.
-/

namespace SlotRadio

open Arithmetic

/-- The sum of signals at a moment. -/
def together (signals : List (Array Rat)) (i : Nat) : Rat :=
  (signals.map (amplitude · i)).sum

namespace Blend

/-! ## Adding up -/

theorem amplitude_replicate (length i : Nat) :
    amplitude (Array.replicate length zero) i = 0 := by
  by_cases h : i < length
  · rw [amplitude_of_lt (by simpa using h), Array.getElem_replicate, zero_rat]
  · rw [amplitude_of_le (by simpa using h)]

/-- A signal is added at each moment to a sum that is not shorter. -/
theorem amplitude_addTo {sum signal : Array Rat} (h : signal.size ≤ sum.size) (i : Nat) :
    amplitude (addTo sum signal) i = amplitude sum i + amplitude signal i := by
  by_cases hsum : i < sum.size
  · have hboth : i < (addTo sum signal).size := by rwa [size_addTo]
    rw [amplitude_of_lt hboth, amplitude_of_lt hsum]
    by_cases hsignal : i < signal.size
    · rw [amplitude_of_lt hsignal]
      simp only [addTo, Array.getElem_mapIdx, dif_pos hsignal]
    · rw [amplitude_of_le (Nat.le_of_not_lt hsignal), add_zero]
      simp only [addTo, Array.getElem_mapIdx, dif_neg hsignal]
  · have hsum : sum.size ≤ i := Nat.le_of_not_lt hsum
    rw [amplitude_of_le (by rwa [size_addTo]), amplitude_of_le hsum,
      amplitude_of_le (h.trans hsum), add_zero]

/-- Signals that are added one after the other add up at every moment. -/
theorem amplitude_foldl_addTo {signals : List (Array Rat)} {start : Array Rat}
    (h : ∀ s ∈ signals, s.size ≤ start.size) (i : Nat) :
    amplitude (signals.foldl addTo start) i = amplitude start i + together signals i := by
  induction signals generalizing start with
  | nil => simp [together]
  | cons s signals ih =>
    obtain ⟨hs, hsignals⟩ := List.forall_mem_cons.1 h
    have hlater : ∀ t ∈ signals, t.size ≤ (addTo start s).size := by simpa using hsignals
    rw [List.foldl_cons, ih hlater, amplitude_addTo hs, add_assoc]
    rfl

/-- No signal is longer than the sum. -/
theorem size_le_sum {signals : List (Array Rat)} {s : Array Rat} (h : s ∈ signals) :
    s.size ≤ (sum signals).size := by
  have hmax := max?_size_sum (List.ne_nil_of_mem h)
  exact (List.max?_eq_some_iff.1 hmax).2 _ (List.mem_map_of_mem h)

/-- **The running sum is the sum.** -/
theorem amplitude_sum (signals : List (Array Rat)) (i : Nat) :
    amplitude (sum signals) i = together signals i := by
  let length := signals.foldl (fun n s => max n s.size) 0
  have hlength : (sum signals).size = (Array.replicate length (zero : Rat)).size :=
    size_foldl_addTo signals _
  calc amplitude (sum signals) i
      = amplitude (Array.replicate length zero) i + together signals i :=
        amplitude_foldl_addTo (fun s hs => hlength ▸ size_le_sum hs) i
    _ = together signals i := by rw [amplitude_replicate, zero_add]

/-! ## Scaling -/

/-- What a signal is scaled by. -/
def gain (ceiling : Rat) (signal : Array Rat) : Rat :=
  if 1 < peak signal then ceiling / peak signal else 1

/-- A sum that does not clip is not scaled. -/
theorem gain_of_le {ceiling : Rat} {signal : Array Rat} (h : peak signal ≤ 1) :
    gain ceiling signal = 1 :=
  if_neg h.not_gt

/-- A sum that clips is scaled by the ceiling over its peak. -/
theorem gain_of_lt {ceiling : Rat} {signal : Array Rat} (h : 1 < peak signal) :
    gain ceiling signal = ceiling / peak signal :=
  if_pos h

/-- A scaled signal is scaled at every moment, and silent behind its end. -/
theorem amplitude_map_mul (signal : Array Rat) (scale : Rat) (i : Nat) :
    amplitude (signal.map (· * scale)) i = scale * amplitude signal i := by
  by_cases h : i < signal.size
  · rw [amplitude_of_lt h, amplitude_of_lt (by simpa using h), Array.getElem_map, mul_comm]
  · have h := Nat.le_of_not_lt h
    rw [amplitude_of_le h, amplitude_of_le (by simpa using h), mul_zero]

/-- A signal that is brought down is scaled as a whole. -/
theorem amplitude_limited (ceiling : Rat) (signal : Array Rat) (i : Nat) :
    amplitude (limited ceiling signal) i = gain ceiling signal * amplitude signal i := by
  unfold limited
  dsimp only
  rw [less_rat, one_rat]
  by_cases h : 1 < peak signal
  · rw [if_pos (decide_eq_true h), gain_of_lt h]
    exact amplitude_map_mul ..
  · rw [if_neg (by simpa using h), gain_of_le (le_of_not_gt h), one_mul]

section

variable {ceiling : Rat} (hpositive : 0 < ceiling) (hfull : ceiling ≤ 1)

include hpositive in

/-- The scale is positive. -/
theorem gain_pos (signal : Array Rat) : 0 < gain ceiling signal := by
  unfold gain
  split
  · next h => exact div_pos hpositive (zero_lt_one.trans h)
  · exact zero_lt_one

/-- The scale brings the peak of a sum that clips to the ceiling. -/
theorem gain_mul_peak {signal : Array Rat} (h : 1 < peak signal) :
    gain ceiling signal * peak signal = ceiling := by
  rw [gain_of_lt h, div_mul_cancel₀ _ (zero_lt_one.trans h).ne']

include hfull in
/-- The peak that is left is not beyond full scale. -/
theorem gain_mul_peak_le (signal : Array Rat) : gain ceiling signal * peak signal ≤ 1 := by
  by_cases h : 1 < peak signal
  · rwa [gain_mul_peak h]
  · have h := le_of_not_gt h
    rwa [gain_of_le h, one_mul]

end

/-! ## Several signals -/

/-- What is played for signals, and the peak before scaling, are as they
should be.  The playback lasts as long as the longest signal and is the sum of
all, with one positive scale for all moments: one where the sum does not clip,
and otherwise the one that brings its peak down to the ceiling. -/
structure Scales (ceiling : Rat) (signals : List (Array Rat)) (played : Array Rat × Rat)
    (scale : Rat) : Prop where
  length : (signals.map (·.size)).max? = some played.1.size
  alike : ∀ i, amplitude played.1 i = scale * together signals i
  positive : 0 < scale
  before : IsPeak (together signals) played.2
  quiet : played.2 ≤ 1 → scale = 1
  loud : 1 < played.2 → IsPeak (amplitude played.1) ceiling
  unclipped : ∀ i, |amplitude played.1 i| ≤ 1

/-- Two or more signals are summed and brought down to the ceiling. -/
theorem blend_of_several {α : Type} [Arithmetic α] (ceiling : α) {signals : List (Array α)}
    (h : 2 ≤ signals.length) :
    blend ceiling signals = (limited ceiling (sum signals), peak (sum signals)) := by
  match signals, h with
  | _ :: _ :: _, _ => rfl

/-- **A mix of several signals never clips and is never distorted**: it is
their sum times one number, which is one if the sum does not clip and otherwise
brings its peak to the ceiling.  A single signal is passed on. -/
theorem composite_never_clips {ceiling : Rat} (hpositive : 0 < ceiling) (hfull : ceiling ≤ 1)
    (signals : List (Array Rat)) :
    (2 ≤ signals.length → ∃ scale, Scales ceiling signals (blend ceiling signals) scale) ∧
      ∀ solo, signals = [solo] → (blend ceiling signals).1 = solo := by
  constructor
  · intro hseveral
    have hsome : signals ≠ [] := by
      rintro rfl
      cases hseveral
    rw [blend_of_several ceiling hseveral]
    have hsum : ∀ i, amplitude (sum signals) i = together signals i := amplitude_sum signals
    have hbefore : IsPeak (together signals) (peak (sum signals)) :=
      funext hsum ▸ isPeak_peak (sum signals)
    have hscale : 0 < gain ceiling (sum signals) := gain_pos hpositive _
    have halike : ∀ i, amplitude (limited ceiling (sum signals)) i =
        gain ceiling (sum signals) * together signals i := fun i => by
      rw [amplitude_limited, hsum]
    have hafter := hbefore.scaled hscale.le halike
    refine ⟨gain ceiling (sum signals), ?_, halike, hscale, hbefore, gain_of_le, ?_, ?_⟩
    · rw [size_limited]
      exact max?_size_sum hsome
    · intro hloud
      rwa [gain_mul_peak hloud] at hafter
    · exact fun i => (hafter.highest i).trans (gain_mul_peak_le hfull _)
  · rintro solo rfl
    rfl

/-- Two signals that start at full scale: the sum is twice that and is brought
down to nine tenths. -/
theorem composite_never_clips_two :
    (0 : Rat) < 9 / 10 ∧ (9 / 10 : Rat) ≤ 1 ∧
      blend (9 / 10) [#[1, 1 / 2], #[1]] = (#[9 / 10, 9 / 40], (2 : Rat)) ∧
      ∃ scale, Scales (9 / 10) [#[1, 1 / 2], #[1]] (#[9 / 10, 9 / 40], 2) scale := by
  have hpositive : (0 : Rat) < 9 / 10 := by decide +kernel
  have hfull : (9 / 10 : Rat) ≤ 1 := by decide +kernel
  have hplayed : blend (9 / 10) [#[1, 1 / 2], #[1]] = (#[9 / 10, 9 / 40], (2 : Rat)) := by
    decide +kernel
  have hscales := (composite_never_clips hpositive hfull [#[1, 1 / 2], #[1]]).1 (by decide)
  rw [hplayed] at hscales
  exact ⟨hpositive, hfull, hplayed, hscales⟩

end Blend

end SlotRadio
