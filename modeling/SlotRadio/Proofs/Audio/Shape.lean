import Mathlib.Algebra.Order.Floor.Div
import SlotRadio.Proofs.Audio.Cache
/-!
# The shape of a composite

What a mix plays is made of samples, but who is heard, at which rate and
for how long is said by counting alone: a clip has `Clip.lengthAt` samples
at the rate of the composite, `MixPlan.played` of them are over, and the
clips with more than that are `MixPlan.heard`.  A composite has the rate
`MixPlan.rate`, the operators of these clips, and the samples that the
longest clip has left (`Shapes`).

The resampler in the better conversion plays no part in this.  It is taken
as a `FilterStage`, of which nothing is known: it may give any blocks, fail
on the way or crash.  Whatever blocks it gives are cut or extended to the
length that the linear conversion gives (`size_convertRateBy`), and where
it fails the linear one stands in.  Every resampler is one such stage, the
block filter among them (`convertRate_eq`, `run_eq_runBy`).

* `size_blend` — adding and scaling signals keeps the length of the
  longest;
* `lengths_convertedBy?`, `lengths_remaining` — the lengths of the signals
  before and after what is over has been taken away;
* `max?_heard` — the longest clip left is the longest clip;
* `Shapes.span?_eq` — two results that have the shape of one plan are for
  the same operators, at the same rate and of the same length.
-/

namespace SlotRadio

/-! ## Conversion around any filter -/

/-- What a filter makes of a signal: blocks, with so many samples of delay
in front; nothing, if it cannot be set up or fails on a block; or nothing,
and the worker that runs it does not survive. -/
inductive Filtering where
  | given (delay : Nat) (blocks : List (Array Float32))
  | failed
  | crashed

/-- A filter: what it makes of a signal between two rates. -/
def FilterStage : Type :=
  Array Float32 → Nat → Nat → Filtering

/-- A signal at another rate by any filter, or nothing if the worker
crashed. -/
def convertRateBy (stage : FilterStage) (samples : Array Float32) (fromRate toRate : Nat)
    (quality : Quality) : Option Converted :=
  if fromRate = toRate then some ⟨samples, false⟩
  else
    match quality with
    | .linear => some ⟨interpolate samples fromRate toRate, false⟩
    | .spectral =>
      if fromRate = 0 ∨ toRate = 0 then some ⟨interpolate samples fromRate toRate, true⟩
      else
        let expected := outputLength samples.size fromRate toRate
        if expected = 0 then some ⟨#[], false⟩
        else
          match stage samples fromRate toRate with
          | .given delay blocks =>
            some ⟨Resampler.fitted (blocks.foldl (· ++ ·) #[] |>.drop delay) expected, false⟩
          | .failed => some ⟨interpolate samples fromRate toRate, true⟩
          | .crashed => none

/-- A resampler, as what it makes of a signal. -/
def Resampler.stage (r : Resampler) : FilterStage := fun samples fromRate toRate =>
  match r.start fromRate toRate with
  | none => .failed
  | some s =>
    match r.collect samples (outputLength samples.size fromRate toRate + r.delay s) s with
    | .ok out => .given (r.delay s) [out]
    | .error .crashed => .crashed
    | .error (.invalidRate ..) | .error .unavailable | .error .failed => .failed

/-- The better conversion is one around the block filter, and it falls back on interpolating where
the filter fails, as the conversion around any stage does. -/
theorem convertRate_eq (samples : Array Float32) (fromRate toRate : Nat) (quality : Quality) :
    convertRate samples fromRate toRate quality =
      convertRateBy BlockFilter.resampler.stage samples fromRate toRate quality := by
  unfold convertRate convertRateBy
  split
  · rfl
  cases quality with
  | linear => rfl
  | spectral =>
    dsimp only
    unfold convertByBlocks Resampler.convert
    by_cases hzero : fromRate = 0 ∨ toRate = 0
    · simp only [if_pos hzero]
    simp only [if_neg hzero]
    by_cases hnone : outputLength samples.size fromRate toRate = 0
    · simp only [if_pos hnone]
    simp only [if_neg hnone]
    unfold Resampler.stage
    cases BlockFilter.resampler.start fromRate toRate with
    | none => rfl
    | some s =>
      dsimp only
      cases BlockFilter.resampler.collect samples
        (outputLength samples.size fromRate toRate + BlockFilter.resampler.delay s) s with
      | ok out => simp [Except.map]
      | error fault => cases fault <;> rfl

/-! ## Lengths -/

/-- The number of samples that a clip has at another rate. -/
def Clip.lengthAt (clip : Clip) (rate : Nat) : Nat :=
  if clip.rate = rate then clip.samples.size else clip.samples.size * rate ⌈/⌉ clip.rate

/-- The length after a conversion is the length before it, counted at the new
rate and rounded up. -/
theorem outputLength_eq (length fromRate toRate : Nat) :
    outputLength length fromRate toRate = length * toRate ⌈/⌉ fromRate := by
  unfold outputLength
  rw [Nat.ceilDiv_eq_add_pred_div]
  split
  · next h => rw [h, Nat.div_zero]
  · rfl

/-- The linear conversion has the length that counting gives. -/
theorem size_interpolate {fromRate toRate : Nat} (h : fromRate ≠ toRate)
    (samples : Array Float32) :
    (interpolate samples fromRate toRate).size = outputLength samples.size fromRate toRate := by
  unfold interpolate Linear.convert
  split
  · next hnone =>
    -- Without samples or without one of the rates, none come out either way.
    rw [outputLength_eq]
    rcases hnone with hempty | rfl | rfl
    · rw [Array.isEmpty_iff.1 hempty]
      simp
    · simp
    · simp
  · exact Array.size_ofFn

/-- What is fitted to a length has it, cut or filled up with silence. -/
@[simp] theorem Resampler.size_fitted (samples : Array Float32) (length : Nat) :
    (fitted samples length).size = length := by
  unfold fitted
  rw [Array.take_eq_extract, Array.size_append, Array.size_extract, Array.size_replicate]
  omega

/-- **The length of a converted signal** depends on neither the conversion
nor the filter in it. -/
theorem size_convertRateBy {stage : FilterStage} {clip : Clip} {rate : Nat} {quality : Quality}
    {converted : Converted}
    (h : convertRateBy stage clip.samples clip.rate rate quality = some converted) :
    converted.samples.size = clip.lengthAt rate := by
  unfold convertRateBy at h
  unfold Clip.lengthAt
  by_cases hrate : clip.rate = rate
  · rw [if_pos hrate] at h ⊢
    obtain rfl := Option.some.inj h
    rfl
  rw [if_neg hrate] at h ⊢
  rw [← outputLength_eq]
  have hlinear := size_interpolate hrate clip.samples
  cases quality with
  | linear =>
    obtain rfl := Option.some.inj h
    exact hlinear
  | spectral =>
    dsimp only at h
    split at h
    · obtain rfl := Option.some.inj h
      exact hlinear
    split at h
    · next hnone =>
      obtain rfl := Option.some.inj h
      exact hnone.symm
    split at h
    · obtain rfl := Option.some.inj h
      exact Resampler.size_fitted ..
    · obtain rfl := Option.some.inj h
      exact hlinear
    · cases h

namespace Blend

variable {α : Type} [Arithmetic α]

/-- Adding a signal to a sum does not make the sum longer. -/
@[simp] theorem size_addTo (sum signal : Array α) : (addTo sum signal).size = sum.size := by
  simp [addTo]

/-- Bringing a signal down to a peak does not change its length. -/
@[simp] theorem size_limited (ceiling : α) (signal : Array α) :
    (limited ceiling signal).size = signal.size := by
  unfold limited
  dsimp only
  split <;> simp

/-- However many signals are added, the sum stays as long as it was. -/
theorem size_foldl_addTo (signals : List (Array α)) (start : Array α) :
    (signals.foldl addTo start).size = start.size := by
  induction signals generalizing start with
  | nil => rfl
  | cons s signals ih => rw [List.foldl_cons, ih, size_addTo]

/-- A sum is as long as the longest signal. -/
theorem size_sum (signals : List (Array α)) :
    (sum signals).size = (signals.map (·.size)).foldl max 0 := by
  unfold sum
  rw [size_foldl_addTo, Array.size_replicate, List.foldl_map]

/-- The running sum is as long as the longest signal. -/
theorem max?_size_sum {signals : List (Array α)} (h : signals ≠ []) :
    (signals.map (·.size)).max? = some (sum signals).size := by
  obtain ⟨first, rest, rfl⟩ := List.exists_cons_of_ne_nil h
  rw [size_sum, List.map_cons, List.max?_cons', List.foldl_cons, Nat.zero_max]

/-- What is played for several signals is as long as the longest. -/
theorem size_blend (ceiling : α) {signals : List (Array α)} (h : signals ≠ []) :
    (signals.map (·.size)).max? = some (blend ceiling signals).1.size := by
  match signals, h with
  | [solo], _ => rfl
  | first :: second :: rest, h =>
    show _ = some (limited ceiling (sum (first :: second :: rest))).size
    rw [size_limited, max?_size_sum h]

end Blend

/-! ## The shape -/

/-- Rate, operators and number of samples of what is played. -/
structure Span where
  rate : Nat
  operators : List Nat
  length : Nat
  deriving DecidableEq, Repr

/-- The span of a result, if it has something to play. -/
def MixResult.span? : MixResult → Option Span
  | .composite audio => some ⟨audio.rate, audio.operators, audio.samples.size⟩
  | .silence => none

namespace MixPlan

/-- The highest rate among the clips. -/
def rate (plan : MixPlan) : Nat :=
  plan.targetRate?.getD 0

/-- The number of samples at this rate that should have been played
already. -/
def played (plan : MixPlan) : Nat :=
  plan.elapsedMs * plan.rate / 1000

/-- The clips that have something left. -/
def heard (plan : MixPlan) : List Clip :=
  plan.clips.filter (plan.played < ·.lengthAt plan.rate)

/-- A result has the shape that counting gives.  There is nothing to play
exactly if every clip is over.  A composite has the highest rate and lasts as
long as the longest clip, and those heard in it are the operators with a clip
that is not over, in the order of the cache. -/
structure Shapes (plan : MixPlan) (result : MixResult) : Prop where
  silent : result = .silence ↔ ∀ c ∈ plan.clips, c.lengthAt plan.rate ≤ plan.played
  rate : ∀ audio, result = .composite audio → audio.rate = plan.rate
  operators : ∀ audio, result = .composite audio →
    audio.operators = plan.heard.map (·.operator)
  length : ∀ audio, result = .composite audio →
    ∃ longest, (plan.clips.map (·.lengthAt plan.rate)).max? = some longest ∧
      audio.samples.size = longest - plan.played

/-- The clips at one rate by any filter, or nothing if the worker
crashed. -/
def convertedBy? (stage : FilterStage) (plan : MixPlan) (rate : Nat) :
    Option (List (Nat × Converted)) :=
  plan.clips.mapM fun clip =>
    (convertRateBy stage clip.samples clip.rate rate plan.quality).map (clip.operator, ·)

/-- Mixes with any filter. -/
def runBy (stage : FilterStage) (plan : MixPlan) : Except MixFault MixSummary :=
  match plan.targetRate? with
  | none => .ok ⟨.silence, 0, 0⟩
  | some rate =>
    match plan.convertedBy? stage rate with
    | none => .error (.worker none)
    | some signals =>
      plan.assemble rate (signals.countP fun (_, s) => s.fellBack)
        (plan.remaining rate signals)

/-- A mix is one by the filter stage of the resampler that the mixer uses. -/
theorem run_eq_runBy (plan : MixPlan) : plan.run = plan.runBy BlockFilter.resampler.stage := by
  simp only [run, converted?, convertRate_eq]
  rfl

variable {plan : MixPlan} {stage : FilterStage} {signals : List (Nat × Converted)}

/-- Conversion keeps the operators in their order and gives each the length
that counting gives. -/
theorem lengths_convertedBy? {rate : Nat} (h : plan.convertedBy? stage rate = some signals) :
    signals.map (fun s => (s.1, s.2.samples.size)) =
      plan.clips.map (fun c => (c.operator, c.lengthAt rate)) := by
  refine map_eq_of_mapM ?_ h
  intro clip signal hsignal
  obtain ⟨converted, hconverted, rfl⟩ := Option.map_eq_some_iff.1 hsignal
  rw [size_convertRateBy hconverted]

/-- At the rate of the mix the trim is what should have been played already,
unless this is too large for a count of sixty-four bits. -/
theorem trim_rate (hfits : plan.played < Word.count) : plan.trim plan.rate = plan.played :=
  Nat.mod_eq_of_lt hfits

/-- What is left of the signals: the operators with a clip that is longer
than what is taken away, each with the samples that are left of it. -/
theorem lengths_left {rate : Nat} (h : plan.convertedBy? stage rate = some signals) :
    (plan.remaining rate signals).map (fun s => (s.1, s.2.size)) =
      (plan.clips.filter (plan.trim rate < ·.lengthAt rate)).map fun c =>
        (c.operator, c.lengthAt rate - plan.trim rate) := by
  -- Both sides come from the list of operators and lengths.
  have hpairs := congrArg
    (fun ps : List (Nat × Nat) =>
      (ps.filter (plan.trim rate < ·.2)).map fun p => (p.1, p.2 - plan.trim rate))
    (lengths_convertedBy? h)
  simpa only [List.filter_map, List.map_map, Function.comp_def, remaining,
    Array.drop_eq_extract, Array.size_extract, Nat.min_self] using hpairs

/-- What is left of the signals as long as what should have been played
already is counted in a word: the clips that are not over, each with the
samples that are not. -/
theorem lengths_remaining (hfits : plan.played < Word.count)
    (h : plan.convertedBy? stage plan.rate = some signals) :
    (plan.remaining plan.rate signals).map (fun s => (s.1, s.2.size)) =
      plan.heard.map (fun c => (c.operator, c.lengthAt plan.rate - plan.played)) := by
  have hleft := lengths_left h
  rwa [trim_rate hfits] at hleft

/-- The longest clip that is left is the longest clip, short of what has been played; those that are
over are no longer than that. -/
theorem max?_left {rate taken left : Nat}
    (h : ((plan.clips.filter (taken < ·.lengthAt rate)).map
      fun c => c.lengthAt rate - taken).max? = some left) :
    ∃ longest, (plan.clips.map (·.lengthAt rate)).max? = some longest ∧ taken < longest ∧
      left = longest - taken := by
  obtain ⟨hmem, hmax⟩ := List.max?_eq_some_iff.1 h
  obtain ⟨c, hc, rfl⟩ := List.mem_map.1 hmem
  obtain ⟨hclip, hleft⟩ := List.mem_filter.1 hc
  have hleft : taken < c.lengthAt rate := of_decide_eq_true hleft
  refine ⟨c.lengthAt rate, ?_, hleft, rfl⟩
  refine List.max?_eq_some_iff.2 ⟨List.mem_map_of_mem hclip, fun n hn => ?_⟩
  obtain ⟨d, hd, rfl⟩ := List.mem_map.1 hn
  by_cases hover : d.lengthAt rate ≤ taken
  · exact hover.trans hleft.le
  · have hlonger : d ∈ plan.clips.filter (taken < ·.lengthAt rate) :=
      List.mem_filter.2 ⟨hd, decide_eq_true (Nat.lt_of_not_le hover)⟩
    have := hmax _ (List.mem_map_of_mem hlonger)
    omega

/-- What is left of the longest clip is the longest of what is left. -/
theorem max?_heard {left : Nat}
    (h : (plan.heard.map fun c => c.lengthAt plan.rate - plan.played).max? = some left) :
    ∃ longest, (plan.clips.map (·.lengthAt plan.rate)).max? = some longest ∧
      left = longest - plan.played := by
  obtain ⟨longest, hlongest, -, hleft⟩ := max?_left h
  exact ⟨longest, hlongest, hleft⟩

/-- Nobody is heard exactly if every clip is over. -/
theorem heard_eq_nil_iff :
    plan.heard = [] ↔ ∀ c ∈ plan.clips, c.lengthAt plan.rate ≤ plan.played := by
  simp [heard, List.filter_eq_nil_iff]

/-- Silence has the right shape where every clip is over. -/
theorem shapes_silence (h : ∀ c ∈ plan.clips, c.lengthAt plan.rate ≤ plan.played) :
    plan.Shapes .silence where
  silent := iff_of_true rfl h
  rate _ heq := by cases heq
  operators _ heq := by cases heq
  length _ heq := by cases heq

/-- What is assembled of the signals that are left has the shape. Their operators and lengths are
those of the clips still heard, which decides everything but the samples. -/
theorem shapes_assemble {fallbacks : Nat} {summary : MixSummary}
    {streams : List (Nat × Array Float32)}
    (hstreams : streams.map (fun s => (s.1, s.2.size)) =
      plan.heard.map (fun c => (c.operator, c.lengthAt plan.rate - plan.played)))
    (h : plan.assemble plan.rate fallbacks streams = .ok summary) :
    plan.Shapes summary.outcome := by
  have hnil : streams = [] ↔ plan.heard = [] := by
    rw [← List.map_eq_nil_iff, hstreams, List.map_eq_nil_iff]
  unfold assemble at h
  split at h
  · next hempty =>
    obtain rfl := Except.ok.inj h
    exact shapes_silence (heard_eq_nil_iff.1 (hnil.1 (List.isEmpty_iff.1 hempty)))
  · next hsome =>
    have hsome : streams ≠ [] := fun hempty => hsome (List.isEmpty_iff.2 hempty)
    dsimp only at h
    split at h
    · obtain rfl := Except.ok.inj h
      have hoperators : streams.map (·.1) = plan.heard.map (·.operator) := by
        simpa only [List.map_map, Function.comp_def] using congrArg (List.map Prod.fst) hstreams
      have hlengths : (streams.map (·.2)).map (·.size) =
          plan.heard.map fun c => c.lengthAt plan.rate - plan.played := by
        simpa only [List.map_map, Function.comp_def] using congrArg (List.map Prod.snd) hstreams
      have hsignals : streams.map (·.2) ≠ [] := mt List.map_eq_nil_iff.1 hsome
      have hsize := Blend.size_blend plan.normalizePeak hsignals
      rw [hlengths] at hsize
      refine ⟨iff_of_false (by rintro ⟨⟩) fun hover => ?_, ?_, ?_, ?_⟩
      · exact hsome (hnil.2 (heard_eq_nil_iff.2 hover))
      · rintro _ ⟨⟩
        rfl
      · rintro _ ⟨⟩
        exact hoperators
      · rintro _ ⟨⟩
        exact max?_heard hsize
    · cases h

/-- A mix by any filter has the shape. -/
theorem shapes_runBy (hfits : plan.played < Word.count) {summary : MixSummary}
    (h : plan.runBy stage = .ok summary) : plan.Shapes summary.outcome := by
  unfold runBy at h
  split at h
  · next hnone =>
    obtain rfl := Except.ok.inj h
    have hclips : plan.clips = [] := List.map_eq_nil_iff.1 (List.max?_eq_none_iff.1 hnone)
    exact shapes_silence (by simp [hclips])
  · next rate hrate =>
    obtain rfl : plan.rate = rate := by rw [MixPlan.rate, hrate, Option.getD_some]
    split at h
    · cases h
    · next signals hsignals => exact shapes_assemble (lengths_remaining hfits hsignals) h

/-- The shape says what is played but for the samples themselves. -/
theorem Shapes.span?_eq {result result' : MixResult} (h : plan.Shapes result)
    (h' : plan.Shapes result') : result.span? = result'.span? := by
  cases result with
  | silence => rw [h'.silent.2 (h.silent.1 rfl)]
  | composite audio =>
    cases result' with
    | silence => cases h.silent.2 (h'.silent.1 rfl)
    | composite audio' =>
      obtain ⟨longest, hlongest, hsize⟩ := h.length audio rfl
      obtain ⟨longest', hlongest', hsize'⟩ := h'.length audio' rfl
      obtain rfl : longest = longest' := Option.some.inj (hlongest.symm.trans hlongest')
      simp only [MixResult.span?, h.rate audio rfl, h'.rate audio' rfl, h.operators audio rfl,
        h'.operators audio' rfl, hsize, hsize']

/-- The shape is the same for both conversions. -/
theorem Shapes.of_usingQuality {quality : Quality} {result : MixResult}
    (h : (plan.usingQuality quality).Shapes result) : plan.Shapes result :=
  ⟨h.silent, h.rate, h.operators, h.length⟩

/-- **The shape of what is played is said by counting**, whichever
conversion is used and whatever its filter gives, as long as what should
have been played already is counted in a word.  So a mix by any filter and
the linear one that stands in for it at the deadline are for the same
operators, at the same rate and of the same length. -/
theorem shape_of_run (plan : MixPlan) (hfits : plan.played < Word.count) :
    (∀ quality summary, (plan.usingQuality quality).run = .ok summary →
      plan.Shapes summary.outcome) ∧
    (∀ stage quality summary, (plan.usingQuality quality).runBy stage = .ok summary →
      plan.Shapes summary.outcome) ∧
    ∀ stage quality summary quick, (plan.usingQuality quality).runBy stage = .ok summary →
      (plan.usingQuality .linear).run = .ok quick →
        summary.outcome.span? = quick.outcome.span? := by
  have hany : ∀ stage quality summary, (plan.usingQuality quality).runBy stage = .ok summary →
      plan.Shapes summary.outcome :=
    fun _ quality _ h =>
      have hfits : (plan.usingQuality quality).played < Word.count := hfits
      (shapes_runBy hfits h).of_usingQuality
  have hown : ∀ quality summary, (plan.usingQuality quality).run = .ok summary →
      plan.Shapes summary.outcome := by
    intro quality summary h
    rw [run_eq_runBy] at h
    exact hany _ _ _ h
  exact ⟨hown, hany, fun stage quality summary quick h hquick =>
    (hany stage quality summary h).span?_eq (hown _ _ hquick)⟩

/-- Three clips at two rates, a second after the first sample was due: the
second one is over by then. -/
def secondLate : MixPlan where
  clips :=
    [⟨1, Array.replicate 8 0.5, 4, 0, 0, none⟩, ⟨2, Array.replicate 2 0, 2, 0, 0, none⟩,
      ⟨3, Array.replicate 6 0.25, 4, 0, 0, none⟩]
  elapsedMs := 1000
  quality := .spectral
  normalizePeak := 1
  slotStartMs := 0

/-- What the filter gives for two samples of silence at twice the rate. -/
def silentStage : FilterStage := fun _ fromRate toRate =>
  .given (Framing.ofRates fromRate toRate).delay [Array.replicate 2048 0]

/-- Where the shape of an outcome is known there is a summary with this
shape. -/
theorem exists_of_span?_eq {outcome : Except MixFault MixSummary} {span? : Option Span}
    (h : outcome.toOption.map (·.outcome.span?) = some span?) :
    ∃ summary, outcome = .ok summary ∧ summary.outcome.span? = span? := by
  cases outcome with
  | error fault => cases h
  | ok summary => exact ⟨summary, rfl, Option.some.inj h⟩

/-- Three clips a second late, at two rates, of which the middle one is over:
four samples are left, by either conversion. -/
theorem shape_of_run_secondLate :
    secondLate.played < Word.count ∧
      ∃ summary quick, (secondLate.usingQuality .spectral).runBy silentStage = .ok summary ∧
        (secondLate.usingQuality .linear).run = .ok quick ∧
        secondLate.Shapes summary.outcome ∧ secondLate.Shapes quick.outcome ∧
        quick.outcome.span? = some ⟨4, [1, 3], 4⟩ ∧
        summary.outcome.span? = quick.outcome.span? := by
  have hfits : secondLate.played < Word.count := by decide
  obtain ⟨hown, hany, hspan⟩ := shape_of_run secondLate hfits
  have htarget : (secondLate.usingQuality .spectral).targetRate? = some 4 := by decide
  have htrim : (secondLate.usingQuality .spectral).trim 4 = 4 := by decide
  obtain ⟨silence, hsignals⟩ : ∃ silence,
      (secondLate.usingQuality .spectral).convertedBy? silentStage 4 =
        some [(1, ⟨Array.replicate 8 0.5, false⟩), (2, ⟨Resampler.fitted silence 4, false⟩),
          (3, ⟨Array.replicate 6 0.25, false⟩)] := ⟨_, rfl⟩
  -- The second clip is dropped for its length alone.
  have hremaining : (secondLate.usingQuality .spectral).remaining 4
      [(1, ⟨Array.replicate 8 0.5, false⟩), (2, ⟨Resampler.fitted silence 4, false⟩),
        (3, ⟨Array.replicate 6 0.25, false⟩)] =
      [(1, Array.replicate 4 0.5), (3, Array.replicate 2 0.25)] := by
    simp [remaining, htrim]
  obtain ⟨summary, hsummary, -⟩ : ∃ summary,
      (secondLate.usingQuality .spectral).assemble 4 0
        [(1, Array.replicate 4 0.5), (3, Array.replicate 2 0.25)] = .ok summary ∧
      summary.outcome.span? = some ⟨4, [1, 3], 4⟩ :=
    exists_of_span?_eq (by decide +kernel)
  have hfiltered : (secondLate.usingQuality .spectral).runBy silentStage = .ok summary := by
    simp only [runBy, htarget, hsignals, hremaining]
    exact hsummary
  obtain ⟨quick, hquick, hplayed⟩ : ∃ quick, (secondLate.usingQuality .linear).run = .ok quick ∧
      quick.outcome.span? = some ⟨4, [1, 3], 4⟩ :=
    exists_of_span?_eq (by decide +kernel)
  exact ⟨hfits, summary, quick, hfiltered, hquick, hany _ _ _ hfiltered, hown _ _ hquick,
    hplayed, hspan _ _ _ _ hfiltered hquick⟩

end MixPlan

end SlotRadio
