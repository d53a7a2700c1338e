import SlotRadio.Proofs.Audio.Shape
/-!
# Flushing the resampler

A resampler that has been fed its input is fed silence, until what has
come out covers the input and the delay.  It stops early if a feeding
gives nothing.  That does not mean that the resampler is empty: if a block
is longer than a feeding it may take two feedings or more to fill one.

Of the resampler only its accounts are known (`Resampler.Accounts`): a
feeding adds 1024 samples to what it keeps, and what comes out are the
blocks that this fills.  So how far a conversion gets is said by counting:
after `n` feedings `Framing.blocksBy n` blocks have come out, and
`Framing.savedBy n` samples are kept.

* `Stands` — the resampler stands where so many feedings have brought it;
* `size_collect` — a conversion takes the feedings of its input, and then
  as many as there are until enough has come out or one gives nothing;
* `FlushedBy.covers_iff` — enough comes out exactly if as many feedings as
  blocks are missing fill them (`Framing.Fills`);
* `fills_of_le` — so it does if a block is not longer than a feeding;
* `conversion_complete` — what is missing in what has come out is filled up
  with silence, and if nothing is missing all of it has come out of the
  resampler;
* `conversion_lost` — a signal of which nothing is left.
-/

namespace SlotRadio

namespace Framing

variable {f : Framing} {fromRate toRate : Nat}

/-! ## The block lengths of two rates -/

section

variable (hfrom : fromRate ≠ 0) (hto : toRate ≠ 0)

include hfrom in
/-- The reduced input rate. -/
theorem unit_pos : 0 < fromRate / Nat.gcd fromRate toRate :=
  Nat.div_pos (Nat.gcd_le_left _ (Nat.pos_of_ne_zero hfrom))
    (Nat.gcd_pos_of_pos_left _ (Nat.pos_of_ne_zero hfrom))

include hfrom in
/-- A block is at least one reduced rate long. -/
theorem times_pos :
    0 < (feedLength / 2 + fromRate / Nat.gcd fromRate toRate - 1) /
      (fromRate / Nat.gcd fromRate toRate) := by
  have hunit : 0 < fromRate / Nat.gcd fromRate toRate := unit_pos hfrom
  refine Nat.div_pos ?_ hunit
  unfold feedLength
  omega

include hfrom in
/-- An input block is never empty. -/
theorem inBlock_pos : 0 < (ofRates fromRate toRate).inBlock :=
  Nat.mul_pos (times_pos hfrom) (unit_pos hfrom)

include hfrom hto in
/-- Nor is an output block. -/
theorem outBlock_pos : 0 < (ofRates fromRate toRate).outBlock :=
  Nat.mul_pos (times_pos hfrom) <|
    Nat.div_pos (Nat.gcd_le_right _ (Nat.pos_of_ne_zero hto))
      (Nat.gcd_pos_of_pos_left _ (Nat.pos_of_ne_zero hfrom))

end

/-- A block is longer than a feeding only if the reduced input rate is: it is the smallest multiple
of that rate that reaches half a feeding. -/
theorem inBlock_le (h : fromRate / Nat.gcd fromRate toRate ≤ feedLength) :
    (ofRates fromRate toRate).inBlock ≤ feedLength := by
  show (feedLength / 2 + fromRate / Nat.gcd fromRate toRate - 1) /
    (fromRate / Nat.gcd fromRate toRate) * (fromRate / Nat.gcd fromRate toRate) ≤ feedLength
  generalize fromRate / Nat.gcd fromRate toRate = unit at h ⊢
  have hhalf : feedLength / 2 = 512 := rfl
  have hfeed : feedLength = 1024 := rfl
  rcases Nat.lt_or_ge 512 unit with hlong | hshort
  · -- Half a feeding fits into one reduced rate.
    have hone : (feedLength / 2 + unit - 1) / unit = 1 :=
      Nat.div_eq_of_lt_le (by omega) (by omega)
    rw [hone, Nat.one_mul]
    exact h
  · have hle := Nat.div_mul_le_self (feedLength / 2 + unit - 1) unit
    omega

/-! ## Counting -/

/-- The number of blocks that so many feedings fill. -/
def blocksBy (f : Framing) (n : Nat) : Nat :=
  n * feedLength / f.inBlock

/-- The number of samples that wait for the rest of their block after so
many feedings. -/
def savedBy (f : Framing) (n : Nat) : Nat :=
  n * feedLength % f.inBlock

/-- The blocks and what is kept are all that has been fed. -/
theorem fed_eq (f : Framing) (n : Nat) :
    n * feedLength = f.blocksBy n * f.inBlock + f.savedBy n := by
  rw [blocksBy, savedBy, Nat.mul_comm (_ / _), Nat.div_add_mod]

/-- What is kept after one more feeding. -/
theorem savedBy_succ (f : Framing) (n : Nat) :
    (f.savedBy n + feedLength) % f.inBlock = f.savedBy (n + 1) := by
  rw [savedBy, Nat.mod_add_mod, savedBy, Nat.add_one_mul]

/-- The blocks after one more feeding. -/
theorem blocksBy_succ (f : Framing) (n : Nat) :
    f.blocksBy n + (f.savedBy n + feedLength) / f.inBlock = f.blocksBy (n + 1) := by
  rcases Nat.eq_zero_or_pos f.inBlock with hzero | hpos
  · simp [blocksBy, hzero]
  · have hsplit : (n + 1) * feedLength =
        f.inBlock * f.blocksBy n + (f.savedBy n + feedLength) := by
      rw [Nat.add_one_mul, fed_eq f n, Nat.mul_comm f.inBlock, Nat.add_assoc]
    rw [show f.blocksBy (n + 1) = (n + 1) * feedLength / f.inBlock from rfl, hsplit,
      Nat.mul_add_div hpos]

section

variable (hin : 0 < f.inBlock)

include hin in
/-- So many further feedings fill so many further blocks exactly if what is
kept and they are long enough. -/
theorem blocksBy_add_iff (n k m : Nat) :
    f.blocksBy n + m ≤ f.blocksBy (n + k) ↔ m * f.inBlock ≤ f.savedBy n + k * feedLength := by
  have hsplit : (n + k) * feedLength =
      f.blocksBy n * f.inBlock + (f.savedBy n + k * feedLength) := by
    rw [Nat.add_mul, fed_eq f n, Nat.add_assoc]
  show _ ≤ (n + k) * feedLength / f.inBlock ↔ _
  rw [Nat.le_div_iff_mul_le hin, hsplit, Nat.add_mul]
  exact Nat.add_le_add_iff_left

include hin in
/-- A feeding that is not shorter than a block fills one. -/
theorem blocksBy_lt_of_le (h : f.inBlock ≤ feedLength) (n : Nat) :
    f.blocksBy n < f.blocksBy (n + 1) := by
  have hone := (blocksBy_add_iff hin n 1 1).2
  omega

include hin in
/-- Feedings that are shorter than a block fill no more blocks than they
are. -/
theorem blocksBy_add_le (h : feedLength < f.inBlock) (n k : Nat) :
    f.blocksBy (n + k) ≤ f.blocksBy n + k := by
  by_contra hmore
  have hfilled := (blocksBy_add_iff hin n k (k + 1)).1 (by omega)
  have hsaved : f.savedBy n < f.inBlock := Nat.mod_lt _ hin
  have hshort : k * feedLength ≤ k * f.inBlock := Nat.mul_le_mul_left k h.le
  rw [Nat.add_one_mul] at hfilled
  omega

end

/-! ## Flushing -/

/-- **Where a flush ends**: after `n` feedings it has taken `k` more.  Each
of them gave something, and then enough has come out, or the next one gives
nothing. -/
structure FlushedBy (f : Framing) (goal n k : Nat) : Prop where
  gave : ∀ i < k, f.blocksBy (n + i) < f.blocksBy (n + i + 1)
  ended : goal ≤ f.blocksBy (n + k) * f.outBlock ∨ f.blocksBy (n + k + 1) ≤ f.blocksBy (n + k)

/-- As many feedings of silence as blocks are missing fill them: `n` feedings
are over, and `goal` samples are wanted. -/
def Fills (f : Framing) (n goal : Nat) : Prop :=
  (goal ⌈/⌉ f.outBlock - f.blocksBy n) * f.inBlock ≤
    f.savedBy n + (goal ⌈/⌉ f.outBlock - f.blocksBy n) * feedLength

instance (f : Framing) (n goal : Nat) : Decidable (f.Fills n goal) := by
  unfold Fills
  infer_instance

/-- Feedings that are not shorter than a block fill one each. -/
theorem fills_of_le (h : f.inBlock ≤ feedLength) (n goal : Nat) : f.Fills n goal :=
  le_add_left (Nat.mul_le_mul_left _ h)

/-- Enough has come out when there are enough blocks. -/
theorem le_mul_outBlock_iff (hout : 0 < f.outBlock) (n goal : Nat) :
    goal ≤ f.blocksBy n * f.outBlock ↔ goal ⌈/⌉ f.outBlock ≤ f.blocksBy n := by
  rw [ceilDiv_le_iff_le_mul hout, Nat.mul_comm]

/-- **Flushing gives enough exactly if as many feedings as blocks are
missing fill them.** -/
theorem FlushedBy.covers_iff (hin : 0 < f.inBlock) (hout : 0 < f.outBlock) {goal n k : Nat}
    (h : f.FlushedBy goal n k) : goal ≤ f.blocksBy (n + k) * f.outBlock ↔ f.Fills n goal := by
  rcases Nat.lt_or_ge feedLength f.inBlock with hlong | hshort
  · -- Every feeding gives one block or none, so `k` of them have given `k`.
    have hgives : ∀ i ≤ k, f.blocksBy (n + i) = f.blocksBy n + i := by
      intro i hi
      induction i with
      | zero => rfl
      | succ i ih =>
        have hmore := h.gave i hi
        have hsame := ih (by omega)
        have hone := blocksBy_add_le hin hlong n (i + 1)
        rw [← Nat.add_assoc] at hone ⊢
        omega
    have hfills := blocksBy_add_iff hin n (goal ⌈/⌉ f.outBlock - f.blocksBy n)
      (goal ⌈/⌉ f.outBlock - f.blocksBy n)
    rw [le_mul_outBlock_iff hout, hgives k k.le_refl]
    refine ⟨fun henough => hfills.1 (hgives _ (by omega)).ge, fun hfilled => ?_⟩
    by_contra hshort
    -- The feeding after the `k`-th is needed and gives nothing, so one block stays missing.
    have hnothing : f.blocksBy (n + k + 1) ≤ f.blocksBy (n + k) := by
      refine h.ended.resolve_left ?_
      rwa [le_mul_outBlock_iff hout, hgives k k.le_refl]
    have hmissing := hfills.2 hfilled
    have hrest := blocksBy_add_le hin hlong (n + k + 1)
      (goal ⌈/⌉ f.outBlock - f.blocksBy n - (k + 1))
    have hlast := hgives k k.le_refl
    rw [show n + k + 1 + (goal ⌈/⌉ f.outBlock - f.blocksBy n - (k + 1)) =
      n + (goal ⌈/⌉ f.outBlock - f.blocksBy n) by omega] at hrest
    omega
  · refine iff_of_true (h.ended.resolve_right ?_) (fills_of_le hshort n goal)
    exact Nat.not_le_of_lt (blocksBy_lt_of_le hin hshort _)

/-- The number of feedings that take a signal of so many samples. -/
def feedings (length : Nat) : Nat :=
  length ⌈/⌉ feedLength

/-- A signal that goes on for less than a feeding after so many takes one
more. -/
theorem feedings_eq {length n : Nat} (hle : n * feedLength ≤ length)
    (hlt : length < n * feedLength + feedLength) :
    feedings length = if n * feedLength < length then n + 1 else n := by
  have hpos : 0 < feedLength := by decide
  rw [feedings, Nat.ceilDiv_eq_add_pred_div]
  split
  · exact Nat.div_eq_of_lt_le (by rw [Nat.add_one_mul]; omega) (by simp only [Nat.add_mul]; omega)
  · exact Nat.div_eq_of_lt_le (by omega) (by rw [Nat.add_one_mul]; omega)

end Framing

/-! ## The accounts of a resampler -/

namespace Resampler

/-- **How a resampler is known to count** from the state `start` on: a
state tells how many samples it keeps, at first none.  The resampler is
late by the delay of `f`, it wants 1024 samples at a time, and a feeding of
any kind adds as many to what is kept, fills blocks with them as far as
they go, and gives their output. -/
structure Accounts (r : Resampler) (f : Framing) (keeps : r.State → Nat → Prop)
    (start : r.State) : Prop where
  nothing : keeps start 0
  delay : r.delay start = f.delay
  wanted : ∀ {s n}, keeps s n → r.wanted s = feedLength
  fed : ∀ {s n piece block next}, keeps s n → r.feed s piece = .ok (block, next) →
    block.size = (n + feedLength) / f.inBlock * f.outBlock ∧
      keeps next ((n + feedLength) % f.inBlock)

/-- However it is set up for the two rates, a resampler counts with their
block lengths. -/
def CountsFrames (r : Resampler) (fromRate toRate : Nat) : Prop :=
  ∀ s, r.start fromRate toRate = some s →
    ∃ keeps, r.Accounts (.ofRates fromRate toRate) keeps s

/-- The resampler stands where `n` feedings have brought it. -/
structure Stands (r : Resampler) (f : Framing) (keeps : r.State → Nat → Prop) (n : Nat)
    (s : r.State) (out : Array Float32) : Prop where
  kept : keeps s (f.savedBy n)
  size : out.size = f.blocksBy n * f.outBlock

section Accounts

variable {r : Resampler} {f : Framing} {keeps : r.State → Nat → Prop} {start s s' : r.State}
  {samples out out' : Array Float32} {pos pos' n : Nat}

/-- At the start it has been fed nothing. -/
theorem Accounts.stands (h : r.Accounts f keeps start) : r.Stands f keeps 0 start #[] where
  kept := by simpa [Framing.savedBy] using h.nothing
  size := by simp [Framing.blocksBy]

/-- **A feeding brings it one further**, and gives the blocks between. -/
theorem Stands.fed (hs : r.Stands f keeps n s out) (h : r.Accounts f keeps start) {piece : Feed}
    {block : Array Float32} {next : r.State} (hfeed : r.feed s piece = .ok (block, next)) :
    r.Stands f keeps (n + 1) next (out ++ block) where
  kept := by
    rw [← f.savedBy_succ]
    exact (h.fed hs.kept hfeed).2
  size := by
    rw [Array.size_append, hs.size, (h.fed hs.kept hfeed).1, ← f.blocksBy_succ, Nat.add_mul]

/-- The whole pieces of a signal are fed one by one, and what the resampler then stands for is
counted with each; less than a feeding is left over. -/
theorem stands_feedWhole (h : r.Accounts f keeps start) (hs : r.Stands f keeps n s out)
    (hpos : pos = n * feedLength) (hle : pos ≤ samples.size)
    (hfed : r.feedWhole samples pos s out = .ok (pos', s', out')) :
    ∃ m, pos' = m * feedLength ∧ pos' ≤ samples.size ∧ samples.size < pos' + feedLength ∧
      r.Stands f keeps m s' out' := by
  have hwanted := h.wanted hs.kept
  induction hleft : samples.size - pos using Nat.strongRecOn generalizing n pos s out with
  | ind left ih =>
    have hpositive := r.wanted_pos s
    rw [feedWhole] at hfed
    split at hfed
    · next henough =>
      rw [hwanted] at henough hpositive hfed
      split at hfed
      · next block next hfeed =>
        have hnext := hs.fed h hfeed
        exact ih _ (by omega) hnext (by rw [hpos, Nat.add_one_mul]) (by omega) hfed
          (h.wanted hnext.kept) rfl
      · cases hfed
    · next hshort =>
      rw [hwanted] at hshort
      obtain ⟨rfl, hrest⟩ := Prod.mk.inj (Except.ok.inj hfed)
      obtain ⟨rfl, rfl⟩ := Prod.mk.inj hrest
      exact ⟨n, hpos, hle, by omega, hs⟩

/-- The rest of a signal is fed last, if there is one, filled up to a whole feeding. So as many
feedings have been made as it takes to cover the signal. -/
theorem stands_feedRest (h : r.Accounts f keeps start) (hs : r.Stands f keeps n s out)
    (hpos : pos = n * feedLength) (hle : pos ≤ samples.size)
    (hlt : samples.size < pos + feedLength)
    (hfed : r.feedRest samples pos s out = .ok (s', out')) :
    r.Stands f keeps (Framing.feedings samples.size) s' out' := by
  rw [Framing.feedings_eq (hpos ▸ hle) (hpos ▸ hlt), ← hpos]
  unfold feedRest at hfed
  split at hfed
  · next hleft =>
    rw [if_pos hleft]
    split at hfed
    · next block next hfeed =>
      obtain ⟨rfl, rfl⟩ := Prod.mk.inj (Except.ok.inj hfed)
      exact hs.fed h hfeed
    · cases hfed
  · next hnone =>
    rw [if_neg hnone]
    obtain ⟨rfl, rfl⟩ := Prod.mk.inj (Except.ok.inj hfed)
    exact hs

/-- **What a flush takes**: as many feedings as there are until enough has
come out or one gives nothing. -/
theorem exists_flushedBy (h : r.Accounts f keeps start) (hout : 0 < f.outBlock) {goal : Nat}
    (hs : r.Stands f keeps n s out) (hflush : r.flush goal s out = .ok out') :
    ∃ k, f.FlushedBy goal n k ∧ out'.size = f.blocksBy (n + k) * f.outBlock := by
  induction hleft : goal - out.size using Nat.strongRecOn generalizing n s out with
  | ind left ih =>
    rw [flush] at hflush
    split at hflush
    · next hneeded =>
      split at hflush
      · next block next hfeed =>
        have hnext := hs.fed h hfeed
        have hblock : f.blocksBy n * f.outBlock + block.size = f.blocksBy (n + 1) * f.outBlock := by
          rw [← hs.size, ← Array.size_append, hnext.size]
        split at hflush
        · next hempty =>
          obtain rfl := Except.ok.inj hflush
          refine ⟨0, ⟨fun i hi => absurd hi i.not_lt_zero, .inr ?_⟩, hs.size⟩
          refine Nat.le_of_mul_le_mul_right ?_ hout
          show f.blocksBy (n + 1) * f.outBlock ≤ f.blocksBy n * f.outBlock
          omega
        · next hgives =>
          have hmore : f.blocksBy n < f.blocksBy (n + 1) :=
            Nat.lt_of_mul_lt_mul_right (a := f.outBlock) (by omega)
          have hcloser : goal - (out ++ block).size < left := by
            rw [Array.size_append]
            omega
          obtain ⟨k, hk, hsize⟩ := ih _ hcloser hnext hflush rfl
          refine ⟨k + 1, ⟨?_, ?_⟩, ?_⟩
          · intro i hi
            cases i with
            | zero => exact hmore
            | succ i =>
              have hgave := hk.gave i (by omega)
              rwa [Nat.add_right_comm n 1 i] at hgave
          · have hended := hk.ended
            rwa [Nat.add_right_comm n 1 k] at hended
          · rw [hsize, Nat.add_right_comm n 1 k]
            rfl
      · cases hflush
    · next henough =>
      obtain rfl := Except.ok.inj hflush
      refine ⟨0, ⟨fun i hi => absurd hi i.not_lt_zero, .inl ?_⟩, hs.size⟩
      rw [← Nat.not_lt, Nat.add_zero, ← hs.size]
      exact henough

/-- **What comes out of a conversion** are the blocks that the feedings of
the signal and of the flush fill. -/
theorem size_collect (h : r.Accounts f keeps start) (hout : 0 < f.outBlock) {goal : Nat}
    (hcollect : r.collect samples goal start = .ok out) :
    ∃ k, f.FlushedBy goal (Framing.feedings samples.size) k ∧
      out.size = f.blocksBy (Framing.feedings samples.size + k) * f.outBlock := by
  unfold collect at hcollect
  cases hwhole : r.feedWhole samples 0 start #[] with
  | error fault =>
    rw [hwhole] at hcollect
    cases hcollect
  | ok fed =>
    obtain ⟨pos, s, given⟩ := fed
    obtain ⟨m, hpos, hle, hlt, hs⟩ := stands_feedWhole h h.stands (by simp) (Nat.zero_le _) hwhole
    rw [hwhole] at hcollect
    cases hrest : r.feedRest samples pos s given with
    | error fault =>
      simp only [bind, Except.bind, hrest] at hcollect
      cases hcollect
    | ok fed =>
      obtain ⟨s, given⟩ := fed
      simp only [bind, Except.bind, hrest] at hcollect
      exact exists_flushedBy h hout (stands_feedRest h hs hpos hle hlt hrest) hcollect

end Accounts

/-- **A short signal**, of which only the rest is fed: after one feeding of
silence enough has come out, or that feeding gives nothing. -/
theorem collect_of_short {r : Resampler} {samples first second : Array Float32}
    {s next last : r.State} {goal : Nat} (hsome : samples.size ≠ 0)
    (hlt : samples.size < r.wanted s) (hrest : r.feed s (.part samples) = .ok (first, next))
    (hneeded : first.size < goal) (hsilence : r.feed next .silence = .ok (second, last))
    (hover : second.size = 0 ∨ goal ≤ first.size + second.size) :
    r.collect samples goal s = .ok (first ++ second) := by
  have hflush : r.flush goal next first = .ok (first ++ second) := by
    rw [flush, if_pos hneeded, hsilence]
    dsimp only
    split
    · next hempty => rw [Array.eq_empty_of_size_eq_zero hempty, Array.append_empty]
    · next hgives =>
      have henough := hover.resolve_left hgives
      rw [flush, if_neg (by rw [Array.size_append]; omega)]
  have hfed : r.feedRest samples 0 s #[] = .ok (next, first) := by
    rw [feedRest, if_pos (by omega), Array.extract_size, hrest]
    simp
  unfold collect
  rw [feedWhole, if_neg (by omega)]
  simp only [bind, Except.bind, hfed, hflush]

/-! ## What is returned -/

/-- What is longer is cut. -/
theorem fitted_of_le {samples : Array Float32} {length : Nat} (h : length ≤ samples.size) :
    fitted samples length = samples.extract 0 length := by
  rw [fitted, Nat.sub_eq_zero_of_le h, Array.take_eq_extract]
  simp

/-- What is shorter is filled up with silence. -/
theorem fitted_of_ge {samples : Array Float32} {length : Nat} (h : samples.size ≤ length) :
    fitted samples length = samples ++ Array.replicate (length - samples.size) 0 := by
  rw [fitted, Array.take_eq_extract, Array.extract_eq_self_of_le h]

end Resampler

/-- Something is left of a signal at another rate. -/
theorem outputLength_pos {length fromRate toRate : Nat} (hsome : length ≠ 0)
    (hfrom : fromRate ≠ 0) (hto : toRate ≠ 0) : 0 < outputLength length fromRate toRate := by
  have hpos : 0 < length * toRate := Nat.mul_pos (by omega) (by omega)
  rw [outputLength, if_neg hfrom]
  exact Nat.div_pos (by omega) (by omega)

/-- A conversion that can be set up returns what it has collected, without
the delay. -/
theorem Resampler.convert_eq {r : Resampler} {samples : Array Float32} {fromRate toRate : Nat}
    {s : r.State} (hsome : samples.size ≠ 0) (hfrom : fromRate ≠ 0) (hto : toRate ≠ 0)
    (hstart : r.start fromRate toRate = some s) :
    r.convert samples fromRate toRate =
      (r.collect samples (outputLength samples.size fromRate toRate + r.delay s) s).map fun out =>
        fitted (out.drop (r.delay s)) (outputLength samples.size fromRate toRate) := by
  have hexpected := outputLength_pos hsome hfrom hto
  unfold convert
  rw [if_neg (by simp [hfrom, hto])]
  dsimp only
  rw [if_neg hexpected.ne', hstart]

/-! ## The block filter -/

namespace BlockFilter

/-- The rest of a signal is filled up to a feeding. -/
theorem size_frames_part {samples : Array Float32} (hle : samples.size ≤ feedLength) :
    (frames (.part samples)).size = feedLength := by
  show (samples ++ Array.replicate (feedLength - samples.size) 0).size = feedLength
  rw [Array.size_append, Array.size_replicate]
  omega

/-- Silence is a feeding. -/
theorem size_frames_silence : (frames .silence).size = feedLength :=
  Array.size_replicate

/-- An output block is complete when it is added. -/
theorem size_extend (f : Framing) (out : Output) (filtered : FloatArray) :
    (out.extend f filtered).samples.size = out.samples.size + f.outBlock := by
  have hpush : ∀ (n : Nat) (value : Nat → Float32) (start : Array Float32),
      (n.fold (fun k _ samples => samples.push (value k)) start).size = start.size + n := by
    intro n value start
    induction n with
    | zero => rfl
    | succ n ih => rw [Nat.fold_succ, Array.size_push, ih, Nat.add_assoc]
  exact hpush ..

/-- Each block that is filtered gives an output block. -/
theorem size_filterBlocks {s : State} {input : Array Float32} {count : Nat} {out : Output}
    (h : s.filterBlocks input count = some out) :
    out.samples.size = count * s.framing.outBlock := by
  have hall : ∀ (bs : List Nat) (first : Output),
      bs.foldlM (fun out b =>
        let spectrum :=
          Fourier.ofReal (padded (inputBlock s.framing input b) (2 * s.framing.inBlock))
        if sound spectrum then
          some (out.extend s.framing (filterBlock s.framing s.filter spectrum))
        else none) first = some out →
      out.samples.size = first.samples.size + bs.length * s.framing.outBlock := by
    intro bs
    induction bs with
    | nil =>
      intro first hfirst
      obtain rfl := Option.some.inj hfirst
      simp
    | cons b bs ih =>
      intro first hfirst
      rw [List.foldlM_cons] at hfirst
      obtain ⟨next, hnext, hrest⟩ := Option.bind_eq_some_iff.1 hfirst
      dsimp only at hnext
      split at hnext
      · obtain rfl := Option.some.inj hnext
        rw [ih _ hrest, size_extend, List.length_cons, Nat.add_one_mul]
        omega
      · cases hnext
  have hsize := hall _ _ h
  simpa using hsize

/-- **The block filter counts as a resampler is known to**: every feeding is kept until it fills
input blocks, and each of these gives an output block. -/
theorem countsFrames (fromRate toRate : Nat) : resampler.CountsFrames fromRate toRate := by
  intro start hstart
  obtain rfl := Option.some.inj hstart
  refine ⟨fun s n => s.framing = .ofRates fromRate toRate ∧ s.saved.size = n, ⟨rfl, rfl⟩, rfl,
    fun _ => rfl, ?_⟩
  rintro s n piece block next ⟨hframing, rfl⟩ hfeed
  have hfeed : feed s piece = .ok (block, next) := hfeed
  unfold feed at hfeed
  split at hfeed
  · cases hfeed
  · next hframes =>
    have hinput : (s.saved ++ frames piece).size = s.saved.size + feedLength := by
      rw [Array.size_append, not_not.1 hframes]
    dsimp only at hfeed
    split at hfeed
    · cases hfeed
    · next out hblocks =>
      obtain ⟨rfl, rfl⟩ := Prod.mk.inj (Except.ok.inj hfeed)
      refine ⟨?_, hframing, ?_⟩
      · rw [size_filterBlocks hblocks, hinput, hframing]
      · rw [Array.drop_eq_extract, Array.size_extract, Nat.min_self, hinput, hframing,
          Nat.mod_eq_sub_mul_div, Nat.mul_comm]

/-- The filter with a feeding added to what it keeps. -/
def State.keeping (s : State) (piece : Feed) : State :=
  { s with saved := s.saved ++ frames piece }

/-- A feeding that fills no block is kept. -/
theorem feed_of_lt {s : State} {piece : Feed} (hframes : (frames piece).size = feedLength)
    (hlt : s.saved.size + feedLength < s.framing.inBlock) :
    resampler.feed s piece = .ok (#[], s.keeping piece) := by
  have hcount : (s.saved ++ frames piece).size / s.framing.inBlock = 0 := by
    rw [Array.size_append, hframes]
    exact Nat.div_eq_of_lt hlt
  show feed s piece = _
  unfold feed
  rw [if_neg (not_not.2 hframes)]
  dsimp only
  rw [hcount, Nat.zero_mul, Array.drop_eq_extract, Array.extract_size]
  rfl

/-- **Nothing comes out for a short signal** if a block is longer than two feedings: the signal
fills one, the first silence another, and at that empty block the flushing stops. -/
theorem collect_of_long {samples : Array Float32} {fromRate toRate goal : Nat}
    (hsome : samples.size ≠ 0) (hshort : samples.size < feedLength)
    (hlong : feedLength + feedLength < (Framing.ofRates fromRate toRate).inBlock)
    (hgoal : 0 < goal) :
    resampler.collect samples goal (State.start fromRate toRate) = .ok #[] := by
  have hpiece := size_frames_part hshort.le
  have hfirst : (State.start fromRate toRate).saved.size + feedLength <
      (State.start fromRate toRate).framing.inBlock := by
    show 0 + feedLength < (Framing.ofRates fromRate toRate).inBlock
    omega
  have hrest := feed_of_lt hpiece hfirst
  have hkept : ((State.start fromRate toRate).keeping (.part samples)).saved.size =
      feedLength := by
    show (#[] ++ frames (.part samples)).size = feedLength
    rw [Array.empty_append, hpiece]
  have hsilence := feed_of_lt (s := (State.start fromRate toRate).keeping (.part samples))
    size_frames_silence (by rw [hkept]; exact hlong)
  have hcollect := Resampler.collect_of_short (r := resampler) hsome hshort hrest hgoal hsilence
    (.inl Array.size_empty)
  rwa [Array.append_empty] at hcollect

end BlockFilter

/-- **A conversion returns the whole signal if the silence that the
resampler is fed fills the blocks that are missing**, and exactly then:
after the feedings that the input takes, as many more as blocks are missing
have to fill these.  They do if the reduced input rate is not above the
length of a feeding.  What is returned is what has come out, without the
delay; if too little has come out, and only then, there is silence at its
end instead. -/
theorem conversion_complete (r : Resampler) (samples : Array Float32) (hsome : samples.size ≠ 0)
    {fromRate toRate : Nat} (hfrom : fromRate ≠ 0) (hto : toRate ≠ 0)
    (hcounts : r.CountsFrames fromRate toRate) {out : Array Float32}
    (hconvert : r.convert samples fromRate toRate = .ok out) :
    let f : Framing := .ofRates fromRate toRate
    let expected := outputLength samples.size fromRate toRate
    ∃ s collected, r.start fromRate toRate = some s ∧
      r.collect samples (expected + f.delay) s = .ok collected ∧
      (expected + f.delay ≤ collected.size ↔
        f.Fills (Framing.feedings samples.size) (expected + f.delay)) ∧
      (fromRate / Nat.gcd fromRate toRate ≤ feedLength → expected + f.delay ≤ collected.size) ∧
      (expected + f.delay ≤ collected.size → out = collected.extract f.delay (f.delay + expected)) ∧
      (collected.size < expected + f.delay → collected.size - f.delay < expected ∧
        out = collected.extract f.delay collected.size ++
          Array.replicate (expected - (collected.size - f.delay)) 0) := by
  intro f expected
  have hin : 0 < f.inBlock := Framing.inBlock_pos hfrom
  have hout : 0 < f.outBlock := Framing.outBlock_pos hfrom hto
  have hexpected : 0 < expected := outputLength_pos hsome hfrom hto
  cases hstart : r.start fromRate toRate with
  | none =>
    unfold Resampler.convert at hconvert
    rw [if_neg (by simp [hfrom, hto])] at hconvert
    dsimp only at hconvert
    rw [if_neg hexpected.ne', hstart] at hconvert
    cases hconvert
  | some s =>
    obtain ⟨keeps, haccounts⟩ := hcounts s hstart
    have hdelay : r.delay s = f.delay := haccounts.delay
    rw [Resampler.convert_eq hsome hfrom hto hstart, hdelay] at hconvert
    cases hcollect : r.collect samples (expected + f.delay) s with
    | error fault =>
      rw [hcollect] at hconvert
      cases hconvert
    | ok collected =>
      rw [hcollect] at hconvert
      obtain rfl := Except.ok.inj hconvert
      obtain ⟨k, hflushed, hsize⟩ := Resampler.size_collect haccounts hout hcollect
      have hiff : expected + f.delay ≤ collected.size ↔
          f.Fills (Framing.feedings samples.size) (expected + f.delay) := by
        rw [hsize]
        exact hflushed.covers_iff hin hout
      have hdropped : (collected.drop f.delay).size = collected.size - f.delay := by
        rw [Array.drop_eq_extract, Array.size_extract, Nat.min_self]
      refine ⟨s, collected, rfl, hcollect, hiff, ?_, fun hcovers => ?_,
        fun hshort => ⟨by omega, ?_⟩⟩
      · intro hrate
        exact hiff.2 (Framing.fills_of_le (Framing.inBlock_le hrate) _ _)
      · show Resampler.fitted (collected.drop f.delay) expected = _
        rw [Resampler.fitted_of_le (by omega), Array.drop_eq_extract, Array.extract_extract]
        congr 1
        omega
      · show Resampler.fitted (collected.drop f.delay) expected = _
        rw [Resampler.fitted_of_ge (by omega), hdropped, Array.drop_eq_extract]

/-- A resampler that has been fed nothing but silence: it counts, and its
blocks are silent. -/
def Resampler.silent : Resampler where
  State := Framing × Nat
  start fromRate toRate := some (.ofRates fromRate toRate, 0)
  delay s := s.1.delay
  wanted _ := feedLength
  wanted_pos _ := Nat.zero_lt_succ _
  feed s _ :=
    .ok (Array.replicate ((s.2 + feedLength) / s.1.inBlock * s.1.outBlock) 0,
      (s.1, (s.2 + feedLength) % s.1.inBlock))

/-- Twenty-four silent samples between two rates whose blocks are longer
than a feeding: the input does not fill one, and one feeding of silence
does.  What the block filter gives for any samples as many is whole, too. -/
theorem conversion_complete_long_block :
    let f := Framing.ofRates 1500 1501
    f.inBlock = 1500 ∧ f.Fills 1 (25 + f.delay) ∧
      (∃ out s collected,
        Resampler.silent.convert (Array.replicate 24 0) 1500 1501 = .ok out ∧
          Resampler.silent.collect (Array.replicate 24 0) (25 + f.delay) s = .ok collected ∧
          25 + f.delay ≤ collected.size ∧ out = collected.extract f.delay (f.delay + 25)) ∧
      ∀ samples out, samples.size = 24 → convertByBlocks samples 1500 1501 = .ok out →
        ∃ s collected,
          BlockFilter.resampler.collect samples (25 + f.delay) s = .ok collected ∧
            25 + f.delay ≤ collected.size ∧ out = collected.extract f.delay (f.delay + 25) := by
  intro f
  have hfrom : 1500 ≠ 0 := by decide
  have hto : 1501 ≠ 0 := by decide
  have hfills : f.Fills 1 (25 + f.delay) := by decide
  refine ⟨by decide, hfills, ?_, ?_⟩
  · have hcounts : Resampler.silent.CountsFrames 1500 1501 := by
      intro s hs
      obtain rfl := Option.some.inj hs
      refine ⟨fun s n => s = (Framing.ofRates 1500 1501, n), rfl, rfl, fun _ => rfl, ?_⟩
      rintro s n piece block next rfl hfeed
      obtain ⟨rfl, rfl⟩ := Prod.mk.inj (Except.ok.inj hfeed)
      exact ⟨Array.size_replicate, rfl⟩
    obtain ⟨all, hall⟩ : ∃ all, Resampler.silent.collect (Array.replicate 24 0) (25 + f.delay)
        ((f, 0) : Framing × Nat) = .ok all := by
      have hrest : Resampler.silent.feed ((f, 0) : Framing × Nat) (.part (Array.replicate 24 0)) =
          .ok (Array.replicate (1024 / f.inBlock * f.outBlock) 0, (f, 1024 % f.inBlock)) := rfl
      have hsilence : Resampler.silent.feed ((f, 1024 % f.inBlock) : Framing × Nat) .silence =
          .ok (Array.replicate ((1024 % f.inBlock + 1024) / f.inBlock * f.outBlock) 0,
            (f, (1024 % f.inBlock + 1024) % f.inBlock)) := rfl
      refine ⟨_, Resampler.collect_of_short (by simp) (by decide) hrest ?_ hsilence (.inr ?_)⟩
      · rw [Array.size_replicate]
        decide
      · rw [Array.size_replicate, Array.size_replicate]
        decide
    obtain ⟨out, hconvert⟩ : ∃ out,
        Resampler.silent.convert (Array.replicate 24 0) 1500 1501 = .ok out := by
      rw [Resampler.convert_eq (s := (f, 0)) (by simp) hfrom hto rfl, Array.size_replicate]
      exact ⟨_, congrArg (Except.map _) hall⟩
    obtain ⟨s, collected, -, hcollect, hiff, -, hwhole, -⟩ :=
      conversion_complete .silent (Array.replicate 24 0) (by simp) hfrom hto hcounts hconvert
    rw [Array.size_replicate] at hcollect hiff hwhole
    exact ⟨out, s, collected, hconvert, hcollect, hiff.2 hfills, hwhole (hiff.2 hfills)⟩
  · intro samples out hsize hconvert
    obtain ⟨s, collected, -, hcollect, hiff, -, hwhole, -⟩ :=
      conversion_complete BlockFilter.resampler samples (by omega) hfrom hto
        (BlockFilter.countsFrames 1500 1501) hconvert
    rw [hsize] at hcollect hiff hwhole
    exact ⟨s, collected, hcollect, hiff.2 hfills, hwhole (hiff.2 hfills)⟩

/-- Nothing is left of four samples between two rates whose blocks take
twelve feedings: the input fills no block, and neither does the first
feeding of silence. -/
theorem conversion_lost :
    let f := Framing.ofRates 12000 12001
    convertByBlocks #[0.5, 0.5, 0.5, 0.5] 12000 12001 = .ok #[0, 0, 0, 0, 0] ∧
      outputLength 4 12000 12001 = 5 ∧ f.delay = 6000 ∧
      ¬f.Fills (Framing.feedings 4) 6005 := by
  intro f
  have hcollect : BlockFilter.resampler.collect #[0.5, 0.5, 0.5, 0.5] 6005
      (BlockFilter.State.start 12000 12001) = .ok #[] :=
    BlockFilter.collect_of_long (by decide) (by decide) (by decide) (by decide)
  refine ⟨?_, by decide, by decide, by decide⟩
  refine (Resampler.convert_eq (by decide) (by decide) (by decide) rfl).trans ?_
  exact congrArg (Except.map _) hcollect

end SlotRadio
