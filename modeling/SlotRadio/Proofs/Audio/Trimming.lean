import SlotRadio.Proofs.Audio.Shape
/-!
# Later mixes have less to play

Of one list of clips less is left the later it is mixed: who is silent
stays silent, the composite does not get longer, and nobody comes back into
it (`Fades`).  What decides this is the number of samples that are taken
away, and that number is counted in a word: it grows with the time that has
passed only until it leaves the word (`MixPlan.trim`, against
`MixPlan.played`).

* `span?_run` — what is played, said by the number of samples that are
  taken away, whether or not it left the word;
* `fades_iff` — a later mix has less to play exactly if no fewer samples are
  taken away, or every clip is over;
* `later_mix_fades` — so it has, as long as the number stays in a word;
* `audio_comes_back` — a clip that was over is played again, two to the
  power of sixty milliseconds later.
-/

namespace SlotRadio

/-- One result has no more to play than another: no sound after silence, no
longer composite, and no operator that was not heard. -/
structure MixResult.Fades (first second : MixResult) : Prop where
  silent : first = .silence → second = .silence
  shorter : ∀ a b, first = .composite a → second = .composite b →
    b.samples.size ≤ a.samples.size
  operators : ∀ a b, first = .composite a → second = .composite b →
    b.operators.Sublist a.operators

theorem MixResult.span?_eq_none_iff {result : MixResult} :
    result.span? = none ↔ result = .silence := by
  cases result <;> simp [MixResult.span?]

namespace MixPlan

variable {plan : MixPlan} {stage : FilterStage}

/-- The same plan when so much should have been played already. -/
def after (plan : MixPlan) (elapsedMs : Nat) : MixPlan :=
  { plan with elapsedMs }

/-- The operators that have something left when so many samples are taken
away, with the number of samples that they have left. -/
def leftAfter (plan : MixPlan) (taken : Nat) : List (Nat × Nat) :=
  (plan.clips.filter (taken < ·.lengthAt plan.rate)).map fun c =>
    (c.operator, c.lengthAt plan.rate - taken)

/-- What is played when so many samples are taken away. -/
def spanAfter (plan : MixPlan) (taken : Nat) : Option Span :=
  ((plan.leftAfter taken).map (·.2)).max?.map fun length =>
    ⟨plan.rate, (plan.leftAfter taken).map (·.1), length⟩

/-! ## What is played, by what is taken away -/

/-- What is assembled of the signals that are left has the span that counting gives, because the
blend is as long as the longest of them. -/
theorem span?_assemble {fallbacks : Nat} {summary : MixSummary}
    {streams : List (Nat × Array Float32)} {taken : Nat}
    (hstreams : streams.map (fun s => (s.1, s.2.size)) = plan.leftAfter taken)
    (h : plan.assemble plan.rate fallbacks streams = .ok summary) :
    summary.outcome.span? = plan.spanAfter taken := by
  unfold spanAfter
  rw [← hstreams, List.map_map, List.map_map]
  unfold assemble at h
  split at h
  · next hempty =>
    obtain rfl := Except.ok.inj h
    rw [List.isEmpty_iff.1 hempty]
    rfl
  · next hsome =>
    have hsignals : streams.map (·.2) ≠ [] := by
      intro hnil
      exact hsome (List.isEmpty_iff.2 (List.map_eq_nil_iff.1 hnil))
    have hlongest := Blend.size_blend plan.normalizePeak hsignals
    rw [List.map_map] at hlongest
    dsimp only at h
    split at h
    · obtain rfl := Except.ok.inj h
      exact (congrArg (Option.map _) hlongest).symm
    · cases h

/-- **What is played is said by counting**, for any number of samples that
are taken away. -/
theorem span?_runBy {summary : MixSummary} (h : plan.runBy stage = .ok summary) :
    summary.outcome.span? = plan.spanAfter (plan.trim plan.rate) := by
  unfold runBy at h
  split at h
  · next hnone =>
    obtain rfl := Except.ok.inj h
    have hclips : plan.clips = [] := List.map_eq_nil_iff.1 (List.max?_eq_none_iff.1 hnone)
    simp [spanAfter, leftAfter, hclips, MixResult.span?]
  · next rate hrate =>
    obtain rfl : plan.rate = rate := by rw [MixPlan.rate, hrate, Option.getD_some]
    split at h
    · cases h
    · next signals hsignals => exact span?_assemble (lengths_left hsignals) h

/-! ## Less is left -/

theorem operators_leftAfter_sublist {less more : Nat} (h : less ≤ more) :
    ((plan.leftAfter more).map (·.1)).Sublist ((plan.leftAfter less).map (·.1)) := by
  have hfilter : plan.clips.filter (more < ·.lengthAt plan.rate) =
      (plan.clips.filter (less < ·.lengthAt plan.rate)).filter
        (more < ·.lengthAt plan.rate) := by
    rw [List.filter_filter]
    refine List.filter_congr fun c _ => ?_
    rw [Bool.eq_iff_iff]
    simp only [decide_eq_true_eq, Bool.and_eq_true]
    omega
  rw [leftAfter, leftAfter, List.map_map, List.map_map, hfilter]
  exact List.filter_sublist.map _

/-- What is left of the longest clip is the length of what is played. -/
theorem length_of_spanAfter {taken : Nat} {span : Span} (h : plan.spanAfter taken = some span) :
    ∃ longest, (plan.clips.map (·.lengthAt plan.rate)).max? = some longest ∧ taken < longest ∧
      span.length = longest - taken := by
  obtain ⟨left, hleft, rfl⟩ := Option.map_eq_some_iff.1 h
  rw [leftAfter, List.map_map] at hleft
  exact max?_left hleft

theorem spanAfter_eq_none_iff {taken : Nat} :
    plan.spanAfter taken = none ↔ ∀ c ∈ plan.clips, c.lengthAt plan.rate ≤ taken := by
  simp [spanAfter, leftAfter, List.filter_eq_nil_iff]

theorem operators_of_spanAfter {taken : Nat} {span : Span} (h : plan.spanAfter taken = some span) :
    span.operators = (plan.leftAfter taken).map (·.1) := by
  obtain ⟨left, -, rfl⟩ := Option.map_eq_some_iff.1 h
  rfl

/-- **One result fades into another exactly if no fewer samples are taken
away for the second, or nothing is left for it.** -/
theorem fades_iff {first second : MixResult} {less more : Nat}
    (hfirst : first.span? = plan.spanAfter less) (hsecond : second.span? = plan.spanAfter more) :
    first.Fades second ↔ less ≤ more ∨ ∀ c ∈ plan.clips, c.lengthAt plan.rate ≤ more := by
  rw [← spanAfter_eq_none_iff, ← hsecond]
  cases second with
  | silence =>
    refine iff_of_true ⟨fun _ => rfl, ?_, ?_⟩ (.inr rfl)
    · intro a b _ hb
      cases hb
    · intro a b _ hb
      cases hb
  | composite later =>
    obtain ⟨longest, hlongest, hmore, hlater⟩ := length_of_spanAfter hsecond.symm
    cases first with
    | silence =>
      have hover : longest ≤ less := by
        have hnone := spanAfter_eq_none_iff.1 hfirst.symm
        obtain ⟨c, hc, rfl⟩ := List.mem_map.1 (List.max?_eq_some_iff.1 hlongest).1
        exact hnone c hc
      refine iff_of_false (fun hfades => ?_) ?_
      · cases hfades.silent rfl
      · rintro (hle | hnone)
        · omega
        · cases hnone
    | composite earlier =>
      obtain ⟨longest', hlongest', hless, hearlier⟩ := length_of_spanAfter hfirst.symm
      obtain rfl : longest = longest' := Option.some.inj (hlongest.symm.trans hlongest')
      dsimp only at hearlier hlater
      constructor
      · intro hfades
        have := hfades.shorter _ _ rfl rfl
        left
        omega
      · rintro (hle | hnone)
        · refine ⟨fun heq => (by cases heq), ?_, ?_⟩
          · rintro a b ⟨⟩ ⟨⟩
            omega
          · rintro a b ⟨⟩ ⟨⟩
            have hsublist : ((plan.leftAfter more).map (·.1)).Sublist
                ((plan.leftAfter less).map (·.1)) := operators_leftAfter_sublist hle
            rwa [← operators_of_spanAfter hfirst.symm, ← operators_of_spanAfter hsecond.symm]
              at hsublist
        · cases hnone

/-! ## Mixing later -/

/-- The number of samples that are taken away. -/
def taken (plan : MixPlan) : Nat :=
  plan.trim plan.rate

/-- **Of the same clips there is no more to play at a later time**, as long
as the samples that should have been played by then are counted in a word:
then exactly these are taken away.  In general there is no more to play
exactly if no fewer samples are taken away than at the earlier time, or
what is taken away is as long as every clip. -/
theorem later_mix_fades (plan : MixPlan) {earlierMs laterMs : Nat} (hlater : earlierMs ≤ laterMs)
    {first second : MixSummary} (hfirst : (plan.after earlierMs).run = .ok first)
    (hsecond : (plan.after laterMs).run = .ok second) :
    (laterMs * plan.rate / 1000 < Word.count →
      (plan.after earlierMs).taken = earlierMs * plan.rate / 1000 ∧
        (plan.after laterMs).taken = laterMs * plan.rate / 1000 ∧
        first.outcome.Fades second.outcome) ∧
    (first.outcome.Fades second.outcome ↔
      (plan.after earlierMs).taken ≤ (plan.after laterMs).taken ∨
        ∀ c ∈ plan.clips, c.lengthAt plan.rate ≤ (plan.after laterMs).taken) := by
  rw [run_eq_runBy] at hfirst hsecond
  -- The clips are the same, so both spans are spans of `plan`.
  have hspan : first.outcome.span? = plan.spanAfter (plan.after earlierMs).taken :=
    span?_runBy hfirst
  have hspan' : second.outcome.span? = plan.spanAfter (plan.after laterMs).taken :=
    span?_runBy hsecond
  have hfades := fades_iff hspan hspan'
  refine ⟨fun hfits => ?_, hfades⟩
  have hgrows : earlierMs * plan.rate / 1000 ≤ laterMs * plan.rate / 1000 :=
    Nat.div_le_div_right (Nat.mul_le_mul_right _ hlater)
  have hearlier : (plan.after earlierMs).taken = earlierMs * plan.rate / 1000 :=
    Nat.mod_eq_of_lt (hgrows.trans_lt hfits)
  have hafter : (plan.after laterMs).taken = laterMs * plan.rate / 1000 :=
    Nat.mod_eq_of_lt hfits
  refine ⟨hearlier, hafter, hfades.2 (.inl ?_)⟩
  show (plan.after earlierMs).taken ≤ (plan.after laterMs).taken
  rw [hearlier, hafter]
  exact hgrows

/-- Two clips, of which the second is over after a second. -/
def longAndShort : MixPlan where
  clips := [⟨1, Array.replicate 8 0.5, 4, 0, 0, none⟩, ⟨2, Array.replicate 4 0.25, 4, 0, 0, none⟩]
  elapsedMs := 0
  quality := .spectral
  normalizePeak := 1
  slotStartMs := 0

/-- Half a second into the two clips both are heard, and after a whole second only the long one:
what it carries then is the end of what it carried before. -/
theorem later_mix_fades_second :
    ∃ first second, (longAndShort.after 500).run = .ok first ∧
      (longAndShort.after 1000).run = .ok second ∧
      first.outcome.span? = some ⟨4, [1, 2], 6⟩ ∧ second.outcome.span? = some ⟨4, [1], 4⟩ ∧
      first.outcome.Fades second.outcome := by
  obtain ⟨first, hfirst, hearlier⟩ : ∃ first, (longAndShort.after 500).run = .ok first ∧
      first.outcome.span? = some ⟨4, [1, 2], 6⟩ :=
    exists_of_span?_eq (by decide +kernel)
  obtain ⟨second, hsecond, hlater⟩ : ∃ second, (longAndShort.after 1000).run = .ok second ∧
      second.outcome.span? = some ⟨4, [1], 4⟩ :=
    exists_of_span?_eq (by decide +kernel)
  obtain ⟨-, -, hfades⟩ := (later_mix_fades _ (by decide) hfirst hsecond).1 (by decide)
  exact ⟨first, second, hfirst, hsecond, hearlier, hlater, hfades⟩

/-- A clip of four samples. -/
def shortClip : MixPlan where
  clips := [⟨1, #[0.25, 0.25, 0.25, 0.25], 16000, 0, 0, none⟩]
  elapsedMs := 0
  quality := .spectral
  normalizePeak := 1
  slotStartMs := 0

/-- After a second the clip is over.  At two to the power of sixty
milliseconds the number of samples to be taken away leaves its word and is
nothing, and all of the clip is played again. -/
theorem audio_comes_back :
    ∃ first second, (shortClip.after 1000).run = .ok first ∧
      (shortClip.after 0x1000000000000000).run = .ok second ∧
      first.outcome.span? = none ∧ second.outcome.span? = some ⟨16000, [1], 4⟩ ∧
      ¬first.outcome.Fades second.outcome := by
  obtain ⟨first, hfirst, hsilent⟩ : ∃ first, (shortClip.after 1000).run = .ok first ∧
      first.outcome.span? = none :=
    exists_of_span?_eq (by decide +kernel)
  obtain ⟨second, hsecond, hplayed⟩ : ∃ second,
      (shortClip.after 0x1000000000000000).run = .ok second ∧
        second.outcome.span? = some ⟨16000, [1], 4⟩ :=
    exists_of_span?_eq (by decide +kernel)
  refine ⟨first, second, hfirst, hsecond, hsilent, hplayed, fun hfades => ?_⟩
  rw [hfades.silent (MixResult.span?_eq_none_iff.1 hsilent)] at hplayed
  cases hplayed

end MixPlan

end SlotRadio
