import Mathlib.Data.List.Basic
import Mathlib.Data.List.Pairwise
import SlotRadio.Proofs.Timing.Noticing
/-!
# Looking more often

Of two series of looks at the clock that end at the same time, where one
has all the looks of the other, the longer one notices each checkpoint at
least as early (`noticed?_of_sublist`), and it notices the same ones,
because the last look notices whatever any look does
(`any_eq_of_sublist`).  So `more_looks_never_hurt`: it releases all that
the shorter one releases and skips nothing that the shorter one does not
skip.

The times have to go forward: where the clock is set back, one more look
can make a series worse.
-/

namespace SlotRadio

section Looks

variable {few many : List Nat}

/-- What is true from some moment on is true at a look of the one series if
it is at a look of the other. -/
theorem any_eq_of_sublist (hsub : few.Sublist many) (hmany : many.Pairwise (· ≤ ·))
    (hlast : few.getLast? = many.getLast?) {p : Nat → Bool}
    (hp : ∀ t u, t ≤ u → p t = true → p u = true) : few.any p = many.any p := by
  rw [Bool.eq_iff_iff, List.any_eq_true, List.any_eq_true]
  constructor
  · rintro ⟨t, ht, hpt⟩
    exact ⟨t, hsub.subset ht, hpt⟩
  · rintro ⟨t, ht, hpt⟩
    have hne : many ≠ [] := List.ne_nil_of_mem ht
    have hle : t ≤ many.getLast hne := hmany.rel_getLast ht
    have hmem : many.getLast hne ∈ few := by
      apply List.mem_of_getLast?
      rw [hlast, List.getLast?_eq_some_getLast hne]
    exact ⟨_, hmem, hp t _ hle hpt⟩

/-- Both series notice the same checkpoints. -/
theorem isSome_noticed?_eq (hsub : few.Sublist many) (hmany : many.Pairwise (· ≤ ·))
    (hlast : few.getLast? = many.getLast?) (c : Checkpoint) :
    (c.noticed? few).isSome = (c.noticed? many).isSome := by
  have hup : ∀ t u, t ≤ u → c.isDue t = true → c.isDue u = true := by
    intro t u htu ht
    exact Checkpoint.isDue_iff.2 (Nat.le_trans (Checkpoint.isDue_iff.1 ht) htu)
  rw [Checkpoint.noticed?, Checkpoint.noticed?, List.isSome_find?, List.isSome_find?]
  exact any_eq_of_sublist hsub hmany hlast hup

/-- The longer series notices each checkpoint at least as early. -/
theorem noticed?_of_sublist (hsub : few.Sublist many) (hmany : many.Pairwise (· ≤ ·))
    {c : Checkpoint} {t : Nat} (h : c.noticed? few = some t) :
    ∃ u, c.noticed? many = some u ∧ u ≤ t := by
  have hdue : c.isDue t = true := List.find?_some h
  have hmem : t ∈ many := hsub.subset (List.mem_of_find?_eq_some h)
  obtain ⟨u, hu⟩ : ∃ u, c.noticed? many = some u :=
    Option.isSome_iff_exists.1 (List.find?_isSome.2 ⟨t, hmem, hdue⟩)
  obtain ⟨-, before, after, rfl, hbefore⟩ := List.find?_eq_some_iff_append.1 hu
  refine ⟨u, hu, ?_⟩
  have hlater : t ∈ u :: after := by
    rcases List.mem_append.1 hmem with hearly | hlater
    · simpa [hdue] using hbefore t hearly
    · exact hlater
  exact (hmany.sublist (List.sublist_append_right ..)).rel_head hlater

end Looks

namespace Schedule

variable {s : Schedule} {slot : Slot} {few many : List Nat}

/-- **Looking more often never hurts.**  The longer of two series of looks
that end at the same time leaves the schedule as the shorter one does, but
for the number of skipped checkpoints, and releases the deadline exactly
if the shorter one does; it releases every checkpoint that the shorter one
releases, and skips no other than that one. -/
theorem more_looks_never_hurt (hslot : s.slot = some slot)
    (hasc : Mode.ascending s.offsets = true) (hsub : few.Sublist many)
    (hmany : many.Pairwise (· ≤ ·)) (hlast : few.getLast? = many.getLast?) :
    let rare := s.run (few.map .look)
    let often := s.run (many.map .look)
    often.1 = { rare.1 with overruns := often.1.overruns } ∧
      deadlinesOf often.2 = deadlinesOf rare.2 ∧
      (onTimeOf rare.2).Sublist (onTimeOf often.2) ∧
      (skippedOf often.2).Sublist (skippedOf rare.2) ∧
      often.1.overruns ≤ rare.1.overruns := by
  intro rare often
  have hpair := pairwise_of_ascending hasc
  have hsame := isSome_noticed?_eq hsub hmany hlast
  have hreleased : often.1.deadlineReleased = rare.1.deadlineReleased := by
    have hany := any_eq_of_sublist hsub hmany hlast (p := (s.deadlineOf slot ≤ ·)) (by
      intro t u htu ht
      exact decide_eq_true (Nat.le_trans (of_decide_eq_true ht) htu))
    rw [deadlineReleased_looks hslot, deadlineReleased_looks hslot, hany]
  have hnext : often.1.next = rare.1.next := by
    rw [next_looks hslot hpair, next_looks hslot hpair]
    simp only [hsame]
  have hskipped : (skippedOf often.2).Sublist (skippedOf rare.2) := by
    rw [skippedOf_looks hslot hpair, skippedOf_looks hslot hpair]
    refine (List.monotone_filter_right _ ?_).map _
    intro c hc
    obtain ⟨u, hu, hlate⟩ := (Option.any_eq_true _ _).1 hc
    obtain ⟨t, ht⟩ : ∃ t, c.noticed? few = some t := by
      rw [← Option.isSome_iff_exists, hsame, hu]
      rfl
    obtain ⟨v, hv, hvt⟩ := noticed?_of_sublist hsub hmany ht
    have hut : u ≤ t := Option.some.inj (hu.symm.trans hv) ▸ hvt
    rw [ht, Option.any_some, Bool.not_eq_true', ← Bool.not_eq_true]
    rw [Bool.not_eq_true', ← Bool.not_eq_true] at hlate
    exact mt (Checkpoint.inTime_of_le hut) hlate
  refine ⟨?_, ?_, ?_, hskipped, ?_⟩
  · calc often.1
        = { s with
            next := often.1.next
            deadlineReleased := often.1.deadlineReleased
            overruns := often.1.overruns } := fst_looks hslot many
      _ = { s with
            next := rare.1.next
            deadlineReleased := rare.1.deadlineReleased
            overruns := often.1.overruns } := by rw [hnext, hreleased]
      _ = { rare.1 with overruns := often.1.overruns } :=
          congrArg (fun t : Schedule => { t with overruns := often.1.overruns })
            (fst_looks hslot few).symm
  · rw [(released_looks hslot many).deadlines, (released_looks hslot few).deadlines]
    exact congrArg (fun released => if released && !s.deadlineReleased then [slot] else [])
      hreleased
  · rw [onTimeOf_looks hslot hpair, onTimeOf_looks hslot hpair]
    refine List.monotone_filter_right _ ?_
    intro c hc
    obtain ⟨t, ht, hin⟩ := (Option.any_eq_true _ _).1 hc
    obtain ⟨u, hu, hut⟩ := noticed?_of_sublist hsub hmany ht
    rw [hu, Option.any_some]
    exact Checkpoint.inTime_of_le hut hin
  · rw [overruns_run, overruns_run]
    exact Nat.add_le_add_left hskipped.length_le _

/-- Two more looks save the first of three checkpoints; the second is noticed too late all the
same. -/
theorem more_looks_never_hurt_stalled :
    let slot := Mode.ft8.slot 0
    let s := ((idle Mode.ft8.checkpoints 250 100).beginSlot slot).1
    let few := [13850, 14900]
    let many := [11850, 13000, 13850, 14900]
    let rare := s.run (few.map .look)
    let often := s.run (many.map .look)
    s.slot = some slot ∧ Mode.ascending s.offsets = true ∧ few.Sublist many ∧
      many.Pairwise (· ≤ ·) ∧ few.getLast? = many.getLast? ∧
      rare.2 = [.overrun 0 [0, 1] 1050, .checkpoint ⟨slot, 2, 13800⟩, .deadline slot] ∧
      onTimeOf often.2 = [⟨slot, 0, 11800⟩, ⟨slot, 2, 13800⟩] ∧
      often.1 = { rare.1 with overruns := often.1.overruns } ∧
      (skippedOf often.2).Sublist (skippedOf rare.2) := by
  intro slot s few many rare often
  have hslot : s.slot = some slot := rfl
  have hasc : Mode.ascending s.offsets = true := by decide
  have hsub : few.Sublist many := by decide
  have hmany : many.Pairwise (· ≤ ·) := by decide
  have hlast : few.getLast? = many.getLast? := by decide
  obtain ⟨hsame, -, -, hskipped, -⟩ := more_looks_never_hurt hslot hasc hsub hmany hlast
  exact ⟨hslot, hasc, hsub, hmany, hlast, by decide, by decide, hsame, hskipped⟩

-- One more look costs every checkpoint where the clock is set back.
example :
    let slot := Mode.ft8.slot 0
    let s := ((idle Mode.ft8.checkpoints 250 100).beginSlot slot).1
    onTimeOf (s.run [.look 11850]).2 = [⟨slot, 0, 11800⟩] ∧
      onTimeOf (s.run [.look 14900, .look 11850]).2 = [] := by
  decide

end Schedule

end SlotRadio
