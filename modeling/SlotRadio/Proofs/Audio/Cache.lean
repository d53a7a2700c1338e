import SlotRadio.Proofs.Audio.Storage
/-!
# What stays in the cache

Only `add` brings a clip into the cache, and it brings the offered one
(`add_cases`).  Everything else at most drops clips (`Sheds`).  So
the cached clips are always for the one slot that the mixer is turned to
(`Tagged`).

Noting the outcome of a mix makes none due (`dueAt_record`), and one that
gave a composite leaves what it was mixed from (`record_composite`): only
operators with a clip there are heard in it (`MixPlan.operators_run`).
-/

namespace SlotRadio.Mixer

/-- The cached clips are for the slot that the mixer is turned to. -/
def Tagged (m : Mixer) : Prop :=
  ∀ c ∈ m.clips, m.slotStart = some c.slotStartMs

/-- All clips of `n` are clips of `m`, and for the same slot if there are
any. -/
def Sheds (m n : Mixer) : Prop :=
  n.clips = [] ∨ n.slotStart = m.slotStart ∧ ∀ c ∈ n.clips, c ∈ m.clips

variable {m n l : Mixer}

/-- Where table, list and slot are the same nothing is dropped. -/
theorem sheds_of_eq (hslot : n.slotStart = m.slotStart) (hentries : n.entries = m.entries)
    (horder : n.order = m.order) : m.Sheds n :=
  .inr ⟨hslot, fun _ hc => clips_congr hentries horder ▸ hc⟩

theorem Sheds.refl (m : Mixer) : m.Sheds m := sheds_of_eq rfl rfl rfl

/-- A clip that is left was there before. -/
theorem Sheds.mem (h : m.Sheds n) {c : Clip} (hc : c ∈ n.clips) : c ∈ m.clips := by
  rcases h with hnil | ⟨-, hsub⟩
  · rw [hnil] at hc
    exact absurd hc List.not_mem_nil
  · exact hsub c hc

/-- What two steps leave over is left over by both together. -/
theorem Sheds.trans (h : m.Sheds n) (k : n.Sheds l) : m.Sheds l := by
  rcases k with hnil | ⟨hslot, hsub⟩
  · exact .inl hnil
  · rcases h with hnil | ⟨hslot', hsub'⟩
    · left
      rw [hnil] at hsub
      exact List.eq_nil_iff_forall_not_mem.2 fun c hc => absurd (hsub c hc) List.not_mem_nil
    · exact .inr ⟨hslot.trans hslot', fun c hc => hsub' c (hsub c hc)⟩

/-- Clips that are left are still for the slot that the mixer is turned to. -/
theorem Sheds.tagged (h : m.Sheds n) (htagged : m.Tagged) : n.Tagged := by
  intro c hc
  rcases h with hnil | ⟨hslot, hsub⟩
  · rw [hnil] at hc
    exact absurd hc List.not_mem_nil
  · rw [hslot]
    exact htagged c (hsub c hc)

/-- A mixer that is cleared has no clips left. -/
theorem sheds_clear (m : Mixer) : m.Sheds m.clear := .inl rfl

/-- Calling off a mix brings no clip. -/
theorem sheds_cancel (m : Mixer) : m.Sheds m.cancel.1 := by
  unfold cancel
  split <;> exact sheds_of_eq rfl rfl rfl

theorem sheds_schedule (m : Mixer) (now : Nat) (target : Option Nat) :
    m.Sheds (m.schedule now target).1 := by
  have hcancel := sheds_cancel m
  unfold schedule
  dsimp only
  split
  · exact hcancel
  · split <;> exact hcancel.trans (sheds_of_eq rfl rfl rfl)

theorem sheds_takeIfDue (m : Mixer) (now : Nat) : m.Sheds (m.takeIfDue now).1 := by
  unfold takeIfDue
  split <;> exact sheds_of_eq rfl rfl rfl

/-- A plan to mix again brings no clip. -/
theorem sheds_planAgain (m : Mixer) (playedMs : Nat) (quality : Quality) :
    m.Sheds (m.planAgain playedMs quality).1 :=
  (sheds_cancel m).trans (sheds_of_eq rfl rfl rfl)

/-- The result of a mix brings no clip, and a failure drops them all. -/
theorem sheds_record (m : Mixer) (result : Except MixFault MixSummary) :
    m.Sheds (m.record result).1 := by
  unfold record
  split
  · exact sheds_clear m
  · dsimp only
    split <;> exact sheds_of_eq rfl rfl rfl

/-- A removal brings no clip. -/
theorem sheds_remove (m : Mixer) (operator : Nat) : m.Sheds (m.remove operator).1 := by
  unfold remove
  split
  · exact .refl m
  · dsimp only
    split <;> exact .inr ⟨rfl, fun c hc => mem_clips_without hc⟩

/-! ## Adding a clip -/

/-- What turning to a slot keeps is for this slot. -/
theorem turnTo_cases (htagged : m.Tagged) (start : Nat) :
    (m.turnTo start).1.slotStart = some start ∧ (m.turnTo start).1.Tagged ∧
      ∀ c ∈ (m.turnTo start).1.clips, c ∈ m.clips := by
  unfold turnTo
  split
  · refine ⟨rfl, ?_, ?_⟩ <;> intro c hc <;> exact absurd hc List.not_mem_nil
  · next hsame =>
    refine ⟨rfl, ?_, fun c hc => hc⟩
    intro c hc
    have hslot : m.slotStart = some c.slotStartMs := htagged c hc
    rw [hslot] at hsame
    have heq : c.slotStartMs = start := by simpa using hsame
    exact congrArg some heq.symm

/-- What `add` leaves in the cache: nothing new if it refuses, else the clip and what was cached for
the same slot. Either way everything cached belongs to the slot of the mixer. -/
theorem add_cases (htagged : m.Tagged) (clip : Clip) :
    (m.add clip).1.Tagged ∧ ∀ c ∈ (m.add clip).1.clips, c = clip ∨ c ∈ m.clips := by
  unfold add
  split
  · exact ⟨htagged, fun _ hc => .inr hc⟩
  · obtain ⟨hslot, hturned, hsub⟩ := turnTo_cases htagged clip.slotStartMs
    have hkept : (m.turnTo clip.slotStartMs).1.Tagged ∧
        ∀ c ∈ (m.turnTo clip.slotStartMs).1.clips, c = clip ∨ c ∈ m.clips :=
      ⟨hturned, fun c hc => .inr (hsub c hc)⟩
    have hstored : ((m.turnTo clip.slotStartMs).1.store clip).Tagged ∧
        ∀ c ∈ ((m.turnTo clip.slotStartMs).1.store clip).clips, c = clip ∨ c ∈ m.clips := by
      refine ⟨?_, ?_⟩
      · intro c hc
        rcases mem_clips_store hc with rfl | hc
        · exact hslot
        · exact hturned c hc
      · intro c hc
        exact (mem_clips_store hc).imp_right (hsub c)
    dsimp only
    split
    · split
      · exact hkept
      · exact hstored
    · split
      · exact hkept
      · exact hstored

/-! ## Noting an outcome -/

/-- Where nothing is cached there is nothing to play. -/
theorem run_currentPlan_of_nil (h : m.clips = []) (quality : Quality) :
    (m.currentPlan quality).run = .ok ⟨.silence, 0, 0⟩ := by
  have hrate : (m.currentPlan quality).targetRate? = none := by
    show (m.clips.map (·.rate)).max? = none
    rw [h]
    rfl
  unfold MixPlan.run
  rw [hrate]

/-- The result of a mix arms no other one. -/
theorem dueAt_record (h : m.dueAt = none) (result : Except MixFault MixSummary) :
    (m.record result).1.dueAt = none := by
  unfold record
  split
  · rfl
  · dsimp only
    split <;> exact h

/-- A mix that gives a composite leaves the clips and the offset as they were, so the plan that was
made of them could be made again. -/
theorem record_composite {result : Except MixFault MixSummary} {audio : Composite}
    (h : (m.record result).2 = .ok (.composite audio)) :
    (∃ report, result = .ok report ∧ report.outcome = .composite audio) ∧
      ∀ quality, (m.record result).1.currentPlan quality = m.currentPlan quality := by
  unfold record at h ⊢
  split at h
  · simp at h
  · next report =>
    dsimp only at h ⊢
    split at h
    · next audio' houtcome =>
      simp only [Except.ok.injEq, MixResult.composite.injEq] at h
      subst h
      exact ⟨⟨report, rfl, houtcome⟩, fun quality => rfl⟩
    · simp at h

end SlotRadio.Mixer

/-! ## Who is heard -/

namespace SlotRadio.MixPlan

variable {plan : MixPlan}

/-- What is kept of each element is kept of the list. -/
theorem map_eq_of_mapM {α β γ : Type} {f : α → Option β} {before : α → γ} {after : β → γ}
    (hkept : ∀ x y, f x = some y → after y = before x) {xs : List α} {ys : List β}
    (h : xs.mapM f = some ys) : ys.map after = xs.map before := by
  induction xs generalizing ys with
  | nil =>
    obtain rfl := Option.some.inj h
    rfl
  | cons x xs ih =>
    rw [List.mapM_cons] at h
    obtain ⟨first, hfirst, h⟩ := Option.bind_eq_some_iff.1 h
    obtain ⟨rest, hrest, h⟩ := Option.bind_eq_some_iff.1 h
    obtain rfl := Option.some.inj h
    rw [List.map_cons, List.map_cons, ih hrest, hkept x first hfirst]

/-- Conversion keeps the operators in their order. -/
theorem operators_converted? {rate : Nat} {signals : List (Nat × Converted)}
    (h : plan.converted? rate = some signals) :
    signals.map (·.1) = plan.clips.map (·.operator) := by
  refine map_eq_of_mapM ?_ h
  intro clip signal hsignal
  obtain ⟨converted, -, rfl⟩ := Option.map_eq_some_iff.1 hsignal
  rfl

/-- **A composite is made of clips that were to be mixed**, in their order. Those that are over by
then are left out, and no other operator gets in. -/
theorem operators_run {report : MixSummary} {audio : Composite} (h : plan.run = .ok report)
    (houtcome : report.outcome = .composite audio) :
    audio.operators.Sublist (plan.clips.map (·.operator)) := by
  unfold run at h
  split at h
  · obtain rfl := Except.ok.inj h
    cases houtcome
  · next rate _ =>
    split at h
    · cases h
    · next signals hsignals =>
      have hremaining : ((plan.remaining rate signals).map (·.1)).Sublist
          (plan.clips.map (·.operator)) := by
        rw [← operators_converted? hsignals, remaining, List.map_map]
        exact List.filter_sublist.map _
      unfold assemble at h
      split at h
      · obtain rfl := Except.ok.inj h
        cases houtcome
      · dsimp only at h
        split at h
        · obtain rfl := Except.ok.inj h
          obtain rfl := MixResult.composite.inj houtcome
          exact hremaining
        · cases h

end SlotRadio.MixPlan
