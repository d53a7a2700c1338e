import SlotRadio.Proofs.Audio.Ledger
/-!
# Minding an operator

An operator that is heard in what is played may be dropped from the
cache.  The mixer is ready for this (`Minds`) if a mix is due, which will
be without the operator, or if what is played is the mix of what is
cached, and the operator has a clip among it: then who drops the clip is
told that there was one, and has to mix again.

Here is what dropping a clip leaves (`order_remove`), and that a clip
that is offered in vain does not change the matter (`Minds.add`).
-/

namespace SlotRadio

namespace Mixer

variable {m : Mixer} {n : Nat}

/-- Dropping an operator's clip leaves the other operators, as they were
listed. -/
theorem order_remove (h : m.Coherent) (n : Nat) :
    (m.remove n).1.order = m.order.filter (· != n) := by
  rcases remove_cases m n with ⟨hnone, heq⟩ | ⟨-, ⟨-, -, heq⟩ | ⟨-, heq⟩⟩
  · rw [heq]
    have habsent : n ∉ m.order := (h.entries_eq_none_iff n).1 hnone
    refine (List.filter_eq_self.2 ?_).symm
    intro k hk
    have hother : k ≠ n := fun hkn => habsent (hkn ▸ hk)
    simpa using hother
  · rw [heq]
    rfl
  · rw [heq]
    rfl

/-- **An operator whose clip has been dropped has none.** -/
theorem not_mem_order_remove (h : m.Coherent) (n : Nat) : n ∉ (m.remove n).1.order := by
  rw [order_remove h]
  intro hmem
  have hother := (List.mem_filter.1 hmem).2
  simp at hother

/-- What is left without its only operator is nothing, and conversely: as nobody is listed twice,
the one that was taken out was the only one. -/
theorem order_eq_singleton (h : m.Coherent) (hsome : (m.entries n).isSome = true)
    (hnil : (m.remove n).1.order = []) : m.order = [n] := by
  have hmem : n ∈ m.order := (h.listed n).2 hsome
  have hdistinct := h.distinct
  have hleft : m.order.filter (· != n) = [] := by
    rw [← order_remove h, hnil]
  have hall : ∀ k ∈ m.order, k = n := by
    intro k hk
    simpa using List.filter_eq_nil_iff.1 hleft k hk
  generalize m.order = ks at hdistinct hmem hall
  cases ks with
  | nil => exact absurd hmem List.not_mem_nil
  | cons k rest =>
    obtain ⟨hk, hrest⟩ := List.forall_mem_cons.1 hall
    have hfresh := (List.nodup_cons.1 hdistinct).1
    have hempty : rest = [] := by
      refine List.eq_nil_iff_forall_not_mem.2 ?_
      intro j hj
      rw [hk, ← hrest j hj] at hfresh
      exact hfresh hj
    rw [hk, hempty]

/-- Of an operator's clip that is refused nothing is kept, though the refusal may have emptied the
mixer before. -/
theorem clips_add_of_refused {clip : Clip} {fault : MixFault} (h : (m.add clip).2 = .error fault) :
    ∀ c ∈ (m.add clip).1.clips, c ∈ m.clips := by
  have hturned : ∀ c ∈ (m.turnTo clip.slotStartMs).1.clips, c ∈ m.clips := by
    intro c hc
    unfold turnTo at hc
    split at hc
    · exact absurd hc List.not_mem_nil
    · exact hc
  rcases add_outcome m clip with ⟨-, hadd⟩ | ⟨-, hadd, -⟩ | ⟨accepted, -, -, hadd⟩
  · rw [hadd]
    exact fun c hc => hc
  · rw [hadd]
    exact hturned
  · rw [hadd] at h
    cases h

/-- A cache that may hold something takes the first clip of a slot. -/
theorem add_of_elsewhere {clip : Clip} (hrate : clip.rate ≠ 0)
    (helse : m.isElsewhere clip.slotStartMs = true) (hroom : 0 < m.settings.maxOperators) :
    (m.add clip).2 = .ok .purgedStale := by
  have hfree : ¬ m.settings.maxOperators ≤ 0 := Nat.not_le_of_lt hroom
  simp [add, hrate, turnTo_of_elsewhere helse, clear, hfree]

/-! ## Minding an operator -/

/-- If `n` is heard in what is played, its removal does not go unnoticed:
a mix is due, or what is cached has been mixed and a clip of `n` is among
it. -/
def Minds (m : Mixer) (n : Nat) : Prop :=
  m.dueAt.isSome = true ∨ m.stage = .mixed ∧ n ∈ m.order

/-- A mixer that minds someone lists someone. -/
theorem Minds.order_ne_nil (h : m.Minds n) (hsound : m.Sound) : m.order ≠ [] := by
  intro hnil
  rcases h with hdue | ⟨-, hmem⟩
  · have hwaiting := hsound.waits.1 hdue
    rw [hsound.holds.2 hnil] at hwaiting
    cases hwaiting
  · rw [hnil] at hmem
    exact absurd hmem List.not_mem_nil

/-- An operator without a clip is minded only while a mix is due. -/
theorem Minds.dueAt (h : m.Minds n) (habsent : n ∉ m.order) : m.dueAt.isSome = true :=
  h.resolve_right fun hmixed => habsent hmixed.2

/-- A clip that is not taken leaves everything in its place. One of another slot would have been
taken, as the mixer has room for the operator that it minds. -/
theorem Minds.add (h : m.Minds n) (hsound : m.Sound) (hregular : m.Regular) {clip : Clip}
    (hunwanted : (m.add clip).2 = .ok .duplicate ∨ ∃ fault, (m.add clip).2 = .error fault) :
    (m.add clip).1.Minds n := by
  rcases add_outcome m clip with ⟨-, hadd⟩ | ⟨hrate, hadd, -⟩ | ⟨accepted, -, haccepted, hadd⟩
  · rw [hadd]
    exact h
  · cases helse : m.isElsewhere clip.slotStartMs with
    | false =>
      rw [hadd, turnTo_of_here helse]
      exact h
    | true =>
      -- A clip for another slot would have been taken.
      have hroom : 0 < m.settings.maxOperators :=
        Nat.pos_of_ne_zero fun hfull => h.order_ne_nil hsound (hregular.order_eq_nil hfull)
      rw [add_of_elsewhere hrate helse hroom] at hunwanted
      rcases hunwanted with hdup | ⟨fault, hfault⟩
      · cases hdup
      · cases hfault
  · rw [hadd] at hunwanted
    rcases hunwanted with hdup | ⟨fault, hfault⟩
    · obtain rfl := Except.ok.inj hdup
      rcases haccepted with ⟨hkind, -⟩ | ⟨hkind | hkind, -⟩ <;> cases hkind
    · cases hfault

end Mixer

end SlotRadio
