import SlotRadio.Timing.Tracker
/-!
# What a look at the clock can show

`observe_cases` is everything that a reading can do to a tracker: it is
jitter, it goes back, it stays in the slot, it enters a slot silently
because one as late has been announced before, or it announces a slot.

Two consequences carry the arguments about the engine:

* `observe_slotStart` — an announced slot is later than all that were
  announced before, and so begins later (`startMs_lt_of_cycle_lt`);
* `startMs_observe` — a reading that announces no slot moves the current
  slot back, leaves it, or silently enters a later one.
-/

namespace SlotRadio

theorem slot_startMs_mono (m : Mode) {c d : Nat} (h : c ≤ d) :
    (m.slot c).startMs ≤ (m.slot d).startMs :=
  Nat.mul_le_mul_right m.slotMs h

/-- **Later slots begin later.**  A mode without a slot length has only
one slot, so it has no later ones. -/
theorem startMs_lt_of_cycle_lt (m : Mode) {c now : Nat} (h : c < (slotOf m now).cycle) :
    (m.slot c).startMs < (slotOf m now).startMs := by
  rcases Nat.eq_zero_or_pos m.slotMs with hzero | hpos
  · rw [slotOf_cycle, hzero, Nat.div_zero] at h
    exact absurd h (Nat.not_lt_zero c)
  · exact Nat.mul_lt_mul_of_pos_right h hpos

/-- An earlier moment lies in an earlier slot. -/
theorem slotOf_startMs_mono (m : Mode) {s t : Nat} (h : s ≤ t) :
    (slotOf m s).startMs ≤ (slotOf m t).startMs :=
  slot_startMs_mono m (Nat.div_le_div_right h)

namespace Tracker

/-- The current slot is the slot of the last reading that counted. -/
def Follows (t : Tracker) : Prop :=
  t.current = t.lastReading.map (slotOf t.mode)

theorem follows_start (mode : Mode) (toleranceMs : Nat) : (start mode toleranceMs).Follows := rfl

/-- What a reading that does not go back does: it stays in the current slot, enters one that is not
announced again, or enters a new one and announces it. -/
theorem enter_cases (t : Tracker) (now : Nat) :
    -- Still in the current slot.
    (t.current.any (·.id == (slotOf t.mode now).id) = true ∧
      t.enter now = ({ t with lastReading := some now }, none)) ∨
    -- In a slot that is not announced again.
    (t.highest.any ((slotOf t.mode now).cycle ≤ ·) = true ∧
      t.enter now =
        ({ t with lastReading := some now, current := some (slotOf t.mode now) }, none)) ∨
    -- In a new slot.
    (t.highest.any ((slotOf t.mode now).cycle ≤ ·) = false ∧
      t.enter now =
        ({ t with
            lastReading := some now
            current := some (slotOf t.mode now)
            highest := some (slotOf t.mode now).cycle },
          some (.slotStart (slotOf t.mode now) t.current))) := by
  unfold enter
  dsimp only
  split
  · next hsame => exact .inl ⟨hsame, rfl⟩
  · split
    · next hlate => exact .inr (.inl ⟨hlate, rfl⟩)
    · next hnew => exact .inr (.inr ⟨by simpa using hnew, rfl⟩)

/-- **What a reading does.** It is jitter and changes nothing, or goes back so far that it is an
anomaly, or does not go back. -/
theorem observe_cases (t : Tracker) (now : Nat) :
    t.observe now = (t, none) ∨
    (∃ last jumpMs, t.lastReading = some last ∧ now < last ∧
      t.observe now =
        ({ t with lastReading := some now, current := some (slotOf t.mode now) },
          some (.anomaly jumpMs (slotOf t.mode now)))) ∨
    (∀ last, t.lastReading = some last → last ≤ now) ∧ t.observe now = t.enter now := by
  unfold observe
  split
  · next hnone => exact .inr (.inr ⟨by simp [hnone], rfl⟩)
  · next last hlast =>
    split
    · next hle =>
      refine .inr (.inr ⟨?_, rfl⟩)
      intro l hl
      obtain rfl : last = l := Option.some.inj (hlast.symm.trans hl)
      exact hle
    · split
      · exact .inl rfl
      · next hlt _ => exact .inr (.inl ⟨last, _, hlast, by omega, rfl⟩)

theorem mode_observe (t : Tracker) (now : Nat) : (t.observe now).1.mode = t.mode := by
  rcases observe_cases t now with h | ⟨_, _, -, -, h⟩ | ⟨-, h⟩
  · rw [h]
  · rw [h]
  · rcases enter_cases t now with ⟨-, h'⟩ | ⟨-, h'⟩ | ⟨-, h'⟩ <;> rw [h, h']

/-- **The current slot is always that of the last reading that counted.** Where the slot is kept, it
has the cycle of the new reading, and the cycle is all there is to a slot. -/
theorem follows_observe {t : Tracker} (h : t.Follows) (now : Nat) : (t.observe now).1.Follows := by
  rcases observe_cases t now with heq | ⟨_, _, -, -, heq⟩ | ⟨-, heq⟩
  · rw [heq]
    exact h
  · rw [heq]
    rfl
  · rcases enter_cases t now with ⟨hsame, heq'⟩ | ⟨-, heq'⟩ | ⟨-, heq'⟩
    · rw [heq, heq']
      -- The slots have one cycle, and so are one slot.
      have hcurrent : t.current = some (slotOf t.mode now) := by
        unfold Follows at h
        cases hlast : t.lastReading with
        | none => simp [h, hlast] at hsame
        | some last =>
          have hid : last / t.mode.slotMs = now / t.mode.slotMs := by
            simpa [h, hlast] using hsame
          rw [h, hlast, Option.map_some]
          unfold slotOf
          rw [hid]
      exact hcurrent
    · rw [heq, heq']
      rfl
    · rw [heq, heq']
      rfl

/-- **An announced slot is the slot of the reading, and later than all
announced before it.** -/
theorem observe_slotStart {t : Tracker} {now : Nat} {slot : Slot} {previous : Option Slot}
    (h : (t.observe now).2 = some (.slotStart slot previous)) :
    slot = slotOf t.mode now ∧ (∀ c, t.highest = some c → c < slot.cycle) ∧
      (t.observe now).1.highest = some slot.cycle ∧ (t.observe now).1.current = some slot := by
  rcases observe_cases t now with heq | ⟨_, _, -, -, heq⟩ | ⟨-, heq⟩
  · rw [heq] at h
    simp at h
  · rw [heq] at h
    simp at h
  · rcases enter_cases t now with ⟨-, heq'⟩ | ⟨-, heq'⟩ | ⟨hnew, heq'⟩
    · rw [heq, heq'] at h
      simp at h
    · rw [heq, heq'] at h
      simp at h
    · rw [heq, heq'] at h ⊢
      simp only [Option.some.injEq, Tick.slotStart.injEq] at h
      obtain ⟨rfl, -⟩ := h
      refine ⟨rfl, ?_, rfl, rfl⟩
      intro c hc
      rw [hc, Option.any_some, decide_eq_false_iff_not] at hnew
      omega

/-- Only an announcement raises the highest announced cycle. -/
theorem highest_observe {t : Tracker} {now : Nat}
    (h : ∀ slot previous, (t.observe now).2 ≠ some (.slotStart slot previous)) :
    (t.observe now).1.highest = t.highest := by
  rcases observe_cases t now with heq | ⟨_, _, -, -, heq⟩ | ⟨-, heq⟩
  · rw [heq]
  · rw [heq]
  · rcases enter_cases t now with ⟨-, heq'⟩ | ⟨-, heq'⟩ | ⟨-, heq'⟩
    · rw [heq, heq']
    · rw [heq, heq']
    · rw [heq, heq'] at h
      exact absurd rfl (h _ _)

/-- **A reading that announces no slot** goes back, stays, or silently
enters a later slot. -/
theorem startMs_observe {t : Tracker} (hfollows : t.Follows) {shown : Slot}
    (hshown : t.current = some shown) {now : Nat}
    (htick : ∀ slot previous, (t.observe now).2 ≠ some (.slotStart slot previous)) :
    ∃ slot, (t.observe now).1.current = some slot ∧
      ((∃ jumpMs resynced, (t.observe now).2 = some (.anomaly jumpMs resynced)) ∧
          slot.startMs ≤ shown.startMs ∨
        (t.observe now).2 = none ∧ (slot = shown ∨ shown.startMs < slot.startMs)) := by
  obtain ⟨last, hlast, hslot⟩ : ∃ last, t.lastReading = some last ∧ slotOf t.mode last = shown := by
    unfold Follows at hfollows
    rw [hshown] at hfollows
    exact Option.map_eq_some_iff.1 hfollows.symm
  rcases observe_cases t now with heq | ⟨last', jumpMs, hlast', hlt, heq⟩ | ⟨hle, heq⟩
  · rw [heq]
    exact ⟨shown, hshown, .inr ⟨rfl, .inl rfl⟩⟩
  · obtain rfl : last = last' := Option.some.inj (hlast.symm.trans hlast')
    rw [heq]
    refine ⟨_, rfl, .inl ⟨⟨jumpMs, _, rfl⟩, ?_⟩⟩
    rw [← hslot]
    exact slotOf_startMs_mono t.mode (Nat.le_of_lt hlt)
  · rcases enter_cases t now with ⟨-, heq'⟩ | ⟨-, heq'⟩ | ⟨-, heq'⟩
    · rw [heq, heq']
      exact ⟨shown, hshown, .inr ⟨rfl, .inl rfl⟩⟩
    · rw [heq, heq']
      refine ⟨_, rfl, .inr ⟨rfl, ?_⟩⟩
      have hcycle : last / t.mode.slotMs ≤ now / t.mode.slotMs :=
        Nat.div_le_div_right (hle last hlast)
      rcases Nat.eq_or_lt_of_le hcycle with hsame | hlater
      · left
        rw [← hslot]
        exact congrArg t.mode.slot hsame.symm
      · right
        rw [← hslot]
        exact startMs_lt_of_cycle_lt t.mode hlater
    · rw [heq, heq'] at htick
      exact absurd rfl (htick _ _)

/-- A reading slips past a moment if it shows nothing and leaves the
tracker in a slot that begins after that moment. -/
def slipsPast (t : Tracker) (now startMs : Nat) : Bool :=
  (t.observe now).2.isNone && (t.observe now).1.current.any (startMs < ·.startMs)

end Tracker

end SlotRadio
