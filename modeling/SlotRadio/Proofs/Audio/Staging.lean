import SlotRadio.Proofs.Audio.Storage
/-!
# The stages of a mixer

The stage of a mixer is not independent of its other fields: a mix is due
exactly while it waits, and it is empty exactly if nothing is cached
(`Sound`).

What the functions of a mixer do is said here once: `cancel_cases`,
`schedule_cases`, `remove_cases`, `add_outcome`.  Two relations between a
mixer and a later one sum it up:

* `Unmixed` — no mix has been made in between, so nothing that is cached
  and not due has been added;
* `Moved` — the offset has gone on by so much, and what is played began
  when it began.
-/

namespace SlotRadio.Mixer

/-- The stage says whether a mix is due and whether anything is cached. -/
structure Sound (m : Mixer) : Prop where
  waits : m.dueAt.isSome = true ↔ m.stage = .waiting
  holds : m.stage = .empty ↔ m.order = []

/-- The mixer `n` has come from `m`, and no mix has been made. -/
structure Unmixed (m n : Mixer) : Prop where
  sound : m.Sound → n.Sound
  mixed : n.stage = .mixed → m.stage = .mixed ∧ n.playbackStart = m.playbackStart
  gathered : n.dueAt = none → n.clips = [] ∨ m.dueAt = none ∧ ∀ c ∈ n.clips, c ∈ m.clips

/-- The offset of `n` is that of `m` and `ms` more. -/
structure Moved (m : Mixer) (ms : Nat) (n : Mixer) : Prop where
  elapsed : n.elapsedMs = m.elapsedMs + ms
  playback : n.playbackStart = m.playbackStart

variable {m n : Mixer}

/-- The stage of an empty mixer says so, and no mix is due. -/
theorem sound_empty (settings : MixerSettings) : (empty settings).Sound := by
  constructor <;> simp [empty]

theorem Unmixed.refl (m : Mixer) : m.Unmixed m where
  sound := id
  mixed := fun h => ⟨h, rfl⟩
  gathered := fun h => .inr ⟨h, fun _ hc => hc⟩

/-- Two steps without a mix are one, so what a request does before and after it leaves the mixer to
another operation can be told separately. -/
theorem Unmixed.trans {l : Mixer} (h : m.Unmixed n) (k : n.Unmixed l) : m.Unmixed l where
  sound := fun hsound => k.sound (h.sound hsound)
  mixed := by
    intro hmixed
    obtain ⟨hn, hl⟩ := k.mixed hmixed
    obtain ⟨hm, hn⟩ := h.mixed hn
    exact ⟨hm, hl.trans hn⟩
  gathered := by
    intro hdue
    rcases k.gathered hdue with hnil | ⟨hn, hsub⟩
    · exact .inl hnil
    · rcases h.gathered hn with hnil | ⟨hm, hsub'⟩
      · left
        rw [hnil] at hsub
        exact List.eq_nil_iff_forall_not_mem.2 fun c hc => absurd (hsub c hc) List.not_mem_nil
      · exact .inr ⟨hm, fun c hc => hsub' c (hsub c hc)⟩

/-- A mixer that waits for its clips to be mixed may have come from any. -/
theorem unmixed_of_waiting (m : Mixer) (hdue : n.dueAt.isSome = true) (hstage : n.stage = .waiting)
    (hcached : n.order ≠ []) : m.Unmixed n where
  sound := by
    intro _
    constructor
    · simp [hdue, hstage]
    · simp [hstage, hcached]
  mixed := by
    intro h
    simp [hstage] at h
  gathered := by
    intro h
    simp [h] at hdue

/-- A mixer with nothing in it may have come from any. -/
theorem unmixed_of_empty (m : Mixer) (hdue : n.dueAt = none) (hstage : n.stage = .empty)
    (hnil : n.order = []) : m.Unmixed n where
  sound := by
    intro _
    constructor
    · simp [hdue, hstage]
    · simp [hstage, hnil]
  mixed := by
    intro h
    simp [hstage] at h
  gathered := fun _ => .inl (clips_of_order_nil hnil)

/-- A mixer that is cleared has not mixed. -/
theorem unmixed_clear (m : Mixer) : m.Unmixed m.clear := unmixed_of_empty m rfl rfl rfl

/-- Turning to a slot does nothing to the clips, or drops them all. -/
theorem unmixed_turnTo (m : Mixer) (start : Nat) : m.Unmixed (m.turnTo start).1 := by
  unfold turnTo
  split
  · exact unmixed_of_empty m rfl rfl rfl
  · have h := Unmixed.refl m
    exact ⟨fun hs => ⟨(h.sound hs).waits, (h.sound hs).holds⟩, h.mixed, h.gathered⟩

/-- A mixer that is left alone stays at its offset. -/
theorem moved_refl (m : Mixer) : m.Moved 0 m := ⟨rfl, rfl⟩

/-- The offsets by which two steps move on add up. -/
theorem Moved.trans {l : Mixer} {a b : Nat} (h : m.Moved a n) (k : n.Moved b l) :
    m.Moved (a + b) l where
  elapsed := by rw [k.elapsed, h.elapsed, Nat.add_assoc]
  playback := k.playback.trans h.playback

/-! ## Giving up what is due -/

/-- A mix that is called off was due, and then the stage falls back; otherwise
nothing changes. -/
theorem cancel_cases (m : Mixer) :
    (m.dueAt = none ∧ m.cancel.1 = m) ∨
      (m.dueAt.isSome = true ∧ m.cancel.1 =
        { m with
          dueAt := none
          stage := if m.stage = .waiting then m.restingStage else m.stage }) := by
  unfold cancel
  split
  · next h => exact .inl ⟨h, rfl⟩
  · next due h => exact .inr ⟨by rw [h]; rfl, rfl⟩

/-- After a mix is called off none is due. -/
@[simp] theorem dueAt_cancel (m : Mixer) : m.cancel.1.dueAt = none := by
  rcases cancel_cases m with ⟨hnone, h⟩ | ⟨-, h⟩
  · rw [h]
    exact hnone
  · rw [h]

/-- Calling off a mix drops no operator. -/
@[simp] theorem order_cancel (m : Mixer) : m.cancel.1.order = m.order := by
  rcases cancel_cases m with ⟨-, h⟩ | ⟨-, h⟩ <;> rw [h]

/-- Calling off a mix does not move the offset on. -/
theorem moved_cancel (m : Mixer) : m.Moved 0 m.cancel.1 := by
  rcases cancel_cases m with ⟨-, h⟩ | ⟨-, h⟩
  · rw [h]
    exact moved_refl m
  · rw [h]
    exact ⟨rfl, rfl⟩

/-- Where nothing is cached, calling off a mix leaves nothing to account
for. -/
theorem unmixed_cancel_of_nil (hnil : m.order = []) : m.Unmixed m.cancel.1 := by
  rcases cancel_cases m with ⟨-, h⟩ | ⟨hdue, h⟩
  · rw [h]
    exact .refl m
  · have hresting : m.restingStage = .empty := by
      unfold restingStage
      rw [hnil]
      rfl
    rw [h]
    refine ⟨?_, ?_, fun _ => .inl (clips_of_order_nil hnil)⟩
    · intro hsound
      -- A mix that is due is waited for.
      have hwaits : m.stage = .waiting := hsound.waits.1 hdue
      constructor <;> simp [hwaits, hresting, hnil]
    · intro hmixed
      dsimp only at hmixed ⊢
      split at hmixed
      · rw [hresting] at hmixed
        cases hmixed
      · exact ⟨hmixed, rfl⟩

/-! ## Asking for a mix -/

/-- **What becomes of a wish to mix**: there is nothing to mix, the
playback time is over, or the mix is due from now on. -/
theorem schedule_cases (m : Mixer) (now : Nat) (target : Option Nat) :
    (m.order = [] ∧ m.schedule now target = (m.cancel.1, .nothingCached)) ∨
      (∃ counts late, m.order ≠ [] ∧ target.any (· ≤ now) = true ∧
        m.schedule now target = ({ m.cancel.1 with counts }, .overdue late)) ∨
      ∃ at_, m.order ≠ [] ∧ target.any (· ≤ now) = false ∧
        m.schedule now target =
          ({ m.cancel.1 with dueAt := some at_, stage := .waiting }, .armed at_) := by
  unfold schedule
  dsimp only
  rw [order_cancel]
  split
  · next h => exact .inl ⟨List.isEmpty_iff.1 h, rfl⟩
  · next h =>
    have hne : m.order ≠ [] := fun hnil => h (by rw [hnil]; rfl)
    split
    · next missed hmissed =>
      refine .inr (.inl ⟨_, _, hne, ?_, rfl⟩)
      obtain ⟨ht, hle⟩ := Option.filter_eq_some_iff.1 hmissed
      rw [ht]
      exact hle
    · next hnone =>
      refine .inr (.inr ⟨_, hne, ?_, rfl⟩)
      cases target with
      | none => rfl
      | some t =>
        have hlate : ¬ t ≤ now := by simpa using hnone
        exact decide_eq_false hlate

/-! ## Dropping a clip -/

/-- **What becomes of an operator's clip that is dropped.** -/
theorem remove_cases (m : Mixer) (operator : Nat) :
    (m.entries operator = none ∧ m.remove operator = (m, false)) ∨
      (m.entries operator).isSome = true ∧
        (((m.without operator).order = [] ∧ m.stage ≠ .mixed ∧
            m.remove operator =
              ({ m.without operator with dueAt := none, stage := .empty }, true)) ∨
          (¬ ((m.without operator).order = [] ∧ m.stage ≠ .mixed) ∧
            m.remove operator = (m.without operator, true))) := by
  unfold remove
  split
  · next h => exact .inl ⟨Option.isNone_iff_eq_none.1 h, rfl⟩
  · next h =>
    refine .inr ⟨Option.isSome_iff_ne_none.2 fun hnone => h (Option.isNone_iff_eq_none.2 hnone),
      ?_⟩
    dsimp only
    split
    · next hgone => exact .inl ⟨List.isEmpty_iff.1 hgone.1, hgone.2, rfl⟩
    · next hleft =>
      refine .inr ⟨?_, rfl⟩
      rintro ⟨hnil, hstage⟩
      exact hleft ⟨List.isEmpty_iff.2 hnil, hstage⟩

/-- A removal does not move the offset on, and the playback goes on. -/
theorem moved_remove (m : Mixer) (operator : Nat) : m.Moved 0 (m.remove operator).1 := by
  rcases remove_cases m operator with ⟨-, h⟩ | ⟨-, ⟨-, -, h⟩ | ⟨-, h⟩⟩
  · rw [h]
    exact moved_refl m
  · rw [h]
    exact ⟨rfl, rfl⟩
  · rw [h]
    exact ⟨rfl, rfl⟩

/-- A removal says whether there was a clip of the operator. -/
theorem snd_remove (m : Mixer) (operator : Nat) :
    (m.remove operator).2 = (m.entries operator).isSome := by
  rcases remove_cases m operator with ⟨hnone, h⟩ | ⟨hsome, ⟨-, -, h⟩ | ⟨-, h⟩⟩
  · rw [h, hnone]
    rfl
  · rw [h, hsome]
  · rw [h, hsome]

/-- Dropping a clip that has not been mixed leaves the rest as it was; if it was the last one, the
mix that was due goes with it. -/
theorem unmixed_remove {operator : Nat}
    (h : (m.remove operator).2 = false ∨ m.stage ≠ .mixed) :
    m.Unmixed (m.remove operator).1 := by
  rcases remove_cases m operator with ⟨-, heq⟩ | ⟨-, ⟨hnil, -, heq⟩ | ⟨hleft, heq⟩⟩
  · rw [heq]
    exact .refl m
  · rw [heq]
    exact unmixed_of_empty m rfl rfl hnil
  · rw [heq] at h ⊢
    have hstage : m.stage ≠ .mixed := h.resolve_left (by simp)
    have hne : (m.without operator).order ≠ [] := fun hnil => hleft ⟨hnil, hstage⟩
    have hcached : m.order ≠ [] := by
      intro hnil
      refine hne ?_
      rw [without, hnil]
      rfl
    refine ⟨?_, fun hmixed => absurd hmixed hstage,
      fun hdue => .inr ⟨hdue, fun c hc => mem_clips_without hc⟩⟩
    intro hsound
    refine ⟨hsound.waits, ?_⟩
    constructor
    · intro hempty
      exact absurd (hsound.holds.1 hempty) hcached
    · intro hnil
      exact absurd hnil hne

/-! ## Offering a clip -/

/-- The cache is for another slot than the one that begins at `start`. -/
def isElsewhere (m : Mixer) (start : Nat) : Bool :=
  m.slotStart.any (· != start)

/-- The turn to a slot says whether it has dropped a cache for another one. -/
theorem turnTo_snd (m : Mixer) (start : Nat) : (m.turnTo start).2 = m.isElsewhere start := by
  unfold turnTo isElsewhere
  split
  · next h => exact h.symm
  · next h => exact (Bool.not_eq_true _ ▸ h).symm

/-- The turn to the slot that the cache is for does not move the offset on. -/
theorem moved_turnTo {start : Nat} (h : m.isElsewhere start = false) :
    m.Moved 0 (m.turnTo start).1 := by
  unfold turnTo
  unfold isElsewhere at h
  rw [h]
  exact ⟨rfl, rfl⟩

/-- **What becomes of a clip that is offered**: it has no rate, it is not
wanted, or it is cached. -/
theorem add_outcome (m : Mixer) (clip : Clip) :
    (clip.rate = 0 ∧ m.add clip = (m, .error (.zeroRate clip.operator))) ∨
      (clip.rate ≠ 0 ∧ (m.add clip).1 = (m.turnTo clip.slotStartMs).1 ∧
        ((m.add clip).2 = .ok .duplicate ∨ ∃ fault, (m.add clip).2 = .error fault)) ∨
      ∃ accepted, clip.rate ≠ 0 ∧
        (accepted = .purgedStale ∧ m.isElsewhere clip.slotStartMs = true ∨
          (accepted = .inserted ∨ accepted = .replaced) ∧
            m.isElsewhere clip.slotStartMs = false) ∧
        m.add clip = ((m.turnTo clip.slotStartMs).1.store clip, .ok accepted) := by
  have hturned := turnTo_snd m clip.slotStartMs
  unfold add
  split
  · next h => exact .inl ⟨h, rfl⟩
  · next h =>
    right
    dsimp only
    split
    · split
      · exact .inl ⟨h, rfl, .inl rfl⟩
      · refine .inr ⟨_, h, ?_, rfl⟩
        rw [hturned]
        cases m.isElsewhere clip.slotStartMs <;> simp
    · split
      · exact .inl ⟨h, rfl, .inr ⟨_, rfl⟩⟩
      · refine .inr ⟨_, h, ?_, rfl⟩
        rw [hturned]
        cases m.isElsewhere clip.slotStartMs <;> simp

/-- A clip that is stored does not move the offset on, and the playback goes
on. -/
theorem moved_store (m : Mixer) (clip : Clip) : m.Moved 0 (m.store clip) := ⟨rfl, rfl⟩

/-! ## Mixing on -/

/-- A plan to mix again is made when the mix that was due has been called off
and the offset moved on by the time that was played. -/
theorem planAgain_eq (m : Mixer) (playedMs : Nat) (quality : Quality) :
    m.planAgain playedMs quality =
      ({ m.cancel.1 with elapsedMs := m.cancel.1.elapsedMs + playedMs },
        { m.cancel.1 with elapsedMs := m.cancel.1.elapsedMs + playedMs }.currentPlan quality) :=
  rfl

/-- A plan to mix again moves the offset on by the time that was played. -/
theorem moved_planAgain (m : Mixer) (playedMs : Nat) (quality : Quality) :
    m.Moved playedMs (m.planAgain playedMs quality).1 := by
  have hcancel := moved_cancel m
  refine ⟨?_, hcancel.playback⟩
  rw [planAgain_eq]
  show m.cancel.1.elapsedMs + playedMs = _
  rw [hcancel.elapsed, Nat.add_zero]

end SlotRadio.Mixer
