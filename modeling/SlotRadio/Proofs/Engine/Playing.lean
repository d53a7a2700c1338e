import SlotRadio.Proofs.Audio.Cache
import SlotRadio.Proofs.Engine.Course
/-!
# What is played

A composite is mixed from everything that is cached, and reported for the
slot that the cached clips are for (`Plays`).

* `fromCache_mix` — a mix plays what is cached;
* `announce_cases` — no look at the clock mixes twice, because a deadline
  that has made a waiting mix leaves none that is due;
* `fromCache_meet` — every request plays from the cache that it leaves,
  and only audio offered for a slot that is not over comes into it.
-/

namespace SlotRadio.Engine

/-- `audio` is the mix of all clips that are cached, which are for the
slot that starts at `start`. -/
structure Plays (e : Engine) (start : Nat) (audio : Composite) : Prop where
  mixed : ∃ quality report, (e.mixer.currentPlan quality).run = .ok report ∧
    report.outcome = .composite audio
  forOne : ∀ c ∈ e.mixer.clips, c.slotStartMs = start

/-- Something is cached when something is played. -/
theorem Plays.ne_nil {e : Engine} {start : Nat} {audio : Composite} (h : e.Plays start audio) :
    e.mixer.clips ≠ [] := by
  intro hnil
  obtain ⟨quality, report, hrun, houtcome⟩ := h.mixed
  have hsilence := Mixer.run_currentPlan_of_nil hnil quality
  obtain rfl := Except.ok.inj (hsilence.symm.trans hrun)
  cases houtcome

/-- A step that brings no clip and plays from its cache. -/
structure FromCache (e : Engine) (after : Emits) : Prop where
  sheds : e.mixer.Sheds after.1.mixer
  plays : e.mixer.Tagged → ∀ {start audio}, (start, audio) ∈ played after.2 →
    after.1.Plays start audio

/-- A step that brings no clip and plays nothing plays from its cache. -/
theorem fromCache_of_silent {e : Engine} {after : Emits} (hsheds : e.mixer.Sheds after.1.mixer)
    (hsilent : played after.2 = []) : FromCache e after where
  sheds := hsheds
  plays := by
    intro _ start audio h
    rw [hsilent] at h
    exact absurd h List.not_mem_nil

/-- Dropping clips before the step makes no difference. -/
theorem FromCache.of_sheds {e f : Engine} {after : Emits} (h : FromCache f after)
    (hsheds : e.mixer.Sheds f.mixer) : FromCache e after where
  sheds := hsheds.trans h.sheds
  plays := fun htagged => h.plays (hsheds.tagged htagged)

/-- **What a mix of the cache comes to.**  It is run with one conversion or
the other, or it is not done in time. -/
theorem carryOut_currentPlan (e : Engine) (m : Mixer) (quality : Quality) (t : Moment) :
    (∃ q, e.carryOut (m.currentPlan quality) t = (m.currentPlan q).run) ∨
      e.carryOut (m.currentPlan quality) t = .error (.expired (m.slotStart.getD 0)) := by
  unfold carryOut
  split
  · split
    · exact .inl ⟨quality, rfl⟩
    · exact .inl ⟨.linear, rfl⟩
  · split
    · exact .inl ⟨.linear, rfl⟩
    · exact .inr rfl

/-- **A mix plays what is cached.** Its plan is the snapshot of the cache, and recording a composite
neither adds a clip nor moves the offset that the plan was made with. -/
theorem fromCache_mix (e : Engine) (quality : Quality) (t : Moment) :
    FromCache e (e.mix (e.mixer.currentPlan quality) t).1 := by
  have hrecord := Mixer.sheds_record e.mixer (e.carryOut (e.mixer.currentPlan quality) t)
  have hmix : (e.mix (e.mixer.currentPlan quality) t).1 =
      reportMix { e with mixer := (e.mixer.record (e.carryOut (e.mixer.currentPlan quality) t)).1 }
        (e.mixer.record (e.carryOut (e.mixer.currentPlan quality) t)).2 t.now := rfl
  rw [hmix]
  unfold reportMix
  split
  · next audio houtcome =>
    obtain ⟨⟨report, hrun, hreport⟩, hplan⟩ := Mixer.record_composite houtcome
    refine ⟨hrecord.trans (Mixer.sheds_of_eq rfl rfl rfl), ?_⟩
    intro htagged start audio' hplayed
    obtain ⟨rfl, rfl⟩ := Prod.mk.inj (List.mem_singleton.1 hplayed)
    constructor
    · rcases carryOut_currentPlan e e.mixer quality t with ⟨q, hq⟩ | hexpired
      · refine ⟨q, report, ?_, hreport⟩
        exact (congrArg MixPlan.run (hplan q)).trans (hq.symm.trans hrun)
      · cases hexpired.symm.trans hrun
    · intro c hc
      have hslot := hrecord.tagged htagged c hc
      unfold reportedSlot
      rw [hslot]
      rfl
  · exact fromCache_of_silent hrecord rfl
  · exact fromCache_of_silent hrecord rfl

/-- So does a mix of what is played on. -/
theorem fromCache_mixAgain (e : Engine) (t : Moment) : FromCache e (e.mixAgain t) := by
  unfold mixAgain
  dsimp only
  exact (fromCache_mix { e with mixer := (e.mixer.planAgain _ .spectral).1 } .spectral t).of_sheds
    (Mixer.sheds_planAgain e.mixer _ .spectral)

/-- What is played when a mix is armed late comes from the cache. -/
theorem fromCache_scheduleMix (e : Engine) (t : Moment) (target : Option Nat) :
    FromCache e (e.scheduleMix t target).1 := by
  have hsheds := Mixer.sheds_schedule e.mixer t.now target
  unfold scheduleMix
  split
  · next mixer late h =>
    rw [h] at hsheds
    have hmix := (fromCache_mix { e with mixer } .spectral t).of_sheds hsheds
    exact ⟨hmix.sheds, hmix.plays⟩
  · next mixer _ _ h =>
    rw [h] at hsheds
    exact fromCache_of_silent hsheds rfl

/-- What is played at the deadline comes from the cache. -/
theorem fromCache_forceMix (e : Engine) (t : Moment) : FromCache e (e.forceMix t) := by
  unfold forceMix Mixer.takeWaiting
  split
  · next mixer plan h =>
    split at h
    · simp at h
    · obtain ⟨rfl, hplan⟩ := Prod.mk.inj h
      obtain rfl := Option.some.inj hplan
      exact (fromCache_mix { e with mixer := { e.mixer with dueAt := none } } .linear t).of_sheds
        (Mixer.sheds_of_eq rfl rfl rfl)
  · exact fromCache_of_silent (.refl _) rfl

/-- What is played when an armed mix is due comes from the cache. -/
theorem fromCache_mixDue (e : Engine) (t : Moment) : FromCache e (e.mixDue t) := by
  have hsheds := Mixer.sheds_takeIfDue e.mixer t.now
  unfold mixDue
  split
  · next mixer h =>
    rw [h] at hsheds
    exact (fromCache_mix { e with mixer } .spectral t).of_sheds hsheds
  · exact fromCache_of_silent (.refl _) rfl

/-! ## One mix at a time -/

/-- Where no mix is armed the deadline forces none. -/
theorem forceMix_of_none {e : Engine} (h : e.mixer.dueAt = none) (t : Moment) :
    e.forceMix t = (e, []) := by
  simp only [forceMix, Mixer.takeWaiting, h]

/-- Where no mix is armed none is due. -/
theorem mixDue_of_none {e : Engine} (h : e.mixer.dueAt = none) (t : Moment) :
    e.mixDue t = (e, []) := by
  simp [mixDue, Mixer.takeIfDue, h]

/-- A mix leaves none that is due. -/
theorem dueAt_mix {e : Engine} (h : e.mixer.dueAt = none) (plan : MixPlan) (t : Moment) :
    (e.mix plan t).1.1.mixer.dueAt = none := by
  have hrecord := Mixer.dueAt_record h (e.carryOut plan t)
  show (reportMix { e with mixer := (e.mixer.record (e.carryOut plan t)).1 } _ t.now).1.mixer.dueAt
    = none
  unfold reportMix
  split <;> exact hrecord

/-- After the deadline no mix is armed. -/
theorem dueAt_forceMix (e : Engine) (t : Moment) : (e.forceMix t).1.mixer.dueAt = none := by
  cases hdue : e.mixer.dueAt with
  | none =>
    rw [forceMix_of_none hdue]
    exact hdue
  | some due =>
    simp only [forceMix, Mixer.takeWaiting, hdue]
    exact dueAt_mix rfl _ t

/-- **What is announced** is the routine, and at most one forced mix in its midst. By induction on
what has been released: once a deadline has forced the mix, none is due for the next. -/
theorem announce_cases (t : Moment) (e : Engine) (rs : List Release) :
    announce t e rs = (e, rs.map reportOf) ∨
      ∃ before after : List Release, announce t e rs = ((e.forceMix t).1,
        before.map reportOf ++ (e.forceMix t).2 ++ after.map reportOf) := by
  induction rs generalizing e with
  | nil => exact .inl rfl
  | cons r rs ih =>
    by_cases hr : isDeadline r = true
    · have hnone := dueAt_forceMix e t
      have hstep : announce t e (r :: rs) =
          ((announce t (e.forceMix t).1 rs).1,
            (e.forceMix t).2 ++ [reportOf r] ++ (announce t (e.forceMix t).1 rs).2) := by
        rw [announce, if_pos hr]
        rfl
      right
      rcases ih (e.forceMix t).1 with h | ⟨before, after, h⟩
      · refine ⟨[], r :: rs, ?_⟩
        rw [hstep, h]
        simp
      · refine ⟨[], r :: (before ++ after), ?_⟩
        rw [hstep, h, forceMix_of_none hnone]
        simp
    · have hstep : announce t e (r :: rs) =
          ((announce t e rs).1, reportOf r :: (announce t e rs).2) := by
        rw [announce, if_neg hr]
        rfl
      rcases ih e with h | ⟨before, after, h⟩
      · left
        rw [hstep, h]
        rfl
      · right
        refine ⟨r :: before, after, ?_⟩
        rw [hstep, h]
        rfl

/-- What the schedule releases is not played. -/
theorem played_reportOf (rs : List Release) : played (rs.map reportOf) = [] := by
  induction rs with
  | nil => rfl
  | cons r rs ih => cases r <;> exact ih

theorem played_contacts (events : List ContactEvent) : played (events.map .contact) = [] := by
  induction events with
  | nil => rfl
  | cons _ events ih => exact ih

theorem played_refusals (refusals : List Refusal) : played (refusals.map .refusal) = [] := by
  induction refusals with
  | nil => rfl
  | cons _ refusals ih => exact ih

/-- A reading plays nothing, whether it begins a slot or not. -/
theorem played_follow (e : Engine) (now : Nat) : played (e.follow now).2 = [] := by
  unfold follow
  split
  · next slot previous _ =>
    show played (_ ++ (.slotStart slot previous _ _ :: (_ ++ _))) = []
    rw [played_append, played_reportOf]
    show played (_ ++ _) = []
    rw [played_append, played_refusals, played_contacts]
    rfl
  · rfl
  · rfl

/-- **A look at the clock plays from the cache that it leaves.** Its one mix is forced by a deadline
or has fallen due, and when the first has been made the second finds nothing waiting. -/
theorem fromCache_tick (e : Engine) (t : Moment) :
    FromCache (e.follow t.look).1 (e.tick t) := by
  have htick : e.tick t =
      ((((e.follow t.look).1.releaseDue t).1.mixDue t).1,
        (e.follow t.look).2 ++ ((e.follow t.look).1.releaseDue t).2 ++
          (((e.follow t.look).1.releaseDue t).1.mixDue t).2) := rfl
  have hfollow := played_follow e t.look
  rw [htick]
  generalize (e.follow t.look).1 = f at *
  generalize (e.follow t.look).2 = events at *
  have hrelease : f.releaseDue t = announce t { f with schedule := (f.schedule.release t.now).1 }
      (f.schedule.release t.now).2 := rfl
  rw [hrelease]
  rcases announce_cases t { f with schedule := (f.schedule.release t.now).1 }
    (f.schedule.release t.now).2 with h | ⟨before, after, h⟩
  · have hdue := fromCache_mixDue { f with schedule := (f.schedule.release t.now).1 } t
    rw [h]
    refine ⟨hdue.sheds, ?_⟩
    intro htagged start audio hplayed
    rw [played_append, played_append, hfollow, played_reportOf] at hplayed
    exact hdue.plays htagged hplayed
  · have hforced := fromCache_forceMix { f with schedule := (f.schedule.release t.now).1 } t
    have hnone := dueAt_forceMix { f with schedule := (f.schedule.release t.now).1 } t
    rw [h, mixDue_of_none hnone]
    refine ⟨hforced.sheds, ?_⟩
    intro htagged start audio hplayed
    simp only [played_append, hfollow, played_reportOf, List.append_nil, List.nil_append]
      at hplayed
    exact hforced.plays htagged hplayed

/-! ## What a request leaves in the cache -/

/-- A reading brings no clip, and one that begins a slot drops all. -/
theorem sheds_follow (e : Engine) (now : Nat) : e.mixer.Sheds (e.follow now).1.mixer := by
  unfold follow
  split
  · exact .inl rfl
  · exact .refl _
  · exact .refl _

/-- The audio of an operator is played from a cache that it may have come
into, if its slot is not over. -/
theorem fromCache_addClip (e : Engine) (clip : Clip) (target : Option Nat) (t : Moment) :
    FromCache e (e.addClip clip target t).1 ∨
      ∃ slot, e.tracker.current = some slot ∧ slot.startMs ≤ clip.slotStartMs ∧
        FromCache { e with mixer := (e.mixer.add clip).1 } (e.addClip clip target t).1 := by
  have hoffered := offered_addClip e clip target t
  generalize e.addClip clip target t = result at hoffered
  cases hoffered with
  | late => exact .inl (fromCache_of_silent (.refl _) rfl)
  | unwanted hslot hle => exact .inr ⟨_, hslot, hle, fromCache_of_silent (.refl _) rfl⟩
  | mixed hslot hle => exact .inr ⟨_, hslot, hle, fromCache_mixAgain (e.caching clip) t⟩
  | asked hslot hle =>
    exact .inr ⟨_, hslot, hle, fromCache_scheduleMix (e.caching clip) t target⟩

/-- What is played after a removal comes from the cache, without the removed
operator. -/
theorem fromCache_strikeOff {e : Engine} {n : Nat} {t : Moment} {after : Emits}
    (h : e.strikeOff n t = .ok after) : FromCache e after := by
  have hremove := Mixer.sheds_remove e.mixer n
  obtain ⟨-, ⟨-, -, rfl⟩ | ⟨-, rfl⟩⟩ := strikeOff_cases h
  · exact (fromCache_mixAgain (e.without n) t).of_sheds hremove
  · exact fromCache_of_silent hremove rfl

/-- A request that may be refused plays from the cache if it does when
met. -/
theorem fromCache_respond {e : Engine} {outcome : Except EngineFault Emits}
    (h : ∀ after, outcome = .ok after → FromCache e after) :
    FromCache e ((e.respond outcome).engine, (e.respond outcome).events) := by
  cases outcome with
  | ok after => exact h after rfl
  | error fault => exact fromCache_of_silent (.refl _) rfl

/-- **Only audio that is offered for a slot that is not over comes into
the cache**, and everything is played from the cache. -/
theorem fromCache_meet (e : Engine) (t : Moment) (r : Request) :
    FromCache e ((e.meet t r).engine, (e.meet t r).events) ∨
      ∃ clip target slot, r = .addClip clip target ∧ e.tracker.current = some slot ∧
        slot.startMs ≤ clip.slotStartMs ∧
        FromCache { e with mixer := (e.mixer.add clip).1 }
          ((e.meet t r).engine, (e.meet t r).events) := by
  by_cases haside : r.isAside = true
  · obtain ⟨roster, said, hengine, hevents⟩ := meet_of_isAside haside e t
    rw [hengine, hevents]
    exact .inl (fromCache_of_silent (.refl _) (played_contacts said))
  cases r with
  | addClip clip target =>
    rcases fromCache_addClip e clip target t with h | ⟨slot, hslot, hle, h⟩
    · exact .inl h
    · exact .inr ⟨clip, target, slot, rfl, hslot, hle, h⟩
  | strikeOff n => exact .inl (fromCache_respond fun after h => fromCache_strikeOff h)
  | scheduleMix target =>
    obtain ⟨hengine, hevents⟩ := meet_scheduleMix e t target
    rw [hengine, hevents]
    exact .inl (fromCache_scheduleMix e t target)
  | dropAudio => exact .inl (fromCache_of_silent (Mixer.sheds_clear _) rfl)
  | look => exact .inl ((fromCache_tick e t).of_sheds (sheds_follow e t.look))
  | shutdown => exact .inl (fromCache_of_silent (Mixer.sheds_clear _) rfl)
  | register | updateStation | command | heard | contact | slot | mixerStatus =>
    exact absurd rfl haside

/-- **Every request keeps the cache to one slot**: all clips are for the slot
that the mixer is turned to. -/
theorem tagged_meet {e : Engine} (htagged : e.mixer.Tagged) (t : Moment) (r : Request) :
    (e.meet t r).engine.mixer.Tagged := by
  rcases fromCache_meet e t r with h | ⟨clip, _, _, -, -, -, h⟩
  · exact h.sheds.tagged htagged
  · have hadded : (e.mixer.add clip).1.Tagged := (Mixer.add_cases htagged clip).1
    exact h.sheds.tagged hadded

/-- **What a request plays** is the mix of everything cached after it. -/
theorem plays_meet {e : Engine} (htagged : e.mixer.Tagged) {t : Moment} {r : Request} {start : Nat}
    {audio : Composite} (h : (start, audio) ∈ played (e.meet t r).events) :
    (e.meet t r).engine.Plays start audio := by
  rcases fromCache_meet e t r with hcache | ⟨clip, _, _, -, -, -, hcache⟩
  · exact hcache.plays htagged h
  · have hadded : (e.mixer.add clip).1.Tagged := (Mixer.add_cases htagged clip).1
    exact hcache.plays hadded h

/-- A clip that is cached was cached before, or has just been offered for
a slot that is not over. -/
theorem mem_clips_meet {e : Engine} (htagged : e.mixer.Tagged) {t : Moment} {r : Request} {c : Clip}
    (hc : c ∈ (e.meet t r).engine.mixer.clips) :
    c ∈ e.mixer.clips ∨ ∃ target slot, r = .addClip c target ∧ e.tracker.current = some slot ∧
      slot.startMs ≤ c.slotStartMs := by
  rcases fromCache_meet e t r with h | ⟨clip, target, slot, hr, hslot, hle, h⟩
  · exact .inl (h.sheds.mem hc)
  · have hadded : c ∈ (e.mixer.add clip).1.clips := h.sheds.mem hc
    rcases (Mixer.add_cases htagged clip).2 c hadded with rfl | hold
    · exact .inr ⟨target, slot, hr, hslot, hle⟩
    · exact .inl hold

end SlotRadio.Engine
