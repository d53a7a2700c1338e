import SlotRadio.Proofs.Audio.Staging
import SlotRadio.Proofs.Engine.Playing
/-!
# One mix at a time

No step of the engine makes more than one mix, and a mix is always one of
everything that is cached.  Here it is said once what a step does to the
mixer:

* `Ends` — the three ways in which a mix ends, and how each is reported;
* `Mixes` — what a step does that makes one mix at most;
* `addClip_cases` — what becomes of a clip that is offered;
* `tick_cases` — of what a look at the clock reports, the outcome of a
  mix comes before every deadline of the slot.
-/

namespace SlotRadio

namespace Event

/-- True for the report of how a mix ended. -/
def isOutcome : Event → Bool
  | mixReady .. | mixUnderrun _ | mixFailed .. => true
  | slotStart .. | checkpoint _ | deadline _ | clockAnomaly .. | scheduleOverrun .. | contact _
  | refusal _ | mixOverrun _ => false

/-- True for the report of a mix that failed. -/
def isFailure : Event → Bool
  | mixFailed .. => true
  | slotStart .. | checkpoint _ | deadline _ | clockAnomaly .. | scheduleOverrun .. | contact _
  | refusal _ | mixOverrun _ | mixReady .. | mixUnderrun _ => false

/-- True for a report about mixing. -/
def isMixing (x : Event) : Bool :=
  x.isOutcome || match x with
    | mixOverrun _ => true
    | _ => false

end Event

/-- The reports of how mixes ended, in order. -/
def outcomes (events : List Event) : List Event :=
  events.filter Event.isOutcome

@[simp] theorem outcomes_append (xs ys : List Event) :
    outcomes (xs ++ ys) = outcomes xs ++ outcomes ys :=
  List.filter_append ..

/-- Reports that are no outcomes have none. -/
theorem outcomes_eq_nil {events : List Event} (h : ∀ x ∈ events, x.isOutcome = false) :
    outcomes events = [] :=
  List.filter_eq_nil_iff.2 fun x hx => by simp [h x hx]

/-! ## Cutting a list of reports -/

/-- Where two lists together are cut, one of them is. -/
theorem append_cut {first rest xs ys : List Event} {y : Event}
    (h : first ++ rest = xs ++ y :: ys) :
    (∃ zs, xs = first ++ zs ∧ rest = zs ++ y :: ys) ∨
      ∃ zs, first = xs ++ y :: zs ∧ ys = zs ++ rest := by
  rcases List.append_eq_append_iff.1 h with ⟨zs, hxs, hrest⟩ | ⟨zs, hfirst, hrest⟩
  · exact .inl ⟨zs, hxs, hrest⟩
  · cases zs with
    | nil => exact .inl ⟨[], by simpa using hfirst.symm, by simpa using hrest.symm⟩
    | cons z zs =>
      obtain ⟨rfl, hys⟩ := List.cons.inj hrest
      exact .inr ⟨zs, hfirst, hys⟩

/-- The cut lies behind a list without the element. -/
theorem append_cut_right {first rest xs ys : List Event} {y : Event}
    (h : first ++ rest = xs ++ y :: ys) (hy : y ∉ first) :
    ∃ zs, xs = first ++ zs ∧ rest = zs ++ y :: ys := by
  rcases append_cut h with hright | ⟨zs, hfirst, -⟩
  · exact hright
  · exact absurd (by simp [hfirst]) hy

/-- The cut lies before a list without the element. -/
theorem append_cut_left {first rest xs ys : List Event} {y : Event}
    (h : first ++ rest = xs ++ y :: ys) (hy : y ∉ rest) :
    ∃ zs, first = xs ++ y :: zs ∧ ys = zs ++ rest := by
  rcases append_cut h with ⟨zs, -, hrest⟩ | hleft
  · exact absurd (by simp [hrest]) hy
  · exact hleft

/-- The cut lies at the element in the middle, or before it, as the element that is looked for does
not come after it. -/
theorem append_cut_middle {first rest xs ys : List Event} {x y : Event}
    (h : first ++ x :: rest = xs ++ y :: ys) (hy : y ∉ rest) :
    first = xs ∧ x = y ∧ rest = ys ∨ ∃ zs, first = xs ++ y :: zs ∧ ys = zs ++ x :: rest := by
  rcases append_cut h with ⟨zs, hxs, hrest⟩ | hleft
  · cases zs with
    | nil =>
      obtain ⟨rfl, rfl⟩ := List.cons.inj hrest
      exact .inl ⟨by simpa using hxs.symm, rfl, rfl⟩
    | cons z zs =>
      obtain ⟨-, hrest⟩ := List.cons.inj hrest
      exact absurd (by simp [hrest]) hy
  · exact .inr hleft

/-! ## How a mix ends -/

namespace Engine

/-- **How a mix of everything that is cached ends.**  A composite is
played from now on; silence leaves the clips where they are; a failure
empties the mixer. -/
inductive Ends (f : Engine) (now : Nat) : Emits → Prop
  | composite {counts quality report audio} (hrun : (f.mixer.currentPlan quality).run = .ok report)
      (houtcome : report.outcome = .composite audio) :
      Ends f now
        ({ f with
            mixer := { f.mixer with counts, stage := .mixed, playbackStart := some now }
            lastMix := some audio },
          [.mixReady f.reportedSlot audio])
  | silence {counts quality report} (hrun : (f.mixer.currentPlan quality).run = .ok report)
      (houtcome : report.outcome = .silence) :
      Ends f now
        ({ f with
            mixer := { f.mixer with counts, stage := f.mixer.restingStage }
            lastMix := none },
          [.mixUnderrun f.reportedSlot])
  | failure {start fault} :
      Ends f now ({ f with mixer := f.mixer.clear, lastMix := none }, [.mixFailed start fault])

/-- **A mix ends in one of these ways**, whether or not its worker is done in time: an overrun mixes
the same clips at a lower quality, and past its deadline a mix fails. -/
theorem ends_mix (f : Engine) (quality : Quality) (t : Moment) :
    Ends f t.now (f.mix (f.mixer.currentPlan quality) t).1 := by
  have hmix : (f.mix (f.mixer.currentPlan quality) t).1 =
      reportMix { f with mixer :=
          (f.mixer.record (f.carryOut (f.mixer.currentPlan quality) t)).1 }
        (f.mixer.record (f.carryOut (f.mixer.currentPlan quality) t)).2 t.now := rfl
  rw [hmix]
  rcases carryOut_currentPlan f f.mixer quality t with ⟨q, hq⟩ | hexpired
  · rw [hq]
    cases hrun : (f.mixer.currentPlan q).run with
    | error fault => exact .failure
    | ok report =>
      cases houtcome : report.outcome with
      | composite audio =>
        simp only [Mixer.record, houtcome]
        exact .composite hrun houtcome
      | silence =>
        simp only [Mixer.record, houtcome]
        exact .silence hrun houtcome
  · rw [hexpired]
    exact .failure

section Ends

variable {f : Engine} {now : Nat} {done : Emits}

/-- How a mix ended is all that it reports. -/
theorem Ends.outcomes_eq (h : Ends f now done) : outcomes done.2 = done.2 := by
  cases h <;> rfl

/-- No mix ends without a report. -/
theorem Ends.ne_nil (h : Ends f now done) : done.2 ≠ [] := by
  cases h <;> simp

/-- The report with which a mix ends is one of an outcome. -/
theorem Ends.outcomes_ne_nil (h : Ends f now done) : outcomes done.2 ≠ [] := by
  rw [h.outcomes_eq]
  exact h.ne_nil

/-- A mix ends with one report, whichever way it ends. -/
theorem Ends.length (h : Ends f now done) : done.2.length = 1 := by
  cases h <;> rfl

/-- What a mix reports is about mixing. -/
theorem Ends.isMixing (h : Ends f now done) : ∀ x ∈ done.2, x.isMixing = true := by
  cases h <;> simp [Event.isMixing, Event.isOutcome]

/-- However a mix ends, it touches nothing but what is played. -/
theorem Ends.sameRadio (h : Ends f now done) : SameRadio f done.1 := by
  cases h <;> exact ⟨rfl, rfl, rfl, rfl⟩

/-- The end of a mix does not move the schedule on. -/
theorem Ends.schedule (h : Ends f now done) : done.1.schedule = f.schedule := by
  cases h <;> rfl

/-- The end of a mix arms no other one. -/
theorem Ends.dueAt (h : Ends f now done) (hdue : f.mixer.dueAt = none) :
    done.1.mixer.dueAt = none := by
  cases h <;> first | exact hdue | rfl

/-- After a mix the stage says again what the mixer is like, as no mix is due and a composite has
been made of something. -/
theorem Ends.sound (h : Ends f now done) (hdue : f.mixer.dueAt = none)
    (hcached : done.1.mixer.stage = .mixed → f.mixer.order ≠ []) : done.1.mixer.Sound := by
  cases h with
  | composite hrun houtcome => constructor <;> simp [hdue, hcached rfl]
  | silence hrun houtcome =>
    by_cases hnil : f.mixer.order = []
    · constructor <;> simp [hdue, Mixer.restingStage, hnil]
    · constructor <;> simp [hdue, Mixer.restingStage, hnil]
  | failure => constructor <;> simp [Mixer.clear]

/-- What has become a composite was not empty. -/
theorem Ends.order_ne_nil (h : Ends f now done) (hstage : done.1.mixer.stage = .mixed) :
    f.mixer.order ≠ [] := by
  intro hnil
  cases h with
  | @composite _ quality report audio hrun houtcome =>
    have hsilence := Mixer.run_currentPlan_of_nil (Mixer.clips_of_order_nil hnil) quality
    obtain rfl := Except.ok.inj (hsilence.symm.trans hrun)
    cases houtcome
  | silence hrun houtcome => simp [Mixer.restingStage, hnil] at hstage
  | failure => simp [Mixer.clear] at hstage

/-- After a mix something is playing only if this mix was a composite, and
then it began when its request was read. -/
theorem Ends.playing (h : Ends f now done) (hstage : done.1.mixer.stage = .mixed) :
    done.1.lastMix.isSome = true ∧ done.1.mixer.playbackStart = some now := by
  cases h with
  | composite hrun houtcome => exact ⟨rfl, rfl⟩
  | silence hrun houtcome =>
    dsimp only [Mixer.restingStage] at hstage
    split at hstage <;> cases hstage
  | failure => simp [Mixer.clear] at hstage

end Ends

/-- A mix is made of everything that is cached in `f`, and comes to
`done`. -/
def Made (f : Engine) (t : Moment) (done : Emits) : Prop :=
  ∃ quality, done = (f.mix (f.mixer.currentPlan quality) t).1

/-- A mix that is made ends in one of the three ways. -/
theorem Made.ends {f : Engine} {t : Moment} {done : Emits} (h : Made f t done) :
    Ends f t.now done := by
  obtain ⟨quality, rfl⟩ := h
  exact ends_mix f quality t

/-- **What a step does that makes one mix at most**, and makes one if
`must` is true.  Without a mix it is said how the mixer has come from
`m₀`; a mix is made of a mixer in which none is due.  Of this mixer, or
of the one that is left, `P` holds. -/
inductive Mixes (m₀ : Mixer) (must : Bool) (P : Mixer → Prop) (e : Engine) (t : Moment) :
    Emits → Prop
  | none {m : Mixer} (hmust : must = false) (hm : m₀.Unmixed m) (hP : P m) :
      Mixes m₀ must P e t ({ e with mixer := m }, [])
  | one {m : Mixer} {done : Emits} (hdue : m.dueAt = .none) (hP : P m)
      (hmade : Made { e with mixer := m } t done) : Mixes m₀ must P e t done
  | late {m : Mixer} {done : Emits} {start : Nat} (hdue : m.dueAt = .none) (hP : P m)
      (hmade : Made { e with mixer := m } t done) :
      Mixes m₀ must P e t (done.1, .mixOverrun start :: done.2)

section Mixes

variable {m₀ : Mixer} {must : Bool} {P Q : Mixer → Prop} {e : Engine} {t : Moment} {after : Emits}

/-- What is known of the mixer before the mix may be weakened. -/
theorem Mixes.imp (h : Mixes m₀ must P e t after) (himp : ∀ m, P m → Q m) :
    Mixes m₀ must Q e t after := by
  cases h with
  | none hmust hm hP => exact .none hmust hm (himp _ hP)
  | one hdue hP hmade => exact .one hdue (himp _ hP) hmade
  | late hdue hP hmade => exact .late hdue (himp _ hP) hmade

/-- The mixer at the start of the step does not matter. -/
theorem Mixes.of_mixer {mixer : Mixer} (h : Mixes m₀ must P { e with mixer } t after) :
    Mixes m₀ must P e t after := by
  cases h with
  | none hmust hm hP => exact .none hmust hm hP
  | one hdue hP hmade => exact .one hdue hP hmade
  | late hdue hP hmade => exact .late hdue hP hmade

/-- A step that mixes once at most reports nothing but its mix, or that it was
late. -/
theorem Mixes.isMixing (h : Mixes m₀ must P e t after) : ∀ x ∈ after.2, x.isMixing = true := by
  cases h with
  | none hmust hm hP => exact fun _ hx => absurd hx List.not_mem_nil
  | one hdue hP hmade => exact hmade.ends.isMixing
  | late hdue hP hmade => exact List.forall_mem_cons.2 ⟨rfl, hmade.ends.isMixing⟩

/-- A step that reports something reports how a mix ended. -/
theorem Mixes.outcomes_ne_nil (h : Mixes m₀ must P e t after) (hne : after.2 ≠ []) :
    outcomes after.2 ≠ [] := by
  cases h with
  | none hmust hm hP => exact absurd rfl hne
  | one hdue hP hmade => exact hmade.ends.outcomes_ne_nil
  | late hdue hP hmade => exact hmade.ends.outcomes_ne_nil

/-- A step that mixes once at most touches nothing but what is played. -/
theorem Mixes.sameRadio (h : Mixes m₀ must P e t after) : SameRadio e after.1 := by
  cases h with
  | none hmust hm hP => exact ⟨rfl, rfl, rfl, rfl⟩
  | one hdue hP hmade =>
    have hsame := hmade.ends.sameRadio
    exact ⟨hsame.config, hsame.mode, hsame.tracker, hsame.roster⟩
  | late hdue hP hmade =>
    have hsame := hmade.ends.sameRadio
    exact ⟨hsame.config, hsame.mode, hsame.tracker, hsame.roster⟩

/-- A step that mixes once at most does not move the schedule on. -/
theorem Mixes.schedule (h : Mixes m₀ must P e t after) : after.1.schedule = e.schedule := by
  cases h with
  | none hmust hm hP => rfl
  | one hdue hP hmade => exact hmade.ends.schedule
  | late hdue hP hmade => exact hmade.ends.schedule

end Mixes

/-! ## The steps that mix -/

/-- A mix of everything that is cached, where no other one is armed, is one
mix. -/
theorem mixes_mix (e : Engine) {m₀ m : Mixer} {must : Bool} {P : Mixer → Prop}
    (hdue : m.dueAt = none) (hP : P m) (quality : Quality) (t : Moment) :
    Mixes m₀ must P e t (({ e with mixer := m } : Engine).mix (m.currentPlan quality) t).1 :=
  .one hdue hP ⟨quality, rfl⟩

/-- How long the playback has gone on depends on when it began alone. -/
theorem playedMs_of_playback {e f : Engine}
    (h : f.mixer.playbackStart = e.mixer.playbackStart) (now : Nat) :
    f.playedMs now = e.playedMs now := by
  unfold playedMs
  rw [h]

/-- Mixing again makes a mix in any case, from as far as the playing has
got. -/
theorem mixes_mixAgain (e : Engine) (m₀ : Mixer) (t : Moment) :
    Mixes m₀ true (e.mixer.Moved (e.playedMs t.now)) e t (e.mixAgain t) := by
  have hmoved := Mixer.moved_planAgain e.mixer (e.playedMs t.now) .spectral
  have hdue : (e.mixer.planAgain (e.playedMs t.now) .spectral).1.dueAt = none :=
    Mixer.dueAt_cancel e.mixer
  exact mixes_mix e hdue hmoved .spectral t

/-- Arming a mix makes one at most, at once and only where its time is over;
an armed mix leaves the trim alone. -/
theorem mixes_scheduleMix (e : Engine) {m₀ : Mixer} (h : m₀ = e.mixer ∨ e.mixer.order ≠ [])
    (t : Moment) (target : Option Nat) :
    Mixes m₀ false (e.mixer.Moved 0) e t (e.scheduleMix t target).1 := by
  have hcancel := Mixer.moved_cancel e.mixer
  rcases Mixer.schedule_cases e.mixer t.now target with ⟨hnil, heq⟩ | ⟨counts, late, hne, -, heq⟩ |
    ⟨at_, hne, -, heq⟩
  · obtain rfl : m₀ = e.mixer := h.resolve_right fun hne => hne hnil
    simp only [scheduleMix, heq]
    exact .none rfl (Mixer.unmixed_cancel_of_nil hnil) hcancel
  · simp only [scheduleMix, heq]
    exact .late (m := { e.mixer.cancel.1 with counts }) (Mixer.dueAt_cancel e.mixer)
      ⟨hcancel.elapsed, hcancel.playback⟩ ⟨.spectral, rfl⟩
  · simp only [scheduleMix, heq]
    refine .none rfl (Mixer.unmixed_of_waiting m₀ rfl rfl ?_) ⟨hcancel.elapsed, hcancel.playback⟩
    show e.mixer.cancel.1.order ≠ []
    rw [Mixer.order_cancel]
    exact hne

/-! ### Offering a clip -/

section AddClip

variable {e : Engine} {clip : Clip} {target : Option Nat} {t : Moment}

/-- The clip is for a slot that is not over. -/
def admits (e : Engine) (clip : Clip) : Bool :=
  e.tracker.current.any (·.startMs ≤ clip.slotStartMs)

/-- The clip is for a slot that is not over, has a rate, and comes to a
cache for another slot. -/
def purges (e : Engine) (clip : Clip) : Bool :=
  e.admits clip && clip.rate != 0 && e.mixer.isElsewhere clip.slotStartMs

/-- The clip comes into the cache while its operators' composite is
played. -/
def replays (e : Engine) (clip : Clip) (target : Option Nat) (t : Moment) : Bool :=
  decide (e.mixer.stage = .mixed) &&
    match (e.addClip clip target t).2 with
    | .ok .inserted | .ok .replaced => true
    | _ => false

/-- The clip repeats the cached one, or something is wrong with it. -/
def Unwanted {α : Type} (reply : Except α Acceptance) : Prop :=
  reply = .ok .duplicate ∨ ∃ fault, reply = .error fault

/-- A clip that is refused, or that is there already, does not lead to a
mix. -/
theorem replays_of_unwanted (h : Unwanted (e.addClip clip target t).2) :
    e.replays clip target t = false := by
  unfold replays
  rcases h with h | ⟨fault, h⟩ <;> simp [h]

/-- A clip is admitted only while there is a slot, and not for one that is
over. -/
theorem exists_of_admits (h : e.admits clip = true) :
    ∃ slot, e.tracker.current = some slot ∧ ¬ clip.slotStartMs < slot.startMs := by
  unfold admits at h
  cases hslot : e.tracker.current with
  | none => simp [hslot] at h
  | some slot => exact ⟨slot, rfl, by simpa [hslot] using h⟩

/-- A clip that is not admitted changes nothing. -/
theorem addClip_of_not_admits (h : e.admits clip = false) (target : Option Nat) (t : Moment) :
    ∃ fault, e.addClip clip target t = ((e, []), .error fault) := by
  unfold admits at h
  unfold addClip
  cases hslot : e.tracker.current with
  | none => exact ⟨_, rfl⟩
  | some slot =>
    have hlate : clip.slotStartMs < slot.startMs := by simpa [hslot] using h
    exact ⟨.staleSlot clip.slotStartMs, by simp only [if_pos hlate]⟩

/-- A clip that the mixer does not want leads no further than to the mixer,
and the answer is the mixer's. -/
theorem addClip_of_unwanted (h : e.admits clip = true) (hadd : Unwanted (e.mixer.add clip).2)
    (target : Option Nat) (t : Moment) :
    ∃ reply, e.addClip clip target t = (({ e with mixer := (e.mixer.add clip).1 }, []), reply) ∧
      Unwanted reply := by
  obtain ⟨slot, hslot, hlate⟩ := exists_of_admits h
  cases hadded : e.mixer.add clip with
  | mk m reply =>
    rw [hadded] at hadd
    rcases hadd with rfl | ⟨fault, rfl⟩
    · exact ⟨.ok .duplicate, by simp [addClip, hslot, hlate, hadded], .inl rfl⟩
    · exact ⟨.error (.mix fault), by simp [addClip, hslot, hlate, hadded], .inr ⟨_, rfl⟩⟩

/-- A clip of the slot that is played is mixed into it. -/
theorem addClip_of_mixed (h : e.admits clip = true) {m : Mixer} {accepted : Acceptance}
    (hadd : e.mixer.add clip = (m, .ok accepted))
    (haccepted : accepted = .inserted ∨ accepted = .replaced) (hstage : e.mixer.stage = .mixed)
    (target : Option Nat) (t : Moment) :
    e.addClip clip target t = (({ e with mixer := m } : Engine).mixAgain t, .ok accepted) := by
  obtain ⟨slot, hslot, hlate⟩ := exists_of_admits h
  rcases haccepted with rfl | rfl <;> simp [addClip, hslot, hlate, hadd, hstage]

/-- Another clip is left to a mix that is asked for, as nothing is playing that it could join; so
the request does not count as one that mixes anew. -/
theorem addClip_of_asked (h : e.admits clip = true) {m : Mixer} {accepted : Acceptance}
    (hadd : e.mixer.add clip = (m, .ok accepted)) (hdup : accepted ≠ .duplicate)
    (hagain : accepted = .purgedStale ∨ e.mixer.stage ≠ .mixed) (target : Option Nat) (t : Moment) :
    (e.addClip clip target t).1 = (({ e with mixer := m } : Engine).scheduleMix t target).1 ∧
      e.replays clip target t = false := by
  obtain ⟨slot, hslot, hlate⟩ := exists_of_admits h
  have hasks : ¬ (accepted ≠ .purgedStale ∧ e.mixer.stage = .mixed) := by
    rintro ⟨hkept, hstage⟩
    exact hagain.elim hkept fun hother => hother hstage
  obtain ⟨hfst, hreply⟩ : (e.addClip clip target t).1 =
        (({ e with mixer := m } : Engine).scheduleMix t target).1 ∧
      ((e.addClip clip target t).2 = .ok accepted ∨
        ∃ fault, (e.addClip clip target t).2 = .error fault) := by
    simp only [addClip, hslot, if_neg hlate, hadd, if_neg hdup, if_neg hasks]
    split
    · next hdone => exact ⟨by rw [hdone], .inl rfl⟩
    · next hdone => exact ⟨by rw [hdone], .inr ⟨_, rfl⟩⟩
  refine ⟨hfst, ?_⟩
  unfold replays
  rcases hagain with rfl | hother
  · rcases hreply with hreply | ⟨fault, hreply⟩ <;> simp [hreply]
  · simp [hother]

/-- **What becomes of a clip that is offered to the engine.**  It is not
wanted; or it is cached, and then either mixed into what is played or
left to a mix that is asked for. -/
theorem addClip_cases (e : Engine) (clip : Clip) (target : Option Nat) (t : Moment) :
    (∃ m reply, e.addClip clip target t = (({ e with mixer := m }, []), reply) ∧
        e.replays clip target t = false ∧ e.mixer.Unmixed m ∧
        (e.purges clip = true ∨ e.mixer.Moved 0 m)) ∨
      ∃ m, (e.mixer.Coherent → m.order ≠ []) ∧
        (e.replays clip target t = true ∧ e.mixer.Moved 0 m ∧
            (e.addClip clip target t).1 = ({ e with mixer := m } : Engine).mixAgain t ∨
          e.replays clip target t = false ∧ (e.purges clip = true ∨ e.mixer.Moved 0 m) ∧
            (e.addClip clip target t).1 =
              (({ e with mixer := m } : Engine).scheduleMix t target).1) := by
  cases hadmits : e.admits clip with
  | false =>
    obtain ⟨fault, heq⟩ := addClip_of_not_admits hadmits target t
    refine .inl ⟨e.mixer, .error fault, heq, ?_, .refl _, .inr (Mixer.moved_refl _)⟩
    exact replays_of_unwanted (.inr ⟨fault, by rw [heq]⟩)
  | true =>
    have hrefused : ∀ {m reply}, e.mixer.add clip = (m, reply) → Unwanted reply →
        ∃ answer, e.addClip clip target t = (({ e with mixer := m }, []), answer) ∧
          e.replays clip target t = false := by
      intro m reply hadd hunwanted
      obtain ⟨answer, heq, hanswer⟩ := addClip_of_unwanted hadmits (by rw [hadd]; exact hunwanted)
        target t
      rw [hadd] at heq
      exact ⟨answer, heq, replays_of_unwanted (by rw [heq]; exact hanswer)⟩
    have hturned : clip.rate ≠ 0 → e.purges clip = true ∨
        e.mixer.Moved 0 (e.mixer.turnTo clip.slotStartMs).1 := by
      intro hrate
      cases helse : e.mixer.isElsewhere clip.slotStartMs with
      | true => exact .inl (by simp [purges, hadmits, hrate, helse])
      | false => exact .inr (Mixer.moved_turnTo helse)
    rcases Mixer.add_outcome e.mixer clip with ⟨-, hadd⟩ | ⟨hrate, hfst, hsnd⟩ |
      ⟨accepted, hrate, haccepted, hadd⟩
    · obtain ⟨answer, heq, hreplays⟩ := hrefused hadd (.inr ⟨_, rfl⟩)
      exact .inl ⟨e.mixer, answer, heq, hreplays, .refl _, .inr (Mixer.moved_refl _)⟩
    · obtain ⟨answer, heq, hreplays⟩ := hrefused (Prod.ext hfst rfl) hsnd
      exact .inl ⟨_, answer, heq, hreplays, Mixer.unmixed_turnTo _ _, hturned hrate⟩
    · refine .inr ⟨(e.mixer.turnTo clip.slotStartMs).1.store clip,
        fun h => (h.turnTo _).order_store_ne_nil clip, ?_⟩
      have hstored : e.mixer.Moved 0 (e.mixer.turnTo clip.slotStartMs).1 →
          e.mixer.Moved 0 ((e.mixer.turnTo clip.slotStartMs).1.store clip) := fun h =>
        h.trans (Mixer.moved_store _ clip)
      have hdup : accepted ≠ .duplicate := by
        rcases haccepted with ⟨rfl, -⟩ | ⟨rfl | rfl, -⟩ <;> simp
      by_cases hagain : accepted = .purgedStale ∨ e.mixer.stage ≠ .mixed
      · obtain ⟨heq, hreplays⟩ := addClip_of_asked hadmits hadd hdup hagain target t
        exact .inr ⟨hreplays, (hturned hrate).imp_right hstored, heq⟩
      · obtain ⟨hkept, hstage⟩ := not_or.1 hagain
        obtain ⟨hkind, helse⟩ := haccepted.resolve_left fun h => hkept h.1
        have hmixed : e.mixer.stage = .mixed := not_not.1 hstage
        have heq := addClip_of_mixed hadmits hadd hkind hmixed target t
        have hreplays : e.replays clip target t = true := by
          rcases hkind with rfl | rfl <;> simp [replays, heq, hmixed]
        exact .inl ⟨hreplays, hstored (Mixer.moved_turnTo helse), by rw [heq]⟩

end AddClip

/-- **What a clip that is offered does about mixing.** One that joins a composite is mixed at once
from where the playback has got to, any other waits for its window; unless the clips of another slot
are purged, nothing moves the offset before. -/
theorem mixes_addClip {e : Engine} (hcoherent : e.mixer.Coherent) (clip : Clip)
    (target : Option Nat) (t : Moment) :
    Mixes e.mixer (e.replays clip target t)
      (fun m => e.purges clip = true ∨
        e.mixer.Moved (if e.replays clip target t then e.playedMs t.now else 0) m)
      e t (e.addClip clip target t).1 := by
  rcases addClip_cases e clip target t with ⟨m, reply, heq, hreplays, hunmixed, hmoved⟩ |
    ⟨m, hne, ⟨hreplays, hmoved, heq⟩ | ⟨hreplays, hmoved, heq⟩⟩
  · rw [heq, hreplays]
    exact .none rfl hunmixed hmoved
  · have hplayed : ({ e with mixer := m } : Engine).playedMs t.now = e.playedMs t.now :=
      playedMs_of_playback hmoved.playback t.now
    rw [heq, hreplays]
    refine (mixes_mixAgain _ e.mixer t).of_mixer.imp ?_
    intro k hk
    right
    have := hmoved.trans hk
    rwa [Nat.zero_add, hplayed] at this
  · rw [heq, hreplays]
    refine (mixes_scheduleMix _ (.inr (hne hcoherent)) t target).of_mixer.imp ?_
    intro k hk
    exact hmoved.imp_right fun hmoved => hmoved.trans hk

/-- Whatever the mixer is like, a clip that is offered leads to one mix at
most. -/
theorem exists_mixes_addClip (e : Engine) (clip : Clip) (target : Option Nat) (t : Moment) :
    ∃ m₀ must P, Mixes m₀ must P e t (e.addClip clip target t).1 := by
  rcases addClip_cases e clip target t with ⟨m, reply, heq, -⟩ | ⟨m, -, ⟨-, -, heq⟩ | ⟨-, -, heq⟩⟩
  · rw [heq]
    exact ⟨m, false, fun _ => True, .none rfl (.refl m) trivial⟩
  · rw [heq]
    exact ⟨m, true, _, (mixes_mixAgain { e with mixer := m } m t).of_mixer⟩
  · rw [heq]
    exact ⟨m, false, _, (mixes_scheduleMix { e with mixer := m } (.inl rfl) t target).of_mixer⟩

/-- The operator is registered, and its clip is part of what is played. -/
def strikes (e : Engine) (operator : Nat) : Bool :=
  decide (e.mixer.stage = .mixed) && (e.roster.get? operator).isSome &&
    (e.mixer.entries operator).isSome

/-- **What a removal does about mixing.**  The others are mixed again, from as
far as the playing has got, exactly if the removed operator was part of what
is played. -/
theorem mixes_strikeOff {e : Engine} {n : Nat} {t : Moment} {after : Emits}
    (h : e.strikeOff n t = .ok after) :
    Mixes e.mixer (e.strikes n) (e.mixer.Moved (if e.strikes n then e.playedMs t.now else 0))
      { e with roster := e.roster.erase n } t after := by
  have hmoved := Mixer.moved_remove e.mixer n
  have hsnd := Mixer.snd_remove e.mixer n
  obtain ⟨hregistered, ⟨hclip, hstage, rfl⟩ | ⟨hrest, rfl⟩⟩ := strikeOff_cases h
  · have hstrikes : e.strikes n = true := by
      simp [strikes, hregistered, hstage, ← hsnd, hclip]
    have hplayed : (e.without n).playedMs t.now = e.playedMs t.now :=
      playedMs_of_playback hmoved.playback t.now
    rw [hstrikes]
    refine (mixes_mixAgain (e.without n) e.mixer t).of_mixer.imp ?_
    intro k hk
    have := hmoved.trans hk
    rwa [Nat.zero_add, hplayed] at this
  · have hkept : (e.mixer.remove n).2 = false ∨ e.mixer.stage ≠ .mixed := by
      by_cases hmixed : e.mixer.stage = .mixed
      · left
        simpa [hmixed] using hrest
      · exact .inr hmixed
    have hstrikes : e.strikes n = false := by
      rcases hkept with hnone | hstage
      · simp [strikes, ← hsnd, hnone]
      · simp [strikes, hstage]
    rw [hstrikes]
    exact .none rfl (Mixer.unmixed_remove hkept) hmoved

/-- A mix that is armed when the deadline is released is made then. -/
theorem made_forceMix {e : Engine} (h : e.mixer.dueAt.isSome = true) (t : Moment) :
    Made { e with mixer := { e.mixer with dueAt := none } } t (e.forceMix t) := by
  obtain ⟨due, hdue⟩ := Option.isSome_iff_exists.1 h
  simp only [forceMix, Mixer.takeWaiting, hdue]
  exact ⟨.linear, rfl⟩

/-- An armed mix whose time has come is made once, and no longer armed then. -/
theorem mixes_mixDue (e : Engine) (t : Moment) :
    Mixes e.mixer false (e.mixer.Moved 0) e t (e.mixDue t) := by
  unfold mixDue Mixer.takeIfDue
  by_cases hdue : e.mixer.dueAt.any (· ≤ t.now) = true
  · rw [if_pos hdue]
    exact .one (m := { e.mixer with dueAt := none }) rfl ⟨rfl, rfl⟩ ⟨.spectral, rfl⟩
  · rw [if_neg hdue]
    exact .none rfl (.refl _) (Mixer.moved_refl _)

/-! ## A look at the clock -/

/-- Without a mix that is due, what is released is announced as it is. -/
theorem announce_of_none {e : Engine} (h : e.mixer.dueAt = none) (t : Moment) (rs : List Release) :
    announce t e rs = (e, rs.map reportOf) := by
  induction rs with
  | nil => rfl
  | cons r rs ih =>
    have hforced : (if isDeadline r then e.forceMix t else (e, [])) = (e, []) := by
      rw [forceMix_of_none h, ite_self]
    rw [announce, hforced]
    show ((announce t e rs).1, [] ++ [reportOf r] ++ (announce t e rs).2) = _
    rw [ih]
    rfl

/-- So it is before the first deadline: what goes before it is announced as it is, and the rest from
the same engine. -/
theorem announce_append {rs : List Release} (h : ∀ r ∈ rs, isDeadline r = false) (e : Engine)
    (t : Moment) (rest : List Release) :
    announce t e (rs ++ rest) =
      ((announce t e rest).1, rs.map reportOf ++ (announce t e rest).2) := by
  induction rs with
  | nil => rfl
  | cons r rs ih =>
    obtain ⟨hr, hrs⟩ := List.forall_mem_cons.1 h
    rw [List.cons_append, announce, hr]
    show ((announce t e (rs ++ rest)).1, [] ++ [reportOf r] ++ (announce t e (rs ++ rest)).2) = _
    rw [ih hrs]
    rfl

/-- Without a deadline nothing is mixed. -/
theorem announce_of_free {rs : List Release} (h : ∀ r ∈ rs, isDeadline r = false) (e : Engine)
    (t : Moment) : announce t e rs = (e, rs.map reportOf) := by
  have happend := announce_append h e t []
  rw [List.append_nil] at happend
  rw [happend]
  show (e, rs.map reportOf ++ []) = _
  rw [List.append_nil]

/-- **A deadline is announced after the mix that it finds waiting.** -/
theorem announce_deadline {r : Release} (h : isDeadline r = true) (e : Engine) (t : Moment)
    (rest : List Release) :
    announce t e (r :: rest) =
      ((e.forceMix t).1, (e.forceMix t).2 ++ (r :: rest).map reportOf) := by
  have hnone := dueAt_forceMix e t
  rw [announce, if_pos h]
  show ((announce t (e.forceMix t).1 rest).1,
    (e.forceMix t).2 ++ [reportOf r] ++ (announce t (e.forceMix t).1 rest).2) = _
  rw [announce_of_none hnone]
  simp

/-- A list is free of deadlines, or has a first one, at which it can be cut. -/
theorem exists_first_deadline (rs : List Release) :
    (∀ r ∈ rs, isDeadline r = false) ∨
      ∃ before r later, rs = before ++ r :: later ∧ isDeadline r = true ∧
        ∀ x ∈ before, isDeadline x = false := by
  induction rs with
  | nil => exact .inl fun _ hx => absurd hx List.not_mem_nil
  | cons r rs ih =>
    by_cases hr : isDeadline r = true
    · exact .inr ⟨[], r, rs, rfl, hr, fun _ hx => absurd hx List.not_mem_nil⟩
    · have hr : isDeadline r = false := by simpa using hr
      rcases ih with h | ⟨before, d, later, rfl, hd, hbefore⟩
      · exact .inl (List.forall_mem_cons.2 ⟨hr, h⟩)
      · exact .inr ⟨r :: before, d, later, rfl, hd, List.forall_mem_cons.2 ⟨hr, hbefore⟩⟩

/-- The engine that has taken a reading and seen what is due in the slot. -/
def released (e : Engine) (t : Moment) : Engine :=
  { (e.follow t.look).1 with schedule := ((e.follow t.look).1.schedule.release t.now).1 }

/-- **What a look at the clock reports** after it has followed it: what is
due in the slot, and in its midst at most one mix.  The mix is one that
was waiting, and comes before every deadline, after which nothing waits. -/
theorem tick_cases (e : Engine) (t : Moment) :
    ∃ before later done,
      ((e.follow t.look).1.schedule.release t.now).2 = before ++ later ∧
      e.tick t =
        (done.1, (e.follow t.look).2 ++ before.map reportOf ++ done.2 ++ later.map reportOf) ∧
      Mixes (e.follow t.look).1.mixer false ((e.follow t.look).1.mixer.Moved 0) (e.released t) t
        done ∧
      (done.2 ≠ [] → (e.follow t.look).1.mixer.dueAt.isSome = true ∧
        ∀ r ∈ before, isDeadline r = false) ∧
      ((e.follow t.look).1.mixer.dueAt = none ∨ (∃ r ∈ before ++ later, isDeadline r = true) →
        done.1.mixer.dueAt = none) ∧
      ((e.follow t.look).1.mixer.dueAt.isSome = true →
        (∃ r ∈ before ++ later, isDeadline r = true) → done.2 ≠ []) := by
  have htick : e.tick t =
      ((((e.follow t.look).1.releaseDue t).1.mixDue t).1,
        (e.follow t.look).2 ++ ((e.follow t.look).1.releaseDue t).2 ++
          (((e.follow t.look).1.releaseDue t).1.mixDue t).2) := rfl
  have hrelease : (e.follow t.look).1.releaseDue t =
      announce t (e.released t) ((e.follow t.look).1.schedule.release t.now).2 := rfl
  have hmixer : (e.released t).mixer = (e.follow t.look).1.mixer := rfl
  rw [htick, hrelease]
  generalize ((e.follow t.look).1.schedule.release t.now).2 = rs
  cases hdue : (e.follow t.look).1.mixer.dueAt with
  | none =>
    have hnone : (e.released t).mixer.dueAt = none := hmixer ▸ hdue
    refine ⟨rs, [], (e.released t, []), (List.append_nil rs).symm, ?_, ?_, fun h => absurd rfl h,
      fun _ => hnone, fun h => by simp at h⟩
    · rw [announce_of_none hnone, mixDue_of_none hnone]
      simp
    · exact .none rfl (.refl _) (Mixer.moved_refl _)
  | some due =>
    have hsome : (e.released t).mixer.dueAt.isSome = true := by
      rw [hmixer, hdue]
      rfl
    rcases exists_first_deadline rs with hfree | ⟨before, r, later, rfl, hr, hbefore⟩
    · have hmixes := mixes_mixDue (e.released t) t
      have hnever : ¬ ∃ r ∈ rs ++ [], isDeadline r = true := by
        rintro ⟨r, hr, hd⟩
        rw [List.append_nil] at hr
        rw [hfree r hr] at hd
        cases hd
      refine ⟨rs, [], (e.released t).mixDue t, (List.append_nil rs).symm, ?_, hmixes,
        fun _ => ⟨rfl, hfree⟩, ?_, fun _ h => absurd h hnever⟩
      · rw [announce_of_free hfree]
        simp
      · rintro (h | h)
        · cases h
        · exact absurd h hnever
    · have hmade := made_forceMix hsome t
      have hnone := dueAt_forceMix (e.released t) t
      refine ⟨before, r :: later, (e.released t).forceMix t, rfl, ?_, ?_,
        fun _ => ⟨rfl, hbefore⟩, fun _ => hnone, fun _ _ => hmade.ends.ne_nil⟩
      · rw [announce_append hbefore, announce_deadline hr, mixDue_of_none hnone]
        simp
      · exact .one (m := { (e.released t).mixer with dueAt := none }) rfl ⟨rfl, rfl⟩ hmade

end Engine

end SlotRadio
