import SlotRadio.Proofs.Audio.Admission
import SlotRadio.Proofs.Engine.Freshness
import SlotRadio.Proofs.Engine.Handling
import SlotRadio.Proofs.Engine.Working
/-!
# What the answer to a clip says

Who offers a clip is told what the mixer has made of it.  But a mix may
be made before the answer is given, and a mix that fails empties the
cache again.

* `Fares` — a step that makes a mix at most keeps the cached clips, or
  reports a failure and leaves none;
* `answered_addClip` — the ways in which a clip is answered;
* `clip_answered` — so the answer is right about the clip and about the
  mix, unless the clip came into what is played and that mix has failed
  (`losesClip`);
* `clip_lost` — clips of which it is said that they were inserted, while
  the mix that they were for has failed, or was not done in time, and
  nothing is cached any more.
-/

namespace SlotRadio

/-- The faults for which mixes failed, in order. -/
def failures (events : List Event) : List MixFault :=
  events.filterMap fun
    | .mixFailed _ fault => some fault
    | _ => none

namespace Mixer

variable {m : Mixer} {clip : Clip}

/-- A clip that has been stored is its operator's, whether it is the first one, takes the place of
another or has emptied the mixer. -/
theorem entries_of_accepted {accepted : Acceptance} (h : (m.add clip).2 = .ok accepted)
    (hnew : accepted ≠ .duplicate) : (m.add clip).1.entries clip.operator = some clip := by
  rcases add_outcome m clip with ⟨-, hadd⟩ | ⟨-, -, hdup | ⟨fault, hfault⟩⟩ |
    ⟨kind, -, -, hadd⟩
  · rw [hadd] at h
    cases h
  · exact absurd (Except.ok.inj (h.symm.trans hdup)) hnew
  · rw [hfault] at h
    cases h
  · rw [hadd, entries_store, if_pos rfl]

/-- A clip that is refused is not among the cached ones. -/
theorem not_mem_of_refused (hregular : m.Regular) {fault : MixFault}
    (h : (m.add clip).2 = .error fault) : clip ∉ (m.add clip).1.clips := by
  unfold add at h ⊢
  split at h
  · next hrate =>
    rw [if_pos hrate]
    exact fun hmem => hregular.rated _ clip (hregular.mem_clips_iff.1 hmem) hrate
  · next hrate =>
    rw [if_neg hrate]
    dsimp only at h ⊢
    split at h
    · split at h <;> cases h
    · next hnone =>
      split at h
      · next hfull =>
        have hturned := hregular.toCoherent.turnTo clip.slotStartMs
        simp only [if_pos hfull]
        intro hmem
        rw [hturned.mem_clips_iff, hnone] at hmem
        cases hmem
      · cases h

end Mixer

namespace Engine

variable {e : Engine} {t : Moment} {clip : Clip} {target : Option Nat}

/-! ## How the cache fares -/

/-- A step that makes one mix at most leaves the cached clips alone, or
the mix has failed for the given reason, is reported, and has left
nothing. -/
structure Fares (e : Engine) (after : Emits) (fault : Option MixFault) : Prop where
  reported : failures after.2 = fault.toList
  kept : fault = none → e.mixer.SameCache after.1.mixer
  emptied : fault.isSome = true →
    (∀ k, after.1.mixer.entries k = none) ∧ after.1.mixer.order = []

/-- A mix fares as it says: with an outcome of the mix the cache is what it was, and with a fault it
is empty. -/
theorem fares_mix (e : Engine) (plan : MixPlan) (t : Moment) :
    Fares e (e.mix plan t).1 (e.mix plan t).2 := by
  rcases Mixer.record_cases e.mixer (e.carryOut plan t) with ⟨hsame, result, hok⟩ |
    ⟨hclear, fault, hfault⟩
  · simp only [mix, hok]
    cases result with
    | composite audio => exact ⟨rfl, fun _ => hsame.trans ⟨rfl, rfl, rfl, rfl⟩, nofun⟩
    | silence => exact ⟨rfl, fun _ => hsame, nofun⟩
  · simp only [mix, hfault, hclear]
    exact ⟨rfl, nofun, fun _ => ⟨fun _ => rfl, rfl⟩⟩

/-- The cache at the start of the step is all that matters. -/
theorem Fares.of_sameCache {f : Engine} {after : Emits} {fault : Option MixFault}
    (h : Fares f after fault) (hsame : e.mixer.SameCache f.mixer) : Fares e after fault where
  reported := h.reported
  kept := fun hnone => hsame.trans (h.kept hnone)
  emptied := h.emptied

/-- That a mix which is made again has failed is told by its report
only. -/
theorem fares_mixAgain (e : Engine) (t : Moment) : ∃ fault, Fares e (e.mixAgain t) fault := by
  have hsame := Mixer.sameCache_planAgain e.mixer (e.playedMs t.now) .spectral
  exact ⟨_, (fares_mix { e with mixer := (e.mixer.planAgain (e.playedMs t.now) .spectral).1 }
    (e.mixer.planAgain (e.playedMs t.now) .spectral).2 t).of_sameCache hsame⟩

/-- A mix that is asked for fares as its asker is told. If it is put off, nothing has become of it
yet and nothing is reported. -/
theorem fares_scheduleMix (e : Engine) (t : Moment) (target : Option Nat) :
    Fares e (e.scheduleMix t target).1 (e.scheduleMix t target).2 := by
  have hsame := Mixer.sameCache_schedule e.mixer t.now target
  unfold scheduleMix
  split
  · next mixer late heq =>
    rw [heq] at hsame
    have hmix := (fares_mix { e with mixer } (mixer.currentPlan .spectral) t).of_sameCache
      (e := e) hsame
    exact ⟨hmix.reported, hmix.kept, hmix.emptied⟩
  · next mixer _ _ heq =>
    rw [heq] at hsame
    exact ⟨rfl, fun _ => hsame, nofun⟩

/-! ## How a clip is answered -/

/-- A clip is answered by what has become of it. -/
theorem reply_addClip (e : Engine) (t : Moment) (clip : Clip) (target : Option Nat) :
    (e.meet t (.addClip clip target)).reply =
      (e.addClip clip target t).2.map Reply.accepted := rfl

/-- What becomes of a clip, and what is answered. -/
inductive Answered (e : Engine) (t : Moment) (clip : Clip) :
    Emits × Except EngineFault Acceptance → Prop
  | early (hslot : e.tracker.current = none) : Answered e t clip ((e, []), .error .noSlot)
  | stale (hslot : e.tracker.current.isSome = true) :
    Answered e t clip ((e, []), .error (.staleSlot clip.slotStartMs))
  | refused {fault : MixFault} (hadd : (e.mixer.add clip).2 = .error fault) :
    Answered e t clip ((e.caching clip, []), .error (.mix fault))
  | repeated : Answered e t clip ((e.caching clip, []), .ok .duplicate)
  | joined {accepted : Acceptance} {after : Emits} {fault : Option MixFault}
      (hadd : (e.mixer.add clip).2 = .ok accepted) (hnew : accepted ≠ .duplicate)
      (hstage : e.mixer.stage = .mixed) (hkind : accepted = .inserted ∨ accepted = .replaced)
      (hfares : Fares (e.caching clip) after fault) : Answered e t clip (after, .ok accepted)
  | asked {accepted : Acceptance} {after : Emits} (hadd : (e.mixer.add clip).2 = .ok accepted)
      (hnew : accepted ≠ .duplicate) (hkind : accepted = .purgedStale ∨ e.mixer.stage ≠ .mixed)
      (hfares : Fares (e.caching clip) after none) : Answered e t clip (after, .ok accepted)
  | failed {after : Emits} {fault : MixFault}
      (hfares : Fares (e.caching clip) after (some fault)) :
    Answered e t clip (after, .error (.mix fault))

/-- **How a clip is answered.** The cases follow the branches of `addClip`: turned away before the
mixer sees it, refused or repeated by the mixer, and then mixed anew or left to a mix that is asked
for, whose fate `Fares` tells. -/
theorem answered_addClip (e : Engine) (clip : Clip) (target : Option Nat) (t : Moment) :
    Answered e t clip (e.addClip clip target t) := by
  unfold addClip
  split
  · next hslot => exact .early hslot
  · next slot hslot =>
    split
    · exact .stale (by rw [hslot]; rfl)
    · dsimp only
      split
      · next mixer fault hadd =>
        have hcaching : { e with mixer } = e.caching clip := by rw [caching, hadd]
        rw [hcaching]
        exact .refused (by rw [hadd])
      · next mixer accepted hadd =>
        have hcaching : { e with mixer } = e.caching clip := by rw [caching, hadd]
        have hadd : (e.mixer.add clip).2 = .ok accepted := by rw [hadd]
        rw [hcaching]
        split
        · next hdup =>
          rw [hdup]
          exact .repeated
        · next hnew =>
          split
          · next hjoins =>
            have hkind : accepted = .inserted ∨ accepted = .replaced := by
              cases accepted with
              | inserted => exact .inl rfl
              | replaced => exact .inr rfl
              | duplicate => exact absurd rfl hnew
              | purgedStale => exact absurd rfl hjoins.1
            obtain ⟨fault, hfares⟩ := fares_mixAgain (e.caching clip) t
            exact .joined hadd hnew hjoins.2 hkind hfares
          · next hasks =>
            have hfares := fares_scheduleMix (e.caching clip) t target
            split
            · next done hdone =>
              rw [hdone] at hfares
              have hkind : accepted = .purgedStale ∨ e.mixer.stage ≠ .mixed := by
                by_cases hpurged : accepted = .purgedStale
                · exact .inl hpurged
                · exact .inr fun hstage => hasks ⟨hpurged, hstage⟩
              exact .asked hadd hnew hkind hfares
            · next done fault hdone =>
              rw [hdone] at hfares
              exact .failed hfares

/-- The clip came into what is played, and the mix that was made of it
has failed. -/
def losesClip (e : Engine) (t : Moment) (clip : Clip) (target : Option Nat) : Bool :=
  e.replays clip target t && !(failures (e.addClip clip target t).1.2).isEmpty

/-- A clip that has been taken stays, as long as the cache does. -/
theorem entries_of_kept {after : Engine} {accepted : Acceptance}
    (hadd : (e.mixer.add clip).2 = .ok accepted) (hnew : accepted ≠ .duplicate)
    (hkept : (e.caching clip).mixer.SameCache after.mixer) :
    after.mixer.entries clip.operator = some clip := by
  rw [hkept.entries]
  exact Mixer.entries_of_accepted hadd hnew

/-- **A clip that is said to be taken is cached**, unless its mix has failed unseen: only the mix
that is made anew drops its fault, and only that one empties the cache behind an acceptance. -/
theorem cached_iff_of_accepted {accepted : Acceptance}
    (hreply : (e.addClip clip target t).2 = .ok accepted) (hnew : accepted ≠ .duplicate) :
    (e.addClip clip target t).1.1.mixer.entries clip.operator = some clip ↔
      e.losesClip t clip target = false := by
  have hanswered := answered_addClip e clip target t
  unfold losesClip replays
  generalize e.addClip clip target t = result at hanswered hreply
  cases hanswered with
  | early hslot => cases hreply
  | stale hslot => cases hreply
  | refused hadd => cases hreply
  | repeated => exact absurd (Except.ok.inj hreply).symm hnew
  | @joined kind after fault hadd hnew hstage hkind hfares =>
    cases fault with
    | none =>
      refine iff_of_true (entries_of_kept hadd hnew (hfares.kept rfl)) ?_
      simp [hfares.reported]
    | some fault =>
      refine iff_of_false ?_ ?_
      · simp [(hfares.emptied rfl).1]
      · rcases hkind with rfl | rfl <;> simp [hstage, hfares.reported]
  | asked hadd hnew hkind hfares =>
    refine iff_of_true (entries_of_kept hadd hnew (hfares.kept rfl)) ?_
    simp [hfares.reported]
  | failed hfares => cases hreply

/-- **A clip that is said to be refused is not cached**, unless it has
been cached before and comes again too late. -/
theorem not_cached_of_refused (hregular : e.mixer.Regular)
    (hslot : e.mixer.clips ≠ [] → e.tracker.current.isSome = true) {fault : EngineFault}
    (hreply : (e.addClip clip target t).2 = .error fault)
    (hmem : clip ∈ (e.addClip clip target t).1.1.mixer.clips) :
    clip ∈ e.mixer.clips ∧ fault = .staleSlot clip.slotStartMs ∧
      (e.addClip clip target t).1.1 = e := by
  have hanswered := answered_addClip e clip target t
  generalize e.addClip clip target t = result at hanswered hreply hmem
  cases hanswered with
  | early hnone =>
    have hsome := hslot (List.ne_nil_of_mem hmem)
    rw [hnone] at hsome
    cases hsome
  | stale hsome => exact ⟨hmem, (Except.error.inj hreply).symm, rfl⟩
  | refused hadd => exact absurd hmem (Mixer.not_mem_of_refused hregular hadd)
  | repeated => cases hreply
  | joined hadd hnew hstage hkind hfares => cases hreply
  | asked hadd hnew hkind hfares => cases hreply
  | failed hfares =>
    rw [Mixer.clips_of_order_nil (hfares.emptied rfl).2] at hmem
    exact absurd hmem List.not_mem_nil

/-- **A mix that fails is the answer to the clip for which it was made**,
unless the clip was lost. -/
theorem failure_answered_iff {fault : MixFault}
    (hfailed : fault ∈ failures (e.addClip clip target t).1.2) :
    (e.addClip clip target t).2 = .error (.mix fault) ↔
      e.losesClip t clip target = false := by
  have hanswered := answered_addClip e clip target t
  unfold losesClip replays
  generalize e.addClip clip target t = result at hanswered hfailed
  cases hanswered with
  | early hslot => exact absurd hfailed List.not_mem_nil
  | stale hslot => exact absurd hfailed List.not_mem_nil
  | refused hadd => exact absurd hfailed List.not_mem_nil
  | repeated => exact absurd hfailed List.not_mem_nil
  | @joined kind after reason hadd hnew hstage hkind hfares =>
    dsimp only at hfailed ⊢
    rw [hfares.reported] at hfailed ⊢
    obtain rfl : reason = some fault := Option.mem_toList.1 hfailed
    rcases hkind with rfl | rfl <;> simp [hstage]
  | asked hadd hnew hkind hfares =>
    rw [hfares.reported] at hfailed
    exact absurd hfailed List.not_mem_nil
  | failed hfares =>
    rw [hfares.reported] at hfailed
    obtain rfl := List.mem_singleton.1 hfailed
    exact iff_of_true rfl (by simp)

end Engine

namespace Session

/-- While something is cached, the clock shows a slot: no clip is taken before the first one. -/
theorem current_of_cached (mode : Mode) (config : Config) (requests : List (Moment × Request))
    (hne : (run ⟨.initial mode config, true⟩ requests).1.engine.mixer.clips ≠ []) :
    (run ⟨.initial mode config, true⟩ requests).1.engine.tracker.current.isSome = true := by
  have hfollows : (Engine.initial mode config).tracker.Follows :=
    Tracker.follows_start mode config.loop.driftToleranceMs
  obtain ⟨c, hc⟩ := List.exists_mem_of_ne_nil _ hne
  obtain ⟨shown, taken, later, h⟩ :=
    (accounted_run (s := ⟨.initial mode config, true⟩) hfollows rfl requests).cached c hc
  obtain ⟨slot, hslot, -⟩ := h.fresh hfollows
  rw [hslot]
  rfl

/-- **What is answered to a clip is true.**  Say that a clip is offered at
any time.  If it is said to be inserted, to replace one or to have made
others go, it is its operator's cached clip from then on, unless it was
lost; if it is said to be refused, it is not cached, unless it has been
cached before and the clock has gone past its slot without a report;
and if a mix fails for it, this is what is answered, unless the clip was
lost. -/
theorem clip_answered (mode : Mode) (config : Config) (before : List (Moment × Request))
    (t : Moment) (clip : Clip) (target : Option Nat) :
    let e := (run ⟨.initial mode config, true⟩ before).1.engine
    let done := e.meet t (.addClip clip target)
    (∀ accepted, done.reply = .ok (.accepted accepted) → accepted ≠ .duplicate →
      (done.engine.mixer.entries clip.operator = some clip ↔
        e.losesClip t clip target = false)) ∧
    (∀ fault, done.reply = .error fault → clip ∈ done.engine.mixer.clips →
      clip ∈ e.mixer.clips ∧ fault = .staleSlot clip.slotStartMs ∧ done.engine = e) ∧
    ∀ fault ∈ failures done.events,
      (done.reply = .error (.mix fault) ↔ e.losesClip t clip target = false) := by
  intro e done
  have hregular : e.mixer.Regular :=
    regular_run (Mixer.regular_of_nothing (fun _ => rfl) rfl) before
  have hreply := e.reply_addClip t clip target
  have herror : ∀ fault,
      done.reply = .error fault ↔ (e.addClip clip target t).2 = .error fault := by
    intro fault
    rw [hreply]
    cases (e.addClip clip target t).2 <;> simp [Except.map]
  refine ⟨?_, ?_, ?_⟩
  · intro accepted haccepted hnew
    have htaken : (e.addClip clip target t).2 = .ok accepted := by
      rw [hreply] at haccepted
      cases hanswer : (e.addClip clip target t).2 with
      | ok kind =>
        rw [hanswer] at haccepted
        simpa [Except.map] using haccepted
      | error fault =>
        rw [hanswer] at haccepted
        cases haccepted
    exact Engine.cached_iff_of_accepted htaken hnew
  · intro fault hfault hmem
    exact Engine.not_cached_of_refused hregular (current_of_cached mode config before)
      ((herror fault).1 hfault) hmem
  · intro fault hfailed
    rw [herror]
    exact Engine.failure_answered_iff hfailed

/-- A composite is played, and a clip that is no sound comes to it.  The
mix of both fails and empties the cache; the answer is that the clip has
been inserted.  A clip that comes just before the end of the slot fares
no better, as soon as its mix is not done by then. -/
theorem clip_lost :
    let first : Session := ⟨.initial .ft8 {}, true⟩
    let clip : Nat → Clip := fun n => ⟨n, #[0.25, 0.25, 0.25, 0.25], 12000, 0, 0, none⟩
    let noise : Clip := ⟨2, #[0 / 0, 0 / 0, 0 / 0, 0 / 0], 12000, 0, 0, none⟩
    let e := (first.run [(0, .look), (0, .addClip (clip 1) none), (150, .look)]).1.engine
    let done := e.meet 150 (.addClip noise none)
    let late : Moment := ⟨14999, 14999, 5, 15000⟩
    let missed := e.meet late (.addClip (clip 2) none)
    done.reply = .ok (.accepted .inserted) ∧ (done.engine.mixer.entries 2).isNone = true ∧
      failures done.events = [.nonFinite 0] ∧ e.losesClip 150 noise none = true ∧
      missed.reply = .ok (.accepted .inserted) ∧ (missed.engine.mixer.entries 2).isNone = true ∧
      failures missed.events = [.expired 0] ∧ e.losesClip late (clip 2) none = true := by
  intro first clip noise e done late missed
  have hanswer : (e.addClip noise none 150).2 = .ok .inserted := by decide +kernel
  have hlate : (e.addClip (clip 2) none late).2 = .ok .inserted := by decide +kernel
  have hdone : done.reply = .ok (.accepted .inserted) :=
    calc done.reply = (e.addClip noise none 150).2.map .accepted := e.reply_addClip 150 noise none
      _ = .ok (.accepted .inserted) := by rw [hanswer]; rfl
  have hmissed : missed.reply = .ok (.accepted .inserted) :=
    calc missed.reply = (e.addClip (clip 2) none late).2.map .accepted :=
          e.reply_addClip late (clip 2) none
      _ = .ok (.accepted .inserted) := by rw [hlate]; rfl
  have hlost : (done.engine.mixer.entries 2).isNone = true ∧
      failures done.events = [.nonFinite 0] ∧ e.losesClip 150 noise none = true := by
    decide +kernel
  have hexpired : (missed.engine.mixer.entries 2).isNone = true ∧
      failures missed.events = [.expired 0] ∧ e.losesClip late (clip 2) none = true := by
    decide +kernel
  exact ⟨hdone, hlost.1, hlost.2.1, hlost.2.2, hmissed, hexpired⟩

end Session

end SlotRadio
