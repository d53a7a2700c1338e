import Mathlib.Data.List.Induction
import SlotRadio.Proofs.Engine.Playing
import SlotRadio.Proofs.Timing.Following
/-!
# No audio of a slot that is over is played

A clip is in the cache because it was offered when its slot was not over,
and no slot has begun since (`Session.Cached`).  The clock has then gone
on without announcing a slot: it has gone back, or it has entered a slot
silently, which it does with slots that it announced before it went back
(`slipsPast`).

* `clock_meet`, `clock_run` — how far the clock gets while it announces
  no slot;
* `accounted_run` — where the cached clips have come from;
* `played_audio_fresh` — so what is played is for a slot that is not over,
  unless the clock has slipped meanwhile.

Audio for a later slot is taken as well, and played as soon as its mix is
due; `stray_audio` shows this and what a clock that went back leads to.
-/

namespace SlotRadio

namespace Engine

/-- True for a look at the clock that slips past a moment. -/
def slipsPast (e : Engine) (startMs : Nat) (t : Moment) : Request → Bool
  | .look => e.tracker.slipsPast t.look startMs
  | _ => false

/-- Following the clock moves the tracker by one reading. -/
theorem tracker_follow (e : Engine) (now : Nat) :
    (e.follow now).1.tracker = (e.tracker.observe now).1 := by
  cases h : (e.tracker.observe now).2 with
  | none => rw [follow_none h]
  | some tick =>
    cases tick with
    | slotStart slot previous =>
      rw [follow_slotStart h]
      rfl
    | anomaly jumpMs slot => rw [follow_anomaly h]

/-- So does a look at the clock, by the first of its readings. -/
theorem tracker_tick (e : Engine) (t : Moment) :
    (e.tick t).1.tracker = (e.tracker.observe t.look).1 := by
  obtain ⟨rest, hrest, hplays⟩ := onlyPlays_tick e t
  rw [hrest, ← tracker_follow]
  exact hplays.1.tracker

/-- The tracker moves only when one looks at the clock. -/
theorem tracker_meet (e : Engine) (t : Moment) {r : Request} (hr : r ≠ .look) :
    (e.meet t r).engine.tracker = e.tracker :=
  (quiet_meet hr e t).tracker

/-- No request makes the tracker lose the clock. -/
theorem follows_meet {e : Engine} (h : e.tracker.Follows) (t : Moment) (r : Request) :
    (e.meet t r).engine.tracker.Follows := by
  by_cases hr : r = .look
  · subst hr
    show (e.tick t).1.tracker.Follows
    rw [tracker_tick]
    exact Tracker.follows_observe h t.look
  · rw [tracker_meet e t hr]
    exact h

/-- A look at the clock reports what the reading has shown, ahead of whatever it finds due. -/
theorem mem_tick_of_observe (e : Engine) (t : Moment) :
    (∀ slot previous, (e.tracker.observe t.look).2 = some (.slotStart slot previous) →
      ∃ x ∈ (e.tick t).2, x.isSlotStart = true) ∧
    ∀ jumpMs slot, (e.tracker.observe t.look).2 = some (.anomaly jumpMs slot) →
      ∃ x ∈ (e.tick t).2, x.isAnomaly = true := by
  obtain ⟨rest, hrest, -⟩ := onlyPlays_tick e t
  rw [hrest]
  refine ⟨?_, ?_⟩
  · intro slot previous h
    rw [follow_slotStart h]
    exact ⟨_, List.mem_append_left _ (slotStart_mem_beginSlot _ slot previous), rfl⟩
  · intro jumpMs slot h
    rw [follow_anomaly h]
    exact ⟨_, List.mem_cons_self, rfl⟩

/-- **While no slot begins** the clock's slot moves past a moment only by
slipping, and back only by an anomaly. -/
theorem clock_meet {e : Engine} (hfollows : e.tracker.Follows) {shown : Slot}
    (hshown : e.tracker.current = some shown) {startMs : Nat} (hle : shown.startMs ≤ startMs)
    {t : Moment} {r : Request} (hkept : ∀ x ∈ (e.meet t r).events, x.isSlotStart = false) :
    ∃ slot, (e.meet t r).engine.tracker.current = some slot ∧
      (e.slipsPast startMs t r = false → slot.startMs ≤ startMs ∧
        (shown.startMs = startMs → (∀ x ∈ (e.meet t r).events, x.isAnomaly = false) →
          slot = shown)) := by
  by_cases hr : r = .look
  · subst hr
    obtain ⟨hstarts, hanomalies⟩ := mem_tick_of_observe e t
    have htick : ∀ slot previous,
        (e.tracker.observe t.look).2 ≠ some (.slotStart slot previous) := by
      intro slot previous h
      obtain ⟨x, hx, hstart⟩ := hstarts slot previous h
      exact absurd ((hkept x hx).symm.trans hstart) (by decide)
    show ∃ slot, (e.tick t).1.tracker.current = some slot ∧ _
    rw [tracker_tick]
    obtain ⟨slot, hslot, hmoved⟩ := Tracker.startMs_observe hfollows hshown htick
    refine ⟨slot, hslot, ?_⟩
    intro hslips
    rcases hmoved with ⟨⟨jumpMs, resynced, hanomaly⟩, hback⟩ | ⟨hnone, rfl | hforward⟩
    · refine ⟨Nat.le_trans hback hle, ?_⟩
      intro _ hquiet
      obtain ⟨x, hx, hreported⟩ := hanomalies jumpMs resynced hanomaly
      exact absurd ((hquiet x hx).symm.trans hreported) (by decide)
    · exact ⟨hle, fun _ _ => rfl⟩
    · -- The look would have slipped past every earlier moment.
      have hlate : ¬ startMs < slot.startMs := by
        intro hlt
        simp [slipsPast, Tracker.slipsPast, hnone, hslot, hlt] at hslips
      refine ⟨by omega, ?_⟩
      intro hsame _
      omega
  · rw [tracker_meet e t hr]
    exact ⟨shown, hshown, fun _ => ⟨hle, fun _ _ => rfl⟩⟩

/-- A slot is reported to begin only by a look at the clock that has seen
it. -/
theorem observe_of_slotStart {e : Engine} {t : Moment} {r : Request} {x : Event}
    (hx : x ∈ (e.meet t r).events) (hstart : x.isSlotStart = true) :
    r = .look ∧
      ∃ slot previous, (e.tracker.observe t.look).2 = some (.slotStart slot previous) := by
  have hnot : ¬ x.isSlotStart = false := by
    rw [hstart]
    decide
  by_cases hr : r = .look
  · refine ⟨hr, ?_⟩
    subst hr
    by_contra hslot
    obtain ⟨rest, hrest, hplays⟩ := onlyPlays_tick e t
    have hmem : x ∈ (e.tick t).2 := hx
    rw [hrest] at hmem
    rcases List.mem_append.1 hmem with hmem | hmem
    · exact hnot
        ((follow_otherwise fun slot previous h => hslot ⟨slot, previous, h⟩).2 x hmem).1
    · exact hnot (hplays.quiet.interim x hmem).isSlotStart
  · exact absurd ((quiet_meet hr e t).interim x hx).isSlotStart hnot

/-- **A slot that begins empties the cache.** The mixes of that look add nothing to it. -/
theorem clips_of_slotStart {e : Engine} {t : Moment} {r : Request} {x : Event}
    (hx : x ∈ (e.meet t r).events) (hstart : x.isSlotStart = true) :
    (e.meet t r).engine.mixer.clips = [] := by
  obtain ⟨rfl, slot, previous, hslot⟩ := observe_of_slotStart hx hstart
  have hempty : (e.follow t.look).1.mixer.clips = [] := by
    rw [follow_slotStart hslot]
    rfl
  refine List.eq_nil_iff_forall_not_mem.2 ?_
  intro c hc
  have hold : c ∈ (e.follow t.look).1.mixer.clips := (fromCache_tick e t).sheds.mem hc
  rw [hempty] at hold
  exact absurd hold List.not_mem_nil

end Engine

namespace Session

/-- True if the clock slips past a moment while requests are met. -/
def slipsPast (s : Session) (startMs : Nat) : List (Moment × Request) → Bool
  | [] => false
  | (t, r) :: rest =>
    (s.isOpen && s.engine.slipsPast startMs t r) || (s.meet t r).1.slipsPast startMs rest

/-- A clip that is offered does not touch the tracker. -/
theorem tracker_addClip (s : Session) (t : Moment) (clip : Clip) (target : Option Nat) :
    (s.meet t (.addClip clip target)).1.engine.tracker = s.engine.tracker := by
  cases hopen : s.isOpen with
  | true =>
    rw [meet_of_isOpen hopen]
    exact Engine.tracker_meet s.engine t (by simp)
  | false => rw [meet_of_closed hopen]

/-- A session keeps following the clock, whether it is open or over. -/
theorem follows_session {s : Session} (h : s.engine.tracker.Follows) (t : Moment) (r : Request) :
    (s.meet t r).1.engine.tracker.Follows := by
  cases hopen : s.isOpen with
  | true =>
    rw [meet_of_isOpen hopen]
    exact Engine.follows_meet h t r
  | false =>
    rw [meet_of_closed hopen]
    exact h

/-- What `Engine.clock_meet` says of one request, said of a session that
may be over. -/
theorem clock_session {s : Session} (hfollows : s.engine.tracker.Follows) {shown : Slot}
    (hshown : s.engine.tracker.current = some shown) {startMs : Nat}
    (hle : shown.startMs ≤ startMs) {t : Moment} {r : Request}
    (hkept : ∀ x ∈ (s.meet t r).2.1, x.isSlotStart = false) :
    ∃ slot, (s.meet t r).1.engine.tracker.current = some slot ∧
      ((s.isOpen && s.engine.slipsPast startMs t r) = false → slot.startMs ≤ startMs ∧
        (shown.startMs = startMs → (∀ x ∈ (s.meet t r).2.1, x.isAnomaly = false) →
          slot = shown)) := by
  cases hopen : s.isOpen with
  | true =>
    rw [meet_of_isOpen hopen] at hkept ⊢
    exact Engine.clock_meet hfollows hshown hle hkept
  | false =>
    rw [meet_of_closed hopen]
    exact ⟨shown, hshown, fun _ => ⟨hle, fun _ _ => rfl⟩⟩

/-- Once a slot has been announced there is always a current one, since no reading makes the tracker
forget it. -/
theorem exists_current_run {s : Session} (hfollows : s.engine.tracker.Follows) {shown : Slot}
    (hshown : s.engine.tracker.current = some shown) {requests : List (Moment × Request)}
    (hkept : ∀ x ∈ (s.run requests).2, x.isSlotStart = false) :
    ∃ slot, (s.run requests).1.engine.tracker.current = some slot := by
  induction requests generalizing s shown with
  | nil => exact ⟨shown, hshown⟩
  | cons request rest ih =>
    obtain ⟨t, r⟩ := request
    rw [run_cons] at hkept ⊢
    obtain ⟨next, hnext, -⟩ := clock_session hfollows hshown (Nat.le_refl _)
      fun x hx => hkept x (List.mem_append_left _ hx)
    exact ih (follows_session hfollows t r) hnext
      fun x hx => hkept x (List.mem_append_right _ hx)

/-- **While no slot begins** and the clock does not slip past a moment,
its slot does not begin after it; if the slot began at that moment, it
stays without an anomaly. -/
theorem clock_run {s : Session} (hfollows : s.engine.tracker.Follows) {shown : Slot}
    (hshown : s.engine.tracker.current = some shown) {startMs : Nat}
    (hle : shown.startMs ≤ startMs) {requests : List (Moment × Request)}
    (hkept : ∀ x ∈ (s.run requests).2, x.isSlotStart = false)
    (hslips : s.slipsPast startMs requests = false) :
    ∃ slot, (s.run requests).1.engine.tracker.current = some slot ∧ slot.startMs ≤ startMs ∧
      (shown.startMs = startMs → (∀ x ∈ (s.run requests).2, x.isAnomaly = false) →
        slot = shown) := by
  induction requests generalizing s shown with
  | nil => exact ⟨shown, hshown, hle, fun _ _ => rfl⟩
  | cons request rest ih =>
    obtain ⟨t, r⟩ := request
    rw [run_cons] at hkept ⊢
    obtain ⟨hnow, hlater⟩ := Bool.or_eq_false_iff.1 hslips
    obtain ⟨next, hnext, hstep⟩ := clock_session hfollows hshown hle
      fun x hx => hkept x (List.mem_append_left _ hx)
    obtain ⟨hnextLe, hstays⟩ := hstep hnow
    obtain ⟨slot, hslot, hslotLe, hstays'⟩ := ih (follows_session hfollows t r) hnext hnextLe
      (fun x hx => hkept x (List.mem_append_right _ hx)) hlater
    refine ⟨slot, hslot, hslotLe, ?_⟩
    intro hsame hquiet
    have hnow' : next = shown := hstays hsame fun x hx => hquiet x (List.mem_append_left _ hx)
    subst hnow'
    exact hstays' hsame fun x hx => hquiet x (List.mem_append_right _ hx)

/-! ## Where the cached clips have come from -/

/-- A clip in the cache after `requests` was offered by the last of
`taken`, when the clock showed `shown` and the clip's slot was not over,
and while `later` was met no slot began. -/
structure Cached (s : Session) (requests : List (Moment × Request)) (clip : Clip) (shown : Slot)
    (taken later : List (Moment × Request)) : Prop where
  split : requests = taken ++ later
  offered : ∃ before t target, taken = before ++ [(t, .addClip clip target)] ∧
    (s.run before).1.engine.tracker.current = some shown
  inTime : shown.startMs ≤ clip.slotStartMs
  kept : ∀ x ∈ ((s.run taken).1.run later).2, x.isSlotStart = false

/-- The last request of a run is met by the session that those before it have
led to. -/
theorem run_concat (s : Session) (requests : List (Moment × Request)) (t : Moment) (r : Request) :
    (s.run (requests ++ [(t, r)])).1 = ((s.run requests).1.meet t r).1 := by
  rw [run_append]
  rfl

/-- A cached clip stays what it is while no slot begins: the request is one more of those that came
after it was offered. -/
theorem Cached.concat {s : Session} {requests taken later : List (Moment × Request)} {clip : Clip}
    {shown : Slot} (h : s.Cached requests clip shown taken later) {t : Moment} {r : Request}
    (hkept : ∀ x ∈ ((s.run requests).1.meet t r).2.1, x.isSlotStart = false) :
    s.Cached (requests ++ [(t, r)]) clip shown taken (later ++ [(t, r)]) where
  split := by rw [h.split, List.append_assoc]
  offered := h.offered
  inTime := h.inTime
  kept := by
    have hrun : ((s.run taken).1.run later).1 = (s.run requests).1 := by
      rw [h.split, run_append]
    intro x hx
    rw [run_append] at hx
    rcases List.mem_append.1 hx with hx | hx
    · exact h.kept x hx
    · rw [run_cons, hrun] at hx
      rcases List.mem_append.1 hx with hx | hx
      · exact hkept x hx
      · exact absurd hx List.not_mem_nil

/-- What a session keeps that was opened with an empty cache. -/
structure Accounted (s : Session) (requests : List (Moment × Request)) : Prop where
  follows : (s.run requests).1.engine.tracker.Follows
  tagged : (s.run requests).1.engine.mixer.Tagged
  cached : ∀ c ∈ (s.run requests).1.engine.mixer.clips,
    ∃ shown taken later, s.Cached requests c shown taken later

/-- **Every cached clip has been offered in time.** By induction on the requests, the last one at
the end: either the clip was cached before it, and no slot has begun, or it is the clip that was
offered. -/
theorem accounted_run {s : Session} (hfollows : s.engine.tracker.Follows)
    (hempty : s.engine.mixer.clips = []) (requests : List (Moment × Request)) :
    s.Accounted requests := by
  induction requests using List.reverseRecOn with
  | nil =>
    have hnone : ∀ c, c ∉ (s.run []).1.engine.mixer.clips := by
      intro c hc
      rw [show (s.run []).1.engine.mixer.clips = [] from hempty] at hc
      exact absurd hc List.not_mem_nil
    exact ⟨hfollows, fun c hc => absurd hc (hnone c), fun c hc => absurd hc (hnone c)⟩
  | append_singleton requests request ih =>
    obtain ⟨t, r⟩ := request
    have hfollows' := follows_session ih.follows t r
    cases hopen : (s.run requests).1.isOpen with
    | false =>
      have hmeet := meet_of_closed hopen t r
      have hrun : (s.run (requests ++ [(t, r)])).1 = (s.run requests).1 := by
        rw [run_concat, hmeet]
      refine ⟨hrun ▸ ih.follows, hrun ▸ ih.tagged, ?_⟩
      intro c hc
      rw [hrun] at hc
      obtain ⟨shown, taken, later, h⟩ := ih.cached c hc
      refine ⟨shown, taken, later ++ [(t, r)], h.concat ?_⟩
      intro x hx
      rw [hmeet] at hx
      exact absurd hx List.not_mem_nil
    | true =>
      have hmeet := meet_of_isOpen hopen t r
      have hrun : (s.run (requests ++ [(t, r)])).1.engine =
          ((s.run requests).1.engine.meet t r).engine := by
        rw [run_concat, hmeet]
      refine ⟨?_, ?_, ?_⟩
      · rw [run_concat]
        exact hfollows'
      · rw [hrun]
        exact Engine.tagged_meet ih.tagged t r
      · intro c hc
        rw [hrun] at hc
        rcases Engine.mem_clips_meet ih.tagged hc with hold | ⟨target, shown, rfl, hshown, hle⟩
        · obtain ⟨shown, taken, later, h⟩ := ih.cached c hold
          refine ⟨shown, taken, later ++ [(t, r)], h.concat ?_⟩
          intro x hx
          rw [hmeet] at hx
          cases hstart : x.isSlotStart with
          | false => rfl
          | true =>
            rw [Engine.clips_of_slotStart hx hstart] at hc
            exact absurd hc List.not_mem_nil
        · refine ⟨shown, requests ++ [(t, .addClip c target)], [], ?_⟩
          exact ⟨(List.append_nil _).symm, ⟨requests, t, target, rfl, hshown⟩, hle,
            fun x hx => absurd hx List.not_mem_nil⟩

/-- **Along a whole run the tracker follows the clock.** -/
theorem follows_run {s : Session} (hfollows : s.engine.tracker.Follows)
    (requests : List (Moment × Request)) : (s.run requests).1.engine.tracker.Follows := by
  induction requests generalizing s with
  | nil => exact hfollows
  | cons request rest ih =>
    obtain ⟨t, r⟩ := request
    exact ih (follows_session hfollows t r)

/-- A cached clip is **fresh** when the clock shows `slot`: its slot is
not over, unless the clock has slipped past it since it was offered.  If
it was offered for the slot that the clock showed, and the clock has not
gone back since, its slot is `slot`. -/
def Fresh (s : Session) (requests : List (Moment × Request)) (clip : Clip) (slot : Slot) : Prop :=
  ∃ shown taken later, s.Cached requests clip shown taken later ∧
    ((s.run taken).1.slipsPast clip.slotStartMs later = false →
      slot.startMs ≤ clip.slotStartMs ∧
        (shown.startMs = clip.slotStartMs →
          (∀ x ∈ ((s.run taken).1.run later).2, x.isAnomaly = false) → slot = shown))

/-- The clock can be followed from where a cached clip was offered, since no slot has begun from
there on: the slot that was shown then is the current one, but for slips of the clock. -/
theorem Cached.fresh {s : Session} (hfollows : s.engine.tracker.Follows)
    {requests taken later : List (Moment × Request)} {clip : Clip} {shown : Slot}
    (h : s.Cached requests clip shown taken later) :
    ∃ slot, (s.run requests).1.engine.tracker.current = some slot ∧
      s.Fresh requests clip slot := by
  obtain ⟨before, offeredAt, target, htaken, hshown⟩ := h.offered
  have hrun : (s.run requests).1 = ((s.run taken).1.run later).1 := by
    rw [h.split, run_append]
  have htracker : (s.run taken).1.engine.tracker.current = some shown := by
    rw [htaken, run_concat, tracker_addClip]
    exact hshown
  have hfollows' := follows_run hfollows taken
  obtain ⟨slot, hslot⟩ := exists_current_run hfollows' htracker h.kept
  refine ⟨slot, hrun ▸ hslot, shown, taken, later, h, ?_⟩
  intro hslips
  obtain ⟨slot', hslot', hclock⟩ := clock_run hfollows' htracker h.inTime h.kept hslips
  obtain rfl : slot = slot' := Option.some.inj (hslot.symm.trans hslot')
  exact hclock

/-- **No audio of a slot that is over is played.**  Whatever is asked in
whatever order, and whatever the clock shows: a composite that is
reported is the mix of everything cached at that moment, all of it is for
the slot that the report names, and each clip is fresh. -/
theorem played_audio_fresh (mode : Mode) (config : Config) {requests : List (Moment × Request)}
    {t : Moment} {r : Request} {start : Nat} {audio : Composite}
    (h : (start, audio) ∈
      played ((run ⟨.initial mode config, true⟩ requests).1.meet t r).2.1) :
    let first : Session := ⟨.initial mode config, true⟩
    let next := (first.run (requests ++ [(t, r)])).1.engine
    next.Plays start audio ∧ ∃ slot, next.tracker.current = some slot ∧
      ∀ clip ∈ next.mixer.clips, first.Fresh (requests ++ [(t, r)]) clip slot := by
  intro first next
  have hfollows : first.engine.tracker.Follows := Tracker.follows_start _ _
  have hbefore := accounted_run hfollows rfl requests
  have hafter := accounted_run hfollows rfl (requests ++ [(t, r)])
  have hplays : next.Plays start audio := by
    cases hopen : (first.run requests).1.isOpen with
    | true =>
      have hrun : next = ((first.run requests).1.engine.meet t r).engine := by
        show (first.run (requests ++ [(t, r)])).1.engine = _
        rw [run_concat, meet_of_isOpen hopen]
      rw [meet_of_isOpen hopen] at h
      rw [hrun]
      exact Engine.plays_meet hbefore.tagged h
    | false =>
      rw [meet_of_closed hopen] at h
      exact absurd h List.not_mem_nil
  have hfresh : ∀ clip ∈ next.mixer.clips, ∃ slot, next.tracker.current = some slot ∧
      first.Fresh (requests ++ [(t, r)]) clip slot := by
    intro clip hclip
    obtain ⟨shown, taken, later, hcached⟩ := hafter.cached clip hclip
    exact hcached.fresh hfollows
  obtain ⟨clip, hclip⟩ := List.exists_mem_of_ne_nil _ hplays.ne_nil
  obtain ⟨slot, hslot, -⟩ := hfresh clip hclip
  refine ⟨hplays, slot, hslot, ?_⟩
  intro clip hclip
  obtain ⟨slot', hslot', h⟩ := hfresh clip hclip
  obtain rfl : slot = slot' := Option.some.inj (hslot.symm.trans hslot')
  exact h

/-- A clip that is offered in a slot of FT8 is played from that slot, when the mix is looked for
once the debouncing window has passed. -/
theorem played_audio_fresh_ft8 :
    let first : Session := ⟨.initial .ft8 {}, true⟩
    let requests : List (Moment × Request) :=
      [(0, .look), (0, .addClip ⟨1, #[0.25], 12000, 0, 0, none⟩ none)]
    ∃ audio, (0, audio) ∈ played ((first.run requests).1.meet 150 .look).2.1 ∧
      (first.run (requests ++ [(150, .look)])).1.engine.Plays 0 audio ∧
      ∃ slot, (first.run (requests ++ [(150, .look)])).1.engine.tracker.current = some slot ∧
        ∀ clip ∈ (first.run (requests ++ [(150, .look)])).1.engine.mixer.clips,
          first.Fresh (requests ++ [(150, .look)]) clip slot := by
  intro first requests
  have hstarts : (played ((first.run requests).1.meet 150 .look).2.1).map (·.1) = [0] := by
    decide +kernel
  -- From here on the run is not to be evaluated.
  clear_value requests
  have hmem : 0 ∈ (played ((first.run requests).1.meet 150 .look).2.1).map (·.1) := by
    rw [hstarts]
    exact List.mem_singleton.2 rfl
  obtain ⟨⟨start, audio⟩, haudio, rfl⟩ := List.mem_map.1 hmem
  exact ⟨audio, haudio, played_audio_fresh .ft8 {} haudio⟩

/-- What is played need not be for the slot that the clock shows: audio
for a later slot is not held back, and a clock that goes back takes no
audio with it. -/
theorem stray_audio :
    let first : Session := ⟨.initial .ft8 {}, true⟩
    let clip : Nat → Clip := fun start => ⟨1, #[0.25], 12000, 0, start, none⟩
    let playing : List (Moment × Request) → Moment → Request → List Nat × List Nat × Option Nat :=
      fun requests t r =>
        let (next, events, _) := (first.run requests).1.meet t r
        ((played events).map (·.1), next.engine.mixer.clips.map (·.slotStartMs),
          next.engine.tracker.current.map (·.startMs))
    playing [(0, .look), (0, .addClip (clip 15000) none)] 150 .look = ([15000], [15000], some 0) ∧
    playing [(15000, .look), (15000, .addClip (clip 15000) none), (5000, .look),
        (5000, .scheduleMix none)] 5150 .look = ([15000], [15000], some 0) := by
  decide +kernel

end Session

end SlotRadio
