import SlotRadio.Proofs.Audio.Admission
/-!
# Meeting a playback time

While clips for one playback time come in, a mix is asked for again and
again, and every wish puts off the mix that was due.  The playback time is
not missed by this: what is due is due after the last wish and no later than
the playback time (`Aims`), and at the playback time nothing is put off any
more.

* `dueTime_bounds` — where one wish puts the mix;
* `aims_meet`, `aims_run` — one request keeps to the playback time, and so
  does any course of them;
* `silent_run` — once the playback time has come and the mix has been taken,
  no mix is due again;
* `playback_time_met` — so what is due at the playback time is taken by the
  first look at or after it, and only once.
-/

namespace SlotRadio

namespace MixerRequest

/-- Requests that prepare one playback: clips are offered, mixes are asked
for with this playback time, and the mix that is due is taken. -/
def prepares (target : Nat) : MixerRequest → Bool
  | .add _ | .takeIfDue _ => true
  | .schedule _ wanted => wanted == some target
  | .remove _ | .clear | .cancel | .takeWaiting _ | .plan .. | .planAgain .. | .record _
  | .mixAll _ | .mixIfDue _ | .mixAgain _ | .beginPlayback _ => false

/-- The time of a wish to mix. -/
def askedAt? : MixerRequest → Option Nat
  | .schedule now _ => some now
  | _ => none

/-- The time of a wish to mix, or of a look at what is due. -/
def time? : MixerRequest → Option Nat
  | .schedule now _ | .takeIfDue now => some now
  | _ => none

/-- The time of the last wish to mix. -/
def lastAsked? (requests : List MixerRequest) : Option Nat :=
  requests.reverse.findSome? askedAt?

/-- The last wish is the last one of the rest, if there is one. -/
theorem lastAsked?_cons (r : MixerRequest) (rest : List MixerRequest) :
    lastAsked? (r :: rest) = (lastAsked? rest).or r.askedAt? := by
  simp [lastAsked?, List.findSome?_append]

/-- **What prepares a playback.** -/
theorem prepares_cases {target : Nat} {r : MixerRequest} (h : r.prepares target = true) :
    (∃ clip, r = .add clip) ∨ (∃ now, r = .schedule now (some target)) ∨
      ∃ now, r = .takeIfDue now := by
  cases r with
  | add clip => exact .inl ⟨clip, rfl⟩
  | schedule now wanted =>
    obtain rfl : wanted = some target := by simpa [prepares] using h
    exact .inr (.inl ⟨now, rfl⟩)
  | takeIfDue now => exact .inr (.inr ⟨now, rfl⟩)
  | _ => cases h

end MixerRequest

namespace Mixer

open MixerRequest

variable {m : Mixer} {target now : Nat}

/-! ## One wish -/

/-- A wish before the playback time puts the mix after the wish and no later
than the playback time, and puts it off for the window if there is time. -/
theorem dueTime_bounds {settings : MixerSettings} (hwindow : 0 < settings.windowMs)
    (h : now < target) :
    now < dueTime settings now (some target) ∧ dueTime settings now (some target) ≤ target ∧
      min target (now + settings.windowMs) ≤ dueTime settings now (some target) := by
  simp only [dueTime]
  split <;> omega

/-- A wish before the playback time. -/
theorem schedule_of_early (hne : m.order ≠ []) (h : now < target) :
    m.schedule now (some target) =
      ({ m.cancel.1 with
          dueAt := some (dueTime m.settings now (some target))
          stage := .waiting },
        .armed (dueTime m.settings now (some target))) := by
  have hearly : (some target).filter (· ≤ now) = none := by simp [h]
  unfold schedule
  rw [hearly]
  simp [hne, (sameCache_cancel m).settings]

/-- A wish at the playback time or after it. -/
theorem schedule_of_late (hne : m.order ≠ []) (h : target ≤ now) :
    (m.schedule now (some target)).2 = .overdue (now - target) ∧
      (m.schedule now (some target)).1.dueAt = none := by
  have hlate : (some target).filter (· ≤ now) = some target := by simp [h]
  unfold schedule
  rw [hlate]
  simp [hne]

/-- A look takes what is due by then, and nothing else. -/
theorem takeIfDue_of_due {due : Nat} (hdue : m.dueAt = some due) (h : due ≤ now) :
    m.takeIfDue now = ({ m with dueAt := none }, true) := by
  simp [takeIfDue, hdue, h]

/-- A look takes nothing where no mix is due. -/
theorem takeIfDue_of_none (hdue : m.dueAt = none) (now : Nat) : m.takeIfDue now = (m, false) := by
  simp [takeIfDue, hdue]

/-! ## Courses of requests -/

/-- The mixer keeps to the playback time `target`, with the last wish at
`asked`: it has clips, and what is due lies between the wish and the
playback time. -/
structure Aims (m : Mixer) (target : Nat) (asked : Option Nat) : Prop where
  regular : m.Regular
  window : 0 < m.settings.windowMs
  cached : m.order ≠ []
  bounds : ∀ due, m.dueAt = some due → ∃ now, asked = some now ∧ now < due ∧ due ≤ target ∧
    min target (now + m.settings.windowMs) ≤ due

variable {asked : Option Nat}

/-- Where clips are cached there may be some. -/
theorem Regular.room (h : m.Regular) (hne : m.order ≠ []) : 0 < m.settings.maxOperators :=
  Nat.pos_of_ne_zero fun hfull => hne (h.order_eq_nil hfull)

/-- No request changes the window. -/
theorem Aims.settings (h : m.Aims target asked) (r : MixerRequest) :
    0 < (m.meet r).1.settings.windowMs := by
  rw [settings_meet]
  exact h.window

/-- A clip that is offered leaves what is due as it is, or everything goes for it, because it
belongs to another slot. -/
theorem dueAt_add (h : m.Regular) (hne : m.order ≠ []) (clip : Clip) :
    (m.add clip).1.order ≠ [] ∧
      ((m.add clip).1.dueAt = m.dueAt ∨
        m.isElsewhere clip.slotStartMs = true ∧ (m.add clip).1.dueAt = none) := by
  have hadmission := admission_add h (h.room hne) clip
  generalize m.add clip = result at hadmission
  cases hadmission with
  | refused hwhy => exact ⟨hne, .inl rfl⟩
  | repeated hhere => exact ⟨hne, .inl rfl⟩
  | stored hhere haccepted =>
    exact ⟨(h.toCoherent.congr rfl rfl).order_store_ne_nil clip, .inl rfl⟩
  | purged helse =>
    have hturned := h.toCoherent.turnTo clip.slotStartMs
    rw [turnTo_of_elsewhere helse] at hturned
    exact ⟨hturned.order_store_ne_nil clip, .inr ⟨helse, rfl⟩⟩

/-- **A request keeps to the playback time.** Only scheduling sets when the mix is due, and before
the target it sets a time within the window that ends there. -/
theorem aims_meet (h : m.Aims target asked) {r : MixerRequest} (hr : r.prepares target = true) :
    (m.meet r).1.Aims target (r.askedAt?.or asked) := by
  refine ⟨h.regular.meet r, h.settings r, ?_, ?_⟩
  · rcases prepares_cases hr with ⟨clip, rfl⟩ | ⟨now, rfl⟩ | ⟨now, rfl⟩
    · exact (dueAt_add h.regular h.cached clip).1
    · show (m.schedule now (some target)).1.order ≠ []
      rw [(sameCache_schedule m now (some target)).order]
      exact h.cached
    · show (m.takeIfDue now).1.order ≠ []
      rw [(sameCache_takeIfDue m now).order]
      exact h.cached
  · rw [settings_meet]
    intro due hdue
    rcases prepares_cases hr with ⟨clip, rfl⟩ | ⟨now, rfl⟩ | ⟨now, rfl⟩
    · change (m.add clip).1.dueAt = some due at hdue
      rcases (dueAt_add h.regular h.cached clip).2 with hsame | ⟨-, hnone⟩
      · exact h.bounds due (hsame.symm.trans hdue)
      · rw [hnone] at hdue
        cases hdue
    · change (m.schedule now (some target)).1.dueAt = some due at hdue
      refine ⟨now, rfl, ?_⟩
      rcases Nat.lt_or_ge now target with hearly | hlate
      · rw [schedule_of_early h.cached hearly] at hdue
        obtain rfl := Option.some.inj hdue
        exact dueTime_bounds h.window hearly
      · rw [(schedule_of_late h.cached hlate).2] at hdue
        cases hdue
    · change (m.takeIfDue now).1.dueAt = some due at hdue
      have hkept : m.dueAt = some due := by
        unfold takeIfDue at hdue
        split at hdue
        · cases hdue
        · exact hdue
      exact h.bounds due hkept

/-- **Any course of requests keeps to the playback time.** -/
theorem aims_run (h : m.Aims target asked) {requests : List MixerRequest}
    (hall : ∀ r ∈ requests, r.prepares target = true) :
    (m.run requests).1.Aims target ((lastAsked? requests).or asked) := by
  induction requests generalizing m asked with
  | nil => exact h
  | cons r rest ih =>
    obtain ⟨hr, hrest⟩ := List.forall_mem_cons.1 hall
    have hnext := ih (aims_meet h hr) hrest
    rwa [← Option.or_assoc, ← lastAsked?_cons] at hnext

/-- **When the playback time has come and no mix is due, none is due any
more**, and who looks is told so. -/
theorem silent_run (h : m.Aims target asked) (hnone : m.dueAt = none)
    {requests : List MixerRequest} (hall : ∀ r ∈ requests, r.prepares target = true)
    (hlate : ∀ r ∈ requests, ∀ now, r.time? = some now → target ≤ now) :
    (m.run requests).1.dueAt = none ∧ ∀ p ∈ (m.run requests).2, p.2 ≠ .answered true := by
  induction requests generalizing m asked with
  | nil => exact ⟨hnone, fun p hp => absurd hp List.not_mem_nil⟩
  | cons r rest ih =>
    obtain ⟨hr, hrest⟩ := List.forall_mem_cons.1 hall
    obtain ⟨hnow, hlater⟩ := List.forall_mem_cons.1 hlate
    have hstep : (m.meet r).1.dueAt = none ∧ (m.meet r).2 ≠ .answered true := by
      rcases prepares_cases hr with ⟨clip, rfl⟩ | ⟨now, rfl⟩ | ⟨now, rfl⟩
      · refine ⟨?_, by simp [meet]⟩
        rcases (dueAt_add h.regular h.cached clip).2 with hsame | ⟨-, hgone⟩
        · exact hsame.trans hnone
        · exact hgone
      · exact ⟨(schedule_of_late h.cached (hnow now rfl)).2, by simp [meet]⟩
      · simp [meet, takeIfDue_of_none hnone, hnone]
    obtain ⟨hsilent, hreplies⟩ := ih (aims_meet h hr) hstep.1 hrest hlater
    refine ⟨hsilent, fun p hp => ?_⟩
    rcases List.mem_cons.1 hp with rfl | hp
    · exact hstep.2
    · exact hreplies p hp

/-- What is due at the playback time is taken by a look at or after it. -/
theorem Aims.takes (h : m.Aims target asked) (hdue : m.dueAt.isSome = true)
    (hnow : target ≤ now) : m.takeIfDue now = ({ m with dueAt := none }, true) := by
  obtain ⟨due, hdue⟩ := Option.isSome_iff_exists.1 hdue
  obtain ⟨-, -, -, hle, -⟩ := h.bounds due hdue
  exact takeIfDue_of_due hdue (Nat.le_trans hle hnow)

/-- **A playback time is not missed, however often a mix is asked for.**
Clips for one slot are cached and no mix is due; from now on clips are
offered, mixes are asked for with one playback time, and looks are taken, in
the order of time.  Then at every time what is due is due after the last
wish, no later than the playback time, and no earlier than the end of the
window after the wish or the playback time, whichever comes first.  A wish
before the playback time makes a mix due, and a clip for the slot leaves it
so; a wish at the playback time or after it is told how late it is, and no
mix is due.  If one is due, the first look at or after the playback time
takes it, and no look after that takes any. -/
theorem playback_time_met (settings : MixerSettings) (hwindow : 0 < settings.windowMs)
    (before : List MixerRequest) (hcached : ((empty settings).run before).1.clips ≠ [])
    (hidle : ((empty settings).run before).1.dueAt = none) (target : Nat)
    (requests : List MixerRequest) (hall : ∀ r ∈ requests, r.prepares target = true)
    (hordered : (requests.filterMap time?).Pairwise (· ≤ ·)) :
    let start := ((empty settings).run before).1
    (∀ first rest, requests = first ++ rest →
      let m := (start.run first).1
      (∀ due, m.dueAt = some due → ∃ asked, lastAsked? first = some asked ∧ asked < due ∧
        due ≤ target ∧ min target (asked + settings.windowMs) ≤ due) ∧
      (∀ now, now < target → ∃ due, (m.schedule now (some target)).2 = .armed due ∧
        (m.schedule now (some target)).1.dueAt = some due) ∧
      (∀ clip, m.isElsewhere clip.slotStartMs = false → (m.add clip).1.dueAt = m.dueAt) ∧
      ∀ now, target ≤ now → (m.schedule now (some target)).2 = .overdue (now - target) ∧
        (m.schedule now (some target)).1.dueAt = none) ∧
    ∀ first now rest, requests = first ++ .takeIfDue now :: rest → target ≤ now →
      (start.run first).1.dueAt.isSome = true →
        ((start.run first).1.takeIfDue now).2 = true ∧
          ∀ p ∈ (((start.run first).1.takeIfDue now).1.run rest).2, p.2 ≠ .answered true := by
  intro start
  have hsettings : start.settings = settings := settings_run _ before
  have hregular : start.Regular := regular_run_empty settings before
  have hstart : start.Aims target none := by
    refine ⟨hregular, hsettings ▸ hwindow,
      fun hnil => hcached (clips_of_order_nil hnil), fun due hdue => ?_⟩
    rw [hidle] at hdue
    cases hdue
  have haims : ∀ first rest, requests = first ++ rest →
      (start.run first).1.Aims target (lastAsked? first) := by
    rintro first rest rfl
    have hrun := aims_run hstart fun r hr => hall r (List.mem_append_left _ hr)
    rwa [Option.or_none] at hrun
  refine ⟨fun first rest hsplit => ?_, fun first now rest hsplit hnow hdue => ?_⟩
  · intro m
    have hm := haims first rest hsplit
    refine ⟨?_, ?_, ?_, fun now => schedule_of_late hm.cached⟩
    · have hbounds := hm.bounds
      rwa [settings_run, hsettings] at hbounds
    · intro now hearly
      exact ⟨_, by rw [schedule_of_early hm.cached hearly], by
        rw [schedule_of_early hm.cached hearly]⟩
    · intro clip hhere
      rcases (dueAt_add hm.regular hm.cached clip).2 with hsame | ⟨helse, -⟩
      · exact hsame
      · rw [hhere] at helse
        cases helse
  · have hm := haims first _ hsplit
    have htaken := hm.takes hdue hnow
    -- The look is a request too, so what it leaves keeps to the playback time.
    have hleft : ((start.run first).1.takeIfDue now).1.Aims target (lastAsked? first) :=
      aims_meet hm (r := .takeIfDue now) rfl
    rw [htaken] at hleft ⊢
    refine ⟨rfl, (silent_run hleft rfl ?_ ?_).2⟩
    · intro r hr
      exact hall r (by simp [hsplit, hr])
    · intro r hr later hlater
      rw [hsplit, List.filterMap_append, List.filterMap_cons] at hordered
      have hafter := (List.pairwise_append.1 hordered).2.1
      have hle := (List.pairwise_cons.1 hafter).1 later (List.mem_filterMap.2 ⟨r, hr, hlater⟩)
      exact Nat.le_trans hnow hle

/-- A second clip comes in when the lead has begun, and puts off the mix to
the playback time itself. -/
theorem playback_time_met_twice :
    let start := ((empty {}).run [.add ⟨1, #[0.25], 4, 0, 0, none⟩]).1
    let first : List MixerRequest := [.schedule 1000 (some 5000),
      .add ⟨2, #[0.25], 4, 0, 0, none⟩, .schedule 4960 (some 5000), .takeIfDue 4999]
    let rest : List MixerRequest := [.schedule 5100 (some 5000), .takeIfDue 5200]
    (start.run (first.take 1)).1.dueAt = some 4950 ∧ (start.run first).1.dueAt = some 5000 ∧
      ((start.run first).1.takeIfDue 5000).2 = true ∧
      (∀ p ∈ (((start.run first).1.takeIfDue 5000).1.run rest).2, p.2 ≠ .answered true) ∧
      ((start.run first).1.schedule 5100 (some 5000)).2 = .overdue 100 := by
  intro start first rest
  have hdue : (start.run first).1.dueAt = some 5000 := by decide +kernel
  have hcached : start.clips ≠ [] := List.cons_ne_nil _ _
  obtain ⟨hbounds, htaken⟩ := playback_time_met {} (by decide) _ hcached rfl 5000
    (first ++ .takeIfDue 5000 :: rest) (by decide +kernel) (by decide)
  obtain ⟨htrue, hnever⟩ := htaken first 5000 rest rfl (by decide) (by rw [hdue]; rfl)
  obtain ⟨-, -, -, hlate⟩ := hbounds first (.takeIfDue 5000 :: rest) rfl
  exact ⟨by decide +kernel, hdue, htrue, hnever, (hlate 5100 (by decide)).1⟩

end Mixer

end SlotRadio
