import Mathlib.Data.List.Induction
import SlotRadio.Proofs.Engine.Freshness
import SlotRadio.Proofs.Engine.Handling
import SlotRadio.Proofs.Engine.Working
/-!
# No clip is forgotten

A clip that is cached has been part of the last mix, or a mix of it is
due.

* `retained_run` — the stage of the mixer always says whether a mix is
  due and whether anything is cached, and without a mix that is due the
  last one was made of everything that is still cached;
* `oneMix_meet` — a request makes one mix at most, which leaves none due,
  and makes it before it reports a deadline;
* `exists_arming` — so between two mixes made by looking at the clock a
  mix has been asked for.
-/

namespace SlotRadio

namespace Engine

/-- After a mix nothing is cached, or the cache is what the mix was made
of, and the plan of the mix came to a result. -/
theorem Made.covers {f : Engine} {t : Moment} {done : Emits} (h : Made f t done) :
    done.1.mixer.clips = [] ∨ ∃ quality report,
      f.carryOut (f.mixer.currentPlan quality) t = .ok report ∧
        done = (f.mix (f.mixer.currentPlan quality) t).1 ∧
        done.1.mixer.clips = (f.mixer.currentPlan quality).clips := by
  obtain ⟨quality, rfl⟩ := h
  have hmix : (f.mix (f.mixer.currentPlan quality) t).1.1.mixer.clips =
      (f.mixer.record (f.carryOut (f.mixer.currentPlan quality) t)).1.clips := by
    show (reportMix _ _ t.now).1.mixer.clips = _
    unfold reportMix
    split <;> rfl
  cases hrun : f.carryOut (f.mixer.currentPlan quality) t with
  | error fault =>
    left
    rw [hmix, hrun]
    rfl
  | ok report =>
    refine .inr ⟨quality, report, hrun, rfl, ?_⟩
    have hrecord := Mixer.record_cases f.mixer (.ok report)
    rw [hmix, hrun]
    rcases hrecord with ⟨hsame, -⟩ | ⟨-, fault, hfault⟩
    · exact hsame.clips
    · -- A plan that came to a result has not failed.
      simp only [Mixer.record] at hfault
      split at hfault <;> cases hfault

/-- The state of an engine between two requests: the stage of the mixer
is right, and while a composite is played it and its beginning are on
record. -/
structure InOrder (e : Engine) : Prop where
  sound : e.mixer.Sound
  playing : e.mixer.stage = .mixed →
    e.lastMix.isSome = true ∧ e.mixer.playbackStart.isSome = true

theorem inOrder_initial (mode : Mode) (config : Config) : (initial mode config).InOrder where
  sound := Mixer.sound_empty config.mixer
  playing := fun h => by cases h

theorem Handled.inOrder {e f : Engine} {t : Moment} {r : Request} {events : List Event}
    (h : Handled e t r f events) (horder : e.InOrder) : f.InOrder := by
  cases h with
  | unmixed hplaying hm hlast hcarries hnone =>
    refine ⟨hm.sound horder.sound, ?_⟩
    intro hmixed
    obtain ⟨hbefore, hstart⟩ := hm.mixed hmixed
    rw [hlast hmixed, hstart]
    exact horder.playing hbefore
  | mixed hdue hcarries hmade =>
    refine ⟨hmade.ends.sound hdue hmade.ends.order_ne_nil, ?_⟩
    intro hmixed
    obtain ⟨hlast, hstart⟩ := hmade.ends.playing hmixed
    exact ⟨hlast, by rw [hstart]; rfl⟩

/-- **What one request mixes.**  There is at most one mix (`once`), and it
leaves none due (`leaves`).  A look at the clock makes only a mix that has
been due (`waited`).  A slot that begins leaves no mix due, and makes none
(`begins`).  After a deadline nothing is mixed and no mix is due; one that
was due has been made before (`deadline`). -/
structure OneMix (e : Engine) (t : Moment) (r : Request) : Prop where
  once : (outcomes (e.meet t r).events).length ≤ 1
  leaves : outcomes (e.meet t r).events ≠ [] → (e.meet t r).engine.mixer.dueAt = none
  waited : r = .look → outcomes (e.meet t r).events ≠ [] → e.mixer.dueAt.isSome = true
  begins : ∀ x ∈ (e.meet t r).events, x.isSlotStart = true →
    outcomes (e.meet t r).events = [] ∧ (e.meet t r).engine.mixer.dueAt = none
  deadline : ∀ xs slot ys, (e.meet t r).events = xs ++ .deadline slot :: ys →
    outcomes ys = [] ∧ (e.meet t r).engine.mixer.dueAt = none ∧
      (e.mixer.dueAt.isSome = true → (∀ x ∈ (e.meet t r).events, x.isSlotStart = false) →
        outcomes xs ≠ [])

/-- Only the deadline is reported as one. -/
theorem isDeadline_of_reportOf {r : Release} {slot : Slot} (h : reportOf r = .deadline slot) :
    isDeadline r = true := by
  cases r with
  | deadline s => rfl
  | checkpoint c => cases h
  | overrun id skipped lateMs => cases h

theorem deadline_not_mem_reports {rs : List Release} (h : ∀ r ∈ rs, isDeadline r = false)
    (slot : Slot) : .deadline slot ∉ rs.map reportOf := by
  intro hmem
  obtain ⟨r, hr, heq⟩ := List.mem_map.1 hmem
  exact absurd (h r hr) (by simp [isDeadline_of_reportOf heq])

/-- A look at the clock in which a slot begins makes no mix, as it has emptied the mixer before it
looks for one, and so nothing is due when it is over. -/
theorem tick_of_slotStart {e : Engine} {t : Moment} {x : Event} (hx : x ∈ (e.tick t).2)
    (hstart : x.isSlotStart = true) :
    outcomes (e.tick t).2 = [] ∧ (e.tick t).1.mixer.dueAt = none := by
  obtain ⟨before, later, done, -, htick, hmixes, hwaited, hnone, -⟩ := tick_cases e t
  have hdue : (e.follow t.look).1.mixer.dueAt = none := by
    rcases follow_cases e t.look with ⟨-, hdue, -⟩ | ⟨hanomaly, -⟩
    · exact hdue
    · obtain ⟨rest, hrest, hplays⟩ := onlyPlays_tick e t
      rw [hrest] at hx
      rcases List.mem_append.1 hx with hx | hx
      · have hx := hanomaly x hx
        cases x <;> simp [Event.isAnomaly, Event.isSlotStart] at hx hstart
      · have hx := (hplays.quiet.interim x hx).isSlotStart
        rw [hstart] at hx
        cases hx
  have hdone : done.2 = [] := by
    by_contra hne
    have hsome := (hwaited hne).1
    rw [hdue] at hsome
    cases hsome
  rw [htick]
  refine ⟨?_, hnone (.inl hdue)⟩
  simp [outcomes_follow, outcomes_reports, hdone]

/-- **A deadline comes after the mix that it finds waiting.** What the look released before it
reports no mix, so the mix in the midst of what is announced stands before the deadline. -/
theorem tick_deadline {e : Engine} {t : Moment} {xs ys : List Event} {slot : Slot}
    (hstarts : ∀ x ∈ (e.tick t).2, x.isSlotStart = false)
    (h : (e.tick t).2 = xs ++ .deadline slot :: ys) :
    outcomes ys = [] ∧ (e.tick t).1.mixer.dueAt = none ∧
      (e.mixer.dueAt.isSome = true → outcomes xs ≠ []) := by
  obtain ⟨before, later, done, -, htick, hmixes, hwaited, hnone, hforced⟩ := tick_cases e t
  rw [htick] at hstarts h ⊢
  obtain ⟨hanomaly, hfollow⟩ : (∀ x ∈ (e.follow t.look).2, x.isAnomaly = true) ∧
      (e.follow t.look).1 = { e with tracker := (e.tracker.observe t.look).1 } := by
    rcases follow_cases e t.look with ⟨⟨x, hx, hstart⟩, -⟩ | hfollow
    · have hx := hstarts x (by simp [hx])
      rw [hstart] at hx
      cases hx
    · exact hfollow
  have hfree : .deadline slot ∉ (e.follow t.look).2 := fun hmem => by
    have hx := hanomaly _ hmem
    cases hx
  have hmixing : .deadline slot ∉ done.2 := fun hmem => by
    have hx := hmixes.isMixing _ hmem
    cases hx
  have hmixer : (e.follow t.look).1.mixer = e.mixer := by rw [hfollow]
  have hexists : ∃ r ∈ before ++ later, isDeadline r = true := by
    have hmem : .deadline slot ∈ xs ++ .deadline slot :: ys := by simp
    rw [← h] at hmem
    simp only [List.mem_append, hfree, hmixing, false_or, or_false] at hmem
    obtain ⟨r, hr, heq⟩ : ∃ r ∈ before ++ later, reportOf r = .deadline slot := by
      rcases hmem with hmem | hmem
      · obtain ⟨r, hr, heq⟩ := List.mem_map.1 hmem
        exact ⟨r, List.mem_append_left _ hr, heq⟩
      · obtain ⟨r, hr, heq⟩ := List.mem_map.1 hmem
        exact ⟨r, List.mem_append_right _ hr, heq⟩
    exact ⟨r, hr, isDeadline_of_reportOf heq⟩
  by_cases hdone : done.2 = []
  · have hsilent := congrArg outcomes h
    simp only [outcomes_append, outcomes_follow, outcomes_reports, hdone] at hsilent
    refine ⟨(List.append_eq_nil_iff.1 hsilent.symm).2, hnone (.inr hexists), ?_⟩
    intro hsome
    exact absurd hdone (hforced (hmixer ▸ hsome) hexists)
  · have hbefore := deadline_not_mem_reports (hwaited hdone).2 slot
    obtain ⟨zs, hxs, hlater⟩ := append_cut_right h (by simp [hfree, hbefore, hmixing])
    have hsilent := congrArg outcomes hlater
    rw [outcomes_reports, outcomes_append] at hsilent
    refine ⟨(List.append_eq_nil_iff.1 hsilent.symm).2, hnone (.inr hexists), ?_⟩
    intro _
    have hmade := hmixes.outcomes_ne_nil hdone
    simp [hxs, hmade]

/-- A look at the clock makes only a mix that has been due, and due before it: a slot that begins
leaves none. -/
theorem waited_tick {e : Engine} {t : Moment} (h : outcomes (e.tick t).2 ≠ []) :
    e.mixer.dueAt.isSome = true := by
  obtain ⟨before, later, done, -, htick, -, hwaited, -⟩ := tick_cases e t
  have hdone : done.2 ≠ [] := by
    intro hnil
    apply h
    rw [htick]
    simp [outcomes_follow, outcomes_reports, hnil]
  have hsome := (hwaited hdone).1
  rcases follow_cases e t.look with ⟨-, hdue, -⟩ | ⟨-, hfollow⟩
  · rw [hdue] at hsome
    cases hsome
  · rw [hfollow] at hsome
    exact hsome

/-- **A request makes one mix at most**, in its place: what was due then has been waited for, none
falls into the beginning of a slot, and none follows a deadline. -/
theorem oneMix_meet {e : Engine} (hcoherent : e.mixer.Coherent) (t : Moment) (r : Request) :
    OneMix e t r := by
  have hhandled := handled_meet hcoherent t r
  constructor
  · cases hhandled with
    | unmixed _ _ _ _ hnone => simp [hnone]
    | mixed _ _ hmade => exact Nat.le_of_eq hmade.ends.length
  · intro hne
    cases hhandled with
    | unmixed _ _ _ _ hnone => exact absurd hnone hne
    | mixed hdue _ hmade => exact hmade.ends.dueAt hdue
  · rintro rfl hne
    exact waited_tick hne
  · intro x hx hstart
    obtain ⟨rfl, -⟩ := observe_of_slotStart hx hstart
    exact tick_of_slotStart hx hstart
  · intro xs slot ys h
    have hmem : .deadline slot ∈ (e.meet t r).events := by
      rw [h]
      simp
    obtain rfl : r = .look := by
      by_contra hr
      rcases (meet_of_ne_look hr e t).2 _ hmem with hx | ⟨n, a, c, y, -, -, hx⟩ <;> cases hx
    by_cases hstarts : ∀ x ∈ (e.tick t).2, x.isSlotStart = false
    · obtain ⟨hlater, hdue, hearlier⟩ := tick_deadline hstarts h
      exact ⟨hlater, hdue, fun hsome _ => hearlier hsome⟩
    · simp only [not_forall, Bool.not_eq_false] at hstarts
      obtain ⟨x, hx, hstart⟩ := hstarts
      obtain ⟨hsilent, hdue⟩ := tick_of_slotStart hx hstart
      have hcut : outcomes xs ++ outcomes ys = [] := by
        have hevents := congrArg outcomes h
        rw [outcomes_append] at hevents
        exact hevents.symm.trans hsilent
      refine ⟨(List.append_eq_nil_iff.1 hcut).2, hdue, ?_⟩
      intro _ hnever
      exact absurd ((hnever x hx).symm.trans hstart) (by simp)

end Engine

namespace Session

/-- Every clip of `clips` was part of the last mix that was made while
`requests` were met.  It was made when `r` was met: the engine was then in
a state `f` whose snapshot of the cache has the clips, running the
snapshot came to a result, and what the request left and reported is what
this mix leaves and reports. -/
def InLastMix (s : Session) (requests : List (Moment × Request)) (clips : List Clip) : Prop :=
  ∃ before t r after f quality report,
    requests = before ++ (t, r) :: after ∧
    Engine.carryOut f (f.mixer.currentPlan quality) t = .ok report ∧
    (s.run (before ++ [(t, r)])).1.engine = (f.mix (f.mixer.currentPlan quality) t).1.1 ∧
    outcomes ((s.run before).1.meet t r).2.1 = (f.mix (f.mixer.currentPlan quality) t).1.2 ∧
    outcomes ((s.run (before ++ [(t, r)])).1.run after).2 = [] ∧
    ∀ c ∈ clips, c ∈ (f.mixer.currentPlan quality).clips

/-- A request that makes no mix leaves the last one what it is, and what is cached after it was part
of that mix if it was cached before. -/
theorem InLastMix.concat {s : Session} {requests : List (Moment × Request)} {clips kept : List Clip}
    (h : s.InLastMix requests clips) {t : Moment} {r : Request}
    (hnone : outcomes ((s.run requests).1.meet t r).2.1 = []) (hkept : ∀ c ∈ kept, c ∈ clips) :
    s.InLastMix (requests ++ [(t, r)]) kept := by
  obtain ⟨before, u, q, after, f, quality, report, hsplit, hrun, hengine, hreported, hafter,
    hclips⟩ := h
  have hmid : ((s.run (before ++ [(u, q)])).1.run after).1 = (s.run requests).1 := by
    rw [hsplit, run_concat, run_append]
    rfl
  refine ⟨before, u, q, after ++ [(t, r)], f, quality, report, ?_, hrun, hengine, hreported,
    ?_, ?_⟩
  · rw [hsplit, List.append_assoc]
    rfl
  · rw [run_append, outcomes_append, hafter, hmid, run_cons, outcomes_append, hnone]
    rfl
  · intro c hc
    exact hclips c (hkept c hc)

/-- What a session keeps that was opened with an empty cache: without a
mix that is due, what is cached was part of the last one. -/
structure Retained (s : Session) (requests : List (Moment × Request)) : Prop where
  regular : (s.run requests).1.engine.mixer.Regular
  order : (s.run requests).1.engine.InOrder
  covered : (s.run requests).1.engine.mixer.clips ≠ [] →
    (s.run requests).1.engine.mixer.dueAt = none →
      s.InLastMix requests (s.run requests).1.engine.mixer.clips

/-- **Every request keeps the clips that it does not drop.** One that makes no mix leaves them in
the last one, as `InLastMix.concat` says; one that makes a mix has them all in its plan. -/
theorem Retained.concat {s : Session} {requests : List (Moment × Request)} (h : s.Retained requests)
    (t : Moment) (r : Request) : s.Retained (requests ++ [(t, r)]) := by
  have hrun := run_concat s requests t r
  have hregular : (s.run (requests ++ [(t, r)])).1.engine.mixer.Regular :=
    hrun ▸ regular_session h.regular t r
  cases hopen : (s.run requests).1.isOpen with
  | false =>
    have hmeet := meet_of_closed hopen t r
    rw [hmeet] at hrun
    refine ⟨hregular, hrun ▸ h.order, ?_⟩
    intro hne hdue
    rw [hrun] at hne hdue ⊢
    exact (h.covered hne hdue).concat (by rw [hmeet]; rfl) fun c hc => hc
  | true =>
    have hmeet := meet_of_isOpen hopen t r
    have hhandled := Engine.handled_meet h.regular.toCoherent t r
    rw [hmeet] at hrun
    have hengine : (s.run (requests ++ [(t, r)])).1.engine =
        ((s.run requests).1.engine.meet t r).engine := by rw [hrun]
    refine ⟨hregular, hengine ▸ hhandled.inOrder h.order, ?_⟩
    intro hne hdue
    cases hhandled with
    | unmixed hplaying hm hlast hcarries hnone =>
      rw [hengine] at hne hdue ⊢
      obtain ⟨hbefore, hsub⟩ := (hm.gathered hdue).resolve_left hne
      have hcached : (s.run requests).1.engine.mixer.clips ≠ [] := by
        obtain ⟨c, hc⟩ := List.exists_mem_of_ne_nil _ hne
        exact List.ne_nil_of_mem (hsub c hc)
      exact (h.covered hcached hbefore).concat (by rw [hmeet]; exact hnone) hsub
    | @mixed f g events _ _ hmade =>
      rw [hengine] at hne ⊢
      obtain ⟨quality, report, hresult, hdone, hsnapshot⟩ := hmade.covers.resolve_left hne
      obtain ⟨hleft, hreported⟩ := Prod.mk.inj hdone
      refine ⟨requests, t, r, [], f, quality, report, rfl, hresult, ?_, ?_, rfl, ?_⟩
      · rw [hengine]
        exact hleft
      · rw [hmeet]
        exact hreported
      · intro c hc
        exact hsnapshot ▸ hc

/-- So do any requests. -/
theorem retained_run {s : Session} (hregular : s.engine.mixer.Regular) (horder : s.engine.InOrder)
    (hempty : s.engine.mixer.clips = []) (requests : List (Moment × Request)) :
    s.Retained requests := by
  induction requests using List.reverseRecOn with
  | nil => exact ⟨hregular, horder, fun hne => absurd hempty hne⟩
  | append_singleton requests request ih => exact ih.concat request.1 request.2

/-- **A mix that is due has been asked for** since none was. By induction on the requests: the
arming stands among the earlier ones, or it is the last. -/
theorem exists_arming {s : Session} (hnone : s.engine.mixer.dueAt = none)
    {requests : List (Moment × Request)}
    (hsome : (s.run requests).1.engine.mixer.dueAt.isSome = true) :
    ∃ earlier t r later, requests = earlier ++ (t, r) :: later ∧
      (s.run earlier).1.engine.mixer.dueAt = none ∧
      (s.run (earlier ++ [(t, r)])).1.engine.mixer.dueAt.isSome = true := by
  induction requests using List.reverseRecOn with
  | nil =>
    rw [show (s.run []).1.engine.mixer.dueAt = none from hnone] at hsome
    cases hsome
  | append_singleton requests request ih =>
    obtain ⟨t, r⟩ := request
    cases hdue : (s.run requests).1.engine.mixer.dueAt with
    | none => exact ⟨requests, t, r, [], rfl, hdue, hsome⟩
    | some due =>
      obtain ⟨earlier, u, q, later, rfl, hbefore, hafter⟩ := ih (by rw [hdue]; rfl)
      exact ⟨earlier, u, q, later ++ [(t, r)], by simp, hbefore, hafter⟩

/-- After a request that mixes, or in which a slot begins, no mix is due, for the one calls for what
was due and the other drops it. -/
theorem dueAt_of_reported {s : Session} (hcoherent : s.engine.mixer.Coherent) {t : Moment}
    {r : Request} {x : Event} (hx : x ∈ (s.meet t r).2.1)
    (h : x.isOutcome = true ∨ x.isSlotStart = true) :
    (s.meet t r).1.engine.mixer.dueAt = none := by
  obtain ⟨hopen, hmem⟩ := meet_of_mem hx
  have hone := Engine.oneMix_meet hcoherent t r
  rw [meet_of_isOpen hopen]
  rcases h with houtcome | hstart
  · exact hone.leaves (List.ne_nil_of_mem (List.mem_filter.2 ⟨hmem, houtcome⟩))
  · exact (hone.begins x hmem hstart).2

/-- **No clip is forgotten.**  Whatever is asked of an engine in whatever
order, and whatever the clock shows: the stage of the mixer says whether
a mix is due and whether anything is cached, what is played is on record,
and without a mix that is due every cached clip was part of the last one.
The next request makes one mix at most, in its place.  And after it has
mixed, or a slot has begun, a look at the clock makes another mix only if
that has been asked for in between. -/
theorem no_clip_forgotten (mode : Mode) (config : Config) (requests : List (Moment × Request)) :
    let first : Session := ⟨.initial mode config, true⟩
    let e := (first.run requests).1.engine
    (e.mixer.dueAt.isSome = true ↔ e.mixer.stage = .waiting) ∧
      (e.mixer.stage = .empty ↔ e.mixer.clips = []) ∧
      (e.mixer.stage = .mixed → e.lastMix.isSome = true ∧ e.mixer.playbackStart.isSome = true) ∧
      (e.mixer.clips ≠ [] → e.mixer.dueAt = none → first.InLastMix requests e.mixer.clips) ∧
      ∀ t r, e.OneMix t r ∧ ∀ between later,
        let next := ((first.run requests).1.meet t r).1
        (∃ x ∈ ((first.run requests).1.meet t r).2.1,
          x.isOutcome = true ∨ x.isSlotStart = true) →
        (∃ x ∈ ((next.run between).1.meet later .look).2.1, x.isOutcome = true) →
        ∃ earlier u q rest, between = earlier ++ (u, q) :: rest ∧
          (next.run earlier).1.engine.mixer.dueAt = none ∧
          (next.run (earlier ++ [(u, q)])).1.engine.mixer.dueAt.isSome = true := by
  intro first e
  have hstart : first.engine.mixer.Regular := Mixer.regular_of_nothing (fun _ => rfl) rfl
  have hretained := retained_run hstart (Engine.inOrder_initial mode config) rfl requests
  have hcoherent : e.mixer.Coherent := hretained.regular.toCoherent
  have hholds := hretained.order.sound.holds
  rw [← hcoherent.clips_eq_nil_iff] at hholds
  refine ⟨hretained.order.sound.waits, hholds, hretained.order.playing, hretained.covered, ?_⟩
  intro t r
  refine ⟨Engine.oneMix_meet hcoherent t r, ?_⟩
  rintro between later next ⟨x, hx, hreported⟩ ⟨y, hy, houtcome⟩
  have hnone : next.engine.mixer.dueAt = none := dueAt_of_reported hcoherent hx hreported
  have hnext : (next.run between).1.engine.mixer.Regular :=
    regular_run (regular_session hretained.regular t r) between
  obtain ⟨-, hmem⟩ := meet_of_mem hy
  have hwaited : (next.run between).1.engine.mixer.dueAt.isSome = true :=
    (Engine.oneMix_meet hnext.toCoherent later .look).waited rfl
      (List.ne_nil_of_mem (List.mem_filter.2 ⟨hmem, houtcome⟩))
  exact exists_arming hnone hwaited

end Session

end SlotRadio
