import SlotRadio.Proofs.Audio.Minding
import SlotRadio.Proofs.Engine.Continuity
import SlotRadio.Proofs.Engine.HandOver
import SlotRadio.Proofs.Engine.Retention
import SlotRadio.Proofs.Engine.Working
/-!
# Taking an operator off the air

An operator that is struck off may be heard in the composite that is
played.  It is then mixed again, or a mix is due anyway, and none of the
composites to come has the operator in it.

* `minds_meet` — until there is another mix, every request leaves the
  mixer in a state in which the removal does not go unnoticed
  (`Mixer.Minds`), unless it falls silent: the last clip goes while a mix
  is due (`silences`);
* `absent_meet` — an operator without a clip is not heard until a clip of
  its own is taken;
* `leaves_the_air` — both together, for whole sessions;
* `stays_on_the_air` — a session that falls silent while the composite is
  still played.
-/

namespace SlotRadio

namespace Engine

variable {e : Engine} {n : Nat} {t : Moment}

/-! ## Steps without a mix -/

/-- Mixing again reports how the mix ended. -/
theorem outcomes_mixAgain_ne_nil (e : Engine) (t : Moment) : outcomes (e.mixAgain t).2 ≠ [] :=
  (ends_mix { e with mixer := (e.mixer.planAgain (e.playedMs t.now) .spectral).1 }
    .spectral t).outcomes_ne_nil

/-- A wish to mix what is cached leaves a mix due, or is met at once and reports how the mix
ended. -/
theorem dueAt_scheduleMix (hne : e.mixer.order ≠ []) {target : Option Nat}
    (hnone : outcomes (e.scheduleMix t target).1.2 = []) :
    (e.scheduleMix t target).1.1.mixer.dueAt.isSome = true := by
  rcases Mixer.schedule_cases e.mixer t.now target with ⟨hnil, -⟩ | ⟨counts, late, -, -, heq⟩ |
    ⟨at_, -, -, heq⟩
  · exact absurd hnil hne
  · have hends := ends_mix { e with mixer := { e.mixer.cancel.1 with counts } } .spectral t
    simp only [scheduleMix, heq] at hnone
    exact absurd hnone hends.outcomes_ne_nil
  · simp only [scheduleMix, heq]
    rfl

/-- A deadline that reports no mix has found none waiting. -/
theorem forceMix_of_silent (h : outcomes (e.forceMix t).2 = []) : e.forceMix t = (e, []) := by
  cases hdue : e.mixer.dueAt with
  | none => exact forceMix_of_none hdue t
  | some due =>
    have hmade := made_forceMix (e := e) (by rw [hdue]; rfl) t
    exact absurd h hmade.ends.outcomes_ne_nil

/-- A look at the clock that reports no mix has found none due. -/
theorem mixDue_of_silent (h : outcomes (e.mixDue t).2 = []) : e.mixDue t = (e, []) := by
  unfold mixDue Mixer.takeIfDue at h ⊢
  by_cases hdue : e.mixer.dueAt.any (· ≤ t.now) = true
  · have hends := ends_mix { e with mixer := { e.mixer with dueAt := none } } .spectral t
    rw [if_pos hdue] at h
    exact absurd h hends.outcomes_ne_nil
  · rw [if_neg hdue]

/-- A look at the clock that mixes nothing leaves the mixer as following
the clock has left it. -/
theorem mixer_tick_of_silent (h : outcomes (e.tick t).2 = []) :
    (e.tick t).1.mixer = (e.follow t.look).1.mixer := by
  have htick : e.tick t =
      (((announce t (e.released t) ((e.follow t.look).1.schedule.release t.now).2).1.mixDue t).1,
        (e.follow t.look).2 ++
          (announce t (e.released t) ((e.follow t.look).1.schedule.release t.now).2).2 ++
          ((announce t (e.released t) ((e.follow t.look).1.schedule.release t.now).2).1.mixDue
            t).2) := rfl
  rw [htick] at h ⊢
  simp only [outcomes_append, List.append_eq_nil_iff] at h
  obtain ⟨⟨-, hannounced⟩, hdue⟩ := h
  rw [mixDue_of_silent hdue]
  rcases announce_cases t (e.released t) ((e.follow t.look).1.schedule.release t.now).2 with
    heq | ⟨before, after, heq⟩
  · rw [heq]
    rfl
  · rw [heq] at hannounced ⊢
    simp only [outcomes_append, List.append_eq_nil_iff] at hannounced
    rw [forceMix_of_silent hannounced.1.2]
    rfl

/-! ## What keeps an operator minded -/

/-- The last clip goes while a mix is due, which is given up then. -/
def silences (e : Engine) : Request → Bool
  | .strikeOff k =>
    (e.roster.get? k).isSome && decide (e.mixer.stage = .waiting) && e.mixer.order == [k]
  | .register .. | .updateStation .. | .command .. | .heard _ | .addClip .. | .scheduleMix _
  | .dropAudio | .contact _ | .slot | .mixerStatus | .look | .shutdown => false

/-- A clip that leads to no mix has not been taken, and then everything stays in its place; or it
has been left to a mix that is due. -/
theorem minds_addClip (hsound : e.mixer.Sound) (hregular : e.mixer.Regular)
    (hminds : e.mixer.Minds n) {clip : Clip} {target : Option Nat}
    (hnone : outcomes (e.addClip clip target t).1.2 = []) :
    (e.addClip clip target t).1.1.mixer.Minds n := by
  cases hadmits : e.admits clip with
  | false =>
    obtain ⟨fault, heq⟩ := addClip_of_not_admits hadmits target t
    rw [heq]
    exact hminds
  | true =>
    have hrefused : Unwanted (e.mixer.add clip).2 →
        (e.addClip clip target t).1.1.mixer.Minds n := by
      intro hunwanted
      obtain ⟨reply, heq, -⟩ := addClip_of_unwanted hadmits hunwanted target t
      rw [heq]
      exact hminds.add hsound hregular hunwanted
    rcases Mixer.add_outcome e.mixer clip with ⟨-, hadd⟩ | ⟨-, -, hsnd⟩ |
      ⟨accepted, -, haccepted, hadd⟩
    · exact hrefused (.inr ⟨_, by rw [hadd]⟩)
    · exact hrefused hsnd
    · have hdup : accepted ≠ .duplicate := by
        rcases haccepted with ⟨rfl, -⟩ | ⟨rfl | rfl, -⟩ <;> simp
      by_cases hagain : accepted = .purgedStale ∨ e.mixer.stage ≠ .mixed
      · obtain ⟨heq, -⟩ := addClip_of_asked hadmits hadd hdup hagain target t
        have hturned := hregular.toCoherent.turnTo clip.slotStartMs
        rw [heq] at hnone ⊢
        exact .inl (dueAt_scheduleMix (hturned.order_store_ne_nil clip) hnone)
      · obtain ⟨hkept, hstage⟩ := not_or.1 hagain
        have hkind := (haccepted.resolve_left fun h => hkept h.1).1
        rw [addClip_of_mixed hadmits hadd hkind (not_not.1 hstage) target t] at hnone
        exact absurd hnone (outcomes_mixAgain_ne_nil _ t)

/-- Nor is a mix due any more if the last clip goes before it; that is the one case in which
striking an operator off silences the others, and it is excluded here. -/
theorem minds_strikeOff (hsound : e.mixer.Sound) (hregular : e.mixer.Regular)
    (hminds : e.mixer.Minds n) {k : Nat} (hsilences : e.silences (.strikeOff k) = false)
    {after : Emits} (h : e.strikeOff k t = .ok after) (hnone : outcomes after.2 = []) :
    after.1.mixer.Minds n := by
  obtain ⟨hregistered, ⟨-, -, rfl⟩ | ⟨hrest, rfl⟩⟩ := strikeOff_cases h
  · exact absurd hnone (outcomes_mixAgain_ne_nil _ t)
  · show (e.mixer.remove k).1.Minds n
    rcases Mixer.remove_cases e.mixer k with ⟨-, heq⟩ |
      ⟨hsome, ⟨hnil, hstage, heq⟩ | ⟨-, heq⟩⟩
    · rw [heq]
      exact hminds
    · -- The mix that is due would be given up.
      have hdue := hminds.resolve_right fun hmixed => hstage hmixed.1
      have hlast : e.mixer.order = [k] :=
        Mixer.order_eq_singleton hregular.toCoherent hsome (by rw [heq]; exact hnil)
      simp [silences, hregistered, hsound.waits.1 hdue, hlast] at hsilences
    · have hdue : e.mixer.dueAt.isSome = true := by
        refine hminds.resolve_right ?_
        intro hmixed
        exact hrest ⟨by rw [heq], hmixed.1⟩
      rw [heq]
      exact .inl hdue

/-- **A request that mixes nothing keeps an operator minded**, unless it falls silent: a look that
reports no mix and begins no slot leaves the mixer as it is, and so do the requests aside. -/
theorem minds_meet (hsound : e.mixer.Sound) (hregular : e.mixer.Regular) (hminds : e.mixer.Minds n)
    {r : Request} (hstarts : ∀ x ∈ (e.meet t r).events, x.isSlotStart = false)
    (hkept : r ≠ .dropAudio) (hopen : r ≠ .shutdown) (hsilences : e.silences r = false)
    (hnone : outcomes (e.meet t r).events = []) :
    (e.meet t r).engine.mixer.Minds n := by
  by_cases haside : r.isAside = true
  · obtain ⟨roster, said, hengine, -⟩ := meet_of_isAside haside e t
    rw [hengine]
    exact hminds
  cases r with
  | dropAudio => exact absurd rfl hkept
  | shutdown => exact absurd rfl hopen
  | look =>
    have hsame : (e.tick t).1.mixer = e.mixer := by
      rw [mixer_tick_of_silent hnone]
      rcases follow_cases e t.look with ⟨⟨x, hx, hstart⟩, -⟩ | ⟨-, hfollow⟩
      · have hmem : x ∈ (e.tick t).2 := by
          obtain ⟨rest, htick, -⟩ := onlyPlays_tick e t
          rw [htick]
          exact List.mem_append_left _ hx
        have hx := hstarts x hmem
        rw [hstart] at hx
        cases hx
      · rw [hfollow]
    show (e.tick t).1.mixer.Minds n
    rw [hsame]
    exact hminds
  | addClip clip target => exact minds_addClip hsound hregular hminds hnone
  | strikeOff k =>
    simp only [meet] at hnone ⊢
    cases h : e.strikeOff k t with
    | ok after =>
      rw [h] at hnone
      exact minds_strikeOff hsound hregular hminds hsilences h hnone
    | error fault => exact hminds
  | scheduleMix target =>
    obtain ⟨hengine, hevents⟩ := meet_scheduleMix e t target
    rw [hevents] at hnone
    rw [hengine]
    exact .inl (dueAt_scheduleMix (hminds.order_ne_nil hsound) hnone)
  | register | updateStation | command | heard | contact | slot | mixerStatus =>
    exact absurd rfl haside

/-! ## Not heard any more -/

/-- A mix that fails empties the mixer. -/
theorem clips_mix_of_fault {plan : MixPlan} {fault : MixFault}
    (h : (e.mix plan t).2 = some fault) : (e.mix plan t).1.1.mixer.clips = [] := by
  rcases Mixer.record_cases e.mixer (e.carryOut plan t) with ⟨-, outcome, hok⟩ |
    ⟨hclear, failure, herror⟩
  · simp only [mix, hok] at h
    cases h
  · simp only [mix, herror, hclear]
    rfl

theorem clips_scheduleMix_of_fault {target : Option Nat} {fault : MixFault}
    (h : (e.scheduleMix t target).2 = some fault) :
    (e.scheduleMix t target).1.1.mixer.clips = [] := by
  unfold scheduleMix at h ⊢
  split at h
  · next mixer late heq => exact clips_mix_of_fault h
  · cases h

/-- **An operator's clip that is refused is not cached.** A refusal may also tell of a mix that was
made at once and has failed, and that one leaves nothing cached at all. -/
theorem clips_addClip_of_refused {clip : Clip} {target : Option Nat} {fault : EngineFault}
    (h : (e.addClip clip target t).2 = .error fault) :
    ∀ c ∈ (e.addClip clip target t).1.1.mixer.clips, c ∈ e.mixer.clips := by
  have hoffered := offered_addClip e clip target t
  generalize e.addClip clip target t = result at hoffered h
  cases hoffered with
  | late => exact fun c hc => hc
  | unwanted _ _ hreply =>
    rcases hreply with rfl | ⟨refusal, hrefused⟩
    · cases h
    · exact Mixer.clips_add_of_refused hrefused
  | mixed => cases h
  | asked _ _ hreply =>
    rcases hreply with ⟨accepted, rfl⟩ | ⟨failure, hfailed⟩
    · cases h
    · -- The mix that was made at once has failed.
      intro c hc
      rw [clips_scheduleMix_of_fault hfailed] at hc
      exact absurd hc List.not_mem_nil

/-- In what an operator is heard, it has a clip. -/
theorem Plays.mem_order (hcoherent : e.mixer.Coherent) {start : Nat} {audio : Composite}
    (h : e.Plays start audio) (hn : n ∈ audio.operators) : n ∈ e.mixer.order := by
  obtain ⟨quality, report, hrun, houtcome⟩ := h.mixed
  rw [← hcoherent.operators_clips]
  exact (MixPlan.operators_run hrun houtcome).subset hn

/-- What is played has been mixed. -/
theorem Ends.stage_of_played {f : Engine} {now : Nat} {done : Emits} (h : Ends f now done)
    (hplayed : played done.2 ≠ []) : done.1.mixer.stage = .mixed := by
  cases h with
  | composite hrun houtcome => rfl
  | silence hrun houtcome => exact absurd rfl hplayed
  | failure => exact absurd rfl hplayed

/-- An operator that is struck off has no clip left: it is taken out first, and mixing the others
anew adds none. -/
theorem absent_strikeOff (hregular : e.mixer.Regular) {after : Emits}
    (h : e.strikeOff n t = .ok after) : n ∉ after.1.mixer.order := by
  have hgone : n ∉ (e.without n).mixer.order :=
    Mixer.not_mem_order_remove hregular.toCoherent n
  have hafter := ((reaches_strikeOff h).regular hregular).toCoherent
  have hremoved : (e.without n).mixer.Coherent :=
    ((e.mixer.reaches_meet (.remove n)).regular hregular).toCoherent
  obtain ⟨-, ⟨-, -, rfl⟩ | ⟨-, rfl⟩⟩ := strikeOff_cases h
  · intro hmem
    obtain ⟨c, hc, hn⟩ := hafter.mem_order_iff.1 hmem
    have hold := (fromCache_mixAgain (e.without n) t).sheds.mem hc
    exact hgone (hremoved.mem_order_iff.2 ⟨c, hold, hn⟩)
  · exact hgone

end Engine

/-- True for the audio of an operator. -/
def Request.offers (n : Nat) : Request → Bool
  | .addClip clip _ => clip.operator == n
  | .register .. | .strikeOff _ | .updateStation .. | .command .. | .heard _ | .scheduleMix _
  | .dropAudio | .contact _ | .slot | .mixerStatus | .look | .shutdown => false

namespace Engine

variable {e : Engine} {n : Nat} {t : Moment}

/-- A request that leaves an operator without a clip reports nothing in
which it is heard. -/
theorem unheard_of_absent (hregular : e.mixer.Regular) {r : Request}
    (habsent : n ∉ (e.meet t r).engine.mixer.order) :
    ∀ p ∈ played (e.meet t r).events, n ∉ p.2.operators := by
  intro p hp hn
  have hmet := ((e.reaches_request t r).regular hregular).toCoherent
  exact habsent ((plays_meet hregular.tagged hp).mem_order hmet hn)

/-- **An operator without a clip has none** until audio of its own is taken, for a clip that is
cached was cached before or is the one that is offered. -/
theorem absent_meet (hregular : e.mixer.Regular) (habsent : n ∉ e.mixer.order) {r : Request}
    (htaken : (r.offers n && (e.meet t r).reply.isOk) = false) :
    n ∉ (e.meet t r).engine.mixer.order := by
  intro hmem
  have hmet := ((e.reaches_request t r).regular hregular).toCoherent
  obtain ⟨c, hc, hn⟩ := hmet.mem_order_iff.1 hmem
  have hold : c ∈ e.mixer.clips := by
    rcases mem_clips_meet hregular.tagged hc with hold | ⟨target, slot, rfl, -, -⟩
    · exact hold
    · cases hreply : (e.addClip c target t).2 with
      | ok accepted =>
        simp [Request.offers, meet, hn, hreply, Except.map, Except.isOk, Except.toBool] at htaken
      | error fault => exact clips_addClip_of_refused hreply c hc
  exact habsent (hregular.toCoherent.mem_order_iff.2 ⟨c, hold, hn⟩)

end Engine

/-! ## Sessions -/

/-- A composite that is reported is among those played. -/
theorem mem_played_of_composite? {events : List Event} {x : Event} (hx : x ∈ events)
    {audio : Composite} (h : x.composite? = some audio) :
    ∃ start, (start, audio) ∈ played events := by
  cases x <;> simp only [Event.composite?, reduceCtorEq, Option.some.injEq] at h
  case mixReady start _ =>
    subst h
    exact ⟨start, List.mem_filterMap.2 ⟨_, hx, rfl⟩⟩

namespace Session

variable {s : Session} {n : Nat}

/-- At some time the last clip goes while a mix is due. -/
def silences (s : Session) : List (Moment × Request) → Bool
  | [] => false
  | (t, r) :: rest => s.engine.silences r || (s.meet t r).1.silences rest

/-- Audio of the operator is taken. -/
def takesAudioOf (s : Session) (n : Nat) : List (Moment × Request) → Bool
  | [] => false
  | (t, r) :: rest =>
    (r.offers n && (s.meet t r).2.2.isOk) || (s.meet t r).1.takesAudioOf n rest

/-- What has been shut down stays so; who is open at the end of a run was open at its beginning. -/
theorem isOpen_of_run {requests : List (Moment × Request)}
    (h : (s.run requests).1.isOpen = true) : s.isOpen = true := by
  induction requests generalizing s with
  | nil => exact h
  | cons request rest ih =>
    obtain ⟨t, r⟩ := request
    have hnext : (s.meet t r).1.isOpen = true := ih h
    cases hopen : s.isOpen with
    | true => rfl
    | false =>
      rw [meet_of_closed hopen] at hnext
      exact hopen.symm.trans hnext

/-- **A session that mixes nothing keeps an operator minded** while the
slot lasts, unless it falls silent. -/
theorem minds_run {requests : List (Moment × Request)} (horder : s.engine.InOrder)
    (hregular : s.engine.mixer.Regular) (hminds : s.engine.mixer.Minds n)
    (hopen : (s.run requests).1.isOpen = true)
    (hstarts : ∀ x ∈ (s.run requests).2, x.isSlotStart = false)
    (hkept : ∀ x ∈ requests, x.2 ≠ .dropAudio) (hsilences : s.silences requests = false)
    (hnone : outcomes (s.run requests).2 = []) : (s.run requests).1.engine.mixer.Minds n := by
  induction requests generalizing s with
  | nil => exact hminds
  | cons request rest ih =>
    obtain ⟨t, r⟩ := request
    have hmeet := meet_of_isOpen (isOpen_of_run hopen) t r
    have hlater : ((s.meet t r).1.run rest).1.isOpen = true := hopen
    have hnext := isOpen_of_run hlater
    have hstays : r ≠ .shutdown := by
      rintro rfl
      rw [hmeet] at hnext
      cases hnext
    obtain ⟨hkept, hrest⟩ := List.forall_mem_cons.1 hkept
    obtain ⟨hsilent, hheld⟩ := Bool.or_eq_false_iff.1 hsilences
    simp only [run_cons, outcomes_append, List.append_eq_nil_iff] at hnone
    simp only [run_cons, List.forall_mem_append] at hstarts
    have hengine : (s.meet t r).1.engine = (s.engine.meet t r).engine := by rw [hmeet]
    have hevents : (s.meet t r).2.1 = (s.engine.meet t r).events := by rw [hmeet]
    refine ih (s := (s.meet t r).1) ?_ ?_ ?_ hlater hstarts.2 hrest hheld hnone.2
    · rw [hengine]
      exact (Engine.handled_meet hregular.toCoherent t r).inOrder horder
    · exact regular_session hregular t r
    · rw [hengine]
      exact Engine.minds_meet horder.sound hregular hminds (hevents ▸ hstarts.1) hkept hstays
        hsilent (hevents ▸ hnone.1)

/-- **An operator without a clip is not heard** until audio of its own is taken. Each request keeps
the operator out of the list of those cached, and a composite names nobody else. -/
theorem unheard_run {requests : List (Moment × Request)} (hregular : s.engine.mixer.Regular)
    (habsent : n ∉ s.engine.mixer.order) (htaken : s.takesAudioOf n requests = false) :
    ∀ p ∈ played (s.run requests).2, n ∉ p.2.operators := by
  induction requests generalizing s with
  | nil => exact fun p hp => absurd hp List.not_mem_nil
  | cons request rest ih =>
    obtain ⟨t, r⟩ := request
    obtain ⟨hfirst, hrest⟩ := Bool.or_eq_false_iff.1 htaken
    have hmet : n ∉ (s.meet t r).1.engine.mixer.order ∧
        ∀ p ∈ played (s.meet t r).2.1, n ∉ p.2.operators := by
      cases hopen : s.isOpen with
      | true =>
        rw [meet_of_isOpen hopen] at hfirst ⊢
        have hgone := Engine.absent_meet hregular habsent hfirst
        exact ⟨hgone, Engine.unheard_of_absent hregular hgone⟩
      | false =>
        rw [meet_of_closed hopen]
        exact ⟨habsent, fun p hp => absurd hp List.not_mem_nil⟩
    rw [run_cons, played_append]
    intro p hp
    rcases List.mem_append.1 hp with hp | hp
    · exact hmet.2 p hp
    · exact ih (regular_session hregular t r) hmet.1 hrest p hp

/-- A composite that is reported has been mixed from clips of everyone heard in it, and they are
cached still: the mixer is in the state in which a composite plays. -/
theorem minds_of_played {t : Moment} {r : Request} {start : Nat} {audio : Composite}
    (hregular : s.engine.mixer.Regular) (h : (start, audio) ∈ played (s.meet t r).2.1)
    (hn : n ∈ audio.operators) : (s.meet t r).1.engine.mixer.Minds n := by
  cases hopen : s.isOpen with
  | false =>
    rw [meet_of_closed hopen] at h
    exact absurd h List.not_mem_nil
  | true =>
    rw [meet_of_isOpen hopen] at h ⊢
    have hmet := ((s.engine.reaches_request t r).regular hregular).toCoherent
    have hmem := (Engine.plays_meet hregular.tagged h).mem_order hmet hn
    have hreported := List.ne_nil_of_mem h
    rw [← played_outcomes] at hreported
    cases Engine.handled_meet hregular.toCoherent t r with
    | unmixed _ _ _ _ hnone => exact absurd (by rw [hnone, played_nil]) hreported
    | mixed _ _ hmade => exact .inr ⟨hmade.ends.stage_of_played hreported, hmem⟩

/-- An operator that has been struck off has no clip, and is not heard in
what the removal reports. -/
theorem absent_of_struckOff {t : Moment} (hregular : s.engine.mixer.Regular)
    (hdone : (s.meet t (.strikeOff n)).2.2.isOk = true) :
    s.isOpen = true ∧ n ∉ (s.meet t (.strikeOff n)).1.engine.mixer.order ∧
      ∀ p ∈ played (s.meet t (.strikeOff n)).2.1, n ∉ p.2.operators := by
  cases hopen : s.isOpen with
  | false =>
    rw [meet_of_closed hopen] at hdone
    cases hdone
  | true =>
    rw [meet_of_isOpen hopen] at hdone ⊢
    have hgone : n ∉ (s.engine.meet t (.strikeOff n)).engine.mixer.order := by
      simp only [Engine.meet] at hdone ⊢
      cases h : s.engine.strikeOff n t with
      | ok after => exact Engine.absent_strikeOff hregular h
      | error fault =>
        rw [h] at hdone
        cases hdone
    exact ⟨rfl, hgone, Engine.unheard_of_absent hregular hgone⟩

/-- **Who is struck off leaves the air.**  Say that `n` is heard in a
composite, that no slot has begun since and no other composite has been
reported, that the audio has not been dropped, and that `n` is struck
off.  Then, unless the session has fallen silent, another mix has been
reported since the composite in which `n` is not heard, or one is due;
and in any case `n` is not heard in anything reported later, until audio
of its own is taken. -/
theorem leaves_the_air (mode : Mode) (config : Config) {before between : List (Moment × Request)}
    {t u : Moment} {n : Nat} {r : Request} {start : Nat} {audio : Composite}
    (hplayed : (start, audio) ∈ played ((run ⟨.initial mode config, true⟩ before).1.meet t r).2.1)
    (hn : n ∈ audio.operators)
    (hlatest : ∀ x ∈ ((run ⟨.initial mode config, true⟩ (before ++ [(t, r)])).1.run between).2,
      x.isSlotStart = false ∧ x.composite? = none)
    (hkept : ∀ x ∈ between, x.2 ≠ .dropAudio)
    (hdone : ((run ⟨.initial mode config, true⟩ (before ++ (t, r) :: between)).1.meet u
      (.strikeOff n)).2.2.isOk = true) :
    let first : Session := ⟨.initial mode config, true⟩
    let next := (first.run (before ++ [(t, r)])).1
    let last := (next.run (between ++ [(u, .strikeOff n)])).1
    (next.silences (between ++ [(u, .strikeOff n)]) = false →
      (∃ x ∈ (next.run (between ++ [(u, .strikeOff n)])).2, x.isOutcome = true ∧
          ∀ other, x.composite? = some other → n ∉ other.operators) ∨
        last.engine.mixer.dueAt.isSome = true) ∧
      ∀ after, last.takesAudioOf n after = false →
        ∀ p ∈ played ((next.run between).1.run ((u, .strikeOff n) :: after)).2,
          n ∉ p.2.operators := by
  intro first next last
  have hempty : first.engine.mixer.Regular := Mixer.regular_of_nothing (fun _ => rfl) rfl
  have hnext : next = ((first.run before).1.meet t r).1 := run_concat first before t r
  have hregular : next.engine.mixer.Regular := regular_run hempty _
  have hmid : (first.run (before ++ (t, r) :: between)).1 = (next.run between).1 := by
    rw [hnext, run_append]
    rfl
  rw [hmid] at hdone
  have hlast : last = ((next.run between).1.meet u (.strikeOff n)).1 := run_concat next between ..
  obtain ⟨hopen, habsent, hunheard⟩ := absent_of_struckOff (regular_run hregular between) hdone
  have hminds : next.engine.mixer.Minds n :=
    hnext ▸ minds_of_played (regular_run hempty before) hplayed hn
  have hevents : (next.run (between ++ [(u, .strikeOff n)])).2 =
      (next.run between).2 ++ ((next.run between).1.meet u (.strikeOff n)).2.1 := by
    rw [run_append]
    show _ ++ (_ ++ []) = _
    rw [List.append_nil]
    rfl
  constructor
  · intro hheld
    by_cases hnone : outcomes (next.run (between ++ [(u, .strikeOff n)])).2 = []
    · right
      have horder : next.engine.InOrder :=
        (retained_run hempty (Engine.inOrder_initial mode config) rfl _).order
      have hopen' : last.isOpen = true := by
        rw [hlast, meet_of_isOpen hopen]
        rfl
      have hstarts : ∀ x ∈ (next.run (between ++ [(u, .strikeOff n)])).2,
          x.isSlotStart = false := by
        have hremoval : Request.strikeOff n ≠ .look := nofun
        have hquiet := Engine.quiet_meet hremoval (next.run between).1.engine u
        rw [hevents, meet_of_isOpen hopen]
        intro x hx
        rcases List.mem_append.1 hx with hx | hx
        · exact (hlatest x hx).1
        · exact (hquiet.interim x hx).isSlotStart
      have hkept' : ∀ x ∈ between ++ [(u, .strikeOff n)], x.2 ≠ .dropAudio := by
        intro x hx
        rcases List.mem_append.1 hx with hx | hx
        · exact hkept x hx
        · rw [List.mem_singleton.1 hx]
          nofun
      have hminds' : last.engine.mixer.Minds n :=
        minds_run horder hregular hminds hopen' hstarts hkept' hheld hnone
      exact hminds'.dueAt (hlast ▸ habsent)
    · left
      obtain ⟨x, hx⟩ := List.exists_mem_of_ne_nil _ hnone
      obtain ⟨hmem, houtcome⟩ := List.mem_filter.1 hx
      refine ⟨x, hmem, houtcome, ?_⟩
      intro other hother
      rw [hevents] at hmem
      rcases List.mem_append.1 hmem with hmem | hmem
      · rw [(hlatest x hmem).2] at hother
        cases hother
      · obtain ⟨start', hplayed'⟩ := mem_played_of_composite? hmem hother
        exact hunheard _ hplayed'
  · intro after htaken
    rw [hlast] at htaken
    rw [run_cons, played_append]
    intro p hp
    rcases List.mem_append.1 hp with hp | hp
    · exact hunheard p hp
    · exact unheard_run (regular_session (regular_run hregular between) u _) habsent htaken p hp

/-- An operator is struck off after another mix has been asked for: that
mix is still due, and the operator is not heard in it. -/
theorem leaves_the_air_waiting :
    let first : Session := ⟨.initial .ft8 {}, true⟩
    let station : Station := ⟨"K1ABC", "FN42", none, none, 1500, .ofList [0]⟩
    let clip : Nat → Clip := fun n => ⟨n, #[0.25, 0.25, 0.25, 0.25], 4, 0, 0, none⟩
    let before : List (Moment × Request) := [(0, .look), (0, .register 1 station),
      (0, .addClip (clip 1) none), (0, .addClip (clip 2) none)]
    let between : List (Moment × Request) := [(160, .scheduleMix none)]
    let next := (first.run (before ++ [(150, .look)])).1
    let last := (next.run (between ++ [(170, .strikeOff 1)])).1
    ∃ audio, (0, audio) ∈ played ((first.run before).1.meet 150 .look).2.1 ∧
      1 ∈ audio.operators ∧ last.engine.mixer.dueAt.isSome = true ∧
      played (last.run [(400, .look)]).2 ≠ [] ∧
      ∀ p ∈ played ((next.run between).1.run [(170, .strikeOff 1), (400, .look)]).2,
        1 ∉ p.2.operators := by
  intro first station clip before between next last
  have hplayed : (played ((first.run before).1.meet 150 .look).2.1).map
      (fun p => (p.1, p.2.operators)) = [(0, [1, 2])] := by
    decide +kernel
  have hlatest : ((first.run (before ++ [(150, .look)])).1.run between).2.all
      (fun x => !x.isSlotStart && x.composite?.isNone) = true := by
    decide +kernel
  have hdone : ((first.run (before ++ (150, .look) :: between)).1.meet 170
      (.strikeOff 1)).2.2.isOk = true := by
    decide +kernel
  have hheld : next.silences (between ++ [(170, .strikeOff 1)]) = false := by
    decide +kernel
  have hnone : (outcomes (next.run (between ++ [(170, .strikeOff 1)])).2).length = 0 := by
    decide +kernel
  have hagain : (played (last.run [(400, .look)]).2).length = 1 := by
    decide +kernel
  have htaken : last.takesAudioOf 1 [(400, .look)] = false := by
    decide +kernel
  have hkept : ∀ x ∈ between, x.2 ≠ .dropAudio := by
    intro x hx
    rw [List.mem_singleton.1 hx]
    nofun
  -- From here on the run is not to be evaluated.
  clear_value before between station clip
  obtain ⟨⟨start, audio⟩, hmem, hpair⟩ :=
    List.mem_map.1 (hplayed.symm ▸ List.mem_singleton.2 rfl : (0, [1, 2]) ∈ (played _).map _)
  obtain ⟨rfl, hoperators⟩ := Prod.mk.inj hpair
  have hn : 1 ∈ audio.operators := by
    rw [hoperators]
    simp
  obtain ⟨hnow, hlater⟩ := leaves_the_air .ft8 {} hmem hn
    (fun x hx => by simpa using List.all_eq_true.1 hlatest x hx) hkept hdone
  refine ⟨audio, hmem, hn, ?_, ?_, hlater _ htaken⟩
  · refine (hnow hheld).resolve_left ?_
    rintro ⟨x, hx, houtcome, -⟩
    have hnil := List.eq_nil_of_length_eq_zero hnone
    exact List.ne_nil_of_mem (List.mem_filter.2 ⟨hx, houtcome⟩) hnil
  · intro hnil
    rw [hnil] at hagain
    cases hagain

/-- A composite is played, another mix of it has been asked for, and its
only operator is struck off.  The mix is given up, nothing is reported,
and the composite goes on. -/
theorem stays_on_the_air :
    let first : Session := ⟨.initial .ft8 {}, true⟩
    let station : Station := ⟨"K1ABC", "FN42", none, none, 1500, .ofList [0]⟩
    let clip : Clip := ⟨1, #[0.25, 0.25, 0.25, 0.25], 4, 0, 0, none⟩
    let before : List (Moment × Request) :=
      [(0, .look), (0, .register 1 station), (0, .addClip clip none)]
    let between : List (Moment × Request) := [(200, .scheduleMix none)]
    let next := (first.run (before ++ [(150, .look)])).1
    let last := (next.run (between ++ [(200, .strikeOff 1)])).1
    (played ((first.run before).1.meet 150 .look).2.1).map (·.2.operators) = [[1]] ∧
      ((next.run between).1.meet 200 (.strikeOff 1)).2.2.isOk = true ∧
      (next.run (between ++ [(200, .strikeOff 1)])).2.length = 0 ∧
      last.engine.mixer.dueAt = none ∧
      next.silences (between ++ [(200, .strikeOff 1)]) = true := by
  decide +kernel

end Session

end SlotRadio
