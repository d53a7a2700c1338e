import SlotRadio.Proofs.Engine.Mixing
/-!
# What a request does about mixing

Every request either makes no mix (`Mixer.Unmixed`) or ends one, after
which none is due: this is `Handled`, and `handled_meet` says it of every
request.

What a request does to the offset of the playing is part of this: it goes
on by the time played if the request changes what is played
(`changesPlaying`), and is kept otherwise, unless the cache is emptied
(`breaksOff`).
-/

namespace SlotRadio

namespace Engine

/-- True for a request that changes what is played: an operator's clip
comes to the others while their composite is played, or leaves them. -/
def changesPlaying (e : Engine) (t : Moment) : Request → Bool
  | .addClip clip target => e.replays clip target t
  | .strikeOff operator => e.strikes operator
  | .register .. | .updateStation .. | .command .. | .heard _ | .scheduleMix _ | .dropAudio
  | .contact _ | .slot | .mixerStatus | .look | .shutdown => false

/-- True for a request that empties the cache: a slot begins, a mix fails,
audio for another slot comes, or it is asked for. -/
def breaksOff (e : Engine) (t : Moment) (r : Request) : Bool :=
  ((e.meet t r).events.any fun x => x.isSlotStart || x.isFailure) || match r with
    | .addClip clip _ => e.purges clip
    | .dropAudio | .shutdown => true
    | .register .. | .strikeOff _ | .updateStation .. | .command .. | .heard _ | .scheduleMix _
    | .contact _ | .slot | .mixerStatus | .look => false

/-- What is played goes on in the mixer `m` where it is when `r` is met;
the time played is added to the offset if what is played changes. -/
def Carries (e : Engine) (t : Moment) (r : Request) (m : Mixer) : Prop :=
  e.breaksOff t r = true ∨
    e.mixer.Moved (if e.changesPlaying t r then e.playedMs t.now else 0) m

/-- **What a request does about mixing.**  It makes no mix, and then what
is played has not changed; or it makes one, and its outcome is the only
one reported. -/
inductive Handled (e : Engine) (t : Moment) (r : Request) : Engine → List Event → Prop
  | unmixed {f : Engine} {events : List Event} (hplaying : e.changesPlaying t r = false)
      (hm : e.mixer.Unmixed f.mixer) (hlast : f.mixer.stage = .mixed → f.lastMix = e.lastMix)
      (hcarries : e.Carries t r f.mixer) (hnone : outcomes events = []) : Handled e t r f events
  | mixed {f g : Engine} {events : List Event} (hdue : f.mixer.dueAt = none)
      (hcarries : e.Carries t r f.mixer) (hmade : Made f t (g, outcomes events)) :
      Handled e t r g events

/-- What is known of a step that makes one mix at most is what has to be known
of the request that led to it. -/
theorem Mixes.handled {m₀ : Mixer} {P : Mixer → Prop} {e f : Engine} {t : Moment} {r : Request}
    {after : Emits} {events : List Event}
    (h : Mixes m₀ (e.changesPlaying t r) P f t after) (hm₀ : e.mixer.Unmixed m₀)
    (hlast : m₀.stage = .mixed → f.lastMix = e.lastMix) (hP : ∀ m, P m → e.Carries t r m)
    (hevents : outcomes events = outcomes after.2) : Handled e t r after.1 events := by
  cases h with
  | none hmust hm hPm =>
    exact .unmixed hmust (hm₀.trans hm) (fun hmixed => hlast (hm.mixed hmixed).1) (hP _ hPm) hevents
  | @one m _ hdue hPm hmade =>
    have hevents : outcomes events = after.2 := hevents.trans hmade.ends.outcomes_eq
    have hmade : Made { f with mixer := m } t (after.1, outcomes events) := hevents ▸ hmade
    exact .mixed hdue (hP m hPm) hmade
  | @late m done _ hdue hPm hmade =>
    have hevents : outcomes events = done.2 := hevents.trans hmade.ends.outcomes_eq
    have hmade : Made { f with mixer := m } t (done.1, outcomes events) := hevents ▸ hmade
    exact .mixed hdue (hP m hPm) hmade

/-- A step that does not touch the mixer. -/
theorem handled_of_idle {e f : Engine} {t : Moment} {r : Request} {events : List Event}
    (hplaying : e.changesPlaying t r = false) (hmixer : f.mixer = e.mixer)
    (hlast : f.lastMix = e.lastMix) (hnone : outcomes events = []) : Handled e t r f events := by
  have hcarries : e.Carries t r f.mixer := by
    right
    rw [hplaying, hmixer]
    exact Mixer.moved_refl e.mixer
  exact .unmixed hplaying (hmixer ▸ .refl e.mixer) (fun _ => hlast) hcarries hnone

/-- A request that fails does nothing, and must not have been one that changes
what is played. -/
theorem handled_respond {e : Engine} {t : Moment} {r : Request} {outcome : Except EngineFault Emits}
    (hok : ∀ after, outcome = .ok after → Handled e t r after.1 after.2)
    (hplaying : ∀ fault, outcome = .error fault → e.changesPlaying t r = false) :
    Handled e t r (e.respond outcome).engine (e.respond outcome).events := by
  cases outcome with
  | ok after => exact hok after rfl
  | error fault => exact handled_of_idle (hplaying fault rfl) rfl rfl rfl

theorem outcomes_contacts (events : List ContactEvent) : outcomes (events.map .contact) = [] := by
  apply outcomes_eq_nil
  intro x hx
  obtain ⟨c, -, rfl⟩ := List.mem_map.1 hx
  rfl

/-- What the schedule releases is no outcome of a mix. -/
theorem outcomes_reports (rs : List Release) : outcomes (rs.map reportOf) = [] := by
  apply outcomes_eq_nil
  intro x hx
  obtain ⟨r, -, rfl⟩ := List.mem_map.1 hx
  cases r <;> rfl

theorem outcomes_refusals (refusals : List Refusal) : outcomes (refusals.map .refusal) = [] := by
  apply outcomes_eq_nil
  intro x hx
  obtain ⟨c, -, rfl⟩ := List.mem_map.1 hx
  rfl

/-- No mix is made before the clock has been followed: a slot that begins reports a late deadline,
refusals and what its operators do. -/
theorem outcomes_follow (e : Engine) (t : Moment) : outcomes (e.follow t.look).2 = [] := by
  unfold follow
  split
  · next slot previous _ =>
    show outcomes (_ ++ (.slotStart slot previous _ _ :: (_ ++ _))) = []
    rw [outcomes_append, outcomes_reports]
    show outcomes (_ ++ _) = []
    rw [outcomes_append, outcomes_refusals, outcomes_contacts]
    rfl
  · rfl
  · rfl

/-- Following the clock leaves the mixer alone, or empties it because a slot begins. The first
alternative shows in a report, the second in reports of anomalies only. -/
theorem follow_cases (e : Engine) (now : Nat) :
    (∃ x ∈ (e.follow now).2, x.isSlotStart = true) ∧
        (e.follow now).1.mixer.dueAt = none ∧ (e.follow now).1.mixer.stage = .empty ∧
        (e.follow now).1.mixer.order = [] ∨
      (∀ x ∈ (e.follow now).2, x.isAnomaly = true) ∧
        (e.follow now).1 = { e with tracker := (e.tracker.observe now).1 } := by
  cases hseen : (e.tracker.observe now).2 with
  | none =>
    rw [follow_none hseen]
    exact .inr ⟨fun x hx => absurd hx List.not_mem_nil, rfl⟩
  | some tick =>
    cases tick with
    | slotStart slot previous =>
      rw [follow_slotStart hseen]
      exact .inl ⟨⟨_, slotStart_mem_beginSlot _ slot previous, rfl⟩, rfl, rfl, rfl⟩
    | anomaly jumpMs slot =>
      rw [follow_anomaly hseen]
      refine .inr ⟨?_, rfl⟩
      intro x hx
      rw [List.mem_singleton.1 hx]
      rfl

/-- **A look at the clock makes one mix at most**, at the deadline or because
an armed one is due. -/
theorem handled_tick (e : Engine) (t : Moment) :
    Handled e t .look (e.tick t).1 (e.tick t).2 := by
  obtain ⟨before, later, done, -, htick, hmixes, -⟩ := tick_cases e t
  have hevents : outcomes (e.tick t).2 = outcomes done.2 := by
    rw [htick]
    simp [outcomes_follow, outcomes_reports]
  have hbegins : (∃ x ∈ (e.follow t.look).2, x.isSlotStart = true) →
      e.breaksOff t .look = true := by
    rintro ⟨x, hx, hstart⟩
    have hmem : x ∈ (e.tick t).2 := by
      rw [htick]
      simp [hx]
    exact Bool.or_eq_true_iff.2 (.inl (List.any_eq_true.2 ⟨x, hmem, by simp [hstart]⟩))
  have hfst : (e.tick t).1 = done.1 := by rw [htick]
  rw [hfst]
  rcases follow_cases e t.look with ⟨hstart, hdue, hstage, hnil⟩ | ⟨-, hfollow⟩
  · refine hmixes.handled (Mixer.unmixed_of_empty e.mixer hdue hstage hnil) ?_ ?_ hevents
    · intro hmixed
      rw [hstage] at hmixed
      cases hmixed
    · intro m _
      exact .inl (hbegins hstart)
  · have hmixer : (e.follow t.look).1.mixer = e.mixer := by rw [hfollow]
    have hlast : (e.released t).lastMix = e.lastMix := by
      show (e.follow t.look).1.lastMix = e.lastMix
      rw [hfollow]
    rw [hmixer] at hmixes
    exact hmixes.handled (.refl e.mixer) (fun _ => hlast) (fun m hm => .inr hm) hevents

/-- **Every request is handled so.** The requests about operators do not touch the mixer, dropping
all audio clears it, and the remaining four make the steps that `Mixes` lists. -/
theorem handled_meet {e : Engine} (hcoherent : e.mixer.Coherent) (t : Moment) (r : Request) :
    Handled e t r (e.meet t r).engine (e.meet t r).events := by
  by_cases haside : r.isAside = true
  · obtain ⟨roster, said, hengine, hevents⟩ := meet_of_isAside haside e t
    have hplaying : e.changesPlaying t r = false := by
      cases r <;> first | rfl | cases haside
    rw [hengine, hevents]
    exact handled_of_idle hplaying rfl rfl (outcomes_contacts said)
  cases r with
  | addClip clip target =>
    have hmixes := mixes_addClip hcoherent clip target t
    refine hmixes.handled (.refl e.mixer) (fun _ => rfl) ?_ rfl
    intro m hm
    refine hm.imp_left ?_
    intro hpurges
    simp [breaksOff, hpurges]
  | strikeOff n =>
    refine handled_respond ?_ ?_
    · intro after h
      exact (mixes_strikeOff h).handled (r := .strikeOff n) (.refl e.mixer) (fun _ => rfl)
        (fun m hm => .inr hm) rfl
    · intro fault h
      -- Only an operator that is not registered is not struck off.
      have hnone : e.roster.get? n = none := by
        unfold strikeOff at h
        split at h
        · next hnone => exact Option.isNone_iff_eq_none.1 hnone
        · dsimp only at h
          split at h <;> cases h
      simp [changesPlaying, strikes, hnone]
  | scheduleMix target =>
    obtain ⟨hengine, hevents⟩ := meet_scheduleMix e t target
    have hmixes := mixes_scheduleMix e (.inl rfl) t target
    rw [hengine, hevents]
    exact hmixes.handled (.refl e.mixer) (fun _ => rfl) (fun m hm => .inr hm) rfl
  | look => exact handled_tick e t
  | dropAudio =>
    exact .unmixed rfl (Mixer.unmixed_clear e.mixer) (fun h => by cases h) (.inl rfl) rfl
  | shutdown =>
    exact .unmixed rfl (Mixer.unmixed_clear e.mixer) (fun h => by cases h) (.inl rfl) rfl
  | register | updateStation | command | heard | contact | slot | mixerStatus =>
    exact absurd rfl haside

/-- **Only a look at the clock moves the schedule.**  Every other request
reports mixes, or what an operator does that obeys a command. -/
theorem meet_of_ne_look {r : Request} (hr : r ≠ .look) (e : Engine) (t : Moment) :
    (e.meet t r).engine.schedule = e.schedule ∧
      ∀ x ∈ (e.meet t r).events, x.isMixing = true ∨
        ∃ n a c y, e.roster.get? n = some a ∧ y ∈ (a.obey c).2 ∧ x = .contact y := by
  have hmixes : ∀ {m₀ must P f after}, f.schedule = e.schedule → Mixes m₀ must P f t after →
      after.1.schedule = e.schedule ∧ ∀ x ∈ after.2, x.isMixing = true ∨
        ∃ n a c y, e.roster.get? n = some a ∧ y ∈ (a.obey c).2 ∧ x = .contact y :=
    fun hf h => ⟨h.schedule.trans hf, fun x hx => .inl (h.isMixing x hx)⟩
  cases r with
  | addClip clip target =>
    obtain ⟨m₀, must, P, h⟩ := exists_mixes_addClip e clip target t
    exact hmixes rfl h
  | strikeOff n =>
    cases h : e.strikeOff n t with
    | error fault =>
      simp only [meet, h]
      exact ⟨rfl, fun _ hx => absurd hx List.not_mem_nil⟩
    | ok after =>
      simp only [meet, h]
      exact hmixes (f := { e with roster := e.roster.erase n }) rfl (mixes_strikeOff h)
  | scheduleMix target =>
    obtain ⟨hengine, hevents⟩ := meet_scheduleMix e t target
    rw [hengine, hevents]
    exact hmixes rfl (mixes_scheduleMix e (.inl rfl) t target)
  | command n c =>
    simp only [meet, command]
    split
    · exact ⟨rfl, fun _ hx => absurd hx List.not_mem_nil⟩
    · next a ha =>
      refine ⟨rfl, ?_⟩
      intro x hx
      obtain ⟨y, hy, rfl⟩ := List.mem_map.1 hx
      exact .inr ⟨n, a, c, y, ha, hy, rfl⟩
  | register | updateStation =>
    simp only [meet, register, updateStation]
    split
    · exact ⟨rfl, fun _ hx => absurd hx List.not_mem_nil⟩
    · split <;> exact ⟨rfl, fun _ hx => absurd hx List.not_mem_nil⟩
  | look => exact absurd rfl hr
  | heard | dropAudio | contact | slot | mixerStatus | shutdown =>
    exact ⟨rfl, fun _ hx => absurd hx List.not_mem_nil⟩

end Engine

end SlotRadio
