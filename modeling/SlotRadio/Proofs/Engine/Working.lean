import SlotRadio.Proofs.Audio.Ledger
import SlotRadio.Proofs.Engine.Course
/-!
# The engine and its mixer

The engine never reaches into its mixer: whatever a request makes of the
mixer, a list of requests to the mixer makes of it as well (`Reaches`).
So what every mixer keeps, the mixer of every engine keeps
(`regular_run`).
-/

namespace SlotRadio

namespace Mixer

/-- The mixer `n` is what `m` becomes by being asked. -/
def Reaches (m n : Mixer) : Prop :=
  ∃ requests, (m.run requests).1 = n

variable {m n : Mixer}

/-- A mixer that is not asked stays what it is. -/
theorem reaches_refl (m : Mixer) : m.Reaches m := ⟨[], rfl⟩

/-- One request to the mixer leads from it to what it becomes. -/
theorem reaches_meet (m : Mixer) (r : MixerRequest) : m.Reaches (m.meet r).1 := ⟨[r], rfl⟩

/-- Requests may be cut anywhere: the second part is met by what the first has
made of the mixer. -/
theorem run_append_fst (m : Mixer) (first second : List MixerRequest) :
    (m.run (first ++ second)).1 = ((m.run first).1.run second).1 := by
  induction first generalizing m with
  | nil => rfl
  | cons r rest ih => exact ih (m.meet r).1

/-- What is reached from a mixer that is reached is reached. -/
theorem Reaches.trans {l : Mixer} (h : m.Reaches n) (k : n.Reaches l) : m.Reaches l := by
  obtain ⟨first, rfl⟩ := h
  obtain ⟨second, rfl⟩ := k
  exact ⟨first ++ second, run_append_fst m first second⟩

/-- One more request may be added to those that have led to a mixer. -/
theorem Reaches.meet (h : m.Reaches n) (r : MixerRequest) : m.Reaches (n.meet r).1 :=
  h.trans (reaches_meet n r)

/-- What every mixer keeps. -/
theorem Reaches.regular (h : m.Reaches n) (hm : m.Regular) : n.Regular := by
  obtain ⟨requests, rfl⟩ := h
  exact (kept_run hm.kept requests).regular

end Mixer

namespace Engine

variable {e : Engine} {m : Mixer}

/-- A mix is noted, and its playing too if it gives a composite: two operations of the mixer. -/
theorem reaches_mix (h : m.Reaches e.mixer) (plan : MixPlan) (t : Moment) :
    m.Reaches (e.mix plan t).1.1.mixer := by
  have hrecord := h.meet (.record (e.carryOut plan t))
  show m.Reaches
    (reportMix { e with mixer := (e.mixer.record (e.carryOut plan t)).1 } _ t.now).1.mixer
  unfold reportMix
  split
  · exact hrecord.meet (.beginPlayback t.now)
  · exact hrecord
  · exact hrecord

/-- Mixing again asks the mixer for a plan and tells it the result and the
beginning of the playback. -/
theorem reaches_mixAgain (h : m.Reaches e.mixer) (t : Moment) :
    m.Reaches (e.mixAgain t).1.mixer :=
  reaches_mix (h.meet (.planAgain _ .spectral)) _ t

/-- Arming a mix asks the mixer for it, and to mix at once if it is late, which it notes as any
other mix. -/
theorem reaches_scheduleMix (h : m.Reaches e.mixer) (t : Moment) (target : Option Nat) :
    m.Reaches (e.scheduleMix t target).1.1.mixer := by
  have hasked := h.meet (.schedule t.now target)
  unfold scheduleMix
  split
  · next mixer late heq =>
    simp only [Mixer.meet, heq] at hasked
    exact reaches_mix (e := { e with mixer }) hasked _ t
  · next mixer _ _ heq =>
    simp only [Mixer.meet, heq] at hasked
    exact hasked

/-- A clip that is offered is handed to the mixer, and what it leads to is
asked of it. -/
theorem reaches_addClip (h : m.Reaches e.mixer) (clip : Clip) (target : Option Nat) (t : Moment) :
    m.Reaches (e.addClip clip target t).1.1.mixer := by
  have hadd : m.Reaches (e.caching clip).mixer := h.meet (.add clip)
  have hoffered := offered_addClip e clip target t
  generalize e.addClip clip target t = result at hoffered
  cases hoffered with
  | late => exact h
  | unwanted => exact hadd
  | mixed => exact reaches_mixAgain hadd t
  | asked => exact reaches_scheduleMix hadd t target

/-- A removal asks the mixer to drop the operator, and to mix again if it was
heard. -/
theorem reaches_strikeOff {n : Nat} {t : Moment} {after : Emits} (h : e.strikeOff n t = .ok after) :
    e.mixer.Reaches after.1.mixer := by
  have hremove : e.mixer.Reaches (e.without n).mixer := e.mixer.reaches_meet (.remove n)
  obtain ⟨-, ⟨-, -, rfl⟩ | ⟨-, rfl⟩⟩ := strikeOff_cases h
  · exact reaches_mixAgain hremove t
  · exact hremove

/-- A mix at the deadline is asked of the mixer. -/
theorem reaches_forceMix (h : m.Reaches e.mixer) (t : Moment) :
    m.Reaches (e.forceMix t).1.mixer := by
  have htaken := h.meet (.takeWaiting .linear)
  unfold forceMix
  split
  · next mixer plan heq =>
    simp only [Mixer.meet, heq] at htaken
    exact reaches_mix (e := { e with mixer }) htaken plan t
  · exact h

/-- Whatever is released, the mixer changes by being asked. -/
theorem reaches_announce (h : m.Reaches e.mixer) (t : Moment) (rs : List Release) :
    m.Reaches (announce t e rs).1.mixer := by
  induction rs generalizing e with
  | nil => exact h
  | cons r rs ih =>
    unfold announce
    apply ih
    split
    · exact reaches_forceMix h t
    · exact h

/-- A mix whose time has come is asked of the mixer. -/
theorem reaches_mixDue (h : m.Reaches e.mixer) (t : Moment) : m.Reaches (e.mixDue t).1.mixer := by
  have htaken := h.meet (.takeIfDue t.now)
  unfold mixDue
  split
  · next mixer heq =>
    simp only [Mixer.meet, heq] at htaken
    exact reaches_mix (e := { e with mixer }) htaken _ t
  · exact h

/-- A reading that begins a slot asks the mixer to be cleared, and any other
one leaves it alone. -/
theorem reaches_follow (e : Engine) (now : Nat) : e.mixer.Reaches (e.follow now).1.mixer := by
  unfold follow
  split
  · next tracker slot previous _ =>
    show e.mixer.Reaches (Mixer.clear
      (if (e.schedule.beginSlot slot).2.any isDeadline then e.mixer.cancel.1 else e.mixer))
    by_cases hlate : (e.schedule.beginSlot slot).2.any isDeadline = true
    · rw [if_pos hlate]
      exact (e.mixer.reaches_meet .cancel).meet .clear
    · rw [if_neg hlate]
      exact e.mixer.reaches_meet .clear
  · exact e.mixer.reaches_refl
  · exact e.mixer.reaches_refl

/-- The moments that are due change the mixer by asking it. -/
theorem reaches_releaseDue (h : m.Reaches e.mixer) (t : Moment) :
    m.Reaches (e.releaseDue t).1.mixer :=
  reaches_announce (e := { e with schedule := (e.schedule.release t.now).1 }) h t _

/-- A look at the clock changes the mixer by asking it. -/
theorem reaches_tick (e : Engine) (t : Moment) : e.mixer.Reaches (e.tick t).1.mixer :=
  reaches_mixDue (reaches_releaseDue (reaches_follow e t.look) t) t

/-- **The engine only asks its mixer**, whatever it is asked itself: each request amounts to a run
of operations of the mixer, and what holds after all of those holds in every session. -/
theorem reaches_request (e : Engine) (t : Moment) (r : Request) :
    e.mixer.Reaches (e.meet t r).engine.mixer := by
  have hrefl := e.mixer.reaches_refl
  by_cases haside : r.isAside = true
  · obtain ⟨roster, said, hengine, -⟩ := meet_of_isAside haside e t
    rw [hengine]
    exact hrefl
  cases r with
  | addClip clip target => exact reaches_addClip hrefl clip target t
  | look => exact reaches_tick e t
  | dropAudio | shutdown => exact hrefl.meet .clear
  | strikeOff n =>
    simp only [meet]
    cases h : e.strikeOff n t with
    | ok after => exact reaches_strikeOff h
    | error fault => exact hrefl
  | scheduleMix target =>
    rw [(meet_scheduleMix e t target).1]
    exact reaches_scheduleMix hrefl t target
  | register | updateStation | command | heard | contact | slot | mixerStatus =>
    exact absurd rfl haside

end Engine

namespace Session

/-- **Along a session the mixer stays regular**, whether it is open or over. -/
theorem regular_session {s : Session} (h : s.engine.mixer.Regular) (t : Moment) (r : Request) :
    (s.meet t r).1.engine.mixer.Regular := by
  cases hopen : s.isOpen with
  | true =>
    rw [meet_of_isOpen hopen]
    exact (s.engine.reaches_request t r).regular h
  | false =>
    rw [meet_of_closed hopen]
    exact h

/-- In a session the cache always holds one clip for each operator, all
for one slot, and no more than may be. -/
theorem regular_run {s : Session} (h : s.engine.mixer.Regular)
    (requests : List (Moment × Request)) :
    (s.run requests).1.engine.mixer.Regular := by
  induction requests generalizing s with
  | nil => exact h
  | cons request rest ih => exact ih (regular_session h request.1 request.2)

end Session

end SlotRadio
