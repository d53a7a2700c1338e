import Mathlib.Data.List.Pairwise
import Mathlib.Tactic.ByContra
import SlotRadio.Engine.Request
import SlotRadio.Proofs.Contact.Course
/-!
# The course of an engine

What a request does to the parts of the engine that keep time and hold
the operators, and what it puts on the air.

* `OnlyPlays` — mixing and playing touch neither the clock nor the
  operators, and send nothing;
* `offered_addClip`, `strikeOff_cases`, `meet_of_isAside` — what becomes
  of a clip that is offered, of an operator that is struck off, and of the
  requests that concern neither clock nor audio;
* `onlyPlays_tick` — of a look at the clock this leaves `follow`, which
  has two cases (`follow_slotStart`, `follow_otherwise`);
* `onAir_beginSlot` — a slot that begins sends what its operators send;
* `quiet_meet` — every other request sends nothing and leaves the clock
  alone;
* `run_invariant`, `exists_step_of_mem_run` — a session keeps what its
  requests keep, and reports what they report.
-/

namespace SlotRadio

/-- The message that an event reports as sent. -/
def Event.transmission? : Event → Option Transmission
  | contact e => e.transmission?
  | slotStart .. | checkpoint _ | deadline _ | clockAnomaly .. | scheduleOverrun .. | refusal _
  | mixReady .. | mixUnderrun _ | mixOverrun _ | mixFailed .. => none

/-- The messages put on the air, in order. -/
def onAir (events : List Event) : List Transmission :=
  events.filterMap Event.transmission?

@[simp] theorem onAir_append (xs ys : List Event) : onAir (xs ++ ys) = onAir xs ++ onAir ys := by
  simp [onAir]

/-- What operators report as sent is what is on the air. -/
theorem onAir_contacts (events : List ContactEvent) :
    onAir (events.map .contact) = sentIn events := by
  simp only [onAir, sentIn, List.filterMap_map]
  rfl

/-- Reports of which none is of a message put nothing on the air. -/
theorem onAir_eq_nil {events : List Event} (h : ∀ e ∈ events, e.transmission? = none) :
    onAir events = [] :=
  List.filterMap_eq_nil_iff.2 h

/-- The composites that were reported as ready, each with the slot it was
reported for, in order. -/
def played (events : List Event) : List (Nat × Composite) :=
  events.filterMap fun
    | .mixReady start audio => some (start, audio)
    | _ => none

@[simp] theorem played_nil : played [] = [] := rfl

@[simp] theorem played_append (xs ys : List Event) :
    played (xs ++ ys) = played xs ++ played ys := by
  simp [played]

namespace Event

/-- True for the report that a slot began. -/
def isSlotStart : Event → Bool
  | slotStart .. => true
  | _ => false

/-- True for the report that the clock went back. -/
def isAnomaly : Event → Bool
  | clockAnomaly .. => true
  | _ => false

/-- True for a report of what is due in a slot or of its audio. -/
def isRoutine : Event → Bool
  | checkpoint _ | deadline _ | scheduleOverrun .. | mixReady .. | mixUnderrun _ | mixOverrun _
  | mixFailed .. => true
  | slotStart .. | clockAnomaly .. | contact _ | refusal _ => false

/-- Neither a mix nor a checkpoint puts a message on the air. -/
theorem transmission?_of_isRoutine {x : Event} (h : x.isRoutine = true) :
    x.transmission? = none := by
  cases x <;> simp_all [isRoutine, Event.transmission?]

/-- A report that is made between two slots: it is a routine one, or an
operator reports something other than a message sent. -/
def IsInterim (x : Event) : Prop :=
  x.isRoutine = true ∨ ∃ c, x = .contact c ∧ c.transmission? = none

variable {x : Event}

/-- What is reported between two slots is never a message on the air. -/
theorem IsInterim.transmission? (h : x.IsInterim) : x.transmission? = none := by
  rcases h with h | ⟨c, rfl, hc⟩
  · exact transmission?_of_isRoutine h
  · exact hc

/-- What is reported between two slots is not the beginning of one. -/
theorem IsInterim.isSlotStart (h : x.IsInterim) : x.isSlotStart = false := by
  rcases h with h | ⟨c, rfl, -⟩
  · cases x <;> simp_all [isRoutine, Event.isSlotStart]
  · rfl

end Event

/-- A message is on the air exactly if an operator has reported it as sent. -/
theorem mem_onAir {events : List Event} {t : Transmission} :
    t ∈ onAir events ↔ .contact (.transmitted t) ∈ events := by
  constructor
  · intro h
    obtain ⟨e, he, ht⟩ := List.mem_filterMap.1 h
    cases e <;> simp only [Event.transmission?, reduceCtorEq] at ht
    case contact e =>
      cases e <;> simp only [ContactEvent.transmission?, reduceCtorEq, Option.some.injEq] at ht
      exact ht ▸ he
  · intro h
    exact List.mem_filterMap.2 ⟨_, h, rfl⟩

namespace Roster

/-- Putting an operator into its place in the roster brings in this operator
and no other. -/
theorem mem_place {n : Nat} {a : Automaton} {l : List (Nat × Automaton)} {x : Nat × Automaton}
    (h : x ∈ place n a l) : x = (n, a) ∨ x ∈ l := by
  induction l with
  | nil => exact .inl (List.mem_singleton.1 h)
  | cons y l ih =>
    unfold place at h
    split at h
    · exact List.mem_cons.1 h
    · split at h
      · rcases List.mem_cons.1 h with h | h
        · exact .inl h
        · exact .inr (List.mem_cons_of_mem _ h)
      · rcases List.mem_cons.1 h with rfl | h
        · exact .inr (by simp)
        · exact (ih h).imp_right (List.mem_cons_of_mem _)

/-- **The automaton of an operator** is the one listed under its number. -/
theorem get?_eq_some_iff {r : Roster} {n : Nat} {a : Automaton} :
    r.get? n = some a ↔ (n, a) ∈ r.toList := by
  unfold get?
  constructor
  · intro h
    obtain ⟨⟨m, b⟩, hfind, rfl⟩ := Option.map_eq_some_iff.1 h
    have hm : m = n := by simpa using List.find?_some hfind
    exact hm ▸ List.mem_of_find?_eq_some hfind
  · intro h
    have hsome : (r.toList.find? (·.1 == n)).isSome = true :=
      List.find?_isSome.2 ⟨_, h, by simp⟩
    obtain ⟨⟨m, b⟩, hfind⟩ := Option.isSome_iff_exists.1 hsome
    have hm : m = n := by simpa using List.find?_some hfind
    obtain rfl := hm
    have hmem := List.mem_of_find?_eq_some hfind
    have hab : b = a := by
      -- Two entries under one number would be out of order.
      by_contra hne
      have hpair : r.toList.Pairwise fun x y : Nat × Automaton => x.1 ≠ y.1 :=
        r.ascending.imp Nat.ne_of_lt
      have hsymm : Std.Symm fun x y : Nat × Automaton => x.1 ≠ y.1 := ⟨fun _ _ h => h.symm⟩
      exact hpair.forall hmem h (by simpa using hne) rfl
    rw [hfind, hab]
    rfl

end Roster

/-- The frames that a request brings. -/
def Request.frames : Request → List Frame
  | .heard f => [f]
  | .register .. | .strikeOff _ | .updateStation .. | .command .. | .addClip .. | .scheduleMix _
  | .dropAudio | .contact _ | .slot | .mixerStatus | .look | .shutdown => []

/-- True for a request that has nothing to do with the clock or the
audio. -/
def Request.isAside : Request → Bool
  | .register .. | .updateStation .. | .command .. | .heard _ | .contact _ | .slot
  | .mixerStatus => true
  | .strikeOff _ | .addClip .. | .scheduleMix _ | .dropAudio | .look | .shutdown => false

namespace Engine

/-! ## Mixing and playing -/

/-- The clock, the operators and the settings of two engines are one. -/
structure SameRadio (e f : Engine) : Prop where
  config : f.config = e.config
  mode : f.mode = e.mode
  tracker : f.tracker = e.tracker
  roster : f.roster = e.roster

theorem SameRadio.refl (e : Engine) : SameRadio e e := ⟨rfl, rfl, rfl, rfl⟩

/-- What two steps leave alone is left alone by both together. -/
theorem SameRadio.trans {e f g : Engine} (h : SameRadio e f) (k : SameRadio f g) :
    SameRadio e g where
  config := k.config.trans h.config
  mode := k.mode.trans h.mode
  tracker := k.tracker.trans h.tracker
  roster := k.roster.trans h.roster

/-- What a step does that only mixes and plays: it leaves the radio alone
and reports the routine. -/
def OnlyPlays (e : Engine) (after : Emits) : Prop :=
  SameRadio e after.1 ∧ ∀ x ∈ after.2, x.isRoutine = true

/-- To do nothing is to do nothing but play. -/
theorem onlyPlays_refl (e : Engine) : OnlyPlays e (e, []) :=
  ⟨.refl e, fun _ hx => absurd hx List.not_mem_nil⟩

/-- The mixer and the schedule are not part of the radio. -/
theorem OnlyPlays.of_mixer {e : Engine} {mixer : Mixer} {after : Emits}
    (h : OnlyPlays { e with mixer } after) : OnlyPlays e after :=
  ⟨⟨h.1.config, h.1.mode, h.1.tracker, h.1.roster⟩, h.2⟩

/-- The schedule may have been moved on before: it is no part of the radio. -/
theorem OnlyPlays.of_schedule {e : Engine} {schedule : Schedule} {after : Emits}
    (h : OnlyPlays { e with schedule } after) : OnlyPlays e after :=
  ⟨⟨h.1.config, h.1.mode, h.1.tracker, h.1.roster⟩, h.2⟩

/-- A step that only puts another mixer in place does nothing but play. -/
theorem onlyPlays_mixer (e : Engine) (mixer : Mixer) : OnlyPlays e ({ e with mixer }, []) :=
  (onlyPlays_refl { e with mixer }).of_mixer

/-- A routine report may come before what is only played. -/
theorem OnlyPlays.report {e : Engine} {after : Emits} (h : OnlyPlays e after) {x : Event}
    (hx : x.isRoutine = true) : OnlyPlays e (after.1, x :: after.2) :=
  ⟨h.1, List.forall_mem_cons.2 ⟨hx, h.2⟩⟩

/-- Two steps after each other do nothing but play if each of them does,
wherever the first one leads to. -/
theorem OnlyPlays.andThen {e : Engine} {first : Emits} {next : Engine → Emits}
    (h : OnlyPlays e first) (k : ∀ f, OnlyPlays f (next f)) : OnlyPlays e (first.andThen next) := by
  refine ⟨h.1.trans (k first.1).1, ?_⟩
  intro x hx
  rcases List.mem_append.1 hx with hx | hx
  · exact h.2 x hx
  · exact (k first.1).2 x hx

/-- However a mix ended, reporting it does nothing but play. -/
theorem onlyPlays_reportMix (e : Engine) (outcome : Except MixFault MixResult) (now : Nat) :
    OnlyPlays e (e.reportMix outcome now) := by
  unfold reportMix
  split <;> exact ⟨⟨rfl, rfl, rfl, rfl⟩, by simp [Event.isRoutine]⟩

/-- A mix does nothing but play, be it in time or not. -/
theorem onlyPlays_mix (e : Engine) (plan : MixPlan) (t : Moment) :
    OnlyPlays e (e.mix plan t).1 :=
  (onlyPlays_reportMix _ _ t.now).of_mixer

/-- Mixing again from where the playing has got to does nothing but play. -/
theorem onlyPlays_mixAgain (e : Engine) (t : Moment) : OnlyPlays e (e.mixAgain t) :=
  (onlyPlays_mix _ _ t).of_mixer

/-- Arming a mix does nothing but play: it is made at once if it is late, and
waits otherwise. -/
theorem onlyPlays_scheduleMix (e : Engine) (t : Moment) (target : Option Nat) :
    OnlyPlays e (e.scheduleMix t target).1 := by
  unfold scheduleMix
  split
  · next mixer late h => exact ((onlyPlays_mix { e with mixer } _ t).report rfl).of_mixer
  · exact onlyPlays_mixer e _

/-- The engine whose mixer has been offered a clip. -/
def caching (e : Engine) (clip : Clip) : Engine :=
  { e with mixer := (e.mixer.add clip).1 }

/-- **What becomes of a clip that is offered to the engine.**  It comes
too late, or is put to the mixer.  Then it is not wanted, or it is mixed
into what is played, or a mix is asked for. -/
inductive Offered (e : Engine) (clip : Clip) (target : Option Nat) (t : Moment) :
    Emits × Except EngineFault Acceptance → Prop
  | late {fault : EngineFault} : Offered e clip target t ((e, []), .error fault)
  | unwanted {slot : Slot} {reply : Except EngineFault Acceptance}
      (hslot : e.tracker.current = some slot) (hle : slot.startMs ≤ clip.slotStartMs)
      (hreply : reply = .ok .duplicate ∨ ∃ fault, (e.mixer.add clip).2 = .error fault) :
      Offered e clip target t ((e.caching clip, []), reply)
  | mixed {slot : Slot} {accepted : Acceptance} (hslot : e.tracker.current = some slot)
      (hle : slot.startMs ≤ clip.slotStartMs) :
      Offered e clip target t ((e.caching clip).mixAgain t, .ok accepted)
  | asked {slot : Slot} {reply : Except EngineFault Acceptance}
      (hslot : e.tracker.current = some slot) (hle : slot.startMs ≤ clip.slotStartMs)
      (hreply : (∃ accepted, reply = .ok accepted) ∨
        ∃ fault, ((e.caching clip).scheduleMix t target).2 = some fault) :
      Offered e clip target t (((e.caching clip).scheduleMix t target).1, reply)

/-- What becomes of a clip that is offered, in one of the ways that `Offered`
lists. -/
theorem offered_addClip (e : Engine) (clip : Clip) (target : Option Nat) (t : Moment) :
    Offered e clip target t (e.addClip clip target t) := by
  unfold addClip
  split
  · exact .late
  · next slot hslot =>
    split
    · exact .late
    · next hlate =>
      have hle := Nat.le_of_not_lt hlate
      dsimp only
      split
      · next mixer fault hadd =>
        have hcaching : { e with mixer } = e.caching clip := by rw [caching, hadd]
        rw [hcaching]
        exact .unwanted hslot hle (.inr ⟨fault, by rw [hadd]⟩)
      · next mixer accepted hadd =>
        have hcaching : { e with mixer } = e.caching clip := by rw [caching, hadd]
        rw [hcaching]
        split
        · next hdup => exact .unwanted hslot hle (.inl (by rw [hdup]))
        · split
          · exact .mixed hslot hle
          · split
            · next done hdone =>
              have hfst : done = ((e.caching clip).scheduleMix t target).1 := by rw [hdone]
              rw [hfst]
              exact .asked hslot hle (.inl ⟨accepted, rfl⟩)
            · next done fault hdone =>
              have hfst : done = ((e.caching clip).scheduleMix t target).1 := by rw [hdone]
              rw [hfst]
              exact .asked hslot hle (.inr ⟨fault, by rw [hdone]⟩)

/-- A clip that is offered touches what is played and nothing else. -/
theorem onlyPlays_addClip (e : Engine) (clip : Clip) (target : Option Nat) (t : Moment) :
    OnlyPlays e (e.addClip clip target t).1 := by
  have hoffered := offered_addClip e clip target t
  generalize e.addClip clip target t = result at hoffered
  cases hoffered with
  | late => exact onlyPlays_refl e
  | unwanted => exact onlyPlays_mixer e _
  | mixed => exact (onlyPlays_mixAgain (e.caching clip) t).of_mixer
  | asked => exact (onlyPlays_scheduleMix (e.caching clip) t target).of_mixer

/-- A mix that is made at the deadline does nothing but play. -/
theorem onlyPlays_forceMix (e : Engine) (t : Moment) : OnlyPlays e (e.forceMix t) := by
  unfold forceMix
  split
  · exact (onlyPlays_mix _ _ t).of_mixer
  · exact onlyPlays_refl e

/-- All that a schedule releases is routine. -/
theorem isRoutine_reportOf (r : Release) : (reportOf r).isRoutine = true := by
  cases r <;> rfl

/-- Announcing what the schedule has released, with the mix that a deadline
forces, does nothing but play. -/
theorem onlyPlays_announce (t : Moment) (e : Engine) (rs : List Release) :
    OnlyPlays e (announce t e rs) := by
  induction rs generalizing e with
  | nil => exact onlyPlays_refl e
  | cons r rs ih =>
    unfold announce
    have hforced : OnlyPlays e (if isDeadline r then e.forceMix t else (e, [])) := by
      split
      · exact onlyPlays_forceMix e t
      · exact onlyPlays_refl e
    refine (hforced.andThen ?_).andThen fun f => ih f
    intro f
    exact (onlyPlays_refl f).report (isRoutine_reportOf r)

/-- The moments of the slot that are due do nothing but play. -/
theorem onlyPlays_releaseDue (e : Engine) (t : Moment) : OnlyPlays e (e.releaseDue t) :=
  (onlyPlays_announce t _ _).of_schedule

/-- A mix whose time has come does nothing but play. -/
theorem onlyPlays_mixDue (e : Engine) (t : Moment) : OnlyPlays e (e.mixDue t) := by
  unfold mixDue
  split
  · exact (onlyPlays_mix _ _ t).of_mixer
  · exact onlyPlays_refl e

/-! ## A look at the clock -/

/-- A look at the clock follows it, and then only plays. -/
theorem onlyPlays_tick (e : Engine) (t : Moment) :
    ∃ rest, e.tick t = (rest.1, (e.follow t.look).2 ++ rest.2) ∧
      OnlyPlays (e.follow t.look).1 rest := by
  refine ⟨((e.follow t.look).1.releaseDue t).andThen fun f => f.mixDue t, ?_, ?_⟩
  · exact congrArg (Prod.mk _) (List.append_assoc ..)
  · exact (onlyPlays_releaseDue _ t).andThen fun f => onlyPlays_mixDue f t

/-- Where the tracker sees a new slot, the engine begins it. -/
theorem follow_slotStart {e : Engine} {now : Nat} {slot : Slot} {previous : Option Slot}
    (h : (e.tracker.observe now).2 = some (.slotStart slot previous)) :
    e.follow now = { e with tracker := (e.tracker.observe now).1 }.beginSlot slot previous := by
  unfold follow
  split
  · next tracker slot' previous' heq =>
    rw [heq] at h
    simp only [Option.some.injEq, Tick.slotStart.injEq] at h
    obtain ⟨rfl, rfl⟩ := h
    rw [heq]
  · next heq => simp [heq] at h
  · next heq => simp [heq] at h

/-- A clock that went back is reported, and changes nothing but the tracker: no slot begins
again. -/
theorem follow_anomaly {e : Engine} {now : Nat} {jumpMs : Int} {slot : Slot}
    (h : (e.tracker.observe now).2 = some (.anomaly jumpMs slot)) :
    e.follow now =
      ({ e with tracker := (e.tracker.observe now).1 }, [.clockAnomaly jumpMs slot]) := by
  unfold follow
  split
  · next heq => simp [heq] at h
  · next heq =>
    rw [heq] at h
    simp only [Option.some.injEq, Tick.anomaly.injEq] at h
    obtain ⟨rfl, rfl⟩ := h
    rw [heq]
  · next heq => simp [heq] at h

/-- A reading that shows nothing new moves the tracker on, and that is all. -/
theorem follow_none {e : Engine} {now : Nat} (h : (e.tracker.observe now).2 = none) :
    e.follow now = ({ e with tracker := (e.tracker.observe now).1 }, []) := by
  unfold follow
  split
  · next heq => simp [heq] at h
  · next heq => simp [heq] at h
  · next heq => rw [heq]

/-- A reading that begins no slot moves the clock only. -/
theorem follow_otherwise {e : Engine} {now : Nat}
    (h : ∀ slot previous, (e.tracker.observe now).2 ≠ some (.slotStart slot previous)) :
    (e.follow now).1 = { e with tracker := (e.tracker.observe now).1 } ∧
      ∀ x ∈ (e.follow now).2, x.isSlotStart = false ∧ x.transmission? = none := by
  cases hseen : (e.tracker.observe now).2 with
  | none =>
    rw [follow_none hseen]
    exact ⟨rfl, fun x hx => absurd hx List.not_mem_nil⟩
  | some tick =>
    cases tick with
    | slotStart slot previous => exact absurd hseen (h slot previous)
    | anomaly jumpMs slot =>
      rw [follow_anomaly hseen]
      refine ⟨rfl, ?_⟩
      intro x hx
      rw [List.mem_singleton.1 hx]
      exact ⟨rfl, rfl⟩

/-- Who may transmit in a slot. -/
def grant (e : Engine) (slot : Slot) : Grant :=
  .ofClaims e.mode slot e.claims e.config.loop.separationHz

/-- What the operators put on the air at the beginning of a slot. -/
def sendings (e : Engine) (slot : Slot) : List Transmission :=
  e.roster.toList.flatMap fun (n, a) =>
    (a.beginSlot slot ((e.grant slot).allows n)).2.transmission.toList

/-- What a slot's beginning makes of the operators. -/
theorem roster_beginSlot (e : Engine) (slot : Slot) (previous : Option Slot) :
    (e.beginSlot slot previous).1.roster =
      e.roster.map fun n a => (a.beginSlot slot ((e.grant slot).allows n)).1 := rfl

/-- The beginning of a slot is reported together with the last composite and
the frames heard in the slot before. -/
theorem slotStart_mem_beginSlot (e : Engine) (slot : Slot) (previous : Option Slot) :
    .slotStart slot previous e.lastMix e.heard ∈ (e.beginSlot slot previous).2 := by
  unfold beginSlot
  simp

/-- What is reported of the operators when a slot begins. -/
def opening (e : Engine) (slot : Slot) : List Event :=
  (e.grant slot).refusals.map .refusal ++
    (e.roster.toList.flatMap fun (n, a) =>
      (a.beginSlot slot ((e.grant slot).allows n)).2.events).map .contact

/-- A slot that begins is reported between the late deadline and what the
operators do. -/
theorem events_beginSlot (e : Engine) (slot : Slot) (previous : Option Slot) :
    (e.beginSlot slot previous).2 = (e.schedule.beginSlot slot).2.map reportOf ++
      .slotStart slot previous e.lastMix e.heard :: e.opening slot := rfl

/-- **A slot that begins sends what its operators send.** Neither the late deadline nor the refusals
are messages, and each automaton reports its message as an event of its own. -/
theorem onAir_beginSlot (e : Engine) (slot : Slot) (previous : Option Slot) :
    onAir (e.beginSlot slot previous).2 = e.sendings slot := by
  have hlate : onAir (((e.schedule.beginSlot slot).2).map reportOf) = [] :=
    onAir_eq_nil (by simp [Event.transmission?_of_isRoutine, isRoutine_reportOf])
  have hrefusals : onAir ((e.grant slot).refusals.map .refusal) = [] :=
    onAir_eq_nil (by simp [Event.transmission?])
  have hsent : ∀ l : List (Nat × Automaton),
      sentIn (l.flatMap fun (n, a) => (a.beginSlot slot ((e.grant slot).allows n)).2.events) =
        l.flatMap fun (n, a) =>
          (a.beginSlot slot ((e.grant slot).allows n)).2.transmission.toList := by
    intro l
    induction l with
    | nil => rfl
    | cons x l ih =>
      rw [List.flatMap_cons, List.flatMap_cons, sentIn_append, ih, Automaton.sentIn_beginSlot]
  calc onAir (e.beginSlot slot previous).2
      = onAir ((e.schedule.beginSlot slot).2.map reportOf ++
          .slotStart slot previous e.lastMix e.heard :: e.opening slot) := by
        rw [events_beginSlot]
    _ = onAir (e.opening slot) := by
        rw [onAir_append, hlate]
        rfl
    _ = e.sendings slot := by
        rw [opening, onAir_append, hrefusals, onAir_contacts, hsent]
        rfl

/-! ## Requests -/

/-- **What a request does that is no look at the clock.**  It sends
nothing and leaves the clock alone, and every operator afterwards was
there before, or has been registered, moved, told something, or has
heard a frame. -/
structure Quiet (e : Engine) (after : Engine) (events : List Event) : Prop where
  config : after.config = e.config
  mode : after.mode = e.mode
  tracker : after.tracker = e.tracker
  interim : ∀ x ∈ events, x.IsInterim
  operators : ∀ x ∈ after.roster.toList, x ∈ e.roster.toList ∨
    (∃ station policy, x.2 = .idle x.1 station policy) ∨
    ∃ a o, (x.1, a) ∈ e.roster.toList ∧ o.isSlot = false ∧ x.2 = a.meet o

/-- A quiet step puts nothing on the air. -/
theorem Quiet.onAir {e after : Engine} {events : List Event} (h : Quiet e after events) :
    onAir events = [] :=
  onAir_eq_nil fun x hx => (h.interim x hx).transmission?

/-- A step that only plays is quiet: it leaves the clock, the settings and the
operators alone. -/
theorem OnlyPlays.quiet {e f : Engine} {events : List Event} (h : OnlyPlays e (f, events)) :
    Quiet e f events where
  config := h.1.config
  mode := h.1.mode
  tracker := h.1.tracker
  interim := fun x hx => .inl (h.2 x hx)
  operators := by
    intro x hx
    rw [h.1.roster] at hx
    exact .inl hx

/-- A step that changes nothing but the operators, and reports nothing. -/
theorem quiet_roster {e : Engine} {roster : Roster} {mixer : Mixer}
    (h : ∀ x ∈ roster.toList, x ∈ e.roster.toList ∨
      (∃ station policy, x.2 = .idle x.1 station policy) ∨
      ∃ a o, (x.1, a) ∈ e.roster.toList ∧ o.isSlot = false ∧ x.2 = a.meet o) :
    Quiet e { e with roster, mixer } [] :=
  ⟨rfl, rfl, rfl, fun _ hx => absurd hx List.not_mem_nil, h⟩

theorem quiet_refl (e : Engine) : Quiet e e [] := (onlyPlays_refl e).quiet

/-- An operator has a new automaton, which is what the old one becomes on an occasion that is no
slot. -/
theorem quiet_insert {e : Engine} {n : Nat} {a b : Automaton} {events : List Event} {o : Occasion}
    (ha : e.roster.get? n = some a) (ho : o.isSlot = false) (hb : b = a.meet o)
    (hevents : ∀ x ∈ events, x.IsInterim) :
    Quiet e { e with roster := e.roster.insert n b } events where
  config := rfl
  mode := rfl
  tracker := rfl
  interim := hevents
  operators := by
    intro x hx
    rcases Roster.mem_place hx with rfl | hx
    · exact .inr (.inr ⟨a, o, Roster.get?_eq_some_iff.1 ha, ho, hb⟩)
    · exact .inl hx

/-- An operator that is registered says nothing yet. -/
theorem quiet_register {e : Engine} {n : Nat} {station : Station} {f : Engine}
    (h : e.register n station = .ok f) : Quiet e f [] := by
  unfold register at h
  split at h
  · simp at h
  · split at h
    · simp at h
    · obtain rfl := Except.ok.inj h
      refine quiet_roster ?_
      intro x hx
      rcases Roster.mem_place hx with rfl | hx
      · exact .inr (.inl ⟨station, _, rfl⟩)
      · exact .inl hx

/-- A new set-up of an operator is not reported. -/
theorem quiet_updateStation {e : Engine} {n : Nat} {station : Station} {f : Engine}
    (h : e.updateStation n station = .ok f) : Quiet e f [] := by
  unfold updateStation at h
  split at h
  · simp at h
  · next a ha =>
    split at h
    · simp at h
    · obtain rfl := Except.ok.inj h
      exact quiet_insert (o := .moved station) ha rfl rfl fun _ hx => absurd hx List.not_mem_nil

/-- A command may change a phase, but it puts nothing on the air. -/
theorem quiet_command {e : Engine} {n : Nat} {c : Command} {after : Emits}
    (h : e.command n c = .ok after) : Quiet e after.1 after.2 := by
  unfold command at h
  split at h
  · simp at h
  · next a ha =>
    obtain rfl := Except.ok.inj h
    refine quiet_insert (o := .told c) ha rfl rfl ?_
    intro x hx
    obtain ⟨event, hevent, rfl⟩ := List.mem_map.1 hx
    exact .inr ⟨event, rfl, List.filterMap_eq_nil_iff.1 (a.sentIn_obey c) event hevent⟩

/-- The engine when an operator has gone, and its clip. -/
def without (e : Engine) (n : Nat) : Engine :=
  { e with roster := e.roster.erase n, mixer := (e.mixer.remove n).1 }

/-- **What striking off an operator does.**  It goes, and if its clip has
been part of what is played, that is mixed again. -/
theorem strikeOff_cases {e : Engine} {n : Nat} {t : Moment} {after : Emits}
    (h : e.strikeOff n t = .ok after) :
    (e.roster.get? n).isSome = true ∧
      ((e.mixer.remove n).2 = true ∧ e.mixer.stage = .mixed ∧
          after = (e.without n).mixAgain t ∨
        ¬((e.mixer.remove n).2 = true ∧ e.mixer.stage = .mixed) ∧ after = (e.without n, [])) := by
  unfold strikeOff at h
  split at h
  · cases h
  · next hregistered =>
    have hregistered : (e.roster.get? n).isSome = true := by
      cases hn : e.roster.get? n with
      | none => simp [hn] at hregistered
      | some a => rfl
    refine ⟨hregistered, ?_⟩
    dsimp only at h
    split at h
    · next hagain =>
      obtain rfl := Except.ok.inj h
      rw [Bool.and_eq_true, decide_eq_true_eq] at hagain
      exact .inl ⟨hagain.1, hagain.2, rfl⟩
    · next hrest =>
      obtain rfl := Except.ok.inj h
      rw [Bool.and_eq_true, decide_eq_true_eq] at hrest
      exact .inr ⟨hrest, rfl⟩

/-- A removed operator says nothing more. -/
theorem quiet_without (e : Engine) (n : Nat) : Quiet e (e.without n) [] :=
  quiet_roster fun _ hx => .inl (List.mem_filter.1 hx).1

/-- The removal of an operator is quiet, although what is played may be mixed
again without it. -/
theorem quiet_strikeOff {e : Engine} {n : Nat} {t : Moment} {after : Emits}
    (h : e.strikeOff n t = .ok after) : Quiet e after.1 after.2 := by
  obtain ⟨-, ⟨-, -, rfl⟩ | ⟨-, rfl⟩⟩ := strikeOff_cases h
  · obtain ⟨hsame, hroutine⟩ := onlyPlays_mixAgain (e.without n) t
    refine ⟨hsame.config, hsame.mode, hsame.tracker, fun x hx => .inl (hroutine x hx), ?_⟩
    intro x hx
    rw [hsame.roster] at hx
    exact (quiet_without e n).operators x hx
  · exact quiet_without e n

/-- A frame from the decoder waits in the inboxes until the next slot. -/
theorem quiet_hear (e : Engine) (f : Frame) : Quiet e (e.hear f) [] := by
  refine ⟨rfl, rfl, rfl, fun _ hx => absurd hx List.not_mem_nil, ?_⟩
  intro x hx
  have hmap : x ∈ e.roster.toList.map fun (n, a) => (n, a.receive f) := hx
  obtain ⟨⟨n, a⟩, hmem, hxa⟩ := List.mem_map.1 hmap
  obtain rfl : (n, a.receive f) = x := hxa
  exact .inr (.inr ⟨a, .heard f, hmem, rfl, by simp only [Automaton.meet]⟩)

/-- A request that may be refused is quiet if it is quiet when met. -/
theorem quiet_respond {e : Engine} {outcome : Except EngineFault Emits}
    (h : ∀ after, outcome = .ok after → Quiet e after.1 after.2) :
    Quiet e (e.respond outcome).engine (e.respond outcome).events := by
  cases outcome with
  | ok after => exact h after rfl
  | error fault => exact quiet_refl e

/-- Where a request without reports succeeds, it is the engine that it has
changed, and nothing is reported. -/
theorem exists_of_map_ok {outcome : Except EngineFault Engine} {after : Emits}
    (h : outcome.map (·, []) = .ok after) : ∃ f, outcome = .ok f ∧ after = (f, []) := by
  cases outcome with
  | error fault => cases h
  | ok f => exact ⟨f, rfl, (Except.ok.inj h).symm⟩

/-- **A request that is aside from clock and audio** changes the operators
at most, takes in its frames, and reports nothing but what operators do. -/
theorem meet_of_isAside {r : Request} (h : r.isAside = true) (e : Engine) (t : Moment) :
    ∃ roster said, (e.meet t r).engine = { e with roster, heard := e.heard ++ r.frames } ∧
      (e.meet t r).events = List.map Event.contact said := by
  have hidle : ({ e with roster := e.roster, heard := e.heard ++ [] } : Engine) = e := by
    rw [List.append_nil]
  cases r with
  | strikeOff n | addClip clip target | scheduleMix target | dropAudio | look | shutdown => cases h
  | heard f => exact ⟨_, [], rfl, rfl⟩
  | contact n | slot | mixerStatus => exact ⟨e.roster, [], hidle.symm, rfl⟩
  | register n station =>
    simp only [meet, register, Request.frames, List.append_nil]
    split
    · exact ⟨e.roster, [], rfl, rfl⟩
    · split
      · exact ⟨e.roster, [], rfl, rfl⟩
      · exact ⟨_, [], rfl, rfl⟩
  | updateStation n station =>
    simp only [meet, updateStation, Request.frames, List.append_nil]
    split
    · exact ⟨e.roster, [], rfl, rfl⟩
    · split
      · exact ⟨e.roster, [], rfl, rfl⟩
      · exact ⟨_, [], rfl, rfl⟩
  | command n c =>
    simp only [meet, command, Request.frames, List.append_nil]
    split
    · exact ⟨e.roster, [], rfl, rfl⟩
    · exact ⟨_, _, rfl, rfl⟩

/-- A wish to mix does the same whether or not the mix fails. -/
theorem meet_scheduleMix (e : Engine) (t : Moment) (target : Option Nat) :
    (e.meet t (.scheduleMix target)).engine = (e.scheduleMix t target).1.1 ∧
      (e.meet t (.scheduleMix target)).events = (e.scheduleMix t target).1.2 := by
  simp only [meet]
  split
  · next hdone => simp [hdone]
  · next hdone => simp [hdone]

/-- **Only a look at the clock can send.** The requests for the operators report what these did
between slots, and those for the audio report mixes. -/
theorem quiet_meet {r : Request} (hr : r ≠ .look) (e : Engine) (t : Moment) :
    Quiet e (e.meet t r).engine (e.meet t r).events := by
  cases r with
  | register n station =>
    refine quiet_respond ?_
    intro after h
    obtain ⟨f, hf, rfl⟩ := exists_of_map_ok h
    exact quiet_register hf
  | strikeOff n => exact quiet_respond fun after h => quiet_strikeOff h
  | updateStation n station =>
    refine quiet_respond ?_
    intro after h
    obtain ⟨f, hf, rfl⟩ := exists_of_map_ok h
    exact quiet_updateStation hf
  | command n c => exact quiet_respond fun after h => quiet_command h
  | heard f => exact quiet_hear e f
  | addClip clip target => exact (onlyPlays_addClip e clip target t).quiet
  | scheduleMix target =>
    obtain ⟨hengine, hevents⟩ := meet_scheduleMix e t target
    rw [hengine, hevents]
    exact (onlyPlays_scheduleMix e t target).quiet
  | dropAudio | shutdown => exact (onlyPlays_mixer e _).quiet
  | contact | slot | mixerStatus => exact quiet_refl e
  | look => exact absurd rfl hr

end Engine

/-! ## Sessions -/

namespace Session

theorem run_cons (s : Session) (t : Moment) (r : Request) (rest : List (Moment × Request)) :
    s.run ((t, r) :: rest) =
      (((s.meet t r).1.run rest).1,
        (s.meet t r).2.1 ++ ((s.meet t r).1.run rest).2) := rfl

/-- A run may be cut anywhere: its second part goes on from the session that
the first has led to. -/
theorem run_append (s : Session) (first second : List (Moment × Request)) :
    s.run (first ++ second) =
      (((s.run first).1.run second).1, (s.run first).2 ++ ((s.run first).1.run second).2) := by
  induction first generalizing s with
  | nil => rfl
  | cons request rest ih =>
    obtain ⟨t, r⟩ := request
    rw [List.cons_append, run_cons, run_cons, ih, List.append_assoc]

/-- A session that is open meets a request as its engine does, and is over if
the request ends it. -/
theorem meet_of_isOpen {s : Session} (h : s.isOpen = true) (t : Moment) (r : Request) :
    s.meet t r = (⟨(s.engine.meet t r).engine, !ends r⟩, (s.engine.meet t r).events,
      (s.engine.meet t r).reply) := by
  unfold meet
  rw [if_pos h]

/-- A session that is over answers each request with the same fault, and stays
as it is. -/
theorem meet_of_closed {s : Session} (h : s.isOpen = false) (t : Moment) (r : Request) :
    s.meet t r = (s, [], .error .closed) := by
  unfold meet
  rw [h]
  rfl

/-- **What every request keeps, a session keeps.**  The property is of
the engine and of everything reported so far. -/
theorem run_invariant {P : Engine → List Event → Prop}
    (hstep : ∀ e past t r, P e past →
      P (e.meet t r).engine (past ++ (e.meet t r).events))
    {s : Session} {past : List Event} (h : P s.engine past) (requests : List (Moment × Request)) :
    P (s.run requests).1.engine (past ++ (s.run requests).2) := by
  induction requests generalizing s past with
  | nil =>
    show P s.engine (past ++ [])
    rw [List.append_nil]
    exact h
  | cons request rest ih =>
    obtain ⟨t, r⟩ := request
    have hmeet : P (s.meet t r).1.engine (past ++ (s.meet t r).2.1) := by
      cases hopen : s.isOpen with
      | true =>
        rw [meet_of_isOpen hopen]
        exact hstep s.engine past t r h
      | false =>
        rw [meet_of_closed hopen, List.append_nil]
        exact h
    rw [run_cons, ← List.append_assoc]
    exact ih hmeet

/-- **What a session reports, one of its requests reports**, and the run can be cut there. -/
theorem exists_step_of_mem_run {s : Session} {requests : List (Moment × Request)} {x : Event}
    (h : x ∈ (s.run requests).2) :
    ∃ before t r after, requests = before ++ (t, r) :: after ∧
      x ∈ ((s.run before).1.meet t r).2.1 := by
  induction requests generalizing s with
  | nil => exact absurd h List.not_mem_nil
  | cons request rest ih =>
    obtain ⟨t, r⟩ := request
    rw [run_cons] at h
    rcases List.mem_append.1 h with h | h
    · exact ⟨[], t, r, rest, rfl, h⟩
    · obtain ⟨before, t', r', after, rfl, hx⟩ := ih h
      exact ⟨(t, r) :: before, t', r', after, rfl, hx⟩

/-- A session that reports something is open, and its engine reports the same. -/
theorem meet_of_mem {s : Session} {t : Moment} {r : Request} {x : Event}
    (h : x ∈ (s.meet t r).2.1) :
    s.isOpen = true ∧ x ∈ (s.engine.meet t r).events := by
  cases hopen : s.isOpen with
  | true =>
    rw [meet_of_isOpen hopen] at h
    exact ⟨rfl, h⟩
  | false =>
    rw [meet_of_closed hopen] at h
    exact absurd h List.not_mem_nil

end Session

end SlotRadio
