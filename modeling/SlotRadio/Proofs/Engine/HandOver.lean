import Mathlib.Data.List.DropRight
import SlotRadio.Proofs.Engine.Handling
/-!
# Handing over

When a slot begins, its report hands over what the slot before has
brought: the frames that were heard, and the composite of its last mix.

* `Holds` — mixing puts nothing into the hands of the next slot but the
  composite of its last outcome;
* `HandsOver` — every request does so, or hands everything over in one
  report and begins anew (`handsOver_meet`);
* `hands_over` — in a whole session no frame is lost or handed over
  twice, and the composite is the one that the reports since the slot
  before tell of.
-/

namespace SlotRadio

namespace Event

/-- The frames that are handed over. -/
def frames : Event → List Frame
  | slotStart _ _ _ frames => frames
  | checkpoint _ | deadline _ | clockAnomaly .. | scheduleOverrun .. | contact _ | refusal _
  | mixReady .. | mixUnderrun _ | mixOverrun _ | mixFailed .. => []

/-- The composite that there is to play. -/
def composite? : Event → Option Composite
  | mixReady _ audio => some audio
  | slotStart .. | checkpoint _ | deadline _ | clockAnomaly .. | scheduleOverrun .. | contact _
  | refusal _ | mixUnderrun _ | mixOverrun _ | mixFailed .. => none

/-- Frames are handed over only where a slot begins. -/
theorem frames_of_isSlotStart {x : Event} (h : x.isSlotStart = false) : x.frames = [] := by
  cases x <;> simp_all [isSlotStart, frames]

end Event

/-- All frames that were handed over, in order. -/
def handedOver (events : List Event) : List Frame :=
  events.flatMap Event.frames

/-- What was reported since the last slot began. -/
def sinceSlotStart (events : List Event) : List Event :=
  events.rtakeWhile fun x => !x.isSlotStart

/-- The composite that a list of reports leaves to play: that of the last
mix, if it brought one. -/
def lastComposite (events : List Event) : Option Composite :=
  (outcomes events).getLast?.bind Event.composite?

/-! ## Reports that begin no slot -/

section Within

variable {past events : List Event}

@[simp] theorem handedOver_append (xs ys : List Event) :
    handedOver (xs ++ ys) = handedOver xs ++ handedOver ys :=
  List.flatMap_append

/-- Reports that begin no slot hand no frame over. -/
theorem handedOver_eq_nil (h : ∀ x ∈ events, x.isSlotStart = false) : handedOver events = [] :=
  List.flatMap_eq_nil_iff.2 fun x hx => Event.frames_of_isSlotStart (h x hx)

/-- Reports that begin no slot are added to those since the last one
began. -/
theorem sinceSlotStart_append (past : List Event) (h : ∀ x ∈ events, x.isSlotStart = false) :
    sinceSlotStart (past ++ events) = sinceSlotStart past ++ events := by
  have hfree : ∀ x ∈ events.reverse, (!x.isSlotStart) = true := by
    intro x hx
    simp [h x (List.mem_reverse.1 hx)]
  simp only [sinceSlotStart, List.rtakeWhile, List.reverse_append,
    List.takeWhile_append_of_pos hfree, List.reverse_reverse]

/-- After a slot's beginning the reports count anew. -/
theorem sinceSlotStart_turn (past : List Event) {x : Event} (hx : x.isSlotStart = true)
    (h : ∀ y ∈ events, y.isSlotStart = false) : sinceSlotStart (past ++ x :: events) = events := by
  have hstart : sinceSlotStart (past ++ [x]) = [] :=
    List.rtakeWhile_concat_neg _ _ _ (by simp [hx])
  have hsplit : past ++ x :: events = past ++ [x] ++ events := by simp
  rw [hsplit, sinceSlotStart_append _ h, hstart, List.nil_append]

/-- What is left to play is what the last mix brought; without one, it is
what was there before. -/
theorem lastComposite_append (past events : List Event) :
    lastComposite (past ++ events) =
      (outcomes events).getLast?.elim (lastComposite past) Event.composite? := by
  rw [lastComposite, outcomes_append, List.getLast?_append]
  cases (outcomes events).getLast? <;> rfl

end Within

namespace Engine

/-! ## What a step keeps -/

/-- What a step does within a slot: the frames stay, and only a mix
changes the composite, by its outcome. -/
structure Holds (e : Engine) (after : Emits) : Prop where
  heard : after.1.heard = e.heard
  lastMix : after.1.lastMix = (outcomes after.2).getLast?.elim e.lastMix Event.composite?
  within : ∀ x ∈ after.2, x.isSlotStart = false

/-- A step without a mix. -/
theorem holds_of_silent {e f : Engine} {events : List Event} (hheard : f.heard = e.heard)
    (hlast : f.lastMix = e.lastMix) (hnone : outcomes events = [])
    (hwithin : ∀ x ∈ events, x.isSlotStart = false) : Holds e (f, events) where
  heard := hheard
  lastMix := by
    rw [hnone]
    exact hlast
  within := hwithin

/-- Two steps within a slot are one: the last mix of both is that of the second, or else that of the
first. -/
theorem Holds.trans {e : Engine} {first after : Emits} (h : Holds e first)
    (k : Holds first.1 after) : Holds e (after.1, first.2 ++ after.2) where
  heard := k.heard.trans h.heard
  lastMix := by
    show after.1.lastMix = _
    rw [k.lastMix, h.lastMix, outcomes_append, List.getLast?_append]
    cases (outcomes after.2).getLast? <;> rfl
  within := by
    intro x hx
    rcases List.mem_append.1 hx with hx | hx
    · exact h.within x hx
    · exact k.within x hx

/-- No report about mixing begins a slot. -/
theorem isSlotStart_of_isMixing {x : Event} (h : x.isMixing = true) : x.isSlotStart = false := by
  cases x <;> first | rfl | cases h

/-- **However a mix ends**, what there is to play is what it reports. -/
theorem Ends.holds {f : Engine} {now : Nat} {done : Emits} (h : Ends f now done) :
    Holds f done where
  heard := by cases h <;> rfl
  lastMix := by cases h <;> rfl
  within := fun x hx => isSlotStart_of_isMixing (h.isMixing x hx)

/-- So it is with a step that makes one mix at most: if there is one, it is noted as the last and is
the only one that is reported. -/
theorem Mixes.holds {m₀ : Mixer} {must : Bool} {P : Mixer → Prop} {e : Engine} {t : Moment}
    {after : Emits} (h : Mixes m₀ must P e t after) : Holds e after := by
  have hwithin : ∀ x ∈ after.2, x.isSlotStart = false := fun x hx =>
    isSlotStart_of_isMixing (h.isMixing x hx)
  cases h with
  | none hmust hm hP => exact holds_of_silent rfl rfl rfl hwithin
  | one hdue hP hmade =>
    have hholds := hmade.ends.holds
    exact ⟨hholds.heard, hholds.lastMix, hwithin⟩
  | late hdue hP hmade =>
    have hholds := hmade.ends.holds
    exact ⟨hholds.heard, hholds.lastMix, hwithin⟩

/-- **What a step does with what the slot has brought.**  It keeps it; or
a slot begins, whose report hands it over, and the step goes on with
nothing. -/
inductive HandsOver (e : Engine) : Emits → Prop
  | within {after : Emits} (h : Holds e after) : HandsOver e after
  | across {f : Engine} {after : Emits} {late : List Event} {slot : Slot} {previous : Option Slot}
      (hlate : ∀ x ∈ late, x.isSlotStart = false) (hnone : outcomes late = [])
      (hheard : f.heard = []) (hlast : f.lastMix = none) (h : Holds f after) :
      HandsOver e (after.1, late ++ .slotStart slot previous e.lastMix e.heard :: after.2)

/-- A step within a slot may follow. -/
theorem HandsOver.andThen {e : Engine} {first after : Emits} (h : HandsOver e first)
    (k : Holds first.1 after) : HandsOver e (after.1, first.2 ++ after.2) := by
  cases h with
  | within h => exact .within (h.trans k)
  | @across f after' late slot previous hlate hnone hheard hlast h =>
    rw [List.append_assoc, List.cons_append]
    exact .across hlate hnone hheard hlast (h.trans k)

/-- Reports of what a schedule released keep everything. -/
theorem holds_reports (e : Engine) (rs : List Release) : Holds e (e, rs.map reportOf) := by
  refine holds_of_silent rfl rfl (outcomes_reports rs) ?_
  intro x hx
  obtain ⟨r, -, rfl⟩ := List.mem_map.1 hx
  cases r <;> rfl

/-- The operators that begin a slot leave the frames and the composite
alone. -/
theorem holds_beginForAll (e : Engine) (slot : Slot) : Holds e (e.beginForAll slot) := by
  refine holds_of_silent rfl rfl ?_ ?_
  · rw [outcomes_append, outcomes_refusals, outcomes_contacts]
    rfl
  · intro x hx
    rcases List.mem_append.1 hx with hx | hx
    · obtain ⟨c, -, rfl⟩ := List.mem_map.1 hx
      rfl
    · obtain ⟨c, -, rfl⟩ := List.mem_map.1 hx
      rfl

/-- A slot that begins hands everything over. -/
theorem handsOver_beginSlot (e : Engine) (tracker : Tracker) (slot : Slot)
    (previous : Option Slot) :
    HandsOver e (({ e with tracker } : Engine).beginSlot slot previous) := by
  have hlate := holds_reports e (e.schedule.beginSlot slot).2
  exact .across hlate.within (outcomes_reports _) rfl rfl (holds_beginForAll _ slot)

/-- Following the clock hands everything over if a slot begins, and otherwise reports an anomaly at
most. -/
theorem handsOver_follow (e : Engine) (now : Nat) : HandsOver e (e.follow now) := by
  unfold follow
  split
  · next tracker slot previous _ => exact handsOver_beginSlot e tracker slot previous
  · refine .within (holds_of_silent rfl rfl rfl ?_)
    intro x hx
    rw [List.mem_singleton.1 hx]
    rfl
  · exact .within (holds_of_silent rfl rfl rfl fun x hx => absurd hx List.not_mem_nil)

/-- A look at the clock keeps what the slot has brought until it begins
the next one. -/
theorem handsOver_tick (e : Engine) (t : Moment) : HandsOver e (e.tick t) := by
  obtain ⟨before, later, done, -, htick, hmixes, -⟩ := tick_cases e t
  have hrest : Holds (e.released t)
      (done.1, before.map reportOf ++ done.2 ++ later.map reportOf) :=
    ((holds_reports _ before).trans hmixes.holds).trans (holds_reports done.1 later)
  have hholds : Holds (e.follow t.look).1
      (done.1, before.map reportOf ++ done.2 ++ later.map reportOf) :=
    ⟨hrest.heard, hrest.lastMix, hrest.within⟩
  rw [htick]
  simpa only [List.append_assoc] using (handsOver_follow e t.look).andThen hholds

end Engine

namespace Engine

/-- The engine when the frames of a request have come in. -/
def taking (e : Engine) (r : Request) : Engine :=
  { e with heard := e.heard ++ r.frames }

/-- Only what is heard comes in. -/
theorem taking_of_nil {e : Engine} {r : Request} (h : r.frames = []) : e.taking r = e := by
  unfold taking
  rw [h, List.append_nil]

/-- A request that may be refused keeps what it keeps when met. -/
theorem holds_respond {e : Engine} {outcome : Except EngineFault Emits}
    (h : ∀ after, outcome = .ok after → Holds e after) :
    Holds e ((e.respond outcome).engine, (e.respond outcome).events) := by
  cases outcome with
  | ok after => exact h after rfl
  | error fault => exact holds_of_silent rfl rfl rfl fun x hx => absurd hx List.not_mem_nil

/-- Striking an operator off is a step within the slot. -/
theorem holds_strikeOff {e : Engine} {n : Nat} {t : Moment} {after : Emits}
    (h : e.strikeOff n t = .ok after) : Holds e after := by
  have hmixed := (mixes_strikeOff h).holds
  exact ⟨hmixed.heard, hmixed.lastMix, hmixed.within⟩

/-- Within a slot only the frames that come in are added. Whatever else is asked leaves them alone
and reports no slot to begin. -/
theorem holds_meet {r : Request} (hr : r ≠ .look) (e : Engine) (t : Moment) :
    Holds (e.taking r) ((e.meet t r).engine, (e.meet t r).events) := by
  have hinterim := (quiet_meet hr e t).interim
  have hwithin : ∀ x ∈ (e.meet t r).events, x.isSlotStart = false := fun x hx =>
    (hinterim x hx).isSlotStart
  by_cases haside : r.isAside = true
  · obtain ⟨roster, said, hengine, hevents⟩ := meet_of_isAside haside e t
    rw [hevents] at hwithin
    rw [hengine, hevents]
    exact holds_of_silent rfl rfl (outcomes_contacts said) hwithin
  cases r with
  | look => exact absurd rfl hr
  | addClip clip target =>
    obtain ⟨m₀, must, P, hmixes⟩ := exists_mixes_addClip e clip target t
    rw [taking_of_nil rfl]
    exact hmixes.holds
  | strikeOff n =>
    rw [taking_of_nil rfl]
    exact holds_respond fun after h => holds_strikeOff h
  | scheduleMix target =>
    obtain ⟨hengine, hevents⟩ := meet_scheduleMix e t target
    rw [taking_of_nil rfl, hengine, hevents]
    exact (mixes_scheduleMix e (.inl rfl) t target).holds
  | dropAudio | shutdown =>
    rw [taking_of_nil rfl]
    exact holds_of_silent rfl rfl rfl hwithin
  | register | updateStation | command | heard | contact | slot | mixerStatus =>
    exact absurd rfl haside

/-- **Every request does so with the frames that it brings.** -/
theorem handsOver_meet (e : Engine) (t : Moment) (r : Request) :
    HandsOver (e.taking r) ((e.meet t r).engine, (e.meet t r).events) := by
  by_cases hr : r = .look
  · subst hr
    rw [taking_of_nil rfl]
    exact handsOver_tick e t
  · exact .within (holds_meet hr e t)

end Engine

/-! ## Sessions -/

section Steps

variable {e : Engine} {after : Engine.Emits}

/-- No frame is lost in a step: either none is handed over, or those are that were held when the
slot began, and none is held then. -/
theorem Engine.HandsOver.frames (h : e.HandsOver after) :
    handedOver after.2 ++ after.1.heard = e.heard := by
  cases h with
  | within h =>
    rw [handedOver_eq_nil h.within, h.heard]
    rfl
  | @across f after late slot previous hlate hnone hheard hlast h =>
    have hopening : handedOver (.slotStart slot previous e.lastMix e.heard :: after.2) =
        e.heard ++ handedOver after.2 := rfl
    rw [handedOver_append, handedOver_eq_nil hlate, hopening, handedOver_eq_nil h.within, h.heard,
      hheard]
    simp

/-- The composite is that of the reports since the slot began, and a
report that hands one over hands over this one. -/
def HandsOn (e : Engine) (past : List Event) : Prop :=
  e.lastMix = lastComposite (sinceSlotStart past) ∧
    ∀ {before slot previous mix frames after},
      past = before ++ .slotStart slot previous mix frames :: after →
        mix = lastComposite (sinceSlotStart before)

/-- **A step keeps this.** A cut at the beginning of a slot falls into the past or is the one that
the step makes: there what has been heard, and the last mix, are those of the past. -/
theorem Engine.HandsOver.handsOn {past : List Event} (h : e.HandsOver after)
    (hpast : HandsOn e past) : HandsOn after.1 (past ++ after.2) := by
  obtain ⟨hmix, hearlier⟩ := hpast
  cases h with
  | within h =>
    constructor
    · rw [sinceSlotStart_append past h.within, lastComposite_append, ← hmix]
      exact h.lastMix
    · intro before slot previous mix frames later heq
      have hnot : .slotStart slot previous mix frames ∉ after.2 := fun hx => by
        simpa [Event.isSlotStart] using h.within _ hx
      obtain ⟨between, heq, -⟩ := append_cut_left heq hnot
      exact hearlier heq
  | @across f after late slot previous hlate hnone hheard hlast h =>
    constructor
    · rw [← List.append_assoc, sinceSlotStart_turn _ rfl h.within]
      show after.1.lastMix = _
      rw [h.lastMix, hlast, lastComposite]
      cases (outcomes after.2).getLast? <;> rfl
    · intro before slot' previous' mix frames later heq
      have hnot : .slotStart slot' previous' mix frames ∉ after.2 := fun hx => by
        simpa [Event.isSlotStart] using h.within _ hx
      rw [← List.append_assoc] at heq
      rcases append_cut_middle heq hnot with ⟨rfl, hopening, -⟩ | ⟨between, heq, -⟩
      · obtain ⟨-, -, rfl, -⟩ := Event.slotStart.inj hopening
        rw [sinceSlotStart_append past hlate, lastComposite_append, hnone]
        exact hmix
      · have hlater : .slotStart slot' previous' mix frames ∉ late := fun hx => by
          simpa [Event.isSlotStart] using hlate _ hx
        obtain ⟨between', heq, -⟩ := append_cut_left heq hlater
        exact hearlier heq

end Steps

namespace Session

/-- The frames that a request brings in: all of its own, if it is met. -/
def taking (s : Session) (t : Moment) (r : Request) : List Frame :=
  match (s.meet t r).2.2 with
  | .ok _ => r.frames
  | .error _ => []

/-- The frames that a session takes, in order. -/
def taken (s : Session) : List (Moment × Request) → List Frame
  | [] => []
  | (t, r) :: rest => s.taking t r ++ (s.meet t r).1.taken rest

/-- Frames are never refused while a session is open, so what a request brings is what the session
takes. -/
theorem taking_of_isOpen {s : Session} (h : s.isOpen = true) (t : Moment) (r : Request) :
    s.taking t r = r.frames := by
  have hnone : r.frames = [] → s.taking t r = r.frames := by
    intro hr
    unfold taking
    rw [hr]
    split <;> rfl
  cases r with
  | heard f =>
    unfold taking
    rw [meet_of_isOpen h]
    rfl
  | _ => exact hnone rfl

/-- No request of a session loses a frame. A session that is over neither takes one nor hands one
over. -/
theorem frames_meet (s : Session) (t : Moment) (r : Request) :
    handedOver (s.meet t r).2.1 ++ (s.meet t r).1.engine.heard =
      s.engine.heard ++ s.taking t r := by
  cases hopen : s.isOpen with
  | true =>
    rw [taking_of_isOpen hopen, meet_of_isOpen hopen]
    exact (s.engine.handsOver_meet t r).frames
  | false =>
    have htaking : s.taking t r = [] := by
      unfold taking
      rw [meet_of_closed hopen]
    rw [htaking, meet_of_closed hopen, List.append_nil]
    rfl

/-- **No frame is lost or handed over twice** in a session: those handed over, and those still held
at its end, are those held at its beginning and those taken since, in the same order. -/
theorem frames_run (s : Session) (requests : List (Moment × Request)) :
    handedOver (s.run requests).2 ++ (s.run requests).1.engine.heard =
      s.engine.heard ++ s.taken requests := by
  induction requests generalizing s with
  | nil =>
    show s.engine.heard = s.engine.heard ++ []
    rw [List.append_nil]
  | cons request rest ih =>
    obtain ⟨t, r⟩ := request
    calc handedOver (s.run ((t, r) :: rest)).2 ++ (s.run ((t, r) :: rest)).1.engine.heard
        = handedOver (s.meet t r).2.1 ++ (handedOver ((s.meet t r).1.run rest).2 ++
            ((s.meet t r).1.run rest).1.engine.heard) := by
          rw [run_cons, handedOver_append, List.append_assoc]
      _ = handedOver (s.meet t r).2.1 ++ (s.meet t r).1.engine.heard ++
            (s.meet t r).1.taken rest := by
          rw [ih, List.append_assoc]
      _ = s.engine.heard ++ s.taken ((t, r) :: rest) := by
          rw [frames_meet, List.append_assoc]
          rfl

/-- So does a session. -/
theorem handsOn_run {s : Session} (h : HandsOn s.engine []) (requests : List (Moment × Request)) :
    HandsOn (s.run requests).1.engine (s.run requests).2 := by
  have hstep : ∀ e past t r, HandsOn e past →
      HandsOn (e.meet t r).engine (past ++ (e.meet t r).events) := by
    intro e past t r hpast
    exact (e.handsOver_meet t r).handsOn (e := e.taking r) ⟨hpast.1, hpast.2⟩
  simpa using run_invariant hstep h requests

/-- **A slot hands over what it has brought.**  The frames that all slots
together have handed over, followed by those that are still held, are
the frames that the session has taken, in their order.  And the composite
that a slot hands over is that of the last mix reported in it, if this
mix brought one. -/
theorem hands_over (mode : Mode) (config : Config) (requests : List (Moment × Request)) :
    let first : Session := ⟨.initial mode config, true⟩
    let last := (first.run requests).1
    let events := (first.run requests).2
    handedOver events ++ last.engine.heard = first.taken requests ∧
      ∀ before slot previous mix frames after,
        events = before ++ .slotStart slot previous mix frames :: after →
          mix = lastComposite (sinceSlotStart before) := by
  intro first last events
  have hfirst : HandsOn first.engine [] := by
    refine ⟨rfl, ?_⟩
    intro before slot previous mix frames after heq
    exact absurd heq.symm (by simp)
  refine ⟨frames_run first requests, ?_⟩
  intro before slot previous mix frames after heq
  exact (handsOn_run hfirst requests).2 heq

end Session

end SlotRadio
