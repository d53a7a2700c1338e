import SlotRadio.Engine.Playback
/-!
# A look at the clock

When the engine looks at the clock it first sees whether a slot has
begun, then releases what is due in the slot, and last makes the mix
that is due.

* A new slot releases the deadline of the one before, if that is still
  to come, hands over what that slot has brought, empties the mixer, and
  lets the operators begin.
* A deadline that finds a mix waiting has it made first, with the quick
  conversion.
-/

namespace SlotRadio.Engine

/-- The report of what a schedule released. -/
def reportOf : Release → Event
  | .checkpoint c => .checkpoint c
  | .overrun slotId skipped lateMs => .scheduleOverrun slotId skipped lateMs
  | .deadline slot => .deadline slot

/-- True for the release of a deadline. -/
def isDeadline : Release → Bool
  | .deadline _ => true
  | .checkpoint _ | .overrun .. => false

/-- The operators' wishes to transmit, in ascending order. -/
def claims (e : Engine) : List Claim :=
  e.roster.toList.map fun (operator, a) =>
    ⟨operator, a.station, a.contact.phase.inProgress⟩

/-- The operators begin a slot. -/
def beginForAll (e : Engine) (slot : Slot) : Emits :=
  let grant := Grant.ofClaims e.mode slot e.claims e.config.loop.separationHz
  let events := e.roster.toList.flatMap fun (operator, a) =>
    (a.beginSlot slot (grant.allows operator)).2.events
  ({ e with
      roster := e.roster.map fun operator a =>
        (a.beginSlot slot (grant.allows operator)).1 },
    grant.refusals.map .refusal ++ events.map .contact)

/-- Turns to a new slot. -/
def beginSlot (e : Engine) (slot : Slot) (previous : Option Slot) : Emits :=
  let (schedule, late) := e.schedule.beginSlot slot
  let mixer := if late.any isDeadline then e.mixer.cancel.1 else e.mixer
  let opening := Event.slotStart slot previous e.lastMix e.heard
  let (e, events) :=
    { e with schedule, mixer := mixer.clear, lastMix := none, heard := [] }.beginForAll slot
  (e, late.map reportOf ++ opening :: events)

/-- Takes a clock reading. -/
def follow (e : Engine) (now : Nat) : Emits :=
  match e.tracker.observe now with
  | (tracker, some (.slotStart slot previous)) => { e with tracker }.beginSlot slot previous
  | (tracker, some (.anomaly jumpMs resynced)) =>
    ({ e with tracker }, [.clockAnomaly jumpMs resynced])
  | (tracker, none) => ({ e with tracker }, [])

/-- Makes the mix that a deadline finds waiting. -/
def forceMix (e : Engine) (t : Moment) : Emits :=
  match e.mixer.takeWaiting .linear with
  | (mixer, some plan) => ({ e with mixer }.mix plan t).1
  | (_, none) => (e, [])

/-- Reports what the schedule released, one after the other. -/
def announce (t : Moment) : Engine → List Release → Emits
  | e, [] => (e, [])
  | e, r :: rest =>
    let forced := if isDeadline r then e.forceMix t else (e, [])
    (forced.andThen fun e => (e, [reportOf r])).andThen fun e => announce t e rest

/-- Releases what is due in the slot. -/
def releaseDue (e : Engine) (t : Moment) : Emits :=
  let (schedule, released) := e.schedule.release t.now
  announce t { e with schedule } released

/-- Makes the mix that is due. -/
def mixDue (e : Engine) (t : Moment) : Emits :=
  match e.mixer.takeIfDue t.now with
  | (mixer, true) => ({ e with mixer }.mix (mixer.currentPlan .spectral) t).1
  | (_, false) => (e, [])

/-- One look at the clock: the tracker takes one reading, and what is due
goes by the next. -/
def tick (e : Engine) (t : Moment) : Emits :=
  ((e.follow t.look).andThen fun e => e.releaseDue t).andThen fun e => e.mixDue t

end SlotRadio.Engine
