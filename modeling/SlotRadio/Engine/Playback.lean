import SlotRadio.Engine.Basic
/-!
# Mixing and playing

How the engine runs mixes and reports them.

* Before the deadline of the slot a plan runs as it is; if its worker is
  not done by the deadline, the plan runs again with the quick conversion.
* From the deadline on a plan runs with the quick conversion, and fails if
  its worker is not done by the end of the slot.
* A composite that is reported is taken to be played from when its plan
  was made, however long the mix has taken.
* A change while a composite is played is mixed from where the playing
  has got to (`mixAgain`).
-/

namespace SlotRadio.Engine

/-- Runs a plan in the time that there is for it. -/
def carryOut (e : Engine) (plan : MixPlan) (t : Moment) : Except MixFault MixSummary :=
  match e.schedule.allowance t.now with
  | .beforeDeadline ms =>
    if t.workMs ≤ ms then plan.run else (plan.usingQuality .linear).run
  | .restOfSlot ms =>
    if t.workMs ≤ ms then (plan.usingQuality .linear).run
    else .error (.expired plan.slotStartMs)

/-- Reports the outcome of a mix that was begun at `begun`. -/
def reportMix (e : Engine) (outcome : Except MixFault MixResult) (begun : Nat) : Emits :=
  match outcome with
  | .ok (.composite audio) =>
    ({ e with lastMix := some audio, mixer := e.mixer.beginPlayback begun },
      [.mixReady e.reportedSlot audio])
  | .ok .silence => ({ e with lastMix := none }, [.mixUnderrun e.reportedSlot])
  | .error fault => ({ e with lastMix := none }, [.mixFailed e.reportedSlot fault])

/-- Runs a plan and reports its outcome; tells why it failed, if it
did. -/
def mix (e : Engine) (plan : MixPlan) (t : Moment) : Emits × Option MixFault :=
  let (mixer, outcome) := e.mixer.record (e.carryOut plan t)
  ({ e with mixer }.reportMix outcome t.now,
    match outcome with
    | .ok _ => none
    | .error fault => some fault)

/-- The time for which the composite has been played. -/
def playedMs (e : Engine) (now : Nat) : Nat :=
  match e.mixer.playbackStart with
  | some at_ => now - at_
  | none => 0

/-- Mixes again from where the playing has got to. -/
def mixAgain (e : Engine) (t : Moment) : Emits :=
  let (mixer, plan) := e.mixer.planAgain (e.playedMs t.now) .spectral
  ({ e with mixer }.mix plan t).1

/-- Asks for a mix; if its playback time is over it is made at once. -/
def scheduleMix (e : Engine) (t : Moment) (target : Option Nat) : Emits × Option MixFault :=
  match e.mixer.schedule t.now target with
  | (mixer, .overdue _) =>
    let e := { e with mixer }
    let ((e', events), fault) := e.mix (mixer.currentPlan .spectral) t
    ((e', .mixOverrun e.reportedSlot :: events), fault)
  | (mixer, _) => (({ e with mixer }, []), none)

/-- Takes the audio of an operator, and sees to it that it is mixed. -/
def addClip (e : Engine) (clip : Clip) (target : Option Nat) (t : Moment) :
    Emits × Except EngineFault Acceptance :=
  match e.tracker.current with
  | none => ((e, []), .error .noSlot)
  | some slot =>
    if clip.slotStartMs < slot.startMs then
      ((e, []), .error (.staleSlot clip.slotStartMs))
    else
      let wasMixed := e.mixer.stage = .mixed
      match e.mixer.add clip with
      | (mixer, .error fault) => (({ e with mixer }, []), .error (.mix fault))
      | (mixer, .ok accepted) =>
        let e := { e with mixer }
        if accepted = .duplicate then ((e, []), .ok accepted)
        else if accepted ≠ .purgedStale ∧ wasMixed then (e.mixAgain t, .ok accepted)
        else
          match e.scheduleMix t target with
          | (done, none) => (done, .ok accepted)
          | (done, some fault) => (done, .error (.mix fault))

end SlotRadio.Engine
