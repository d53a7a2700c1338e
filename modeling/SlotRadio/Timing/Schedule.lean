import SlotRadio.Timing.Slot
/-!
# What happens inside a slot

A `Schedule` is given a slot and then shown the time.  It releases
the slot's checkpoints as they fall due and, once, the **deadline**: the
last moment at which audio can still be handed to the radio.

* A checkpoint noticed later than the tolerance allows is not released
  but reported as skipped, so that work is never attributed to the wrong
  moment.
* The deadline is never skipped.  If the next slot begins first, it is
  released then.
* One look at the clock releases what is due in the order of its times,
  the deadline before a checkpoint at the same moment, and the report of
  the skipped checkpoints before everything else.

`Schedule.release` does this in one pass over the checkpoints that are
still to come (`sweep`).
-/

namespace SlotRadio

/-- What a schedule releases: a checkpoint on time, one report of the
checkpoints noticed too late, of which the last was late by `lateMs`, and the
deadline of a slot. -/
inductive Release where
  | checkpoint (c : Checkpoint)
  | overrun (slotId : Nat) (skipped : List Nat) (lateMs : Nat)
  | deadline (slot : Slot)
  deriving DecidableEq, Repr

/-- The time that a mix started now may take.  After the deadline what is left
is the rest of the slot. -/
inductive Allowance where
  | beforeDeadline (ms : Nat)
  | restOfSlot (ms : Nat)
  deriving DecidableEq, Repr

/-- The state of releasing one slot's moments.  A deadline is `leadMs` before
the end of its slot, and a checkpoint may be noticed up to `toleranceMs`
late.  The first checkpoint that is still to come has index `next`;
`deadlineReleased` also holds before any slot; `overruns` counts the
checkpoints skipped so far. -/
structure Schedule where
  offsets : List Nat
  leadMs : Nat
  toleranceMs : Nat
  slot : Option Slot
  next : Nat
  deadlineReleased : Bool
  overruns : Nat
  deriving DecidableEq, Repr

namespace Schedule

/-- A schedule without a slot. -/
def idle (offsets : List Nat) (leadMs toleranceMs : Nat) : Schedule where
  offsets := offsets
  leadMs := leadMs
  toleranceMs := toleranceMs
  slot := none
  next := 0
  deadlineReleased := true
  overruns := 0

/-- Turns to a slot and releases the deadline of the slot before, if
that is still to come. -/
def beginSlot (s : Schedule) (slot : Slot) : Schedule × List Release :=
  let late := s.slot.toList.filterMap fun old =>
    if s.deadlineReleased then none else some (.deadline old)
  ({ s with slot := some slot, next := 0, deadlineReleased := false }, late)

/-- The deadline of a slot, never before its start. -/
def deadlineOf (s : Schedule) (slot : Slot) : Nat :=
  max (slot.endMs - s.leadMs) slot.startMs

/-- The deadline of the current slot. -/
def deadline? (s : Schedule) : Option Nat :=
  s.slot.map s.deadlineOf

/-- The time that a mix started at `now` may take. -/
def allowance (s : Schedule) (now : Nat) : Allowance :=
  match s.slot with
  | none => .restOfSlot 0
  | some slot =>
    if now < s.deadlineOf slot then .beforeDeadline (s.deadlineOf slot - now)
    else .restOfSlot (slot.endMs - now)

/-- The earlier of two moments, where one or both may be missing. -/
def earlier : Option Nat → Option Nat → Option Nat
  | some a, some b => some (min a b)
  | some a, none => some a
  | none, b => b

/-- The next moment at which something is due. -/
def nextMoment? (s : Schedule) : Option Nat :=
  s.slot.bind fun slot =>
    earlier (s.offsets[s.next]?.map (slot.startMs + ·))
      (if s.deadlineReleased then none else some (s.deadlineOf slot))

/-- What one pass over the coming checkpoints has found: what is released on
time, the checkpoints noticed too late and how late the last of them was, and
whether the deadline is due and not among the released. -/
structure Sweep where
  released : List Release
  skipped : List Nat
  lateMs : Nat
  next : Nat
  deadlinePending : Bool

/-- Goes over the coming checkpoints `offsets`, the first of which has
index `i`, up to the first that is not due. -/
def sweep (s : Schedule) (slot : Slot) (now : Nat) (i : Nat) :
    List Nat → Bool → Sweep
  | [], pending => ⟨[], [], 0, i, pending⟩
  | offset :: rest, pending =>
    let due := slot.startMs + offset
    if now < due then ⟨[], [], 0, i, pending⟩
    else
      let first := pending && s.deadlineOf slot ≤ due
      let after := s.sweep slot now (i + 1) rest (pending && !first)
      let before := if first then [Release.deadline slot] else []
      if s.toleranceMs < now - due then
        { after with
          released := before ++ after.released
          skipped := i :: after.skipped
          lateMs := if after.skipped.isEmpty then now - due else after.lateMs }
      else
        { after with
          released := before ++ .checkpoint ⟨slot, i, offset⟩ :: after.released }

/-- Releases all that is due at `now`. -/
def release (s : Schedule) (now : Nat) : Schedule × List Release :=
  match s.slot with
  | none => (s, [])
  | some slot =>
    let due := !s.deadlineReleased && s.deadlineOf slot ≤ now
    let found := s.sweep slot now s.next (s.offsets.drop s.next) due
    let report :=
      if found.skipped.isEmpty then []
      else [Release.overrun slot.id found.skipped found.lateMs]
    let last := if found.deadlinePending then [Release.deadline slot] else []
    ({ s with
        next := found.next
        deadlineReleased := s.deadlineReleased || due
        overruns := s.overruns + found.skipped.length },
      report ++ found.released ++ last)

end Schedule

end SlotRadio
