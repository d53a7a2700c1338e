import SlotRadio.Timing.Slot
import SlotRadio.Word
/-!
# Following the slots

A `Tracker` is shown a clock reading now and then and says when a slot
has begun.

* A reading in a new slot announces it, with the slot that was current
  before.  No slot is announced twice and none after a later one:
  `highest` remembers the last announced cycle.
* A reading earlier than the last one by no more than the tolerance is
  jitter and changes nothing.
* A reading earlier by more than that is an anomaly: the current slot is
  taken from the reading, without announcing it.
-/

namespace SlotRadio

/-- What a reading has shown: a new slot began, or the clock went back by
`-jumpMs` milliseconds. -/
inductive Tick where
  | slotStart (slot : Slot) (previous : Option Slot)
  | anomaly (jumpMs : Int) (resynced : Slot)
  deriving DecidableEq, Repr

/-- The state of following a clock.  A backward movement within `toleranceMs`
is jitter, and `lastReading` is the last reading that was none; `highest` is
the last announced cycle. -/
structure Tracker where
  mode : Mode
  toleranceMs : Nat
  current : Option Slot
  lastReading : Option Nat
  highest : Option Nat
  deriving DecidableEq, Repr

namespace Tracker

/-- A tracker that has seen no reading. -/
def start (mode : Mode) (toleranceMs : Nat) : Tracker where
  mode := mode
  toleranceMs := toleranceMs
  current := none
  lastReading := none
  highest := none

/-- The size of a backward movement, as a signed sixty-four bit number. -/
def jump (back : Nat) : Int :=
  Int.bmod (-Int.ofNat back) Word.count

/-- Takes a reading that is no earlier than the last one. -/
def enter (t : Tracker) (now : Nat) : Tracker × Option Tick :=
  let slot := slotOf t.mode now
  let seen := { t with lastReading := some now }
  if t.current.any (·.id == slot.id) then (seen, none)
  else if t.highest.any (slot.cycle ≤ ·) then ({ seen with current := some slot }, none)
  else
    ({ seen with current := some slot, highest := some slot.cycle },
      some (.slotStart slot t.current))

/-- Takes a reading. -/
def observe (t : Tracker) (now : Nat) : Tracker × Option Tick :=
  match t.lastReading with
  | none => t.enter now
  | some last =>
    if last ≤ now then t.enter now
    else if last - now ≤ t.toleranceMs then (t, none)
    else
      let slot := slotOf t.mode now
      ({ t with lastReading := some now, current := some slot },
        some (.anomaly (jump (last - now)) slot))

/-- Takes readings one after the other and lists what each has shown. -/
def run (t : Tracker) : List Nat → List (Option Tick)
  | [] => []
  | now :: rest => (t.observe now).2 :: run (t.observe now).1 rest

end Tracker

end SlotRadio
