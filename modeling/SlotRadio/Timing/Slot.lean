import SlotRadio.Timing.Mode
/-!
# Slots

A slot is one interval of a mode's time grid.  `slotOf` gives the slot
that a moment falls into; its bounds are multiples of the slot length.

A mode whose slots have no length has no slots: `slotOf?` is the form
for a mode that has not been checked.
-/

namespace SlotRadio

/-- The bounds of one slot: `endMs` is the first millisecond after it.  The
cycle counts the slots since the epoch, and names the slot. -/
structure Slot where
  id : Nat
  startMs : Nat
  endMs : Nat
  cycle : Nat
  isEven : Bool
  deriving DecidableEq, Repr

namespace Slot

/-- The length of a slot. -/
def lengthMs (s : Slot) : Nat :=
  s.endMs - s.startMs

/-- The part of a slot that is over at a moment. -/
def passedAt (s : Slot) (now : Nat) : Nat :=
  min (now - s.startMs) s.lengthMs

/-- True when a moment falls into a slot. -/
def contains (s : Slot) (now : Nat) : Bool :=
  s.startMs ≤ now && now < s.endMs

end Slot

/-- A moment inside a slot at which decoded frames are collected, by its
position among the mode's checkpoints and its distance from the start of the
slot. -/
structure Checkpoint where
  slot : Slot
  index : Nat
  offsetMs : Nat
  deriving DecidableEq, Repr

/-- The slot of cycle `cycle`. -/
def Mode.slot (m : Mode) (cycle : Nat) : Slot where
  id := cycle
  startMs := cycle * m.slotMs
  endMs := cycle * m.slotMs + m.slotMs
  cycle := cycle
  isEven := cycle % 2 == 0

/-- The slot that a moment falls into. -/
def slotOf (m : Mode) (now : Nat) : Slot :=
  m.slot (now / m.slotMs)

/-- The slot that a moment falls into, if the mode has slots at all. -/
def slotOf? (m : Mode) (now : Nat) : Option Slot :=
  if m.slotMs = 0 then none else some (slotOf m now)

@[simp] theorem slotOf_id (m : Mode) (now : Nat) : (slotOf m now).id = now / m.slotMs := rfl

@[simp] theorem slotOf_cycle (m : Mode) (now : Nat) :
    (slotOf m now).cycle = now / m.slotMs := rfl

end SlotRadio
