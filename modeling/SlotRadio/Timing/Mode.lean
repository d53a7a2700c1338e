import SlotRadio.Config.Fault
/-!
# Modes

A mode cuts time into slots of equal length and says whose turn each
slot is.  Slots are numbered from the epoch; the number is the slot's
**cycle**.  Inside a slot a mode may have **checkpoints**, moments at
which frames decoded so far are collected.

* `Mode.turn` — the turn of a cycle: its parity, or always `0` where
  every slot is the same;
* `Mode.fault?` — the first setting that makes a mode unusable.
-/

namespace SlotRadio

/-- How slots are given to stations: even and odd slots alternate, or every
slot is everybody's. -/
inductive Turns where
  | evenOdd
  | continuous
  deriving DecidableEq, Repr

/-- The slot timing of a digital mode.  The checkpoints count in milliseconds
from the start of a slot. -/
structure Mode where
  name : String
  slotMs : Nat
  turns : Turns
  checkpoints : List Nat
  deriving DecidableEq, Repr

namespace Mode

/-- Fifteen-second slots with three checkpoints near the end. -/
def ft8 : Mode where
  name := "FT8"
  slotMs := 15000
  turns := .evenOdd
  checkpoints := [11800, 12800, 13800]

/-- Slots of seven and a half seconds with two checkpoints. -/
def ft4 : Mode where
  name := "FT4"
  slotMs := 7500
  turns := .evenOdd
  checkpoints := [5300, 6300]

/-- The turn that a cycle belongs to. -/
def turn (m : Mode) (cycle : Nat) : Nat :=
  match m.turns with
  | .evenOdd => cycle % 2
  | .continuous => 0

/-- Each entry is below the next one. -/
def ascending : List Nat → Bool
  | a :: b :: rest => decide (a < b) && ascending (b :: rest)
  | _ => true

/-- The first setting of a mode that is out of range. -/
def fault? (m : Mode) : Option Setting :=
  if m.slotMs = 0 then some .slotLength
  else if !(ascending m.checkpoints && m.checkpoints.all (· < m.slotMs)) then
    some .checkpoints
  else if m.name = "" then some .modeName
  else none

end Mode

end SlotRadio
