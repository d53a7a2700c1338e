import SlotRadio.Json.Choice
import SlotRadio.Json.Record
import SlotRadio.Timing.Slot
/-!
# Modes and slots in JSON
-/

namespace SlotRadio.Wire

open Json

/-- Counts, times and numbers of slots. -/
def word : Codec Nat := .below Word.count

/-- Operators, frequencies and small counts. -/
def small : Codec Nat := .below Word.halfCount

/-- Whose turn a slot is. -/
def turns : Codec Turns where
  read := Branch.read [.plain "EvenOdd" .evenOdd, .plain "Continuous" .continuous]
  write
    | .evenOdd => .string "EvenOdd"
    | .continuous => .string "Continuous"

/-- Modes. -/
def mode : Record Mode where
  members := [
    .required "name" .string,
    .required "slot_ms" word,
    .required "cycle_type" turns,
    .required "sub_window_offsets_ms" (.list word)]
  build := fun (name, slotMs, turns, checkpoints, ()) => ⟨name, slotMs, turns, checkpoints⟩
  parts m := (m.name, m.slotMs, m.turns, m.checkpoints, ())
  short := false

/-- Slots. -/
def slot : Record Slot where
  members := [
    .required "slot_id" word,
    .required "start_ms" word,
    .required "end_ms" word,
    .required "cycle_number" word,
    .required "is_even" .bool]
  build := fun (id, startMs, endMs, cycle, isEven, ()) => ⟨id, startMs, endMs, cycle, isEven⟩
  parts s := (s.id, s.startMs, s.endMs, s.cycle, s.isEven, ())
  short := false

/-- Checkpoints. -/
def checkpoint : Record Checkpoint where
  members := [
    .required "slot" slot.codec,
    .required "window_index" word,
    .required "offset_ms" word]
  build := fun (slot, index, offsetMs, ()) => ⟨slot, index, offsetMs⟩
  parts c := (c.slot, c.index, c.offsetMs, ())
  short := false

end SlotRadio.Wire
