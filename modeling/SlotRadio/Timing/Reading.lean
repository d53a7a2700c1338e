import SlotRadio.Word
/-!
# Clock readings

A reading is a count of milliseconds since the epoch and fits into
sixty-four bits.  These are the ways in which a clock moves from one
reading to another, and the correction of a reading by a known offset.
-/

namespace SlotRadio.Reading

/-- Later by `ms`; after the last reading comes the first. -/
def advance (now ms : Nat) : Nat :=
  (now + ms) % Word.count

/-- Earlier by `ms`, and never before the first reading. -/
def rewind (now ms : Nat) : Nat :=
  now - ms

/-- Shifted by a measured offset, and kept among the readings. -/
def corrected (now : Nat) (offset : Int) : Nat :=
  min (Word.count - 1) (Int.ofNat now + offset).toNat

end SlotRadio.Reading
