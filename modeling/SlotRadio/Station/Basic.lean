import SlotRadio.Station.TurnSet
import SlotRadio.Text.Letter
import SlotRadio.Timing.Slot
/-!
# Stations

A station is what one operator brings to the radio: who they are, whom
they want to work, where in the band they transmit and in which turns.
-/

namespace SlotRadio

/-- The set-up of one operator: its call and grid, which is empty if it is not
to be sent, the station to work, the audio frequency, and the turns in which
it may transmit. -/
structure Station where
  call : String
  grid : String
  target : Option String
  targetGrid : Option String
  frequencyHz : Nat
  turns : TurnSet
  deriving DecidableEq

namespace Station

/-- A station without a target; call and grid are put in capitals. -/
def ofCall (call grid : String) (frequencyHz : Nat) (turns : List Nat) : Station where
  call := Text.capitals call
  grid := Text.capitals grid
  target := none
  targetGrid := none
  frequencyHz := frequencyHz
  turns := TurnSet.ofList turns

/-- True when a slot is one of the station's turns. -/
def hasTurn (s : Station) (mode : Mode) (slot : Slot) : Bool :=
  s.turns.contains (mode.turn slot.cycle)

/-- The distance between two frequencies. -/
def distance (f g : Nat) : Nat :=
  (f - g) + (g - f)

/-- True when two stations would be heard on top of each other. -/
def overlaps (separation : Nat) (a b : Station) : Bool :=
  distance a.frequencyHz b.frequencyHz < separation

/-- The first turn in which two stations would be heard on top of each
other. -/
def conflict? (separation : Nat) (a b : Station) : Option Nat :=
  if a.overlaps separation b then a.turns.firstCommon? b.turns else none

theorem distance_comm (f g : Nat) : distance f g = distance g f := by
  unfold distance; omega

theorem overlaps_comm (separation : Nat) (a b : Station) :
    a.overlaps separation b = b.overlaps separation a := by
  simp [overlaps, distance_comm]

end Station

end SlotRadio
