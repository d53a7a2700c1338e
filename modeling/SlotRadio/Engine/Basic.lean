import SlotRadio.Audio.Mixer
import SlotRadio.Engine.Event
import SlotRadio.Engine.Roster
import SlotRadio.Timing.Schedule
import SlotRadio.Timing.Tracker
/-!
# The engine

The engine owns everything that depends on time: the tracker of the
slots, the schedule of the current slot, the mixer and the operators.
It takes one step at a time; a step gives the next engine and what it
reports, in order.  What the clock shows meanwhile is a `Moment`.

`Engine.start?` sets an engine up, or names the setting that is out of
range.
-/

namespace SlotRadio

/-- What the clock shows while one request is met.  The engine does not
hold the clock: it may move between any two of its readings, in either
direction.  A look at the clock tells the tracker the reading `look`;
everything else goes by `now`, which is taken after it.  A mix that the
request makes takes its worker `workMs`, and when its outcome is reported
the clock shows `done`, which nobody reads. -/
structure Moment where
  look : Nat
  now : Nat
  workMs : Nat
  done : Nat
  deriving DecidableEq, Repr

/-- A moment in which no time passes. -/
def Moment.still (now : Nat) : Moment := ⟨now, now, 0, now⟩

/-- A number stands for the moment in which the clock stands still at
it. -/
instance (now : Nat) : OfNat Moment now := ⟨.still now⟩

/-- The state of a radio shared by several operators: the time grid, the
tracker of the slots, what is still to come in the current slot, its
audio, the operators, the composite of the slot's last mix, and the frames
decoded in the slot, oldest first. -/
structure Engine where
  config : Config
  mode : Mode
  tracker : Tracker
  schedule : Schedule
  mixer : Mixer
  roster : Roster
  lastMix : Option Composite
  heard : List Frame

namespace Engine

/-- An engine that has seen no clock reading. -/
def initial (mode : Mode) (config : Config) : Engine where
  config := config
  mode := mode
  tracker := .start mode config.loop.driftToleranceMs
  schedule :=
    .idle mode.checkpoints config.loop.deadlineLeadMs config.loop.overrunToleranceMs
  mixer := .empty config.mixer
  roster := .empty
  lastMix := none
  heard := []

/-- The first setting that makes an engine impossible. -/
def fault? (mode : Mode) (config : Config) : Option Setting :=
  match config.fault? with
  | some setting => some setting
  | none =>
    if mode.slotMs ≤ config.loop.deadlineLeadMs then some .deadlineLead else mode.fault?

/-- Sets an engine up. -/
def start? (mode : Mode) (config : Config) : Except Setting Engine :=
  match fault? mode config with
  | some setting => .error setting
  | none => .ok (initial mode config)

/-- A step's result: the next engine and what it reports. -/
abbrev Emits := Engine × List Event

/-- One step after the other. -/
def Emits.andThen (first : Emits) (next : Engine → Emits) : Emits :=
  ((next first.1).1, first.2 ++ (next first.1).2)

/-- The start of the slot that mixes are reported for. -/
def reportedSlot (e : Engine) : Nat :=
  (e.mixer.slotStart.or (e.tracker.current.map (·.startMs))).getD 0

end Engine

end SlotRadio
