import SlotRadio.Decimal.Digits
/-!
# What can be wrong with a configuration

Either a single setting is out of its range, or two operators would
transmit on top of each other.  `Setting` lists the checked settings;
its two texts name the setting and say what it has to satisfy.
-/

namespace SlotRadio

/-- A checked setting. -/
inductive Setting where
  | slotLength
  | checkpoints
  | modeName
  | pollInterval
  | capacities
  | mixingWindow
  | maxOperators
  | normalizePeak
  | patience
  | deadlineLead
  deriving DecidableEq, Repr

namespace Setting

/-- The name under which a setting is reported. -/
def field : Setting → String
  | slotLength => "mode.slot_ms"
  | checkpoints => "mode.sub_window_offsets_ms"
  | modeName => "mode.name"
  | pollInterval => "runtime.poll_interval_ms"
  | capacities => "runtime.event_capacity"
  | mixingWindow => "mixer.mixing_window_ms"
  | maxOperators => "mixer.max_operators"
  | normalizePeak => "mixer.normalize_peak"
  | patience => "automation.max_cycles_without_reply"
  | deadlineLead => "runtime.tx_deadline_lead_ms"

/-- What a setting has to satisfy. -/
def requirement : Setting → String
  | slotLength | pollInterval | mixingWindow | maxOperators | patience => "must be positive"
  | checkpoints => "offsets must be ascending and inside the slot"
  | modeName => "must not be empty"
  | capacities => "channel capacities must be positive"
  | normalizePeak => "must be in (0, 1]"
  | deadlineLead => "must be shorter than the slot"

/-- The report of a setting out of range. -/
def message (s : Setting) : String :=
  "invalid config value `" ++ s.field ++ "`: " ++ s.requirement

end Setting

/-- Two operators that claim one turn at overlapping frequencies; the second
is the one that came later. -/
structure Overlap where
  turn : Nat
  first : Nat
  second : Nat
  deriving DecidableEq, Repr

/-- The report of two operators in conflict. -/
def Overlap.message (o : Overlap) : String :=
  "operators " ++ Decimal.naturalText o.first ++ " and " ++ Decimal.naturalText o.second ++
    " collide on transmit cycle " ++ Decimal.naturalText o.turn

end SlotRadio
