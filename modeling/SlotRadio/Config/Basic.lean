import SlotRadio.Timing.Mode
/-!
# Settings

Three groups of settings: the loop that watches the clock, the mixer,
and the policy of the automatic operators.  Every setting has a default.
`Config.fault?` names the first setting that is out of range.
-/

namespace SlotRadio

/-- Settings of the loop that watches the clock.  A backward movement of the
clock within `driftToleranceMs` is jitter; a checkpoint noticed later than
`overrunToleranceMs` is skipped; operators that share a turn within
`separationHz` are in conflict, and are refused at set-up if
`rejectOverlaps`. -/
structure LoopSettings where
  pollIntervalMs : Nat := 20
  driftToleranceMs : Nat := 500
  overrunToleranceMs : Nat := 100
  deadlineLeadMs : Nat := 250
  rejectOverlaps : Bool := true
  separationHz : Nat := 50
  eventCapacity : Nat := 1024
  requestCapacity : Nat := 256
  deriving DecidableEq, Repr

/-- Settings of the mixer.  A mix waits `windowMs` for further audio, and an
early one is made `playbackLeadMs` before its playback; a composite that would
clip is scaled to `normalizePeak`. -/
structure MixerSettings where
  windowMs : Nat := 100
  playbackLeadMs : Nat := 50
  normalizePeak : Float32 := 0.95
  maxOperators : Nat := 16
  deriving BEq, Repr

/-- How the automatic operators behave: how many cycles they wait for an
answer, whether they call again after giving up and after a contact, and
whether they answer a call of the target. -/
structure Policy where
  patience : Nat := 6
  resumeAfterTimeout : Bool := false
  resumeAfterContact : Bool := true
  answersTarget : Bool := true
  deriving DecidableEq, Repr

/-- All settings. -/
structure Config where
  loop : LoopSettings := {}
  mixer : MixerSettings := {}
  policy : Policy := {}
  deriving BEq, Repr

namespace Config

/-- A peak that a composite may be scaled to: positive and at most one. -/
def peakAllowed (peak : Float32) : Bool :=
  0 < peak && peak ≤ 1

/-- The first setting that is out of range. -/
def fault? (c : Config) : Option Setting :=
  if c.loop.pollIntervalMs = 0 then some .pollInterval
  else if c.loop.eventCapacity = 0 ∨ c.loop.requestCapacity = 0 then some .capacities
  else if c.mixer.windowMs = 0 then some .mixingWindow
  else if c.mixer.maxOperators = 0 then some .maxOperators
  else if !peakAllowed c.mixer.normalizePeak then some .normalizePeak
  else if c.policy.patience = 0 then some .patience
  else none

end Config

end SlotRadio
