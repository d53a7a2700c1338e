import SlotRadio.Config.Basic
import SlotRadio.Json.Single
import SlotRadio.Wire.Timing
/-!
# Settings in JSON

Every setting may be left out and then has its default; so may every
group of settings.  `readConfig` takes a whole document and checks the
settings in it, and `loadConfig` does so for the content of a file.
-/

namespace SlotRadio.Wire

open Json

/-- The settings of the loop. -/
def loopSettings : Record LoopSettings where
  members :=
    let d : LoopSettings := {}
    [.withDefault "poll_interval_ms" word d.pollIntervalMs,
      .withDefault "drift_tolerance_ms" word d.driftToleranceMs,
      .withDefault "overrun_tolerance_ms" word d.overrunToleranceMs,
      .withDefault "tx_deadline_lead_ms" word d.deadlineLeadMs,
      .withDefault "reject_cycle_collisions" .bool d.rejectOverlaps,
      .withDefault "min_frequency_separation_hz" small d.separationHz,
      .withDefault "event_capacity" word d.eventCapacity,
      .withDefault "command_capacity" word d.requestCapacity]
  build := fun (pollIntervalMs, driftToleranceMs, overrunToleranceMs, deadlineLeadMs,
      rejectOverlaps, separationHz, eventCapacity, requestCapacity, ()) =>
    ⟨pollIntervalMs, driftToleranceMs, overrunToleranceMs, deadlineLeadMs, rejectOverlaps,
      separationHz, eventCapacity, requestCapacity⟩
  parts s := (s.pollIntervalMs, s.driftToleranceMs, s.overrunToleranceMs, s.deadlineLeadMs,
    s.rejectOverlaps, s.separationHz, s.eventCapacity, s.requestCapacity, ())
  short := true

/-- The settings of the mixer. -/
def mixerSettings : Record MixerSettings where
  members :=
    let d : MixerSettings := {}
    [.withDefault "mixing_window_ms" word d.windowMs,
      .withDefault "playback_lead_ms" word d.playbackLeadMs,
      .withDefault "normalize_peak" .single d.normalizePeak,
      .withDefault "max_operators" word d.maxOperators]
  build := fun (windowMs, playbackLeadMs, normalizePeak, maxOperators, ()) =>
    ⟨windowMs, playbackLeadMs, normalizePeak, maxOperators⟩
  parts s := (s.windowMs, s.playbackLeadMs, s.normalizePeak, s.maxOperators, ())
  short := true

/-- The policy of the operators. -/
def policy : Record Policy where
  members :=
    let d : Policy := {}
    [.withDefault "max_cycles_without_reply" small d.patience,
      .withDefault "auto_resume_cq_after_fail" .bool d.resumeAfterTimeout,
      .withDefault "auto_resume_cq_after_success" .bool d.resumeAfterContact,
      .withDefault "auto_reply_to_target_cq" .bool d.answersTarget]
  build := fun (patience, resumeAfterTimeout, resumeAfterContact, answersTarget, ()) =>
    ⟨patience, resumeAfterTimeout, resumeAfterContact, answersTarget⟩
  parts p := (p.patience, p.resumeAfterTimeout, p.resumeAfterContact, p.answersTarget, ())
  short := true

/-- All settings. -/
def config : Record Config where
  members := [
    .withDefault "runtime" loopSettings.codec {},
    .withDefault "mixer" mixerSettings.codec {},
    .withDefault "automation" policy.codec {}]
  build := fun (loop, mixer, policy, ()) => ⟨loop, mixer, policy⟩
  parts c := (c.loop, c.mixer, c.policy, ())
  short := true

/-- Why there are no settings: the text cannot be read, a setting is out of
its range, there is no such file, or it holds no text. -/
inductive ConfigFault where
  | json (f : Fault)
  | setting (s : Setting)
  | noFile
  | noText
  deriving DecidableEq, Repr

/-- The report of a fault, where its wording is fixed. -/
def ConfigFault.message : ConfigFault → Option String
  | json _ => none
  | setting s => some s.message
  | noFile => some "config io: No such file or directory (os error 2)"
  | noText => some "config io: stream did not contain valid UTF-8"

/-- The settings in a document, if they are in their ranges. -/
def readConfig (text : String) : Except ConfigFault Config :=
  match config.codec.decode text with
  | .error f => .error (.json f)
  | .ok c =>
    match c.fault? with
    | some s => .error (.setting s)
    | none => .ok c

/-- The settings in a file, given by its content. -/
def loadConfig : Option ByteArray → Except ConfigFault Config
  | none => .error .noFile
  | some bytes =>
    match String.fromUTF8? bytes with
    | none => .error .noText
    | some text => readConfig text

/-- The document of all settings. -/
def writeConfig (c : Config) : String :=
  config.codec.encodeIndented c

end SlotRadio.Wire
