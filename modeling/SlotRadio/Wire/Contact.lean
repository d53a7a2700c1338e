import SlotRadio.Contact.Basic
import SlotRadio.Json.Single
import SlotRadio.Station.Basic
import SlotRadio.Wire.Timing
/-!
# Stations, contacts and their events in JSON

The names of members and alternatives are those that other programs on
the same wire expect.
-/

namespace SlotRadio.Wire

open Json

/-- Sets of turns, as lists without an order. -/
def turnSet : Codec TurnSet :=
  .via (.list word) TurnSet.ofList TurnSet.toList

/-- Stations. -/
def station : Record Station where
  members := [
    .required "my_call" .string,
    .required "my_grid" .string,
    .optional "target_call" .string,
    .optional "target_grid" .string,
    .required "frequency_hz" small,
    .required "transmit_cycles" turnSet]
  build := fun (call, grid, target, targetGrid, frequencyHz, turns, ()) =>
    ⟨call, grid, target, targetGrid, frequencyHz, turns⟩
  parts s := (s.call, s.grid, s.target, s.targetGrid, s.frequencyHz, s.turns, ())
  short := false

/-- Decoded frames. -/
def frame : Record Frame where
  members := [
    .required "message" .string,
    .required "snr" .int32,
    .required "dt_seconds" .single,
    .required "freq_hz" .single,
    .required "timestamp_ms" word]
  build := fun (text, snr, offsetSeconds, frequencyHz, decodedAt, ()) =>
    ⟨text, snr, offsetSeconds, frequencyHz, decodedAt⟩
  parts f := (f.text, f.snr, f.offsetSeconds, f.frequencyHz, f.decodedAt, ())
  short := false

/-- The name of a phase. -/
def phaseName : Phase → String
  | .idle => "Idle"
  | .callingCq => "CallingCQ"
  | .awaitingReply => "AwaitingReply"
  | .replying => "Replying"
  | .exchanging => "Exchanging"
  | .awaitingConfirm => "AwaitingConfirm"
  | .logging => "LoggingQSO"
  | .manual => "Manual"

/-- Phases. -/
def phase : Codec Phase where
  read := Branch.read (Phase.all.map fun p => .plain (phaseName p) p)
  write p := .string (phaseName p)

/-- Roles. -/
def role : Codec Role where
  read := Branch.read [.plain "Caller" .caller, .plain "Replier" .replier]
  write
    | .caller => .string "Caller"
    | .replier => .string "Replier"

/-- Contacts. -/
def contact : Record Contact where
  members := [
    .required "operator_id" small,
    .required "phase" phase,
    .required "role" role,
    .optional "target_call" .string,
    .optional "target_grid" .string,
    .optional "last_tx_message" .string,
    .required "cycles_without_reply" small,
    .optional "last_rx_at_slot" word,
    .optional "report_sent" .int32,
    .optional "report_received" .int32]
  build := fun (operator, phase, role, target, targetGrid, lastSent, unanswered, lastHeardIn,
      reportSent, reportReceived, ()) =>
    ⟨operator, phase, role, target, targetGrid, lastSent, unanswered, lastHeardIn, reportSent,
      reportReceived⟩
  parts c := (c.operator, c.phase, c.role, c.target, c.targetGrid, c.lastSent, c.unanswered,
    c.lastHeardIn, c.reportSent, c.reportReceived, ())
  short := false

/-- What a call of one station carries. -/
def callStation : Record (String × Option String) where
  members := [.required "call" .string, .optional "grid" .string]
  build := fun (call, grid, ()) => (call, grid)
  parts := fun (call, grid) => (call, grid, ())
  short := false

/-- Commands. -/
def command : Codec Command where
  read := Branch.read [
    .plain "CallCq" .callCq,
    .carrying "CallStation" callStation.codec fun (call, grid) => .callStation call grid,
    .plain "Abort" .abort,
    .carrying "SetManual" .bool .setManual,
    .carrying "QueueMessage" .string .queueMessage]
  write
    | .callCq => .string "CallCq"
    | .callStation call grid => .tagged "CallStation" (callStation.codec.write (call, grid))
    | .abort => .string "Abort"
    | .setManual on => .tagged "SetManual" (.bool on)
    | .queueMessage text => .tagged "QueueMessage" (.string text)

/-- Transmissions. -/
def transmission : Record Transmission where
  members := [
    .required "operator_id" small,
    .required "message" .string,
    .required "frequency_hz" small,
    .required "slot_start_ms" word]
  build := fun (operator, message, frequencyHz, slotStartMs, ()) =>
    ⟨operator, message, frequencyHz, slotStartMs⟩
  parts t := (t.operator, t.message, t.frequencyHz, t.slotStartMs, ())
  short := false

/-- Finished contacts. -/
def logEntry : Record LogEntry where
  members := [
    .required "operator_id" small,
    .required "my_call" .string,
    .required "their_call" .string,
    .optional "their_grid" .string,
    .optional "report_sent" .int32,
    .optional "report_received" .int32,
    .required "frequency_hz" small,
    .required "slot_start_ms" word]
  build := fun (operator, myCall, theirCall, theirGrid, reportSent, reportReceived, frequencyHz,
      slotStartMs, ()) =>
    ⟨operator, myCall, theirCall, theirGrid, reportSent, reportReceived, frequencyHz,
      slotStartMs⟩
  parts e := (e.operator, e.myCall, e.theirCall, e.theirGrid, e.reportSent, e.reportReceived,
    e.frequencyHz, e.slotStartMs, ())
  short := false

/-- What a change of phase carries. -/
def phaseChange : Record (Nat × Phase × Phase × Option Nat) where
  members := [
    .required "operator_id" small,
    .required "from" phase,
    .required "to" phase,
    .optional "slot_id" word]
  build := fun (operator, before, after, slotId, ()) => (operator, before, after, slotId)
  parts := fun (operator, before, after, slotId) => (operator, before, after, slotId, ())
  short := false

/-- What a timeout carries. -/
def timeout : Record (Nat × Phase × Nat) where
  members := [
    .required "operator_id" small,
    .required "phase" phase,
    .required "cycles" small]
  build := fun (operator, phase, cycles, ()) => (operator, phase, cycles)
  parts := fun (operator, phase, cycles) => (operator, phase, cycles, ())
  short := false

/-- Reports of operators. -/
def contactEvent : Codec ContactEvent where
  read := Branch.read [
    .carrying "PhaseChanged" phaseChange.codec fun (operator, before, after, slotId) =>
      .phaseChanged operator before after slotId,
    .carrying "Transmitted" transmission.codec .transmitted,
    .carrying "Timeout" timeout.codec fun (operator, phase, cycles) =>
      .timeout operator phase cycles,
    .carrying "Completed" logEntry.codec .completed]
  write
    | .phaseChanged operator before after slotId =>
      .tagged "PhaseChanged" (phaseChange.codec.write (operator, before, after, slotId))
    | .transmitted t => .tagged "Transmitted" (transmission.codec.write t)
    | .timeout operator phase cycles =>
      .tagged "Timeout" (timeout.codec.write (operator, phase, cycles))
    | .completed entry => .tagged "Completed" (logEntry.codec.write entry)

end SlotRadio.Wire
