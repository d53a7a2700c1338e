import SlotRadio.Proofs.Json.Writing
import SlotRadio.Wire.Contact
/-!
# Values on the wire survive their documents

A `Kind` is a type of values on the wire, with its codec.  The numbers of a
value fit into the words that the wire has for them (`Kind.Fits`); nothing else
is asked of it, so strings may hold any characters, and what may be absent may
be absent or not.

* `survives_contactEvent`, `survives_contact`, and so on — one lemma for each
  record and each choice, from those for its parts;
* `values_survive` — all kinds together, for the compact text.
-/

namespace SlotRadio

/-! ## What fits on the wire -/

/-- The numbers of a mode fit into words. -/
structure Mode.Fits (m : Mode) : Prop where
  slotMs : m.slotMs < Word.count
  checkpoints : ∀ n ∈ m.checkpoints, n < Word.count

/-- The numbers of a slot fit into words. -/
structure Slot.Fits (s : Slot) : Prop where
  id : s.id < Word.count
  startMs : s.startMs < Word.count
  endMs : s.endMs < Word.count
  cycle : s.cycle < Word.count

/-- The numbers of a checkpoint fit into words. -/
structure Checkpoint.Fits (c : Checkpoint) : Prop where
  slot : c.slot.Fits
  index : c.index < Word.count
  offsetMs : c.offsetMs < Word.count

/-- The numbers of a station fit into words and half words. -/
structure Station.Fits (s : Station) : Prop where
  frequencyHz : s.frequencyHz < Word.halfCount
  turns : ∀ n ∈ s.turns.toList, n < Word.count

/-- The numbers of a contact fit into words and half words. -/
structure Contact.Fits (c : Contact) : Prop where
  operator : c.operator < Word.halfCount
  unanswered : c.unanswered < Word.halfCount
  lastHeardIn : ∀ n ∈ c.lastHeardIn, n < Word.count
  reportSent : ∀ n ∈ c.reportSent, Json.IsInt32 n
  reportReceived : ∀ n ∈ c.reportReceived, Json.IsInt32 n

/-- The numbers of a transmission fit into words and half words. -/
structure Transmission.Fits (t : Transmission) : Prop where
  operator : t.operator < Word.halfCount
  frequencyHz : t.frequencyHz < Word.halfCount
  slotStartMs : t.slotStartMs < Word.count

/-- The numbers of a log entry fit into words and half words. -/
structure LogEntry.Fits (e : LogEntry) : Prop where
  operator : e.operator < Word.halfCount
  reportSent : ∀ n ∈ e.reportSent, Json.IsInt32 n
  reportReceived : ∀ n ∈ e.reportReceived, Json.IsInt32 n
  frequencyHz : e.frequencyHz < Word.halfCount
  slotStartMs : e.slotStartMs < Word.count

/-- The numbers of a report fit into words and half words. -/
def ContactEvent.Fits : ContactEvent → Prop
  | phaseChanged operator _ _ slotId =>
    operator < Word.halfCount ∧ ∀ n ∈ slotId, n < Word.count
  | transmitted t => t.Fits
  | timeout operator _ cycles => operator < Word.halfCount ∧ cycles < Word.halfCount
  | completed entry => entry.Fits

namespace Wire

open Json

/-- A type of values on the wire. -/
inductive Kind where
  | station
  | mode
  | slot
  | checkpoint
  | command
  | transmission
  | logEntry
  | contactEvent
  | contact

namespace Kind

/-- The values of a kind. -/
def Value : Kind → Type
  | station => Station
  | mode => Mode
  | slot => Slot
  | checkpoint => Checkpoint
  | command => Command
  | transmission => Transmission
  | logEntry => LogEntry
  | contactEvent => ContactEvent
  | contact => Contact

/-- How the values of a kind are read and written. -/
def codec : (k : Kind) → Codec k.Value
  | station => Wire.station.codec
  | mode => Wire.mode.codec
  | slot => Wire.slot.codec
  | checkpoint => Wire.checkpoint.codec
  | command => Wire.command
  | transmission => Wire.transmission.codec
  | logEntry => Wire.logEntry.codec
  | contactEvent => Wire.contactEvent
  | contact => Wire.contact.codec

/-- The numbers of a value fit into the words that the wire has for them. -/
def Fits : (k : Kind) → k.Value → Prop
  | station => Station.Fits
  | mode => Mode.Fits
  | slot => Slot.Fits
  | checkpoint => Checkpoint.Fits
  | command => fun _ => True
  | transmission => Transmission.Fits
  | logEntry => LogEntry.Fits
  | contactEvent => ContactEvent.Fits
  | contact => Contact.Fits

end Kind

/-! ## Numbers and names -/

section

variable {l : Layout}

/-- A count of sixty-four bits survives. -/
theorem survives_word {n : Nat} (h : n < Word.count) : word.Survives l n :=
  Codec.survives_below (Nat.le_refl _) h

/-- A count of thirty-two bits survives. -/
theorem survives_small {n : Nat} (h : n < Word.halfCount) : small.Survives l n :=
  Codec.survives_below (by decide) h

/-- A string that may be missing survives, also the string `null`. -/
theorem survives_optional_string (s : Option String) : Codec.string.option.Survives l s :=
  Codec.survives_option fun content _ =>
    ⟨Codec.survives_string content, fun _ => by simp [Codec.string, render, quote]⟩

/-- A number does not look like an absent value. -/
theorem head?_integer_ne (n : Int) : (Decimal.integer n).head? ≠ some 'n' := by
  obtain ⟨c, rest, heq, hc⟩ := (numeral_integer n).exists_cons
  rw [heq]
  rintro ⟨⟩
  exact absurd hc (by decide)

/-- A count that may be missing survives, and zero is not taken for a missing
one. -/
theorem survives_optional_word {n : Option Nat} (h : ∀ k ∈ n, k < Word.count) :
    word.option.Survives l n :=
  Codec.survives_option fun k hk => ⟨survives_word (h k hk), fun _ => head?_integer_ne k⟩

/-- A report that may be missing survives, with its sign. -/
theorem survives_optional_int32 {n : Option Int} (h : ∀ k ∈ n, IsInt32 k) :
    Codec.int32.option.Survives l n :=
  Codec.survives_option fun k hk => ⟨Codec.survives_int32 (h k hk), fun _ => head?_integer_ne k⟩

theorem survives_turns (t : Turns) : turns.Survives l t := by
  cases t <;> exact Codec.survives_plain rfl rfl rfl

/-- A phase survives by its name. -/
theorem survives_phase (p : Phase) : phase.Survives l p :=
  Codec.survives_plain rfl rfl (by cases p <;> rfl)

/-- A role survives by its name. -/
theorem survives_role (r : Role) : role.Survives l r := by
  cases r <;> exact Codec.survives_plain rfl rfl rfl

end

/-! ## Records and choices -/

section

variable {l : Layout} (hl : l.Blank)

include hl

/-- A set of turns survives as the list of its members. -/
theorem survives_turnSet {s : TurnSet} (h : ∀ n ∈ s.toList, n < Word.count) :
    turnSet.Survives l s :=
  Codec.survives_via (TurnSet.ofList_toList s)
    (Codec.survives_list hl fun n hn => survives_word (h n hn))

/-- A set-up survives if its numbers have room. -/
theorem survives_station {s : Station} (h : s.Fits) : station.codec.Survives l s :=
  station.survives (by decide) hl rfl
    ⟨Codec.survives_string _, Codec.survives_string _, survives_optional_string _,
      survives_optional_string _, survives_small h.frequencyHz, survives_turnSet hl h.turns,
      trivial⟩

/-- A mode survives if its numbers have room. -/
theorem survives_mode {m : Mode} (h : m.Fits) : mode.codec.Survives l m :=
  mode.survives (by decide) hl rfl
    ⟨Codec.survives_string _, survives_word h.slotMs, survives_turns _,
      Codec.survives_list hl fun n hn => survives_word (h.checkpoints n hn), trivial⟩

/-- A slot survives if its numbers have room. -/
theorem survives_slot {s : Slot} (h : s.Fits) : slot.codec.Survives l s :=
  slot.survives (by decide) hl rfl
    ⟨survives_word h.id, survives_word h.startMs, survives_word h.endMs, survives_word h.cycle,
      Codec.survives_bool _, trivial⟩

/-- A checkpoint survives, and the slot in it. -/
theorem survives_checkpoint {c : Checkpoint} (h : c.Fits) : checkpoint.codec.Survives l c :=
  checkpoint.survives (by decide) hl rfl
    ⟨survives_slot hl h.slot, survives_word h.index, survives_word h.offsetMs, trivial⟩

/-- A contact survives, also where little is known about the partner. -/
theorem survives_contact {c : Contact} (h : c.Fits) : contact.codec.Survives l c :=
  contact.survives (by decide) hl rfl
    ⟨survives_small h.operator, survives_phase _, survives_role _, survives_optional_string _,
      survives_optional_string _, survives_optional_string _, survives_small h.unanswered,
      survives_optional_word h.lastHeardIn, survives_optional_int32 h.reportSent,
      survives_optional_int32 h.reportReceived, trivial⟩

/-- The values that go with a call to one station survive. -/
theorem survives_callStation (call : String) (grid : Option String) :
    callStation.codec.Survives l (call, grid) :=
  callStation.survives (by decide) hl rfl
    ⟨Codec.survives_string _, survives_optional_string _, trivial⟩

/-- Every command survives. -/
theorem survives_command (c : Command) : command.Survives l c := by
  cases c with
  | callCq | abort => exact Codec.survives_plain rfl rfl rfl
  | callStation call grid =>
    exact Codec.survives_carrying rfl hl rfl rfl rfl (survives_callStation hl call grid)
  | setManual on => exact Codec.survives_carrying rfl hl rfl rfl rfl (Codec.survives_bool on)
  | queueMessage text =>
    exact Codec.survives_carrying rfl hl rfl rfl rfl (Codec.survives_string text)

/-- A transmission survives if its numbers have room. -/
theorem survives_transmission {t : Transmission} (h : t.Fits) :
    transmission.codec.Survives l t :=
  transmission.survives (by decide) hl rfl
    ⟨survives_small h.operator, Codec.survives_string _, survives_small h.frequencyHz,
      survives_word h.slotStartMs, trivial⟩

/-- A finished contact survives if its numbers have room. -/
theorem survives_logEntry {e : LogEntry} (h : e.Fits) : logEntry.codec.Survives l e :=
  logEntry.survives (by decide) hl rfl
    ⟨survives_small h.operator, Codec.survives_string _, Codec.survives_string _,
      survives_optional_string _, survives_optional_int32 h.reportSent,
      survives_optional_int32 h.reportReceived, survives_small h.frequencyHz,
      survives_word h.slotStartMs, trivial⟩

/-- The values that go with a change of phase survive. -/
theorem survives_phaseChange {operator : Nat} (before after : Phase) {slotId : Option Nat}
    (hoperator : operator < Word.halfCount) (hslot : ∀ n ∈ slotId, n < Word.count) :
    phaseChange.codec.Survives l (operator, before, after, slotId) :=
  phaseChange.survives (by decide) hl rfl
    ⟨survives_small hoperator, survives_phase _, survives_phase _, survives_optional_word hslot,
      trivial⟩

/-- The values that go with a timeout survive. -/
theorem survives_timeout {operator cycles : Nat} (phase : Phase)
    (hoperator : operator < Word.halfCount) (hcycles : cycles < Word.halfCount) :
    timeout.codec.Survives l (operator, phase, cycles) :=
  timeout.survives (by decide) hl rfl
    ⟨survives_small hoperator, survives_phase _, survives_small hcycles, trivial⟩

/-- An operator's report survives, with whatever it carries. -/
theorem survives_contactEvent {e : ContactEvent} (h : e.Fits) : contactEvent.Survives l e := by
  cases e with
  | phaseChanged operator before after slotId =>
    exact Codec.survives_carrying rfl hl rfl rfl rfl
      (survives_phaseChange hl before after h.1 h.2)
  | transmitted t =>
    exact Codec.survives_carrying rfl hl rfl rfl rfl (survives_transmission hl h)
  | timeout operator phase cycles =>
    exact Codec.survives_carrying rfl hl rfl rfl rfl (survives_timeout hl phase h.1 h.2)
  | completed entry =>
    exact Codec.survives_carrying rfl hl rfl rfl rfl (survives_logEntry hl h)

/-- **Whatever is written survives**: every kind of value whose numbers have
room. -/
theorem Kind.survives (k : Kind) {v : k.Value} (h : k.Fits v) : k.codec.Survives l v := by
  cases k with
  | station => exact survives_station hl h
  | mode => exact survives_mode hl h
  | slot => exact survives_slot hl h
  | checkpoint => exact survives_checkpoint hl h
  | command => exact survives_command hl v
  | transmission => exact survives_transmission hl h
  | logEntry => exact survives_logEntry hl h
  | contactEvent => exact survives_contactEvent hl h
  | contact => exact survives_contact hl h

end

/-- **Values on the wire survive their documents.**  The compact text of a
value whose numbers fit is a value of the grammar, and the value is read from
it. -/
theorem values_survive (k : Kind) (v : k.Value) (h : k.Fits v) :
    Phrase .value (k.codec.encode v).toList ∧ k.codec.decode (k.codec.encode v) = .ok v := by
  have hsurvives : k.codec.Survives .compact v := k.survives Layout.blank_compact h
  exact ⟨hsurvives.phrase_encode, hsurvives.decode_encode⟩

/-- A report with numbers at their limits and with characters that must be
escaped. -/
def extreme : ContactEvent :=
  .completed
    { operator := 0xffffffff, myCall := "\"\\\n\x00", theirCall := "é𝄞", theirGrid := some "null",
      reportSent := some (-0x80000000), reportReceived := none, frequencyHz := 0,
      slotStartMs := 0xffffffffffffffff }

/-- The largest and the smallest numbers, a quote, a backslash, a control
character and a character beyond the first plane, in one report. -/
theorem values_survive_extreme :
    Kind.contactEvent.Fits extreme ∧
      contactEvent.encode extreme =
        "\x7b\"Completed\":\x7b\"operator_id\":4294967295,\"my_call\":\"\\\"\\\\\\n\\u0000\"," ++
          "\"their_call\":\"é𝄞\",\"their_grid\":\"null\",\"report_sent\":-2147483648," ++
          "\"report_received\":null,\"frequency_hz\":0," ++
          "\"slot_start_ms\":18446744073709551615\x7d\x7d" ∧
      contactEvent.decode (contactEvent.encode extreme) = .ok extreme := by
  have hfits : Kind.contactEvent.Fits extreme :=
    { operator := by decide
      reportSent := fun _ h => by
        cases h
        exact ⟨by decide, by decide⟩
      reportReceived := fun _ h => nomatch h
      frequencyHz := by decide
      slotStartMs := by decide }
  exact ⟨hfits, by decide +kernel, (values_survive .contactEvent extreme hfits).2⟩

end Wire

end SlotRadio
