import SlotRadio.Contact.Phase
/-!
# Contacts, commands and events

The data of the automatic operator: what it knows about the contact it
is in (`Contact`), what it hears (`Frame`), what it is told to do
(`Command`), and what it reports (`Transmission`, `LogEntry`,
`ContactEvent`).
-/

namespace SlotRadio

/-- A message from the decoder: the text, the level in dB, the time offset in
seconds, the audio frequency in Hz and when it was decoded. -/
structure Frame where
  text : String
  snr : Int
  offsetSeconds : Float32
  frequencyHz : Float32
  decodedAt : Nat

/-- What an operator knows about its current contact.  The cycles without the
expected answer are counted in `unanswered`, and an answer last arrived in
slot `lastHeardIn`. -/
structure Contact where
  operator : Nat
  phase : Phase := .idle
  role : Role := .caller
  target : Option String := none
  targetGrid : Option String := none
  lastSent : Option String := none
  unanswered : Nat := 0
  lastHeardIn : Option Nat := none
  reportSent : Option Int := none
  reportReceived : Option Int := none
  deriving DecidableEq, Repr

/-- Forgets everything about the partner. -/
def Contact.reset (c : Contact) : Contact :=
  { c with
    target := none
    targetGrid := none
    unanswered := 0
    reportSent := none
    reportReceived := none }

/-- What an operator can be told to do: call everybody, call one station, drop
the contact, enter or leave manual operation, and send a text there. -/
inductive Command where
  | callCq
  | callStation (call : String) (grid : Option String)
  | abort
  | setManual (on : Bool)
  | queueMessage (text : String)
  deriving DecidableEq, Repr

/-- A message put on the air in the slot that begins at `slotStartMs`. -/
structure Transmission where
  operator : Nat
  message : String
  frequencyHz : Nat
  slotStartMs : Nat
  deriving DecidableEq, Repr

/-- A finished contact, dated by the start of the slot of the last
transmission. -/
structure LogEntry where
  operator : Nat
  myCall : String
  theirCall : String
  theirGrid : Option String
  reportSent : Option Int
  reportReceived : Option Int
  frequencyHz : Nat
  slotStartMs : Nat
  deriving DecidableEq, Repr

/-- What an operator reports: that it does something else from now on, that it
put a message on the air, that it gave up waiting after so many cycles, and
that it finished a contact. -/
inductive ContactEvent where
  | phaseChanged (operator : Nat) (before after : Phase) (slotId : Option Nat)
  | transmitted (t : Transmission)
  | timeout (operator : Nat) (phase : Phase) (cycles : Nat)
  | completed (entry : LogEntry)
  deriving DecidableEq, Repr

end SlotRadio
