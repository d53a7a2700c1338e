import SlotRadio.Config.Basic
import SlotRadio.Contact.Basic
import SlotRadio.Message.Parser
import SlotRadio.Message.Printer
import SlotRadio.Station.Basic
/-!
# The automatic operator

One `Automaton` runs the contacts of one operator.  Three things happen
to it: it is given a command, it hears a frame, and a slot begins.

* **Frames wait.**  `receive` only puts a frame into the inbox, if it is
  addressed to the operator or is a call of the target.  The inbox keeps
  the last sixty-four.
* **A slot does everything else** (`beginSlot`): it ends the phase that
  was on the air (`afterSending`), lets the inbox advance the contact
  (`hearAll`), counts a cycle without an answer (`countSilence`), and,
  if the slot was granted, enters the staged phase and sends its message
  (`transmit`).
* **A phase that sends is staged first** and entered only in a granted
  slot, so that no operator stands in a sending phase without sending.
* **Waiting is counted in slots,** whether granted or not, from the
  second slot after the own transmission on: the answer to it can only
  be decoded at the end of the first.

Every step gives the next automaton and the events in their order.
-/

namespace SlotRadio

/-- The state of an automatic operator.  The frames in the `inbox` and the
texts queued by hand wait for the next slot, oldest first.  A phase that is
`staged` is entered in the next granted slot; `sentLast` says that the current
phase has sent its message, and `onAir` that a message is on the air. -/
structure Automaton where
  contact : Contact
  station : Station
  policy : Policy
  inbox : List Frame
  staged : Option Phase
  queue : List String
  sentLast : Bool
  onAir : Bool
  lastSentAt : Nat
  lastSentCycle : Option Nat
  slot : Option Slot

/-- What a slot's beginning has brought: the message on the air, and what
happened, in order. -/
structure SlotOutcome where
  transmission : Option Transmission
  events : List ContactEvent

namespace Automaton

/-- The number of frames that may wait. -/
def inboxLimit : Nat := 64

/-- The report of a contact in which none was measured. -/
def defaultReport : Int := -10

/-- An idle operator. -/
def idle (operator : Nat) (station : Station) (policy : Policy) : Automaton where
  contact := { operator }
  station := station
  policy := policy
  inbox := []
  staged := none
  queue := []
  sentLast := false
  onAir := false
  lastSentAt := 0
  lastSentCycle := none
  slot := none

/-- Replaces the set-up. -/
def updateStation (a : Automaton) (station : Station) : Automaton :=
  { a with station }

/-- Goes to a phase and reports it if it is a new one. -/
def goTo (a : Automaton) (next : Phase) : Automaton × List ContactEvent :=
  if a.contact.phase = next then (a, [])
  else
    ({ a with contact := { a.contact with phase := next } },
      [.phaseChanged a.contact.operator a.contact.phase next (a.slot.map (·.id))])

/-- True for a frame that concerns the operator. -/
def concerns (a : Automaton) (f : Frame) : Bool :=
  let m := Message.parse f.text
  m.isFor a.station.call ||
  match m, a.station.target with
  | .cq _ sender _, some target => Text.sameCall sender target
  | _, _ => false

/-- Hears a frame: it waits for the next slot, or is dropped. -/
def receive (a : Automaton) (f : Frame) : Automaton :=
  if a.concerns f then
    let kept := if a.inbox.length = inboxLimit then a.inbox.drop 1 else a.inbox
    { a with inbox := kept ++ [f] }
  else a

/-- Starts over in a role, with a phase staged and an optional partner. -/
def restart (a : Automaton) (role : Role) (phase : Phase) (target targetGrid : Option String) :
    Automaton :=
  { a with
    contact := { a.contact.reset with role, target, targetGrid }
    staged := some phase }

/-- Obeys a command. -/
def obey (a : Automaton) : Command → Automaton × List ContactEvent
  | .callCq =>
    let b := a.restart .caller .callingCq none none
    if b.contact.phase = .callingCq then (b, []) else b.goTo .idle
  | .callStation call grid =>
    (a.restart .replier .replying (some (Text.capitals call)) grid).goTo .idle
  | .abort =>
    goTo
      { a with
        contact := a.contact.reset
        staged := none
        inbox := []
        queue := []
        sentLast := false
        onAir := false }
      .idle
  | .setManual true => { a with staged := none }.goTo .manual
  | .setManual false =>
    let b := { a with queue := [] }
    if b.contact.phase = .manual then b.goTo .idle else (b, [])
  | .queueMessage text =>
    if a.contact.phase = .manual then
      ({ a with queue := a.queue ++ [Message.normalText text] }, [])
    else (a, [])

/-! ## What a frame does -/

/-- A call is answered by an operator with nothing to do. -/
def hearCall (a : Automaton) (sender : String) (grid : Option String) : Option Automaton :=
  if a.contact.phase = .idle ∧ a.staged = none ∧ a.policy.answersTarget = true then
    some (a.restart .replier .replying (some sender) (grid.or a.station.targetGrid))
  else none

/-- True for a caller that nobody has answered yet. -/
def openForReply (a : Automaton) : Bool :=
  a.contact.role = .caller && a.contact.target.isNone &&
    (a.contact.phase = .callingCq || a.contact.phase = .awaitingReply)

/-- The first answer to a call opens the contact with its sender. -/
def hearAnswer (a : Automaton) (sender : String) (snr : Int) (m : Message) :
    Option Automaton :=
  let accept (c : Contact) : Option Automaton :=
    some { a with
      contact := { c with target := some sender, reportSent := some snr }
      staged := some .exchanging }
  match m with
  | .grid _ _ square => accept { a.contact with targetGrid := some square }
  | .report _ _ level => accept { a.contact with reportReceived := some level }
  | _ => none

/-- What the partner's message does to the contact, and the phase that
answers it. -/
def react (c : Contact) (snr : Int) (m : Message) : Option (Contact × Phase) :=
  match c.role, c.phase, m with
  | .caller, .awaitingConfirm, .rogerReport _ _ level
  | .caller, .exchanging, .rogerReport _ _ level =>
    some ({ c with reportReceived := some level }, .logging)
  | .caller, .awaitingConfirm, .roger _ _ _ | .caller, .exchanging, .roger _ _ _
  | .caller, .awaitingConfirm, .seventyThree _ _ | .caller, .exchanging, .seventyThree _ _ =>
    some (c, .logging)
  | .caller, .awaitingConfirm, .grid _ _ _ => some (c, .exchanging)
  | .replier, .awaitingReply, .report _ _ level | .replier, .replying, .report _ _ level
  | .replier, .awaitingReply, .rogerReport _ _ level
  | .replier, .replying, .rogerReport _ _ level =>
    some ({ c with reportReceived := some level, reportSent := some snr }, .exchanging)
  | .replier, .awaitingConfirm, .roger _ _ _ | .replier, .exchanging, .roger _ _ _
  | .replier, .awaitingConfirm, .seventyThree _ _
  | .replier, .exchanging, .seventyThree _ _ =>
    some (c, .logging)
  | .replier, .awaitingConfirm, .report _ _ level =>
    some ({ c with reportReceived := some level }, .exchanging)
  | _, _, _ => none

/-- A message addressed to the operator. -/
def hearDirected (a : Automaton) (snr : Int) (m : Message) : Option Automaton :=
  if m.isFor a.station.call = false ∨ a.contact.phase = .manual then none
  else
    m.sender?.bind fun sender =>
      if a.openForReply then a.hearAnswer sender snr m
      else if a.contact.target.any (Text.sameCall · sender) then
        (react a.contact snr m).map fun (contact, next) =>
          { a with contact, staged := some next }
      else none

/-- What one frame does; nothing where it does not advance the contact. -/
def hear (a : Automaton) (f : Frame) : Option Automaton :=
  match Message.parse f.text with
  | .cq _ sender grid => a.hearCall sender grid
  | m => a.hearDirected f.snr m

/-- Notes that an answer arrived in a slot. -/
def noteProgress (a : Automaton) (slot : Slot) : Automaton :=
  { a with contact := { a.contact with unanswered := 0, lastHeardIn := some slot.id } }

/-- Lets frames act one after the other; tells whether one advanced the
contact. -/
def hearAll (slot : Slot) : Automaton → List Frame → Automaton × Bool
  | a, [] => (a, false)
  | a, f :: fs =>
    match a.hear f with
    | some b => ((hearAll slot (b.noteProgress slot) fs).1, true)
    | none => hearAll slot a fs

/-! ## What a slot does -/

/-- The entry of the contact in the log. -/
def logEntry? (a : Automaton) : Option LogEntry :=
  a.contact.target.map fun theirCall =>
    { operator := a.contact.operator
      myCall := a.station.call
      theirCall
      theirGrid := a.contact.targetGrid
      reportSent := a.contact.reportSent
      reportReceived := a.contact.reportReceived
      frequencyHz := a.station.frequencyHz
      slotStartMs := a.lastSentAt }

/-- Ends a phase whose message has been sent. -/
def afterSending (a : Automaton) : Automaton × List ContactEvent :=
  match a.contact.phase with
  | .callingCq | .replying => a.goTo .awaitingReply
  | .exchanging => a.goTo .awaitingConfirm
  | .logging =>
    let logged := a.logEntry?.toList.map ContactEvent.completed
    let b :=
      if a.policy.resumeAfterContact then a.restart .caller .callingCq none none
      else { a with contact := a.contact.reset }
    let (c, events) := b.goTo .idle
    (c, logged ++ events)
  | _ => (a, [])

/-- Gives up waiting. -/
def giveUp (a : Automaton) : Automaton × List ContactEvent :=
  let event : ContactEvent :=
    .timeout a.contact.operator a.contact.phase a.contact.unanswered
  if a.policy.resumeAfterTimeout then
    (a.restart .caller .callingCq none none, [event])
  else
    let (b, events) := { a with contact := a.contact.reset, staged := none }.goTo .idle
    (b, event :: events)

/-- The phase that repeats the message that was not answered. -/
def phaseAgain (c : Contact) : Phase :=
  if c.phase = .awaitingConfirm then .exchanging
  else
    match c.role with
    | .caller => .callingCq
    | .replier => .replying

/-- True when the answer to the last transmission should have been
decoded before this slot. -/
def replyDue (a : Automaton) (slot : Slot) : Bool :=
  a.lastSentCycle.all (· + 1 < slot.cycle)

/-- Counts a slot without an answer: after the last one of the patience
the operator gives up, before that it sends again when it may. -/
def countSilence (a : Automaton) (slot : Slot) (granted progressed : Bool) :
    Automaton × List ContactEvent :=
  if a.contact.phase.awaits && a.replyDue slot && !progressed && a.staged.isNone then
    let b :=
      { a with contact := { a.contact with unanswered := a.contact.unanswered + 1 } }
    if b.policy.patience ≤ b.contact.unanswered then b.giveUp
    else if granted then ({ b with staged := some (phaseAgain b.contact) }, [])
    else (b, [])
  else (a, [])

/-- The message of the current phase. -/
def message? (a : Automaton) : Option Message :=
  let me := a.station.call
  match a.contact.phase with
  | .callingCq => some (.cq none me (if a.station.grid = "" then none else some a.station.grid))
  | .replying => a.contact.target.map fun addressee => .grid addressee me a.station.grid
  | .exchanging =>
    let level := a.contact.reportSent.getD defaultReport
    a.contact.target.map fun addressee =>
      match a.contact.role with
      | .caller => .report addressee me level
      | .replier => .rogerReport addressee me level
  | .logging =>
    a.contact.target.map fun addressee =>
      match a.contact.role with
      | .caller => .roger addressee me true
      | .replier => .seventyThree addressee me
  | _ => none

/-- The text to send in the current phase, and the queue without it. -/
def nextText (a : Automaton) : Option String × List String :=
  match a.contact.phase, a.queue with
  | .manual, [] => (none, [])
  | .manual, text :: rest => (some text, rest)
  | _, queue => (a.message?.map Message.text, queue)

/-- Sends the message of the current phase, if it has one. -/
def transmit (a : Automaton) (slot : Slot) : Automaton × Option Transmission :=
  match a.nextText with
  | (none, queue) => ({ a with queue }, none)
  | (some message, queue) =>
    let t : Transmission :=
      { operator := a.contact.operator
        message
        frequencyHz := a.station.frequencyHz
        slotStartMs := slot.startMs }
    ({ a with
        queue
        contact := { a.contact with lastSent := some message }
        lastSentAt := slot.startMs
        lastSentCycle := some slot.cycle
        sentLast := a.contact.phase.transmits
        onAir := true },
      some t)

/-- Enters the staged phase, if there is one. -/
def enterStaged (a : Automaton) : Automaton × List ContactEvent :=
  match a.staged with
  | some next => { a with staged := none }.goTo next
  | none => (a, [])

/-- Everything that a slot's beginning does before anything is sent. -/
def settle (a : Automaton) (slot : Slot) (granted : Bool) : Automaton × List ContactEvent :=
  let a := { a with slot := some slot, onAir := false }
  let (a, ended) :=
    if a.sentLast then { a with sentLast := false }.afterSending else (a, [])
  let (a, progressed) := hearAll slot { a with inbox := [] } a.inbox
  let (a, waited) := a.countSilence slot granted progressed
  (a, ended ++ waited)

/-- A slot begins. -/
def beginSlot (a : Automaton) (slot : Slot) (granted : Bool) : Automaton × SlotOutcome :=
  let (a, settled) := a.settle slot granted
  if granted then
    let (a, entered) := a.enterStaged
    let (a, transmission) := a.transmit slot
    (a, ⟨transmission, settled ++ entered ++ transmission.toList.map .transmitted⟩)
  else (a, ⟨none, settled⟩)

end Automaton

end SlotRadio
