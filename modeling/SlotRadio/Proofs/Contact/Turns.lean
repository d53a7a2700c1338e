import SlotRadio.Proofs.Contact.Patience
import SlotRadio.Proofs.Contact.Rest
import SlotRadio.Proofs.Contact.Closing
/-!
# One turn of an operator

In a contact that goes smoothly an operator alternates between two states:
it has sent a message (`Speaks`), and it has stopped and listens
(`Listens`).  What it knows of the contact are its **terms**: who the
partner is and which reports were given.

* `Speaks.wait` — after a message comes a slot of listening;
* `Listens.turn` — the frame that is heard then is answered in the next
  slot, if that is granted;
* `Speaks.close` — after the closing message the contact is logged;
* `Pauses.brings` — an idle operator neither logs anything nor gives up.

No slot of these gives up waiting: nothing is counted unless the operator
awaits an answer (`beginSlot_of_calm`).
-/

namespace SlotRadio

/-- True for the report that an operator has given up waiting. -/
def ContactEvent.isTimeout : ContactEvent → Bool
  | timeout .. => true
  | phaseChanged .. | transmitted _ | completed _ => false

/-- True when an operator has given up waiting. -/
def timesOut (events : List ContactEvent) : Bool :=
  events.any ContactEvent.isTimeout

@[simp] theorem timesOut_append (xs ys : List ContactEvent) :
    timesOut (xs ++ ys) = (timesOut xs || timesOut ys) :=
  List.any_append

/-- What an operator knows of its contact: the side it takes, the partner, and
the reports given to it and got from it. -/
structure Terms where
  role : Role
  target : Option String
  targetGrid : Option String
  reportSent : Option Int
  reportReceived : Option Int

/-- The terms of a contact. -/
def Contact.terms (c : Contact) : Terms :=
  ⟨c.role, c.target, c.targetGrid, c.reportSent, c.reportReceived⟩

theorem Contact.terms_eq_iff {c : Contact} {role : Role} {target grid : Option String}
    {given got : Option Int} :
    c.terms = ⟨role, target, grid, given, got⟩ ↔
      c.role = role ∧ c.target = target ∧ c.targetGrid = grid ∧ c.reportSent = given ∧
        c.reportReceived = got := by
  simp [Contact.terms]

/-- A slot puts `sent` on the air and logs `log`, and nobody gives up. -/
structure SlotOutcome.Brings (o : SlotOutcome) (sent : Option Transmission)
    (log : List LogEntry) : Prop where
  transmission : o.transmission = sent
  logged : loggedIn o.events = log
  patient : timesOut o.events = false

namespace Automaton

variable {a b : Automaton} {slot : Slot} {granted progressed : Bool} {p q : Phase} {t : Terms}
  {frames : List Frame}

/-! ## Slots in which nobody gives up -/

/-- A change of phase is no timeout. -/
@[simp] theorem timesOut_goTo (a : Automaton) (next : Phase) :
    timesOut (a.goTo next).2 = false := by
  unfold goTo
  split <;> rfl

theorem timesOut_enterStaged (a : Automaton) : timesOut a.enterStaged.2 = false := by
  unfold enterStaged
  split
  · exact timesOut_goTo ..
  · rfl

theorem timesOut_completed (entry : Option LogEntry) :
    timesOut (entry.toList.map ContactEvent.completed) = false := by
  cases entry <;> rfl

theorem timesOut_transmitted (sent : Option Transmission) :
    timesOut (sent.toList.map ContactEvent.transmitted) = false := by
  cases sent <;> rfl

/-- Ending what was on the air is no giving up. -/
theorem timesOut_finish (a : Automaton) (slot : Slot) : timesOut (a.finish slot).2 = false := by
  unfold finish
  dsimp only
  split
  · unfold afterSending
    split
    all_goals simp only [timesOut_append, timesOut_completed, timesOut_goTo, Bool.or_false]
    rfl
  · rfl

/-- **A slot in which no silence is counted** goes on from what was heard,
and nobody gives up in it. -/
theorem beginSlot_of_calm (hlisten : (a.finish slot).1.listen slot = (b, progressed))
    (hcalm : b.countSilence slot granted progressed = (b, [])) :
    (a.settle slot granted).1 = b ∧ timesOut (a.beginSlot slot granted).2.events = false := by
  have hsettle : a.settle slot granted = (b, (a.finish slot).2) := by
    rw [settle_eq, hlisten, hcalm, List.append_nil]
  have hquiet : timesOut (a.settle slot granted).2 = false := by
    rw [hsettle]
    exact timesOut_finish a slot
  refine ⟨congrArg Prod.fst hsettle, ?_⟩
  cases granted with
  | false => exact hquiet
  | true =>
    calc timesOut (a.beginSlot slot true).2.events
        = timesOut ((a.settle slot true).2 ++ (a.settle slot true).1.enterStaged.2 ++
            (a.beginSlot slot true).2.transmission.toList.map .transmitted) := rfl
      _ = false := by
          rw [timesOut_append, timesOut_append, hquiet, timesOut_enterStaged, timesOut_transmitted]
          rfl

/-- Who waits for nobody counts no silence. -/
theorem countSilence_of_not_awaits (h : a.contact.phase.awaits = false) (slot : Slot)
    (granted progressed : Bool) : a.countSilence slot granted progressed = (a, []) := by
  simp [countSilence, h]

/-- The operator is idle, and what it has sent is over. -/
structure Pauses (a : Automaton) : Prop where
  phase : a.contact.phase = .idle
  sentLast : a.sentLast = false

/-- **An idle operator** logs nothing in a slot and does not give up, whatever
it hears. -/
theorem Pauses.brings (h : a.Pauses) (slot : Slot) (granted : Bool) :
    (a.beginSlot slot granted).2.Brings (a.beginSlot slot granted).2.transmission [] := by
  have hfinish : (a.finish slot).1.contact.phase = .idle := by
    simp [finish, h.sentLast, h.phase]
  have hawaits : ((a.finish slot).1.listen slot).1.contact.phase.awaits = false := by
    rw [phase_listen, hfinish]
    rfl
  refine ⟨rfl, ?_, (beginSlot_of_calm rfl (countSilence_of_not_awaits hawaits ..)).2⟩
  rw [loggedIn_beginSlot, loggedIn_finish, if_neg]
  simp [h.sentLast]

/-! ## Speaking and listening -/

/-- The operator has sent the message of phase `p` in `slot`. -/
structure Speaks (a : Automaton) (p : Phase) (t : Terms) (slot : Slot) : Prop where
  phase : a.contact.phase = p
  terms : a.contact.terms = t
  staged : a.staged = none
  inbox : a.inbox = []
  sentLast : a.sentLast = true
  sentAt : a.lastSentAt = slot.startMs
  sentIn : a.lastSentCycle = some slot.cycle

/-- The operator has nothing on the air and some frames to hear. -/
structure Listens (a : Automaton) (p : Phase) (t : Terms) (inbox : List Frame) : Prop where
  phase : a.contact.phase = p
  terms : a.contact.terms = t
  staged : a.staged = none
  inbox : a.inbox = inbox
  sentLast : a.sentLast = false

/-- A frame that concerns the operator is the next one to be heard. -/
theorem Listens.receive (h : a.Listens p t []) {f : Frame} (hf : a.concerns f = true) :
    (a.receive f).Listens p t [f] := by
  have hroom : a.receive f = { a with inbox := [f] } := by
    simp [Automaton.receive, hf, h.inbox, inboxLimit]
  rw [hroom]
  exact ⟨h.phase, h.terms, h.staged, rfl, h.sentLast⟩

/-- Nothing ends for who listens. -/
theorem Listens.atSlot (h : a.Listens p t frames) (slot : Slot) :
    a.atSlot slot = { a with slot := some slot, onAir := false, inbox := [] } := by
  simp [Automaton.atSlot, finish, h.sentLast]

/-- Who has spoken has nothing to hear yet. -/
theorem Speaks.listen {sent : Slot} (h : a.Speaks p t sent) (slot : Slot) :
    (a.finish slot).1.listen slot = ((a.finish slot).1, false) :=
  listen_of_nil ((inbox_finish a slot).trans h.inbox) slot

/-- **After a message comes a slot of listening,** in which the answer cannot
be heard yet. -/
theorem Speaks.wait {sent : Slot} (h : a.Speaks p t sent) (hsends : p.transmits = true)
    (hawaits : p.waiting.awaits = true) (hcycle : slot.cycle = sent.cycle + 1) :
    (a.beginSlot slot false).1.Listens p.waiting t [] ∧
      (a.beginSlot slot false).2.Brings none [] := by
  have hphase := h.phase
  subst hphase
  have hfinish := finish_of_sending h.sentLast hsends hawaits slot
  have hdue : (a.finish slot).1.replyDue slot = false := by
    simp [hfinish, replyDue, h.sentIn, hcycle]
  obtain ⟨hsettle, hpatient⟩ :=
    beginSlot_of_calm (h.listen slot) (countSilence_of_not_due hdue false false)
  refine ⟨?_, rfl, ?_, hpatient⟩
  · rw [beginSlot_denied_fst, hsettle, hfinish]
    exact ⟨rfl, h.terms, h.staged, h.inbox, rfl⟩
  · rw [loggedIn_beginSlot, loggedIn_finish, if_neg]
    rintro ⟨-, hlogging⟩
    simp [hlogging, Phase.waiting, Phase.awaits] at hawaits

/-- **A phase that is staged when the inbox has been heard** is entered in a
granted slot, and its message sent. -/
theorem speaks_of_staged {m : Message} (hlisten : (a.finish slot).1.listen slot = (b, progressed))
    (hcalm : b.countSilence slot true progressed = (b, [])) (hstaged : b.staged = some q)
    (hsends : q.transmits = true)
    (hm : ({ b with staged := none, contact := { b.contact with phase := q } } :
      Automaton).message? = some m)
    (hlogged : loggedIn (a.finish slot).2 = []) :
    (a.beginSlot slot true).1.Speaks q b.contact.terms slot ∧
      (a.beginSlot slot true).2.Brings
        (some ⟨a.contact.operator, m.text, a.station.frequencyHz, slot.startMs⟩) [] := by
  obtain ⟨hsettle, hpatient⟩ := beginSlot_of_calm hlisten hcalm
  have hsend := send_of_staged hstaged hsends hm slot
  have hsetUp := sameSetUp_settle a slot true
  rw [hsettle] at hsetUp
  refine ⟨?_, ?_, ?_, hpatient⟩
  · have hinbox := inbox_beginSlot a slot true
    rw [beginSlot_granted_fst, hsettle, hsend] at hinbox ⊢
    exact ⟨rfl, rfl, rfl, hinbox, rfl, rfl, rfl⟩
  · rw [beginSlot_granted_transmission, hsettle, hsend, hsetUp.operator, hsetUp.station]
  · rw [loggedIn_beginSlot, hlogged]

/-- **A frame that advances the contact** is answered in the next slot, if
that is granted. -/
theorem Listens.turn {f : Frame} {m : Message} (h : a.Listens p t [f])
    (hhear : (a.atSlot slot).hear f = some b) (hstaged : b.staged = some q)
    (hsends : q.transmits = true)
    (hm : ({ b with staged := none, contact := { b.contact with phase := q } } :
      Automaton).message? = some m) :
    (a.beginSlot slot true).1.Speaks q b.contact.terms slot ∧
      (a.beginSlot slot true).2.Brings
        (some ⟨a.contact.operator, m.text, a.station.frequencyHz, slot.startMs⟩) [] := by
  have hlisten : (a.finish slot).1.listen slot = (b.noteProgress slot, true) := by
    rw [listen_eq, h.inbox, hearAll_of_some hhear, hearAll_nil]
  have hlogged : loggedIn (a.finish slot).2 = [] := by
    rw [loggedIn_finish, if_neg]
    simp [h.sentLast]
  exact speaks_of_staged (b := b.noteProgress slot) hlisten (countSilence_of_progress ..) hstaged
    hsends hm hlogged

/-- **After the closing message the contact is logged,** and the operator is idle. The entry has the
terms of the contact and the start of the slot in which that message was sent. -/
theorem Speaks.close {sent : Slot} {partner : String} (h : a.Speaks .logging t sent)
    (htarget : t.target = some partner) (slot : Slot) :
    (a.beginSlot slot false).1.Pauses ∧
      (a.beginSlot slot false).2.Brings none
        [⟨a.contact.operator, a.station.call, partner, t.targetGrid, t.reportSent,
          t.reportReceived, a.station.frequencyHz, sent.startMs⟩] := by
  obtain ⟨hidle, -⟩ := forgotten_finish h.sentLast h.phase slot
  have hawaits : (a.finish slot).1.contact.phase.awaits = false := by
    rw [hidle]
    rfl
  have hcalm : (a.finish slot).1.countSilence slot false false = ((a.finish slot).1, []) :=
    countSilence_of_not_awaits hawaits ..
  obtain ⟨hsettle, hpatient⟩ := beginSlot_of_calm (h.listen slot) hcalm
  have hstopped : (a.finish slot).1.sentLast = false := by
    simp only [finish, afterSending, h.sentLast, h.phase, if_true]
    split
    · rw [goTo_fst]
      rfl
    · rw [goTo_fst]
  have hentry : a.logEntry? = some ⟨a.contact.operator, a.station.call, partner, t.targetGrid,
      t.reportSent, t.reportReceived, a.station.frequencyHz, sent.startMs⟩ := by
    have hterms := h.terms
    subst hterms
    have hpartner : a.contact.target = some partner := htarget
    unfold logEntry?
    rw [hpartner, Option.map_some, h.sentAt]
    rfl
  rw [beginSlot_denied_fst, hsettle]
  refine ⟨⟨hidle, hstopped⟩, rfl, ?_, hpatient⟩
  rw [loggedIn_beginSlot, loggedIn_finish, if_pos ⟨h.sentLast, h.phase⟩, hentry]
  rfl

/-! ## The turns of a contact -/

/-- **Who has been told to call** sends its call in the first granted slot, with the grid that its
set-up names. -/
theorem speaks_call {station : Station} (hgrid : station.grid ≠ "") (operator : Nat)
    (policy : Policy) (slot : Slot) :
    (((idle operator station policy).obey .callCq).1.beginSlot slot true).1.Speaks .callingCq
        ⟨.caller, none, none, none, none⟩ slot ∧
      (((idle operator station policy).obey .callCq).1.beginSlot slot true).2.Brings
        (some ⟨operator, (Message.cq none station.call (some station.grid)).text,
          station.frequencyHz, slot.startMs⟩) [] := by
  have hlisten : ((((idle operator station policy).obey .callCq).1.finish slot).1.listen slot) =
      ({ ((idle operator station policy).obey .callCq).1 with slot := some slot }, false) := rfl
  refine speaks_of_staged (q := .callingCq) hlisten (countSilence_of_not_awaits rfl ..) rfl rfl
    ?_ rfl
  show some (Message.cq none station.call
    (if station.grid = "" then none else some station.grid)) = _
  rw [if_neg hgrid]

/-- **Who has been told nothing** goes on listening. -/
theorem listens_idle (operator : Nat) (station : Station) (policy : Policy) (slot : Slot) :
    ∃ b, (idle operator station policy).beginSlot slot false = (b, ⟨none, []⟩) ∧
      b.Listens .idle ⟨.caller, none, none, none, none⟩ [] ∧ b.station = station :=
  ⟨_, beginSlot_of_rests ⟨rfl, rfl, rfl, rfl, rfl⟩ rfl false, ⟨rfl, rfl, rfl, rfl, rfl⟩, rfl⟩

/-- **A call is answered** with the own grid. The operator is idle, so the contact is begun afresh,
with the caller as its partner. -/
theorem Listens.answers_call {f : Frame} {modifier : Option String} {sender grid : String}
    (h : a.Listens .idle t [f]) (hpolicy : a.policy.answersTarget = true)
    (hf : Message.parse f.text = .cq modifier sender (some grid)) (slot : Slot) :
    (a.beginSlot slot true).1.Speaks .replying ⟨.replier, some sender, some grid, none, none⟩ slot ∧
      (a.beginSlot slot true).2.Brings
        (some ⟨a.contact.operator, (Message.grid sender a.station.call a.station.grid).text,
          a.station.frequencyHz, slot.startMs⟩) [] := by
  have hslot := h.atSlot slot
  have hhear : (a.atSlot slot).hear f =
      some ((a.atSlot slot).restart .replier .replying (some sender) (some grid)) := by
    have hidle : (a.atSlot slot).contact.phase = .idle ∧ (a.atSlot slot).staged = none ∧
        (a.atSlot slot).policy.answersTarget = true := by
      rw [hslot]
      exact ⟨h.phase, h.staged, hpolicy⟩
    rw [hear_of_call hf, hearCall, if_pos hidle]
    rfl
  refine h.turn hhear rfl rfl ?_
  rw [hslot]
  rfl

/-- **The answer to a call** is taken and answered with a report of the level at which it was
heard. -/
theorem Listens.takes_answer {f : Frame} {sender square : String}
    (h : a.Listens .awaitingReply ⟨.caller, none, none, none, none⟩ [f])
    (hf : Message.parse f.text = .grid a.station.call sender square) (slot : Slot) :
    (a.beginSlot slot true).1.Speaks .exchanging
        ⟨.caller, some sender, some square, some f.snr, none⟩ slot ∧
      (a.beginSlot slot true).2.Brings
        (some ⟨a.contact.operator, (Message.report sender a.station.call f.snr).text,
          a.station.frequencyHz, slot.startMs⟩) [] := by
  obtain ⟨hrole, htarget, -, -, hgot⟩ := Contact.terms_eq_iff.1 h.terms
  have hslot := h.atSlot slot
  have hopen : (a.atSlot slot).openForReply = true := by
    rw [hslot]
    exact openForReply_iff.2 ⟨hrole, htarget, .inr h.phase⟩
  have hanswer : f.answer? (a.atSlot slot).station.call =
      some ⟨sender, some square, none, f.snr⟩ := by
    simp [hslot, Frame.answer?, hf, Message.answer?, Text.sameCall_refl]
  have hhear := hear_of_open hopen f
  rw [hanswer, Option.map_some] at hhear
  have hterms : ((a.atSlot slot).accept ⟨sender, some square, none, f.snr⟩).contact.terms =
      ⟨.caller, some sender, some square, some f.snr, none⟩ := by
    simp [accept, Contact.terms, hslot, hrole, hgot]
  rw [← hterms]
  refine h.turn hhear rfl rfl ?_
  simp [message?, accept, hslot, hrole]

/-- **What the partner says** is answered as the contact reacts to it, which is what the lemmas on
the single messages below are instances of. -/
theorem Listens.reacts {f : Frame} {partner : String} {t' : Terms} {d : Contact}
    {heard m : Message} (h : a.Listens p t [f]) (hf : Message.parse f.text = heard)
    (hto : heard.addressee? = some a.station.call) (hfrom : heard.sender? = some partner)
    (htarget : a.contact.target = some partner) (hmanual : p ≠ .manual)
    (hreact : react a.contact f.snr heard = some (d, q)) (hsends : q.transmits = true)
    (hm : ({ a with contact := { d with phase := q } } : Automaton).message? = some m)
    (hterms : d.terms = t') (slot : Slot) :
    (a.beginSlot slot true).1.Speaks q t' slot ∧
      (a.beginSlot slot true).2.Brings
        (some ⟨a.contact.operator, m.text, a.station.frequencyHz, slot.startMs⟩) [] := by
  have hslot := h.atSlot slot
  have hfor : heard.isFor a.station.call = true := by
    simp [Message.isFor, hto, Text.sameCall_refl]
  have hdirected : ∀ modifier sender grid, Message.parse f.text ≠ .cq modifier sender grid := by
    intro modifier sender grid hcall
    rw [← hf, hcall] at hto
    cases hto
  have hhear : (a.atSlot slot).hear f =
      some { a.atSlot slot with contact := d, staged := some q } := by
    have hclosed : (a.atSlot slot).openForReply = false := by
      simp [hslot, openForReply, htarget]
    have hphase : (a.atSlot slot).contact.phase ≠ .manual := by
      rw [hslot]
      exact h.phase ▸ hmanual
    have hmine : heard.isFor (a.atSlot slot).station.call ≠ false := by
      rw [hslot]
      simp [hfor]
    rw [hear_of_directed hdirected, hf, hearDirected, if_neg (not_or.2 ⟨hmine, hphase⟩), hfrom,
      Option.bind_some, hclosed]
    simp [hslot, htarget, Text.sameCall_refl, hreact]
  subst hterms
  refine h.turn hhear rfl hsends ?_
  rw [hslot]
  exact hm

/-- **A report** is answered with one, which also confirms it. -/
theorem Listens.takes_report {f : Frame} {partner : String} {grid : Option String} {level : Int}
    (h : a.Listens .awaitingReply ⟨.replier, some partner, grid, none, none⟩ [f])
    (hf : Message.parse f.text = .report a.station.call partner level) (slot : Slot) :
    (a.beginSlot slot true).1.Speaks .exchanging
        ⟨.replier, some partner, grid, some f.snr, some level⟩ slot ∧
      (a.beginSlot slot true).2.Brings
        (some ⟨a.contact.operator, (Message.rogerReport partner a.station.call f.snr).text,
          a.station.frequencyHz, slot.startMs⟩) [] := by
  obtain ⟨hrole, htarget, hgrid, -, -⟩ := Contact.terms_eq_iff.1 h.terms
  have hreact : react a.contact f.snr (.report a.station.call partner level) =
      some ({ a.contact with reportReceived := some level, reportSent := some f.snr },
        .exchanging) := by
    simp [react, hrole, h.phase]
  refine h.reacts hf rfl rfl htarget Phase.noConfusion hreact rfl ?_ ?_ slot
  · simp [message?, hrole, htarget]
  · exact Contact.terms_eq_iff.2 ⟨hrole, htarget, hgrid, rfl, rfl⟩

/-- **A report that confirms one** is answered with the closing message. -/
theorem Listens.takes_rogerReport {f : Frame} {partner : String} {grid : Option String}
    {given : Option Int} {level : Int}
    (h : a.Listens .awaitingConfirm ⟨.caller, some partner, grid, given, none⟩ [f])
    (hf : Message.parse f.text = .rogerReport a.station.call partner level) (slot : Slot) :
    (a.beginSlot slot true).1.Speaks .logging
        ⟨.caller, some partner, grid, given, some level⟩ slot ∧
      (a.beginSlot slot true).2.Brings
        (some ⟨a.contact.operator, (Message.roger partner a.station.call true).text,
          a.station.frequencyHz, slot.startMs⟩) [] := by
  obtain ⟨hrole, htarget, hgrid, hgiven, -⟩ := Contact.terms_eq_iff.1 h.terms
  have hreact : react a.contact f.snr (.rogerReport a.station.call partner level) =
      some ({ a.contact with reportReceived := some level }, .logging) := by
    simp [react, hrole, h.phase]
  refine h.reacts hf rfl rfl htarget Phase.noConfusion hreact rfl ?_ ?_ slot
  · simp [message?, hrole, htarget]
  · exact Contact.terms_eq_iff.2 ⟨hrole, htarget, hgrid, hgiven, rfl⟩

/-- **The caller's closing message** is answered with the replier's, and both levels stay as they
are. -/
theorem Listens.takes_roger {f : Frame} {partner : String} {grid : Option String}
    {given got : Option Int}
    (h : a.Listens .awaitingConfirm ⟨.replier, some partner, grid, given, got⟩ [f])
    (hf : Message.parse f.text = .roger a.station.call partner true) (slot : Slot) :
    (a.beginSlot slot true).1.Speaks .logging ⟨.replier, some partner, grid, given, got⟩ slot ∧
      (a.beginSlot slot true).2.Brings
        (some ⟨a.contact.operator, (Message.seventyThree partner a.station.call).text,
          a.station.frequencyHz, slot.startMs⟩) [] := by
  obtain ⟨hrole, htarget, -⟩ := Contact.terms_eq_iff.1 h.terms
  have hreact : react a.contact f.snr (.roger a.station.call partner true) =
      some (a.contact, .logging) := by
    simp [react, hrole, h.phase]
  refine h.reacts hf rfl rfl htarget Phase.noConfusion hreact rfl ?_ h.terms slot
  simp [message?, hrole, htarget]

end Automaton

end SlotRadio
