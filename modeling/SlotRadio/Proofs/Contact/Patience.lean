import SlotRadio.Proofs.Contact.Poise
/-!
# An attempt that nobody answers

An operator has sent something and hears nothing.  Then it sends the same
again and again, and gives up when its patience runs out, whatever slots
it is granted.

What carries this is the state of the attempt (`Trying`): the message is
on the air, or the operator waits for the answer to it.

* `Trying.listens` — in the cycle after the message nothing is counted;
* `Trying.waits` — in every later cycle one more is counted, after which
  the operator gives up or may send again;
* `Trying.gives_up` — so at most two cycles are spent for each count that
  is left (`cyclesLeft`);
* `attempt_bounded` — the same from any state that a course leads to.
-/

namespace SlotRadio

/-- The phase in which the answer to a message is awaited. -/
def Phase.waiting : Phase → Phase
  | callingCq | replying => awaitingReply
  | exchanging => awaitingConfirm
  | p => p

namespace Automaton

/-! ## Slots in which nothing is heard -/

/-- In a course after `cycle` one slot follows the other, and nothing
concerns the operator. -/
def HearsNothing (a : Automaton) (cycle : Nat) : List Occasion → Prop
  | [] => True
  | .slot slot granted :: course =>
    slot.cycle = cycle + 1 ∧ (a.beginSlot slot granted).1.HearsNothing (cycle + 1) course
  | .heard f :: course => a.concerns f = false ∧ a.HearsNothing cycle course
  | .told _ :: _ | .moved _ :: _ => False

/-- A frame that does not concern the operator does nothing. -/
theorem receive_of_not_concerns {a : Automaton} {f : Frame} (h : a.concerns f = false) :
    a.receive f = a := by
  simp [receive, h]

theorem listen_of_nil {a : Automaton} (h : a.inbox = []) (slot : Slot) :
    a.listen slot = (a, false) := by
  have hempty : ({ a with inbox := [] } : Automaton) = a := by rw [← h]
  have hnone : hearAll slot { a with inbox := [] } [] = ({ a with inbox := [] }, false) := rfl
  rw [listen, h, hnone, hempty]

theorem settle_of_nil {a : Automaton} (h : a.inbox = []) (slot : Slot) (granted : Bool) :
    a.settle slot granted =
      (((a.finish slot).1.countSilence slot granted false).1,
        (a.finish slot).2 ++ ((a.finish slot).1.countSilence slot granted false).2) := by
  rw [settle_eq, listen_of_nil ((inbox_finish a slot).trans h)]

/-- What a slot reports begins with what it has settled. -/
theorem exists_events_beginSlot (a : Automaton) (slot : Slot) (granted : Bool) :
    ∃ more, (a.beginSlot slot granted).2.events = (a.settle slot granted).2 ++ more := by
  cases granted with
  | false => exact ⟨[], (List.append_nil _).symm⟩
  | true => exact ⟨_, List.append_assoc ..⟩

/-- Who waits for an answer, with nothing staged, does not send. -/
theorem send_of_awaits {a : Automaton} (hstaged : a.staged = none)
    (hawaits : a.contact.phase.awaits = true) (slot : Slot) : a.send slot = (a, none) := by
  rw [send, enterStaged_of_none hstaged]
  rcases transmit_of_listening (Phase.transmits_of_awaits hawaits) slot with heq |
    ⟨_, _, hmanual, -⟩
  · exact heq
  · simp [hmanual, Phase.awaits] at hawaits

/-! ## The attempt -/

/-- An operator tries to reach somebody: in cycle `last` it has sent `text` in
phase `p`, and the message is on the air or was not answered yet.  What would
be repeated is the same phase and the same message. -/
structure Trying (a : Automaton) (p : Phase) (text : String) (last : Nat) (onAir : Bool) :
    Prop where
  phase : a.contact.phase = if onAir then p else p.waiting
  awaits : p.waiting.awaits = true
  again : phaseAgain { a.contact with phase := p.waiting } = p
  message :
    { a with contact := { a.contact with phase := p } }.message?.map Message.text = some text
  staged : a.staged = none
  inbox : a.inbox = []
  sentLast : a.sentLast = onAir
  lastSent : a.lastSentCycle = some last

/-- The most cycles that an attempt can still take. -/
def cyclesLeft (a : Automaton) (onAir : Bool) : Nat :=
  2 * (a.policy.patience - a.contact.unanswered) - if onAir then 0 else 1

theorem cyclesLeft_onAir (a : Automaton) :
    a.cyclesLeft true = 2 * (a.policy.patience - a.contact.unanswered) := rfl

theorem cyclesLeft_waiting (a : Automaton) :
    a.cyclesLeft false = 2 * (a.policy.patience - a.contact.unanswered) - 1 := rfl

variable {a : Automaton} {p : Phase} {text : String} {last : Nat} {slot : Slot}

theorem transmits_phaseAgain (c : Contact) : (phaseAgain c).transmits = true := by
  unfold phaseAgain
  split
  · rfl
  · split <;> rfl

/-- What is on the air ends in the phase that waits for its answer. -/
theorem afterSending_of_awaits (hp : a.contact.phase.transmits = true)
    (hawaits : a.contact.phase.waiting.awaits = true) :
    a.afterSending = a.goTo a.contact.phase.waiting := by
  unfold afterSending
  cases hphase : a.contact.phase <;> simp_all [Phase.transmits, Phase.waiting, Phase.awaits]

/-- Too early for an answer, nothing is counted. -/
theorem countSilence_of_not_due (h : a.replyDue slot = false) (granted progressed : Bool) :
    a.countSilence slot granted progressed = (a, []) := by
  simp [countSilence, h]

/-- A message that was on the air has ended, and the answer is awaited: the phase goes on to the one
that waits, and the contact is the same. -/
theorem finish_of_sending (hsent : a.sentLast = true) (hsends : a.contact.phase.transmits = true)
    (hawaits : a.contact.phase.waiting.awaits = true) (slot : Slot) :
    (a.finish slot).1 =
      { a with
        slot := some slot
        onAir := false
        sentLast := false
        contact := { a.contact with phase := a.contact.phase.waiting } } := by
  have hended := afterSending_of_awaits
    (a := { a with slot := some slot, onAir := false, sentLast := false }) hsends hawaits
  simp only [Automaton.finish, hsent, if_true, hended, goTo_fst]

/-- The message that was on the air has ended. -/
theorem Trying.finish (h : a.Trying p text last true) (slot : Slot) :
    (a.finish slot).1 =
      { a with
        slot := some slot
        onAir := false
        sentLast := false
        contact := { a.contact with phase := p.waiting } } := by
  have hphase : a.contact.phase = p := h.phase
  have hsends : p.transmits = true := h.again ▸ transmits_phaseAgain _
  subst hphase
  exact finish_of_sending h.sentLast hsends h.awaits slot

/-- **In the cycle after the message nothing is counted,** as the answer
cannot have been heard before its end. -/
theorem Trying.listens (h : a.Trying p text last true) (hcycle : slot.cycle = last + 1)
    (granted : Bool) :
    (a.beginSlot slot granted).2.transmission = none ∧
      (a.beginSlot slot granted).1.Trying p text last false ∧
      (a.beginSlot slot granted).1.contact.unanswered = a.contact.unanswered := by
  have hfinish := h.finish slot
  have hdue : (a.finish slot).1.replyDue slot = false := by
    simp [hfinish, replyDue, h.lastSent, hcycle]
  have hsettle : (a.settle slot granted).1 = (a.finish slot).1 := by
    rw [settle_of_nil h.inbox, countSilence_of_not_due hdue]
  have hlater : (a.finish slot).1.Trying p text last false := by
    rw [hfinish]
    exact ⟨rfl, h.awaits, h.again, h.message, h.staged, h.inbox, rfl, h.lastSent⟩
  have hsame : (a.finish slot).1.contact.unanswered = a.contact.unanswered := by rw [hfinish]
  cases granted with
  | false =>
    rw [beginSlot_denied_fst, hsettle]
    exact ⟨rfl, hlater, hsame⟩
  | true =>
    have hawaits : (a.finish slot).1.contact.phase.awaits = true := by
      rw [hlater.phase]
      exact h.awaits
    rw [beginSlot_granted_fst, beginSlot_granted_transmission, hsettle,
      send_of_awaits hlater.staged hawaits]
    exact ⟨rfl, hlater, hsame⟩

/-- The message that is staged again is the same, and sending it begins another wait with what has
been counted so far. -/
theorem Trying.sent (h : a.Trying p text last false) (slot : Slot) :
    ∃ t, ({ a with staged := some p }.send slot).2 = some t ∧ t.message = text ∧
      ({ a with staged := some p }.send slot).1.Trying p text slot.cycle true ∧
      ({ a with staged := some p }.send slot).1.contact.unanswered = a.contact.unanswered := by
  have hsends : p.transmits = true := h.again ▸ transmits_phaseAgain _
  obtain ⟨m, hm, rfl⟩ := Option.map_eq_some_iff.1 h.message
  have henter : ({ a with staged := some p } : Automaton).enterStaged.1 =
      { a with contact := { a.contact with phase := p } } := by
    rw [enterStaged_of_some rfl, ← h.staged]
  rw [send, henter, transmit_of_message hsends hm]
  exact ⟨_, rfl, rfl, ⟨rfl, h.awaits, h.again, h.message, h.staged, h.inbox, rfl, rfl⟩, rfl⟩

/-- **In every later cycle one more is counted.**  After the last one the
operator gives up, and before that it sends the same again if it may. -/
theorem Trying.waits (h : a.Trying p text last false) (hcycle : last + 1 < slot.cycle)
    (granted : Bool) :
    (a.policy.patience ≤ a.contact.unanswered + 1 ∧
        ∃ more, (a.beginSlot slot granted).2.events =
          .timeout a.contact.operator p.waiting (a.contact.unanswered + 1) :: more) ∨
      (a.contact.unanswered + 1 < a.policy.patience ∧
        (a.beginSlot slot granted).1.contact.unanswered = a.contact.unanswered + 1 ∧
        ((a.beginSlot slot granted).2.transmission = none ∧
            (a.beginSlot slot granted).1.Trying p text last false ∨
          ∃ t, (a.beginSlot slot granted).2.transmission = some t ∧ t.message = text ∧
            (a.beginSlot slot granted).1.Trying p text slot.cycle true)) := by
  -- One more is counted, and nothing else has happened.
  let b : Automaton :=
    { a with
      slot := some slot
      onAir := false
      contact := { a.contact with unanswered := a.contact.unanswered + 1 } }
  have hfinish : a.finish slot = ({ a with slot := some slot, onAir := false }, []) := by
    simp [Automaton.finish, h.sentLast]
  have hphase : a.contact.phase = p.waiting := h.phase
  have hcount : ({ a with slot := some slot, onAir := false } : Automaton).countSilence slot granted
      false = if a.policy.patience ≤ a.contact.unanswered + 1 then b.giveUp
        else if granted then ({ b with staged := some (phaseAgain b.contact) }, [])
        else (b, []) := by
    have hcounts :
        (a.contact.phase.awaits && a.replyDue slot && !false && a.staged.isNone) = true := by
      simp [hphase, h.awaits, replyDue, h.lastSent, hcycle, h.staged]
    exact if_pos hcounts
  have hsettle := settle_of_nil h.inbox slot granted
  rw [hfinish, hcount] at hsettle
  have hb : b.Trying p text last false :=
    ⟨h.phase, h.awaits, h.again, h.message, h.staged, h.inbox, h.sentLast, h.lastSent⟩
  have hagain : phaseAgain b.contact = p := by
    rw [← h.again, ← hphase]
    rfl
  by_cases hleft : a.policy.patience ≤ a.contact.unanswered + 1
  · left
    refine ⟨hleft, ?_⟩
    obtain ⟨more, hevents⟩ := exists_events_beginSlot a slot granted
    rw [if_pos hleft] at hsettle
    have hgiveUp : ∃ rest, b.giveUp.2 =
        .timeout a.contact.operator a.contact.phase (a.contact.unanswered + 1) :: rest := by
      unfold giveUp
      dsimp only
      split <;> exact ⟨_, rfl⟩
    obtain ⟨rest, hrest⟩ := hgiveUp
    refine ⟨rest ++ more, ?_⟩
    rw [hevents, hsettle, hrest, hphase]
    rfl
  · right
    refine ⟨Nat.lt_of_not_le hleft, ?_⟩
    rw [if_neg hleft] at hsettle
    cases granted with
    | false =>
      have hstate : (a.settle slot false).1 = b := congrArg Prod.fst hsettle
      rw [beginSlot_denied_fst, hstate]
      exact ⟨rfl, .inl ⟨rfl, hb⟩⟩
    | true =>
      have hstate : (a.settle slot true).1 = { b with staged := some p } := by
        rw [← hagain]
        exact congrArg Prod.fst hsettle
      obtain ⟨t, ht, htext, htrying, hsame⟩ := hb.sent slot
      rw [beginSlot_granted_fst, beginSlot_granted_transmission, hstate]
      exact ⟨hsame, .inr ⟨t, ht, htext, htrying⟩⟩

/-! ## The whole attempt -/

/-- How an attempt ends that has sent `text` in phase `p` and in cycle `last`:
after `before`, in which it is repeated, a slot gives it up and reports this
first.  Each repetition has used up a part of the patience. -/
structure GivesUp (a : Automaton) (p : Phase) (text : String) (last : Nat)
    (before : List Occasion) (slot : Slot) (granted : Bool) : Prop where
  timeout : ∃ more, ((a.live before).beginSlot slot granted).2.events =
    .timeout a.contact.operator p.waiting a.policy.patience :: more
  few : a.contact.unanswered + (a.sentAlong before).length < a.policy.patience
  same : ∀ x ∈ a.sentAlong before, x.2.message = text
  apart : (last :: (a.sentAlong before).map Prod.fst).Pairwise fun m n => m + 1 < n

/-- A silent occasion before an attempt ends puts nothing on the air and takes nothing from the
silences that have been counted. -/
theorem GivesUp.cons {o : Occasion} {before : List Occasion} {granted : Bool}
    (h : (a.meet o).GivesUp p text last before slot granted) (hsends : a.sends o = [])
    (hwaited : a.contact.unanswered ≤ (a.meet o).contact.unanswered) :
    a.GivesUp p text last (o :: before) slot granted := by
  obtain ⟨⟨more, htimeout⟩, hfew, hsame, hapart⟩ := h
  rw [operator_meet, policy_meet] at htimeout
  rw [policy_meet] at hfew
  have hsent : a.sentAlong (o :: before) = (a.meet o).sentAlong before := by
    rw [sentAlong, hsends, List.nil_append]
  refine ⟨⟨more, htimeout⟩, ?_, ?_, ?_⟩
  · rw [hsent]
    omega
  · rw [hsent]
    exact hsame
  · rw [hsent]
    exact hapart

/-- A repetition before an attempt ends. It is counted as one more silence, so the bound on what is
still to come leaves room for it; and it is two cycles at least from the sending before. -/
theorem GivesUp.repeated {s : Slot} {g : Bool} {t : Transmission} {before : List Occasion}
    {granted : Bool} (ht : (a.beginSlot s g).2.transmission = some t) (htext : t.message = text)
    (hlast : last + 1 < s.cycle)
    (hwaited : (a.beginSlot s g).1.contact.unanswered = a.contact.unanswered + 1)
    (h : (a.beginSlot s g).1.GivesUp p text s.cycle before slot granted) :
    a.GivesUp p text last (.slot s g :: before) slot granted := by
  obtain ⟨⟨more, htimeout⟩, hfew, hsame, hapart⟩ := h
  rw [operator_beginSlot, policy_beginSlot] at htimeout
  rw [policy_beginSlot] at hfew
  have hsent : a.sentAlong (.slot s g :: before) =
      (s.cycle, t) :: (a.beginSlot s g).1.sentAlong before := by
    rw [sentAlong, sends, ht]
    rfl
  refine ⟨⟨more, htimeout⟩, ?_, ?_, ?_⟩
  · rw [hsent, List.length_cons]
    omega
  · rw [hsent]
    exact List.forall_mem_cons.2 ⟨htext, hsame⟩
  · rw [hsent, List.map_cons, List.pairwise_cons]
    refine ⟨?_, hapart⟩
    intro n hn
    rcases List.mem_cons.1 hn with rfl | hn
    · exact hlast
    · have hafter := List.rel_of_pairwise_cons hapart hn
      omega

/-- **An attempt that nobody answers is given up,** after at most two
cycles for each count that is left. -/
theorem Trying.gives_up {m : Nat} {onAir : Bool} (h : a.Trying p text last onAir)
    (hcycle : if onAir then last = m else last < m)
    (hpatient : a.contact.unanswered < a.policy.patience) {course : List Occasion}
    (hnothing : a.HearsNothing m course)
    (hlong : a.cyclesLeft onAir ≤ course.countP Occasion.isSlot) :
    ∃ before slot granted after, course = before ++ .slot slot granted :: after ∧
      slot.cycle ≤ m + a.cyclesLeft onAir ∧ a.GivesUp p text last before slot granted := by
  induction course generalizing a last m onAir with
  | nil =>
    have hleft : a.cyclesLeft onAir = 0 := Nat.le_zero.1 hlong
    cases onAir with
    | true =>
      rw [cyclesLeft_onAir] at hleft
      omega
    | false =>
      rw [cyclesLeft_waiting] at hleft
      omega
  | cons o course ih =>
    cases o with
    | told c => exact hnothing.elim
    | moved s => exact hnothing.elim
    | heard f =>
      have hsame : a.meet (.heard f) = a := receive_of_not_concerns hnothing.1
      obtain ⟨before, slot, granted, after, rfl, hsoon, hgives⟩ :=
        ih h hcycle hpatient hnothing.2 (by simpa [Occasion.isSlot] using hlong)
      refine ⟨.heard f :: before, slot, granted, after, rfl, hsoon, .cons ?_ rfl ?_⟩
      · rw [hsame]
        exact hgives
      · exact Nat.le_of_eq (by rw [hsame])
    | slot s g =>
      have hpolicy : (a.beginSlot s g).1.policy.patience = a.policy.patience := by
        rw [policy_beginSlot]
      rw [List.countP_cons_of_pos rfl] at hlong
      cases onAir with
      | true =>
        have hlast : last = m := hcycle
        obtain ⟨hnone, hlater, hcount⟩ := h.listens (hlast ▸ hnothing.1) g
        have hleft : (a.beginSlot s g).1.cyclesLeft false + 1 = a.cyclesLeft true := by
          rw [cyclesLeft_waiting, cyclesLeft_onAir]
          omega
        obtain ⟨before, slot, granted, after, rfl, hsoon, hgives⟩ :=
          ih hlater (show last < m + 1 by omega) (by omega) hnothing.2 (by omega)
        refine ⟨.slot s g :: before, slot, granted, after, rfl, by omega, .cons hgives ?_ ?_⟩
        · rw [Automaton.sends, hnone]
          rfl
        · exact Nat.le_of_eq hcount.symm
      | false =>
        have hlast : last < m := hcycle
        have hcycle : s.cycle = m + 1 := hnothing.1
        have hlate : last + 1 < s.cycle := by omega
        rcases h.waits hlate g with ⟨hover, more, hevents⟩ |
          ⟨hleft, hcount, ⟨hnone, hlater⟩ | ⟨t, ht, htext, hlater⟩⟩
        · have hall : a.contact.unanswered + 1 = a.policy.patience := by omega
          refine ⟨[], s, g, course, rfl, ?_, ⟨more, ?_⟩, ?_, ?_, ?_⟩
          · rw [hcycle, cyclesLeft_waiting]
            omega
          · rw [← hall]
            exact hevents
          · simpa [sentAlong] using hpatient
          · simp [sentAlong]
          · simp [sentAlong]
        · have hfewer : (a.beginSlot s g).1.cyclesLeft false + 1 ≤ a.cyclesLeft false := by
            rw [cyclesLeft_waiting, cyclesLeft_waiting]
            omega
          obtain ⟨before, slot, granted, after, rfl, hsoon, hgives⟩ :=
            ih hlater (show last < m + 1 by omega) (by omega) hnothing.2 (by omega)
          refine ⟨.slot s g :: before, slot, granted, after, rfl, by omega, .cons hgives ?_ ?_⟩
          · rw [Automaton.sends, hnone]
            rfl
          · show a.contact.unanswered ≤ (a.beginSlot s g).1.contact.unanswered
            omega
        · have hfewer : (a.beginSlot s g).1.cyclesLeft true + 1 ≤ a.cyclesLeft false := by
            rw [cyclesLeft_onAir, cyclesLeft_waiting]
            omega
          obtain ⟨before, slot, granted, after, rfl, hsoon, hgives⟩ :=
            ih hlater hcycle (by omega) hnothing.2 (by omega)
          exact ⟨.slot s g :: before, slot, granted, after, rfl, by omega,
            .repeated ht htext hlate hcount hgives⟩

/-- **What is repeated is what was sent:** who calls is the caller, and
who answers is the replier. -/
theorem phaseAgain_waiting (h : a.Steady) (hsends : a.contact.phase.transmits = true)
    (hawaits : a.contact.phase.waiting.awaits = true) :
    phaseAgain { a.contact with phase := a.contact.phase.waiting } = a.contact.phase := by
  have hready := (h.onAir hsends).1
  cases hp : a.contact.phase with
  | callingCq =>
    rw [hp] at hready
    have hrole : a.contact.role = .caller := hready
    simp [phaseAgain, Phase.waiting, hrole]
  | replying =>
    have hrole := h.replies (.inr hp)
    simp [phaseAgain, Phase.waiting, hrole]
  | exchanging => simp [phaseAgain, Phase.waiting]
  | logging =>
    rw [hp] at hawaits
    cases hawaits
  | idle | awaitingReply | awaitingConfirm | manual =>
    rw [hp] at hsends
    cases hsends

/-- A slot that sends a message to be answered begins an attempt: the phase it ends in would repeat
that message. -/
theorem trying_of_transmission {granted : Bool} {t : Transmission} (h : a.Steady)
    (ht : (a.beginSlot slot granted).2.transmission = some t)
    (hphase : (a.beginSlot slot granted).1.contact.phase.waiting.awaits = true)
    (hsends : (a.beginSlot slot granted).1.contact.phase.transmits = true) :
    (a.beginSlot slot granted).1.Trying (a.beginSlot slot granted).1.contact.phase t.message
      slot.cycle true := by
  obtain rfl : granted = true := (beginSlot_carries ht).1
  have hmanual : (a.beginSlot slot true).1.contact.phase ≠ .manual := by
    intro hp
    rw [hp] at hsends
    cases hsends
  have hslot : a.beginSlot slot true = ((a.beginSlot slot true).1, (a.beginSlot slot true).2) :=
    (Prod.eta _).symm
  have hair := onAirIn_of_transmission h.toDisciplined hslot ht hmanual
  have hnext : (a.beginSlot slot true).1.Steady := steady_meet h (.slot slot true)
  have hstaged : (a.beginSlot slot true).1.staged = none := staged_send ..
  have hinbox := inbox_beginSlot a slot true
  have hstamp := (beginSlot_stamps ht).2
  obtain ⟨m, hm, rfl⟩ := hair.message
  exact ⟨rfl, hphase, phaseAgain_waiting hnext hsends hphase, by rw [hm]; rfl, hstaged, hinbox,
    hair.sentLast, hstamp⟩

/-- **An attempt that nobody answers is bounded.**  Nobody ever waits
longer than its patience.  And wherever a course has led an operator: if
a slot then sends a call, an answer or a report, and nothing concerns the
operator in the cycles that follow, then, whatever is granted, a slot not
later than two cycles for each count of the patience reports a timeout.
Until then the same message is sent again at most as often as the patience
allows, and never in two adjacent cycles. -/
theorem attempt_bounded {operator : Nat} {station : Station} {policy : Policy}
    (hpatience : 1 ≤ policy.patience) :
    (∀ course, ((idle operator station policy).live course).contact.unanswered <
      policy.patience) ∧
    ∀ course slot granted b outcome t after,
      ((idle operator station policy).live course).beginSlot slot granted = (b, outcome) →
      outcome.transmission = some t →
      (b.contact.phase = .callingCq ∨ b.contact.phase = .replying ∨
        b.contact.phase = .exchanging) →
      b.HearsNothing slot.cycle after →
      2 * policy.patience ≤ after.countP Occasion.isSlot →
      ∃ before s g rest more, after = before ++ .slot s g :: rest ∧
        s.cycle ≤ slot.cycle + 2 * policy.patience ∧
        ((b.live before).beginSlot s g).2.events =
          .timeout operator b.contact.phase.waiting policy.patience :: more ∧
        b.contact.phase.waiting.awaits = true ∧
        (b.sentAlong before).length ≤ policy.patience - 1 ∧
        (∀ x ∈ b.sentAlong before, x.2.message = t.message) ∧
        (slot.cycle :: (b.sentAlong before).map Prod.fst).Pairwise fun m n => m + 1 < n := by
  have hlimit : ∀ course, ((idle operator station policy).live course).contact.unanswered <
      policy.patience := by
    intro course
    have hpatient := (steady_live operator station policy course).patient
    rw [policy_live] at hpatient
    exact hpatient hpatience
  refine ⟨hlimit, ?_⟩
  intro course slot granted b outcome t after hslot ht hphase hnothing hlong
  obtain rfl : _ = b := congrArg Prod.fst hslot
  obtain rfl : _ = outcome := congrArg Prod.snd hslot
  have hsteady := steady_live operator station policy course
  have hpolicy := policy_live (idle operator station policy) course
  have hoperator := operator_live (idle operator station policy) course
  have hlater := hlimit (course ++ [.slot slot granted])
  rw [live_append] at hlater
  generalize (idle operator station policy).live course = a at *
  have hlater : (a.beginSlot slot granted).1.contact.unanswered < policy.patience := hlater
  have hawaits : (a.beginSlot slot granted).1.contact.phase.waiting.awaits = true := by
    rcases hphase with hp | hp | hp <;> rw [hp] <;> rfl
  have hsends : (a.beginSlot slot granted).1.contact.phase.transmits = true := by
    rcases hphase with hp | hp | hp <;> rw [hp] <;> rfl
  have htrying := trying_of_transmission hsteady ht hawaits hsends
  have hsame : (a.beginSlot slot granted).1.policy = policy := (policy_beginSlot ..).trans hpolicy
  have hleft : (a.beginSlot slot granted).1.cyclesLeft true ≤ 2 * policy.patience := by
    rw [cyclesLeft_onAir, hsame]
    omega
  obtain ⟨before, s, g, rest, hafter, hsoon, ⟨⟨more, htimeout⟩, hfew, hrepeats, hapart⟩⟩ :=
    htrying.gives_up rfl (by rw [hsame]; exact hlater) hnothing (by omega)
  rw [hsame] at htimeout hfew
  rw [operator_beginSlot, hoperator] at htimeout
  exact ⟨before, s, g, rest, more, hafter, by omega, htimeout, hawaits, by omega, hrepeats, hapart⟩

/-- Where every slot is granted, a caller with a patience of two calls
twice, and not in adjacent slots; what others say to each other does not
concern it. -/
theorem attempt_bounded_caller :
    let station := Station.ofCall "K1ABC" "FN42" 1500 [0]
    let policy : Policy := { patience := 2 }
    let next := ((idle 7 station policy).live [.told .callCq]).beginSlot (Mode.ft8.slot 10) true
    let others : Frame := ⟨"W9XYZ N0CALL -05", -5, 0, 0, 0⟩
    let after : List Occasion :=
      [.slot (Mode.ft8.slot 11) true, .heard others, .slot (Mode.ft8.slot 12) true,
        .slot (Mode.ft8.slot 13) true, .slot (Mode.ft8.slot 14) true]
    1 ≤ policy.patience ∧ next.2.transmission = some ⟨7, "CQ K1ABC FN42", 1500, 150000⟩ ∧
      next.1.contact.phase = .callingCq ∧ next.1.HearsNothing 10 after ∧
      2 * policy.patience ≤ after.countP Occasion.isSlot ∧
      (next.1.sentAlong after).map (fun x => (x.1, x.2.message)) = [(12, "CQ K1ABC FN42")] ∧
      ∃ before s g rest more, after = before ++ .slot s g :: rest ∧ s.cycle ≤ 14 ∧
        ((next.1.live before).beginSlot s g).2.events = .timeout 7 .awaitingReply 2 :: more := by
  intro station policy next others after
  have hslot : ((idle 7 station policy).live [.told .callCq]).beginSlot (Mode.ft8.slot 10) true =
      (next.1, next.2) := (Prod.eta next).symm
  have ht : next.2.transmission = some ⟨7, "CQ K1ABC FN42", 1500, 150000⟩ := by decide +kernel
  have hphase : next.1.contact.phase = .callingCq := by decide +kernel
  have hnothing : next.1.HearsNothing 10 after :=
    ⟨rfl, by decide +kernel, rfl, rfl, rfl, trivial⟩
  have hlong : 2 * policy.patience ≤ after.countP Occasion.isSlot := by decide
  obtain ⟨before, s, g, rest, more, hafter, hsoon, htimeout, -⟩ :=
    (attempt_bounded (by decide)).2 [.told .callCq] _ true _ _ _ after hslot ht (.inl hphase)
      hnothing hlong
  rw [hphase] at htimeout
  exact ⟨by decide, ht, hphase, hnothing, hlong, by decide +kernel,
    before, s, g, rest, more, hafter, hsoon, htimeout⟩

end Automaton

end SlotRadio
