import Mathlib.Data.List.Induction
import SlotRadio.Proofs.Contact.Course
/-!
# Transmit discipline

An automatic operator stands in a sending phase only while it sends.  In
a slot that is not granted it sends nothing and listens; in a granted one
it sends the message of the sending phase it ends in, and elsewhere at
most a text queued by hand.

The invariant `Disciplined` carries this.  Its least obvious clause is
about giving up: an operator that gives up in a slot that is not granted
and calls again keeps listening for a confirmation that can no longer
come, without a partner.  Nothing goes wrong because its call is staged,
and as long as it is, the old message is not repeated.

* `disciplined_live` — the invariant holds along every course;
* `transmit_discipline` — what it means for a slot, and for the time
  between two slots.
-/

namespace SlotRadio

/-- What a contact must have for the message of a phase to exist. -/
def Contact.ReadyFor (c : Contact) : Phase → Prop
  | .callingCq => c.role = .caller
  | .replying | .logging => c.target.isSome = true
  | .exchanging => c.target.isSome = true ∧ c.reportSent.isSome = true
  | .idle | .awaitingReply | .awaitingConfirm | .manual => False

/-- Who is ready for a phase has a message for it. -/
theorem Contact.ReadyFor.transmits {c : Contact} {p : Phase} (h : c.ReadyFor p) :
    p.transmits = true := by
  cases p <;> simp_all [Contact.ReadyFor, Phase.transmits]

namespace Automaton

/-- The invariant of the automatic operator.  The message of a staged phase
exists.  A sending phase has sent its message, and only a call may follow.
Who waits for a confirmation can repeat the report, or will call, and who
waits for an answer without having called has a partner. -/
structure Disciplined (a : Automaton) : Prop where
  staged : ∀ p, a.staged = some p → a.contact.ReadyFor p
  onAir : a.contact.phase.transmits = true →
    a.contact.ReadyFor a.contact.phase ∧ a.sentLast = true ∧
      ∀ p, a.staged = some p → p = .callingCq
  confirming : a.contact.phase = .awaitingConfirm →
    a.contact.ReadyFor .exchanging ∨ (a.contact.target = none ∧ a.staged = some .callingCq)
  answering : a.contact.phase = .awaitingReply → a.contact.role = .replier →
    a.contact.target.isSome = true

/-- Between the steps of a slot nothing is on the air. -/
structure Listening (a : Automaton) : Prop extends Disciplined a where
  listens : a.contact.phase.transmits = false

/-- An operator that has done nothing yet is disciplined. -/
theorem disciplined_idle (operator : Nat) (station : Station) (policy : Policy) :
    (idle operator station policy).Disciplined := by
  constructor <;> simp [idle, Phase.transmits]

/-- The message of a phase that is ready exists. -/
theorem message?_of_ready {a : Automaton} (h : a.contact.ReadyFor a.contact.phase) :
    ∃ m, a.message? = some m := by
  apply Option.isSome_iff_exists.1
  cases hp : a.contact.phase <;> simp only [hp, Contact.ReadyFor] at h
  case callingCq => simp [message?, hp]
  case replying => simpa [message?, hp] using h
  case exchanging => simpa [message?, hp] using h.1
  case logging => simpa [message?, hp] using h

/-! ## The invariant along a course -/

/-- Starting over from a phase that does not send is safe. -/
theorem listening_restart {a : Automaton} {role : Role} {phase : Phase}
    {target targetGrid : Option String} (hphase : a.contact.phase.transmits = false)
    (hready : (a.restart role phase target targetGrid).contact.ReadyFor phase)
    (hconfirm : a.contact.phase = .awaitingConfirm → target = none ∧ phase = .callingCq)
    (hanswer : a.contact.phase = .awaitingReply → role = .caller) :
    (a.restart role phase target targetGrid).Listening where
  staged p hp := by
    obtain rfl : phase = p := Option.some.inj hp
    exact hready
  onAir h := absurd h (by simp [restart, Contact.reset, hphase])
  confirming h := .inr ⟨(hconfirm h).1, congrArg some (hconfirm h).2⟩
  answering h hrole := by
    have hc := hanswer h
    exact Role.noConfusion (hc.symm.trans hrole)
  listens := hphase

/-- Going idle is safe whenever the staged phase has its message. -/
theorem listening_goIdle {a : Automaton} {p : Phase} (hp : p = .idle ∨ p = .manual)
    (hstaged : ∀ q, a.staged = some q → a.contact.ReadyFor q) :
    (a.goTo p).1.Listening := by
  rw [goTo_fst]
  have hready : ∀ q, Contact.ReadyFor { a.contact with phase := p } q ↔ a.contact.ReadyFor q := by
    intro q
    cases q <;> rfl
  have hlisten : p.transmits = false := by
    rcases hp with rfl | rfl <;> rfl
  constructor
  · constructor
    · intro q hq
      exact (hready q).2 (hstaged q hq)
    · intro h
      exact absurd h (by simp [hlisten])
    · intro h
      rcases hp with rfl | rfl <;> exact absurd h (by simp)
    · intro h
      rcases hp with rfl | rfl <;> exact absurd h (by simp)
  · exact hlisten

/-- **A command keeps the discipline**: whatever it stages has its message. A call is staged
together with its role and its station, and no other command stages anything new. -/
theorem disciplined_obey {a : Automaton} (h : a.Disciplined) (c : Command) :
    (a.obey c).1.Disciplined := by
  cases c with
  | callCq =>
    have hready : ∀ q, (a.restart .caller .callingCq none none).staged = some q →
        (a.restart .caller .callingCq none none).contact.ReadyFor q := by
      intro q hq
      obtain rfl : Phase.callingCq = q := Option.some.inj hq
      rfl
    simp only [obey]
    split
    · next hphase =>
      -- A call that is on the air stays there and is staged once more.
      have hsends : a.contact.phase.transmits = true := by
        rw [show a.contact.phase = _ from hphase]
        rfl
      have hsent : a.sentLast = true := (h.onAir hsends).2.1
      refine ⟨hready, fun _ => ⟨?_, hsent, ?_⟩, ?_, ?_⟩
      · rw [hphase]
        rfl
      · intro p hp
        exact (Option.some.inj hp).symm
      · intro hc
        exact absurd (hphase.symm.trans hc) (by simp)
      · intro hc
        exact absurd (hphase.symm.trans hc) (by simp)
    · exact (listening_goIdle (.inl rfl) hready).toDisciplined
  | callStation call grid =>
    refine (listening_goIdle (.inl rfl) ?_).toDisciplined
    intro q hq
    obtain rfl : Phase.replying = q := Option.some.inj hq
    rfl
  | abort => exact (listening_goIdle (.inl rfl) (by simp)).toDisciplined
  | setManual on =>
    cases on with
    | true => exact (listening_goIdle (.inr rfl) (by simp)).toDisciplined
    | false =>
      simp only [obey]
      split
      · exact (listening_goIdle (a := { a with queue := [] }) (.inl rfl) h.staged).toDisciplined
      · exact ⟨h.staged, h.onAir, h.confirming, h.answering⟩
  | queueMessage text =>
    simp only [obey]
    split
    · exact ⟨h.staged, h.onAir, h.confirming, h.answering⟩
    · exact h

/-- A frame that waits in the inbox does not disturb the discipline. -/
theorem disciplined_receive {a : Automaton} (h : a.Disciplined) (f : Frame) :
    (a.receive f).Disciplined := by
  unfold receive
  split
  · exact ⟨h.staged, h.onAir, h.confirming, h.answering⟩
  · exact h

/-- **The first step of a slot** leaves every sending phase. What has been on the air waits for its
answer from then on, or was the closing message and gives way to a call or to rest. -/
theorem listening_finish {a : Automaton} (h : a.Disciplined) (slot : Slot) :
    (a.finish slot).1.Listening := by
  rcases finish_cases a slot with ⟨sent, hsent, heq⟩ | ⟨next, -, hnext, heq⟩ |
    ⟨role, staged, -, hphase, hstaged, heq⟩ <;> rw [heq]
  · have hlistens : a.contact.phase.transmits = false := by
      cases ht : a.contact.phase.transmits with
      | false => rfl
      | true => exact absurd (hsent (h.onAir ht).2.1) (by simp [ht])
    exact ⟨⟨h.staged, fun ht => absurd hlistens (by rw [show _ = true from ht]; simp),
      h.confirming, h.answering⟩, hlistens⟩
  · have hready : a.contact.ReadyFor a.contact.phase := by
      refine (h.onAir ?_).1
      rcases hnext with ⟨hp | hp, -⟩ | ⟨hp, -⟩ <;> rw [hp] <;> rfl
    rcases hnext with ⟨hphase, rfl⟩ | ⟨hphase, rfl⟩
    · refine ⟨⟨h.staged, by simp [Phase.transmits], by simp, ?_⟩, rfl⟩
      intro _ hrole
      rcases hphase with hphase | hphase <;> rw [hphase] at hready
      · cases (show a.contact.role = .caller from hready).symm.trans hrole
      · exact hready
    · rw [hphase] at hready
      exact ⟨⟨h.staged, by simp [Phase.transmits], fun _ => .inl hready, by simp⟩, rfl⟩
  · refine ⟨⟨?_, by simp [Phase.transmits], by simp, by simp⟩, rfl⟩
    -- Only a call can be staged here, and a call needs no partner.
    intro p hp
    have hcall : p = .callingCq ∧ role = .caller := by
      rcases hstaged with ⟨rfl, rfl⟩ | ⟨rfl, rfl⟩
      · obtain rfl := (h.onAir (by rw [hphase]; rfl)).2.2 p hp
        exact ⟨rfl, h.staged _ hp⟩
      · exact ⟨(Option.some.inj hp).symm, rfl⟩
    obtain ⟨rfl, rfl⟩ := hcall
    rfl

/-- **A frame** that advances the contact stages a phase whose message exists, as the frame names
the partner and, where a report is to be given, brings the level. -/
theorem listening_hear {a b : Automaton} {f : Frame} (h : a.Listening) (hb : a.hear f = some b) :
    b.Listening := by
  rcases hear_cases hb with ⟨sender, grid, hidle, -, -, rfl⟩ | ⟨sender, grid, got, -, hphase, rfl⟩ |
    ⟨d, next, htarget, -, hreact, rfl⟩
  · refine listening_restart h.listens rfl ?_ ?_
    · intro hc
      exact absurd (hidle.symm.trans hc) (by simp)
    · intro hc
      exact absurd (hidle.symm.trans hc) (by simp)
  · refine ⟨⟨?_, fun ht => absurd h.listens (by rw [ht]; simp), ?_, fun _ _ => rfl⟩, h.listens⟩
    · intro p hp
      obtain rfl : Phase.exchanging = p := Option.some.inj hp
      exact ⟨rfl, rfl⟩
    · intro hc
      rcases hphase with hphase | hphase <;> exact absurd (hphase.symm.trans hc) (by simp)
  · obtain ⟨given, got, rfl, hnext⟩ := react_cases hreact
    have hlistens : a.contact.phase.transmits = false := h.listens
    -- A report that has been given stays, so it can be repeated.
    have hgiven : a.contact.phase = .awaitingConfirm → a.contact.reportSent.isSome = true := by
      intro hc
      rcases h.confirming hc with hready | ⟨hnone, -⟩
      · exact hready.2
      · exact absurd htarget (by simp [hnone])
    refine ⟨⟨?_, fun ht => absurd hlistens (by rw [ht]; simp), ?_, fun _ _ => htarget⟩, hlistens⟩
    · intro p hp
      obtain rfl : next = p := Option.some.inj hp
      rcases hnext with ⟨rfl, -, -⟩ | ⟨rfl, rfl, hc⟩ | ⟨rfl, rfl, -, -⟩
      · exact htarget
      · exact ⟨htarget, hgiven hc⟩
      · exact ⟨htarget, rfl⟩
    · intro hc
      rcases hnext with ⟨-, rfl, -⟩ | ⟨-, rfl, -⟩ | ⟨-, rfl, -, -⟩
      · exact .inl ⟨htarget, hgiven hc⟩
      · exact .inl ⟨htarget, hgiven hc⟩
      · exact .inl ⟨htarget, rfl⟩

/-- However many frames wait, hearing them leaves the operator listening. -/
theorem listening_listen {a : Automaton} (h : a.Listening) (slot : Slot) :
    (a.listen slot).1.Listening := by
  refine hearAll_invariant ?_ ⟨⟨h.staged, h.onAir, h.confirming, h.answering⟩, h.listens⟩ a.inbox
  intro b f c hb hc
  have hnext := listening_hear hb hc
  exact ⟨⟨fun p hp => by simpa [noteProgress, Contact.ReadyFor] using hnext.staged p hp,
    hnext.onAir, hnext.confirming, hnext.answering⟩, hnext.listens⟩

/-- Who waits for an answer, with nothing else staged, can send its message
again. -/
theorem ready_phaseAgain {a : Automaton} (h : a.Disciplined) (hnone : a.staged = none)
    (hawaits : a.contact.phase.awaits = true) :
    a.contact.ReadyFor (phaseAgain a.contact) := by
  unfold phaseAgain
  split
  · next hphase =>
    rcases h.confirming hphase with hready | ⟨-, hcall⟩
    · exact hready
    · exact absurd (hnone.symm.trans hcall) (by simp)
  · next hphase =>
    have hreply : a.contact.phase = .awaitingReply := by
      cases hp : a.contact.phase <;> simp_all [Phase.awaits]
    cases hrole : a.contact.role with
    | caller => exact hrole
    | replier => exact h.answering hreply hrole

/-- **Silence** stages at most a message that can be repeated. -/
theorem listening_countSilence {a : Automaton} (h : a.Listening) (slot : Slot)
    (granted progressed : Bool) : (a.countSilence slot granted progressed).1.Listening := by
  rcases countSilence_cases a slot granted progressed with heq |
    ⟨hawaits, hnone, ⟨-, heq | heq⟩ | ⟨-, staged, hstaged, heq⟩⟩ <;> rw [heq]
  · exact h
  · exact listening_restart h.listens rfl (fun _ => ⟨rfl, rfl⟩) (fun _ => rfl)
  · exact ⟨⟨by simp [hnone], by simp [Phase.transmits], by simp, by simp⟩, rfl⟩
  · refine ⟨⟨?_, fun ht => absurd h.listens (by rw [show _ = true from ht]; simp), ?_,
      h.answering⟩, h.listens⟩
    · intro p hp
      rcases hstaged with rfl | ⟨-, rfl⟩
      · cases hp
      · obtain rfl : phaseAgain a.contact = p := Option.some.inj hp
        have hready := ready_phaseAgain h.toDisciplined hnone hawaits
        generalize phaseAgain a.contact = q at hready ⊢
        cases q <;> exact hready
    · intro hc
      rcases h.confirming hc with hready | ⟨-, hcall⟩
      · exact .inl hready
      · exact absurd (hnone.symm.trans hcall) (by simp)

/-- Before the sending step nothing is on the air: what was sent has ended,
and what answers it is only staged. -/
theorem listening_settle {a : Automaton} (h : a.Disciplined) (slot : Slot) (granted : Bool) :
    (a.settle slot granted).1.Listening := by
  rw [settle_eq]
  exact listening_countSilence (listening_listen (listening_finish h slot) slot) slot granted _

/-! ## The sending step -/

/-- Where nothing is staged nothing is entered. -/
theorem enterStaged_of_none {a : Automaton} (h : a.staged = none) : a.enterStaged = (a, []) := by
  simp [enterStaged, h]

/-- Entering a staged phase changes the phase and nothing else. -/
theorem enterStaged_of_some {a : Automaton} {p : Phase} (h : a.staged = some p) :
    a.enterStaged.1 = { a with staged := none, contact := { a.contact with phase := p } } := by
  simp [enterStaged, h]

/-- Outside manual operation the message of the phase is sent, and what is
queued stays. -/
theorem nextText_of_not_manual {a : Automaton} (h : a.contact.phase ≠ .manual) :
    a.nextText = (a.message?.map Message.text, a.queue) := by
  unfold nextText
  split
  · next hmanual _ => exact absurd hmanual h
  · next hmanual _ => exact absurd hmanual h
  · rfl

/-- The message of a sending phase is sent. -/
theorem transmit_of_message {a : Automaton} {m : Message}
    (hphase : a.contact.phase.transmits = true) (hm : a.message? = some m) (slot : Slot) :
    a.transmit slot =
      ({ a with
          contact := { a.contact with lastSent := some m.text }
          lastSentAt := slot.startMs
          lastSentCycle := some slot.cycle
          sentLast := true
          onAir := true },
        some ⟨a.contact.operator, m.text, a.station.frequencyHz, slot.startMs⟩) := by
  have hmanual : a.contact.phase ≠ .manual := by
    intro hmanual
    simp [hmanual, Phase.transmits] at hphase
  simp [transmit, nextText_of_not_manual hmanual, hm, hphase]

/-- Outside the sending phases only what was queued by hand is sent, and only in manual operation;
the contact itself keeps its phase. -/
theorem transmit_of_listening {a : Automaton} (hphase : a.contact.phase.transmits = false)
    (slot : Slot) :
    a.transmit slot = (a, none) ∨
      ∃ text rest, a.contact.phase = .manual ∧ a.queue = text :: rest ∧
        a.transmit slot =
          ({ a with
              queue := rest
              contact := { a.contact with lastSent := some text }
              lastSentAt := slot.startMs
              lastSentCycle := some slot.cycle
              sentLast := false
              onAir := true },
            some ⟨a.contact.operator, text, a.station.frequencyHz, slot.startMs⟩) := by
  by_cases hmanual : a.contact.phase = .manual
  · cases hq : a.queue with
    | nil =>
      left
      simp only [transmit, nextText, hmanual, hq]
      rw [← hq]
    | cons text rest =>
      refine .inr ⟨text, rest, hmanual, rfl, ?_⟩
      simp [transmit, nextText, hmanual, hq, Phase.transmits]
  · left
    have hnone : a.message? = none := by
      cases hp : a.contact.phase <;> simp_all [message?, Phase.transmits]
    simp [transmit, nextText_of_not_manual hmanual, hnone]

/-- The message of the current phase has just been put on the air in a
slot.  It has an addressee, unless it is a call to everybody, and a
report in it is one that was measured. -/
structure OnAirIn (a : Automaton) (slot : Slot) (t : Transmission) : Prop where
  message : ∃ m, a.message? = some m ∧
    t = ⟨a.contact.operator, m.text, a.station.frequencyHz, slot.startMs⟩
  partner : a.contact.phase ≠ .callingCq → a.contact.target.isSome = true
  measured : a.contact.phase = .exchanging → a.contact.reportSent.isSome = true
  sentLast : a.sentLast = true
  onAir : a.onAir = true

/-- A sending phase that is ready puts its message on the air, and what `OnAirIn` asks of the
contact is what being ready for that phase means. -/
theorem transmit_of_ready {a : Automaton} (h : a.contact.ReadyFor a.contact.phase) (slot : Slot) :
    ∃ t, (a.transmit slot).2 = some t ∧ (a.transmit slot).1.OnAirIn slot t := by
  obtain ⟨m, hm⟩ := message?_of_ready h
  rw [transmit_of_message h.transmits hm]
  refine ⟨_, rfl, ⟨⟨m, hm, rfl⟩, ?_, ?_, rfl, rfl⟩⟩
  · intro hne
    cases hp : a.contact.phase <;> simp only [hp, Contact.ReadyFor] at h
    case callingCq => exact absurd hp hne
    case replying => exact h
    case exchanging => exact h.1
    case logging => exact h
  · intro hexchanging
    rw [show a.contact.phase = _ from hexchanging] at h
    exact h.2

/-- What the sending step of a granted slot does: either it ends in a
sending phase, whose message is now on the air, or it goes on listening
and sends at most a text queued by hand. -/
theorem send_cases {a : Automaton} (h : a.Listening) (slot : Slot) :
    (∃ t, (a.send slot).1.contact.phase.transmits = true ∧
        (a.send slot).1.contact.ReadyFor (a.send slot).1.contact.phase ∧
        (a.send slot).1.staged = none ∧
        (a.send slot).2 = some t ∧ (a.send slot).1.OnAirIn slot t) ∨
      (a.staged = none ∧ a.send slot = (a, none)) ∨
      ∃ text rest, a.staged = none ∧ a.contact.phase = .manual ∧ a.queue = text :: rest ∧
        (a.send slot).1.queue = rest ∧ (a.send slot).1.contact.phase = .manual ∧
        (a.send slot).1.staged = none ∧ ∃ t, (a.send slot).2 = some t ∧ t.message = text := by
  cases hs : a.staged with
  | some p =>
    left
    have hready : a.enterStaged.1.contact.ReadyFor a.enterStaged.1.contact.phase := by
      have hp := h.staged p hs
      rw [enterStaged_of_some hs]
      cases p <;> exact hp
    obtain ⟨t, ht, hair⟩ := transmit_of_ready hready slot
    obtain ⟨m, hm⟩ := message?_of_ready hready
    have hfst := congrArg Prod.fst (transmit_of_message hready.transmits hm slot)
    refine ⟨t, ?_, ?_, ?_, ht, hair⟩
    · rw [send, hfst]
      exact hready.transmits
    · rw [send, hfst]
      cases hp : a.enterStaged.1.contact.phase <;> rw [hp] at hready <;> exact hready
    · rw [send, hfst, enterStaged_of_some hs]
  | none =>
    right
    have henter : a.enterStaged.1 = a := congrArg Prod.fst (enterStaged_of_none hs)
    rcases transmit_of_listening h.listens slot with heq | ⟨text, rest, hmanual, hq, heq⟩
    · left
      rw [send, henter]
      exact ⟨rfl, heq⟩
    · right
      refine ⟨text, rest, rfl, hmanual, hq, ?_⟩
      rw [send, henter, heq]
      exact ⟨rfl, hmanual, hs, _, rfl, rfl⟩

/-- A slot sends the message of a sending phase or, in manual operation,
a text queued by hand. -/
theorem onAirIn_of_transmission {a b : Automaton} (h : a.Disciplined) {slot : Slot}
    {granted : Bool} {outcome : SlotOutcome} {t : Transmission}
    (hslot : a.beginSlot slot granted = (b, outcome))
    (ht : outcome.transmission = some t) (hmanual : b.contact.phase ≠ .manual) :
    b.OnAirIn slot t := by
  obtain rfl : (a.beginSlot slot granted).1 = b := congrArg Prod.fst hslot
  obtain rfl : (a.beginSlot slot granted).2 = outcome := congrArg Prod.snd hslot
  cases granted with
  | false => simp at ht
  | true =>
    rw [beginSlot_granted_fst] at hmanual ⊢
    rw [beginSlot_granted_transmission] at ht
    rcases send_cases (listening_settle h slot true) slot with
      ⟨t', -, -, -, ht', hair⟩ | ⟨-, hnone⟩ | ⟨text, rest, -, -, -, -, hphase, -⟩
    · obtain rfl := Option.some.inj (ht'.symm.trans ht)
      exact hair
    · rw [hnone] at ht
      simp at ht
    · exact absurd hphase hmanual

/-- A slot that ends in a sending phase was granted and has sent its
message. -/
theorem exists_onAirIn {a : Automaton} (h : a.Disciplined) {slot : Slot} {granted : Bool}
    (hsends : (a.beginSlot slot granted).1.contact.phase.transmits = true) :
    granted = true ∧ ∃ t, (a.beginSlot slot granted).2.transmission = some t ∧
      (a.beginSlot slot granted).1.OnAirIn slot t := by
  have hsettle := listening_settle h slot granted
  cases granted with
  | false =>
    rw [beginSlot_denied_fst, hsettle.listens] at hsends
    cases hsends
  | true =>
    rw [beginSlot_granted_fst] at hsends ⊢
    rw [beginSlot_granted_transmission]
    rcases send_cases hsettle slot with ⟨t, -, -, -, ht, hair⟩ | ⟨-, heq⟩ |
      ⟨text, rest, -, -, -, -, hmanual, -⟩
    · exact ⟨rfl, t, ht, hair⟩
    · rw [heq, hsettle.listens] at hsends
      cases hsends
    · rw [hmanual] at hsends
      cases hsends

/-- **The sending step leads back to the discipline**: the phase that is
entered has sent its message. -/
theorem disciplined_send {a : Automaton} (h : a.Listening) (slot : Slot) :
    (a.send slot).1.Disciplined := by
  rcases send_cases h slot with ⟨t, hair, hready, hstaged, -, hon⟩ | ⟨-, heq⟩ |
    ⟨text, rest, -, -, -, -, hmanual, hstaged, -⟩
  · refine ⟨?_, fun _ => ⟨hready, hon.sentLast, ?_⟩, ?_, ?_⟩
    · simp [hstaged]
    · simp [hstaged]
    · intro hc
      exact absurd hair (by simp [hc, Phase.transmits])
    · intro hc
      exact absurd hair (by simp [hc, Phase.transmits])
  · rw [heq]
    exact h.toDisciplined
  · constructor
    · simp [hstaged]
    · simp [hmanual, Phase.transmits]
    · simp [hmanual]
    · simp [hmanual]

/-- **Every occasion keeps the discipline.** -/
theorem disciplined_meet {a : Automaton} (h : a.Disciplined) (o : Occasion) :
    (a.meet o).Disciplined := by
  cases o with
  | told c => exact disciplined_obey h c
  | heard f => exact disciplined_receive h f
  | moved s => exact ⟨h.staged, h.onAir, h.confirming, h.answering⟩
  | slot slot granted =>
    have hsettle := listening_settle h slot granted
    cases granted with
    | false => exact hsettle.toDisciplined
    | true => exact disciplined_send hsettle slot

/-- **Every operator is disciplined** that has come about from an idle one. -/
theorem disciplined_live (operator : Nat) (station : Station) (policy : Policy)
    (course : List Occasion) : ((idle operator station policy).live course).Disciplined :=
  live_invariant (P := Disciplined) (fun _ o h => disciplined_meet h o)
    (disciplined_idle operator station policy) course

/-! ## What is on the air between two slots -/

/-- Only a slot leads into a sending phase: a command ends in a phase that does not send, or leaves
the phase alone. -/
theorem phase_meet_of_transmits {a : Automaton} {o : Occasion} (ho : o.isSlot = false)
    (h : (a.meet o).contact.phase.transmits = true) :
    (a.meet o).contact.phase = a.contact.phase := by
  cases o with
  | told c =>
    simp only [meet] at h ⊢
    cases c with
    | callCq =>
      simp only [obey] at h ⊢
      split at h
      · next hphase =>
        rw [if_pos hphase]
        rfl
      · simp [Phase.transmits] at h
    | callStation call grid => simp [obey, Phase.transmits] at h
    | abort => simp [obey, Phase.transmits] at h
    | setManual on =>
      cases on with
      | true => simp [obey, Phase.transmits] at h
      | false =>
        simp only [obey] at h ⊢
        split at h
        · simp [Phase.transmits] at h
        · next hphase => rw [if_neg hphase]
    | queueMessage text =>
      simp only [obey]
      split <;> rfl
  | heard f =>
    simp only [meet, receive]
    split <;> rfl
  | moved s => rfl
  | slot slot granted => simp [Occasion.isSlot] at ho

/-- **A sending phase was entered in the last slot, which sent its message.** By induction along the
course: between two slots the phase stays, and a slot that ends in one sends. -/
theorem exists_last_slot {a : Automaton} (ha : a.Listening) (course : List Occasion)
    (h : (a.live course).contact.phase.transmits = true) :
    ∃ before slot after, course = before ++ .slot slot true :: after ∧
      (∀ o ∈ after, o.isSlot = false) ∧
      (a.live course).contact.phase = ((a.live before).beginSlot slot true).1.contact.phase ∧
      ∃ t, ((a.live before).beginSlot slot true).2.transmission = some t ∧
        ((a.live before).beginSlot slot true).1.OnAirIn slot t := by
  induction course using List.reverseRecOn with
  | nil => exact absurd ha.listens (by rw [show a.contact.phase.transmits = true from h]; simp)
  | append_singleton course o ih =>
    have hdisc : (a.live course).Disciplined :=
      live_invariant (P := Disciplined) (fun _ o h => disciplined_meet h o) ha.toDisciplined course
    rw [live_concat] at h ⊢
    cases hslot : o.isSlot with
    | false =>
      have hphase := phase_meet_of_transmits hslot h
      rw [hphase] at h ⊢
      obtain ⟨before, slot, after, rfl, hafter, hsame, hair⟩ := ih h
      refine ⟨before, slot, after ++ [o], by simp, ?_, hsame, hair⟩
      intro x hx
      rcases List.mem_append.1 hx with hx | hx
      · exact hafter x hx
      · rw [List.mem_singleton.1 hx]
        exact hslot
    | true =>
      cases o with
      | told c => simp [Occasion.isSlot] at hslot
      | heard f => simp [Occasion.isSlot] at hslot
      | moved s => simp [Occasion.isSlot] at hslot
      | slot slot granted =>
        obtain ⟨rfl, hair⟩ := exists_onAirIn hdisc h
        exact ⟨course, slot, [], rfl, by simp, rfl, hair⟩

/-- **Transmit discipline.**  Wherever a course has led an automatic
operator:

* a slot that is not granted puts nothing on the air and ends in a phase
  that does not send;
* a granted slot that ends in a sending phase puts that phase's message
  on the air, once; one that ends elsewhere sends nothing, unless in
  manual operation the first of the queued texts;
* if the operator stands in a sending phase, the last slot of its course
  led there and put that phase's message on the air. -/
theorem transmit_discipline (operator : Nat) (station : Station) (policy : Policy)
    (course : List Occasion) :
    let a := (idle operator station policy).live course
    (∀ slot, (a.beginSlot slot false).2.transmission = none ∧
      sentIn (a.beginSlot slot false).2.events = [] ∧
      (a.beginSlot slot false).1.contact.phase.transmits = false) ∧
    (∀ slot,
      let b := (a.beginSlot slot true).1
      let outcome := (a.beginSlot slot true).2
      sentIn outcome.events = outcome.transmission.toList ∧
      (b.contact.phase.transmits = true →
        ∃ t, outcome.transmission = some t ∧ b.OnAirIn slot t) ∧
      (b.contact.phase.transmits = false → ∀ t, outcome.transmission = some t →
        b.contact.phase = .manual ∧ a.queue = t.message :: b.queue)) ∧
    (a.contact.phase.transmits = true →
      ∃ before slot after, course = before ++ .slot slot true :: after ∧
        (∀ o ∈ after, o.isSlot = false) ∧
        let c := (idle operator station policy).live before
        a.contact.phase = (c.beginSlot slot true).1.contact.phase ∧
        ∃ t, (c.beginSlot slot true).2.transmission = some t ∧
          (c.beginSlot slot true).1.OnAirIn slot t) := by
  intro a
  have hdisc : a.Disciplined := disciplined_live operator station policy course
  refine ⟨?_, ?_, ?_⟩
  · intro slot
    exact ⟨rfl, sentIn_settle a slot false, (listening_settle hdisc slot false).listens⟩
  · intro slot b outcome
    have hsettle := listening_settle hdisc slot true
    refine ⟨sentIn_beginSlot a slot true, ?_, ?_⟩
    · intro hair
      rcases send_cases hsettle slot with ⟨t, -, -, -, ht, hon⟩ | ⟨-, heq⟩ |
        ⟨text, rest, -, -, -, -, hmanual, -⟩
      · exact ⟨t, ht, hon⟩
      · have hl : b.contact.phase.transmits = false := by
          rw [show b = ((a.settle slot true).1.send slot).1 from rfl, heq]
          exact hsettle.listens
        exact absurd hair (by simp [hl])
      · exact absurd hair (by rw [show b.contact.phase = _ from hmanual]; simp [Phase.transmits])
    · intro hlisten t ht
      rcases send_cases hsettle slot with ⟨t', hair, -⟩ | ⟨-, heq⟩ |
        ⟨text, rest, -, -, hq, hrest, hmanual, -, t', ht', htext⟩
      · exact absurd hlisten (by rw [show b.contact.phase.transmits = true from hair]; simp)
      · have hnone : outcome.transmission = none := congrArg Prod.snd heq
        exact absurd ht (by simp [hnone])
      · obtain rfl : t' = t := Option.some.inj (ht'.symm.trans ht)
        refine ⟨hmanual, ?_⟩
        rw [← (sameSetUp_settle a slot true).queue, hq, htext, show b.queue = rest from hrest]
  · intro h
    exact exists_last_slot ⟨disciplined_idle operator station policy, rfl⟩ course h

end Automaton

end SlotRadio
