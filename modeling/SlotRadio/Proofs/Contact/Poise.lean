import SlotRadio.Proofs.Contact.Discipline
/-!
# What an operator is about to do

What is staged, the side that an operator takes and the time it has
waited fit one another.  The invariant `Poised` says how:

* an answer to a call is sent by the replier;
* a contact is closed by who has given a report and waits for the answer;
* manual operation stages nothing;
* nobody waits longer than its patience.

It stands beside `Disciplined`, which says that what is staged can be
sent, and is kept by every occasion as well (`poised_meet`).  `steady_live`
gives both of them together.
-/

namespace SlotRadio

namespace Automaton

/-- What an operator is about to do fits what it has done.  Who answers a
call, or is about to, is the replier; who is about to close a contact waits
for its report to be confirmed; in manual operation nothing is staged; and
there is patience left. -/
structure Poised (a : Automaton) : Prop where
  replies : a.staged = some .replying ∨ a.contact.phase = .replying → a.contact.role = .replier
  closes : a.staged = some .logging → a.contact.phase = .awaitingConfirm
  byHand : a.contact.phase = .manual → a.staged = none
  patient : 0 < a.policy.patience → a.contact.unanswered < a.policy.patience

/-- An operator that has done nothing yet is poised. -/
theorem poised_idle (operator : Nat) (station : Station) (policy : Policy) :
    (idle operator station policy).Poised := by
  constructor <;> simp [idle]

/-- Who starts over has waited for nothing. -/
theorem poised_restart {a : Automaton} {role : Role} {phase : Phase}
    {target targetGrid : Option String} (hnext : phase ≠ .logging)
    (hrole : phase = .replying ∨ a.contact.phase = .replying → role = .replier)
    (hmanual : a.contact.phase ≠ .manual) :
    (a.restart role phase target targetGrid).Poised where
  replies h := hrole (h.imp_left Option.some.inj)
  closes h := absurd (Option.some.inj h) hnext
  byHand h := absurd h hmanual
  patient h := h

/-- Who goes idle, or into manual operation, has nothing left to close. -/
theorem poised_rest {a : Automaton} {p : Phase} (hp : p = .idle ∨ p = .manual ∧ a.staged = none)
    (hreplies : a.staged = some .replying → a.contact.role = .replier)
    (hcloses : a.staged ≠ some .logging)
    (hpatient : 0 < a.policy.patience → a.contact.unanswered < a.policy.patience) :
    (a.goTo p).1.Poised := by
  rw [goTo_fst]
  constructor
  · rintro (h | h)
    · exact hreplies h
    · rcases hp with rfl | ⟨rfl, -⟩ <;> cases h
  · exact fun h => absurd h hcloses
  · rcases hp with rfl | ⟨-, hnone⟩
    · exact fun h => Phase.noConfusion h
    · exact fun _ => hnone
  · exact hpatient

/-- A command keeps the poise, because where it starts over the role and the
patience do as well. -/
theorem poised_obey {a : Automaton} (h : a.Poised) (c : Command) : (a.obey c).1.Poised := by
  cases c with
  | callCq =>
    simp only [obey]
    split
    · next hphase =>
      have hcalling : a.contact.phase = .callingCq := hphase
      exact poised_restart (by simp) (by simp [hcalling]) (by simp [hcalling])
    · exact poised_rest (.inl rfl) (by simp [restart]) (by simp [restart]) fun h => h
  | callStation call grid =>
    exact poised_rest (.inl rfl) (fun _ => rfl) (by simp [restart]) fun h => h
  | abort => exact poised_rest (.inl rfl) (by simp) (by simp) fun h => h
  | setManual on =>
    cases on with
    | true => exact poised_rest (.inr ⟨rfl, rfl⟩) (by simp) (by simp) h.patient
    | false =>
      simp only [obey]
      split
      · next hphase =>
        have hnone : a.staged = none := h.byHand hphase
        exact poised_rest (a := { a with queue := [] }) (.inl rfl) (by simp [hnone])
          (by simp [hnone]) h.patient
      · exact ⟨h.replies, h.closes, h.byHand, h.patient⟩
  | queueMessage text =>
    simp only [obey]
    split
    · exact ⟨h.replies, h.closes, h.byHand, h.patient⟩
    · exact h

/-- A frame that waits in the inbox does not disturb the poise. -/
theorem poised_receive {a : Automaton} (h : a.Poised) (f : Frame) : (a.receive f).Poised := by
  unfold receive
  split
  · exact ⟨h.replies, h.closes, h.byHand, h.patient⟩
  · exact h

/-! ## The steps of a slot -/

/-- Who has just sent has nothing staged that would close a contact, since that is staged only while
a report is to be confirmed. -/
theorem poised_finish {a : Automaton} (h : a.Poised) (slot : Slot) :
    (a.finish slot).1.Poised := by
  have hcloses : a.contact.phase ≠ .awaitingConfirm → a.staged ≠ some .logging :=
    fun hphase hstaged => hphase (h.closes hstaged)
  rcases finish_cases a slot with ⟨_, -, heq⟩ | ⟨next, -, hnext, heq⟩ |
    ⟨role, staged, -, hphase, hstaged, heq⟩ <;> rw [heq]
  · exact ⟨h.replies, h.closes, h.byHand, h.patient⟩
  · have hwaits : next = .awaitingReply ∨ next = .awaitingConfirm :=
      hnext.imp (fun hp => hp.2) (fun hp => hp.2)
    have hsent : a.contact.phase ≠ .awaitingConfirm := by
      rcases hnext with ⟨hp | hp, -⟩ | ⟨hp, -⟩ <;> simp [hp]
    refine ⟨?_, fun hs => absurd hs (hcloses hsent), ?_, h.patient⟩
    · rintro (hs | hs)
      · exact h.replies (.inl hs)
      · rcases hwaits with rfl | rfl <;> cases hs
    · rintro rfl
      simp at hwaits
  · have hsent : a.contact.phase ≠ .awaitingConfirm := by simp [hphase]
    refine ⟨?_, ?_, fun hs => Phase.noConfusion hs, fun hpatient => hpatient⟩
    · rintro (hs | hs)
      · rcases hstaged with ⟨rfl, rfl⟩ | ⟨rfl, -⟩
        · exact h.replies (.inl hs)
        · cases hs
      · cases hs
    · rintro hs
      rcases hstaged with ⟨rfl, -⟩ | ⟨rfl, -⟩
      · exact absurd hs (hcloses hsent)
      · cases hs

/-- Hearing never changes the phase. -/
theorem phase_hear {a b : Automaton} {f : Frame} (h : a.hear f = some b) :
    b.contact.phase = a.contact.phase := by
  rcases hear_cases h with
    ⟨_, _, -, -, -, rfl⟩ | ⟨_, _, _, -, -, rfl⟩ | ⟨d, next, -, -, hreact, rfl⟩
  · rfl
  · rfl
  · obtain ⟨given, got, rfl, -⟩ := react_cases hreact
    rfl

/-- Listening stages a phase but enters none. -/
theorem phase_listen (a : Automaton) (slot : Slot) :
    (a.listen slot).1.contact.phase = a.contact.phase := by
  have hstart : ({ a with inbox := [] } : Automaton).contact.phase = a.contact.phase := rfl
  refine hearAll_invariant (P := fun b => b.contact.phase = a.contact.phase) ?_ hstart a.inbox
  intro b f c hb hc
  exact (phase_hear hc).trans hb

/-- Each frame that advances the contact stages what answers it, and no
more. -/
theorem poised_hear {a b : Automaton} {f : Frame} (h : a.Poised) (hlistens : a.Listening)
    (hb : a.hear f = some b) : b.Poised := by
  rcases hear_cases hb with ⟨sender, grid, hidle, -, -, rfl⟩ | ⟨sender, grid, got, -, hphase, rfl⟩ |
    ⟨d, next, -, hmanual, hreact, rfl⟩
  · exact poised_restart (by simp) (by simp) (by simp [hidle])
  · refine ⟨?_, by simp, ?_, h.patient⟩
    · rintro (hs | hs)
      · cases hs
      · rcases hphase with hphase | hphase <;> cases hphase.symm.trans hs
    · intro hs
      rcases hphase with hphase | hphase <;> cases hphase.symm.trans hs
  · obtain ⟨given, got, rfl, hnext⟩ := react_cases hreact
    refine ⟨?_, ?_, fun hs => absurd hs hmanual, h.patient⟩
    · rintro (hs | hs)
      · obtain rfl : next = .replying := Option.some.inj hs
        simp at hnext
      · exact h.replies (.inr hs)
    · intro hs
      obtain rfl : next = .logging := Option.some.inj hs
      -- Nobody hears while it sends its report.
      rcases hnext with ⟨-, -, hc | hc⟩ | ⟨hn, -⟩ | ⟨hn, -⟩
      · exact hc
      · exact absurd hlistens.listens (by simp [hc, Phase.transmits])
      · cases hn
      · cases hn

/-- However many frames wait, hearing them keeps the poise. It is carried through the inbox together
with `Listening`, which each step needs. -/
theorem poised_listen {a : Automaton} (h : a.Poised) (hlistens : a.Listening) (slot : Slot) :
    (a.listen slot).1.Poised := by
  have hboth : (a.listen slot).1.Listening ∧ (a.listen slot).1.Poised := by
    refine hearAll_invariant (P := fun b => b.Listening ∧ b.Poised) ?_ ?_ a.inbox
    · intro b f c ⟨hb, hpoised⟩ hc
      have hlater := listening_hear hb hc
      have hnext := poised_hear hpoised hb hc
      refine ⟨⟨⟨fun p hp => ?_, hlater.onAir, hlater.confirming, hlater.answering⟩,
        hlater.listens⟩, hnext.replies, hnext.closes, hnext.byHand, fun hp => hp⟩
      simpa [noteProgress, Contact.ReadyFor] using hlater.staged p hp
    · exact ⟨⟨⟨hlistens.staged, hlistens.onAir, hlistens.confirming, hlistens.answering⟩,
        hlistens.listens⟩, h.replies, h.closes, h.byHand, h.patient⟩
  exact hboth.2

/-- A message that is sent again is a call, a report, or the answer of a
replier. -/
theorem phaseAgain_poised (c : Contact) :
    phaseAgain c ≠ .logging ∧ (phaseAgain c = .replying → c.role = .replier) := by
  unfold phaseAgain
  split
  · simp
  · split <;> simp [*]

/-- **Silence** is counted up to the patience; when it is reached the attempt ends and the count
starts again. -/
theorem poised_countSilence {a : Automaton} (h : a.Poised) (slot : Slot)
    (granted progressed : Bool) : (a.countSilence slot granted progressed).1.Poised := by
  rcases countSilence_cases a slot granted progressed with heq |
    ⟨hawaits, hnone, ⟨-, heq | heq⟩ | ⟨hleft, staged, hstaged, heq⟩⟩ <;> rw [heq]
  · exact h
  · have hphase : a.contact.phase ≠ .replying ∧ a.contact.phase ≠ .manual := by
      constructor <;> intro hp <;> simp [hp, Phase.awaits] at hawaits
    exact poised_restart (by simp) (by simp [hphase.1]) hphase.2
  · exact ⟨by simp [hnone], by simp [hnone], by simp, fun hpatient => hpatient⟩
  · have hphase : a.contact.phase ≠ .replying ∧ a.contact.phase ≠ .manual := by
      constructor <;> intro hp <;> simp [hp, Phase.awaits] at hawaits
    obtain ⟨hcloses, hreplies⟩ := phaseAgain_poised a.contact
    refine ⟨?_, ?_, fun hp => absurd hp hphase.2, fun _ => hleft⟩
    · rintro (hs | hs)
      · rcases hstaged with rfl | ⟨-, rfl⟩
        · cases hs
        · exact hreplies (Option.some.inj hs)
      · exact absurd hs hphase.1
    · intro hs
      rcases hstaged with rfl | ⟨-, rfl⟩
      · cases hs
      · exact absurd (Option.some.inj hs) hcloses

/-- The sending step enters what was staged, and keeps the poise. -/
theorem poised_send {a : Automaton} (h : a.Poised) (slot : Slot) : (a.send slot).1.Poised := by
  obtain ⟨sent, hcontact⟩ := contact_send a slot
  have hstaged := staged_send a slot
  refine ⟨?_, by simp [hstaged], fun _ => hstaged, ?_⟩
  · rw [hstaged, hcontact]
    rintro (hs | hs)
    · cases hs
    · cases hp : a.staged with
      | none =>
        rw [hp] at hs
        exact h.replies (.inr hs)
      | some p =>
        rw [hp] at hs
        obtain rfl : p = .replying := hs
        exact h.replies (.inl hp)
  · rw [policy_send, hcontact]
    exact h.patient

/-! ## Along a course -/

/-- Both invariants of the automatic operator. -/
structure Steady (a : Automaton) : Prop extends Disciplined a, Poised a

/-- What happens before the sending step keeps the poise, the giving up
included. -/
theorem poised_settle {a : Automaton} (h : a.Steady) (slot : Slot) (granted : Bool) :
    (a.settle slot granted).1.Poised := by
  rw [settle_eq]
  exact poised_countSilence
    (poised_listen (poised_finish h.toPoised slot) (listening_finish h.toDisciplined slot) slot)
    slot granted _

/-- **Every occasion keeps an operator poised.** -/
theorem poised_meet {a : Automaton} (h : a.Steady) (o : Occasion) : (a.meet o).Poised := by
  cases o with
  | told c => exact poised_obey h.toPoised c
  | heard f => exact poised_receive h.toPoised f
  | moved s => exact ⟨h.replies, h.closes, h.byHand, h.patient⟩
  | slot slot granted =>
    have hsettle := poised_settle h slot granted
    cases granted with
    | false => exact hsettle
    | true => exact poised_send hsettle slot

/-- Whatever happens to an operator, it stays steady. -/
theorem steady_meet {a : Automaton} (h : a.Steady) (o : Occasion) : (a.meet o).Steady :=
  ⟨disciplined_meet h.toDisciplined o, poised_meet h o⟩

/-- **A steady operator stays so along every course.** -/
theorem Steady.live {a : Automaton} (h : a.Steady) (course : List Occasion) :
    (a.live course).Steady :=
  live_invariant (P := Steady) (fun _ o h => steady_meet h o) h course

/-- An operator that has done nothing yet is steady. -/
theorem steady_idle (operator : Nat) (station : Station) (policy : Policy) :
    (idle operator station policy).Steady :=
  ⟨disciplined_idle operator station policy, poised_idle operator station policy⟩

/-- **Every operator is steady** that has come about from an idle one. -/
theorem steady_live (operator : Nat) (station : Station) (policy : Policy)
    (course : List Occasion) : ((idle operator station policy).live course).Steady :=
  (steady_idle operator station policy).live course

end Automaton

end SlotRadio
