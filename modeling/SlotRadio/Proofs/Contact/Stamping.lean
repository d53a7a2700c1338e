import SlotRadio.Proofs.Contact.Course
/-!
# In which slot an operator reports

An operator keeps the slot that began last, and stamps every change of
its phase with it (`InSlot`).  Nothing but the beginning of a slot changes
it (`slot_meet`), which reports everything for the new slot
(`inSlot_beginSlot`).
-/

namespace SlotRadio

namespace ContactEvent

/-- The slot with which a change of phase is stamped. -/
def stamp? : ContactEvent → Option (Option Nat)
  | phaseChanged _ _ _ slotId => some slotId
  | transmitted _ | timeout .. | completed _ => none

end ContactEvent

/-- Every change of phase among the events is stamped with `slot`. -/
def Stamped (slot : Option Slot) (events : List ContactEvent) : Prop :=
  ∀ x ∈ events, ∀ id, x.stamp? = some id → id = slot.map (·.id)

theorem stamped_nil (slot : Option Slot) : Stamped slot [] :=
  fun _ hx => absurd hx List.not_mem_nil

/-- Events of one slot after each other are events of this slot. -/
theorem Stamped.append {slot : Option Slot} {xs ys : List ContactEvent} (h : Stamped slot xs)
    (k : Stamped slot ys) : Stamped slot (xs ++ ys) := by
  intro x hx
  rcases List.mem_append.1 hx with hx | hx
  · exact h x hx
  · exact k x hx

/-- Other reports carry no stamp. -/
theorem stamped_of_none {slot : Option Slot} {events : List ContactEvent}
    (h : ∀ x ∈ events, x.stamp? = none) : Stamped slot events := by
  intro x hx id hid
  rw [h x hx] at hid
  cases hid

namespace Automaton

/-- A step that leaves an operator in `slot`, and stamps its reports with
it. -/
structure InSlot (slot : Option Slot) (after : Automaton × List ContactEvent) : Prop where
  stays : after.1.slot = slot
  stamped : Stamped slot after.2

theorem inSlot_refl (a : Automaton) : InSlot a.slot (a, []) := ⟨rfl, stamped_nil _⟩

/-- A change of phase is stamped with the current slot. -/
theorem inSlot_goTo (a : Automaton) (next : Phase) : InSlot a.slot (a.goTo next) := by
  unfold goTo
  split
  · exact inSlot_refl a
  · refine ⟨rfl, ?_⟩
    intro x hx id hid
    rw [List.mem_singleton.1 hx] at hid
    exact (Option.some.inj hid).symm

/-- What a command leads to is stamped with the current slot. -/
theorem inSlot_obey (a : Automaton) (c : Command) : InSlot a.slot (a.obey c) := by
  cases c with
  | callCq =>
    simp only [obey]
    split
    · exact inSlot_refl (a.restart .caller .callingCq none none)
    · exact inSlot_goTo (a.restart .caller .callingCq none none) .idle
  | callStation call grid =>
    exact inSlot_goTo (a.restart .replier .replying (some (Text.capitals call)) grid) .idle
  | abort =>
    exact inSlot_goTo
      { a with
        contact := a.contact.reset
        staged := none
        inbox := []
        queue := []
        sentLast := false
        onAir := false }
      .idle
  | setManual on =>
    cases on with
    | true => exact inSlot_goTo { a with staged := none } .manual
    | false =>
      simp only [obey]
      split
      · exact inSlot_goTo { a with queue := [] } .idle
      · exact inSlot_refl { a with queue := [] }
  | queueMessage text =>
    simp only [obey]
    split <;> exact ⟨rfl, stamped_nil _⟩

/-- **Between two slots an operator keeps its slot.** -/
theorem slot_meet {o : Occasion} (ho : o.isSlot = false) (a : Automaton) :
    (a.meet o).slot = a.slot := by
  cases o with
  | told c => exact (inSlot_obey a c).stays
  | heard f =>
    simp only [meet, receive]
    split <;> rfl
  | moved s => rfl
  | slot slot granted => cases ho

/-! ## The beginning of a slot -/

theorem inSlot_afterSending (a : Automaton) : InSlot a.slot a.afterSending := by
  unfold afterSending
  split
  case h_4 =>
    have hlogged : Stamped a.slot (a.logEntry?.toList.map .completed) := by
      apply stamped_of_none
      intro x hx
      obtain ⟨entry, -, rfl⟩ := List.mem_map.1 hx
      rfl
    dsimp only
    split
    · have hidle := inSlot_goTo (a.restart .caller .callingCq none none) .idle
      exact ⟨hidle.stays, hlogged.append hidle.stamped⟩
    · have hidle := inSlot_goTo { a with contact := a.contact.reset } .idle
      exact ⟨hidle.stays, hlogged.append hidle.stamped⟩
  case h_5 => exact inSlot_refl a
  all_goals exact inSlot_goTo a _

/-- Giving up is stamped with the current slot. -/
theorem inSlot_giveUp (a : Automaton) : InSlot a.slot a.giveUp := by
  have hreport :
      Stamped a.slot [.timeout a.contact.operator a.contact.phase a.contact.unanswered] :=
    stamped_of_none (by simp [ContactEvent.stamp?])
  unfold giveUp
  dsimp only
  split
  · exact ⟨rfl, hreport⟩
  · have hidle := inSlot_goTo { a with contact := a.contact.reset, staged := none } .idle
    exact ⟨hidle.stays, hreport.append hidle.stamped⟩

theorem inSlot_countSilence (a : Automaton) (slot : Slot) (granted progressed : Bool) :
    InSlot a.slot (a.countSilence slot granted progressed) := by
  unfold countSilence
  dsimp only
  split
  · split
    · exact inSlot_giveUp
        { a with contact := { a.contact with unanswered := a.contact.unanswered + 1 } }
    · split <;> exact ⟨rfl, stamped_nil _⟩
  · exact inSlot_refl a

theorem inSlot_enterStaged (a : Automaton) : InSlot a.slot a.enterStaged := by
  unfold enterStaged
  split
  · exact inSlot_goTo { a with staged := none } _
  · exact inSlot_refl a

/-- Listening does not move the operator to another slot. -/
theorem slot_listen (a : Automaton) (slot : Slot) : (a.listen slot).1.slot = a.slot := by
  have hkeeps : (hearAll slot { a with inbox := [] } a.inbox).1.slot = a.slot := by
    apply hearAll_invariant (P := fun b => b.slot = a.slot)
    · intro b f c hb hc
      rcases hear_cases hc with ⟨sender, grid, -, -, -, rfl⟩ | ⟨sender, grid, got, -, -, rfl⟩ |
        ⟨d, next, -, -, -, rfl⟩ <;> exact hb
    · rfl
  exact hkeeps

/-- Sending does not move the operator to another slot. -/
theorem slot_transmit (a : Automaton) (slot : Slot) : (a.transmit slot).1.slot = a.slot := by
  unfold transmit
  split <;> rfl

/-- The first step of a slot turns to it. -/
theorem inSlot_finish (a : Automaton) (slot : Slot) : InSlot (some slot) (a.finish slot) := by
  unfold finish
  dsimp only
  split
  · exact inSlot_afterSending { a with slot := some slot, onAir := false, sentLast := false }
  · exact inSlot_refl { a with slot := some slot, onAir := false }

/-- What happens before the sending step is stamped with the slot that begins,
also the end of a transmission from the slot before. -/
theorem inSlot_settle (a : Automaton) (slot : Slot) (granted : Bool) :
    InSlot (some slot) (a.settle slot granted) := by
  obtain ⟨hfinish, hended⟩ := inSlot_finish a slot
  have hlisten := (slot_listen (a.finish slot).1 slot).trans hfinish
  have hsilence := inSlot_countSilence ((a.finish slot).1.listen slot).1 slot granted
    ((a.finish slot).1.listen slot).2
  rw [hlisten] at hsilence
  rw [settle_eq]
  exact ⟨hsilence.stays, hended.append hsilence.stamped⟩

/-- **A slot that begins is the operator's slot**, for which everything
is reported. -/
theorem inSlot_beginSlot (a : Automaton) (slot : Slot) (granted : Bool) :
    InSlot (some slot) ((a.beginSlot slot granted).1, (a.beginSlot slot granted).2.events) := by
  obtain ⟨hsettle, hsettled⟩ := inSlot_settle a slot granted
  cases granted with
  | false => exact ⟨hsettle, hsettled⟩
  | true =>
    have henter := inSlot_enterStaged (a.settle slot true).1
    rw [hsettle] at henter
    have hsent : Stamped (some slot)
        ((a.beginSlot slot true).2.transmission.toList.map .transmitted) := by
      apply stamped_of_none
      intro x hx
      obtain ⟨t, -, rfl⟩ := List.mem_map.1 hx
      rfl
    refine ⟨?_, (hsettled.append henter.stamped).append hsent⟩
    show ((a.beginSlot slot true).1).slot = some slot
    rw [beginSlot_granted_fst, send, slot_transmit]
    exact henter.stays

end Automaton

end SlotRadio
