import SlotRadio.Proofs.Contact.Poise
/-!
# Closing a contact, and logging it

The closing message of a contact and its entry in the log belong to two
slots that follow one another.  Between them commands may be given, frames
heard and the set-up replaced.

* `sameContact_of_engaged` — who has given its report stays in the same
  contact until the next slot, unless a command drops it;
* `loggedIn_finish` — a slot logs the contact that was closing on the
  air, and nothing else;
* `closes_of_logging` — a slot that ends in the closing phase has sent the
  closing message;
* `contact_logged_once` — so each entry has its closing message in the
  slot before, and each closing message its entry in the slot after.
-/

namespace SlotRadio

/-- The phases in which the report has been given. -/
def Phase.engaged : Phase → Bool
  | exchanging | awaitingConfirm | logging => true
  | idle | callingCq | awaitingReply | replying | manual => false

/-- True for a command that drops the contact. -/
def Command.leaves : Command → Bool
  | callCq | callStation .. | abort | setManual true => true
  | setManual false | queueMessage _ => false

/-- True for an occasion that drops the contact. -/
def Occasion.leaves : Occasion → Bool
  | told c => c.leaves
  | heard _ | moved _ | slot .. => false

/-- The text that closes a contact. -/
def Role.closing (role : Role) (partner me : String) : String :=
  partner ++ " " ++ me ++ " " ++
    match role with
    | caller => "RR73"
    | replier => "73"

/-- Nothing is left of a contact. -/
structure Contact.Forgotten (c : Contact) : Prop where
  target : c.target = none
  targetGrid : c.targetGrid = none
  reportSent : c.reportSent = none
  reportReceived : c.reportReceived = none

theorem loggedIn_completed (entries : List LogEntry) :
    loggedIn (entries.map .completed) = entries := by
  induction entries with
  | nil => rfl
  | cons entry entries ih => exact congrArg (entry :: ·) ih

namespace Automaton

/-! ## Between two slots -/

/-- `b` is in the contact that `a` is in, and has sent nothing since. -/
structure SameContact (a b : Automaton) : Prop where
  contact : b.contact = a.contact
  sentLast : b.sentLast = a.sentLast
  lastSentAt : b.lastSentAt = a.lastSentAt

theorem SameContact.refl (a : Automaton) : SameContact a a := ⟨rfl, rfl, rfl⟩

theorem SameContact.trans {a b c : Automaton} (h : SameContact a b) (k : SameContact b c) :
    SameContact a c where
  contact := k.contact.trans h.contact
  sentLast := k.sentLast.trans h.sentLast
  lastSentAt := k.lastSentAt.trans h.lastSentAt

variable {a : Automaton} {o : Occasion} {course : List Occasion}

/-- A command that drops the contact leaves no report to be confirmed, since it ends in the idle
phase, in manual operation or in a call. -/
theorem engaged_of_leaves (h : o.leaves = true) :
    (a.meet o).contact.phase.engaged = false := by
  cases o with
  | told c =>
    simp only [meet]
    cases c with
    | callCq =>
      simp only [obey]
      split
      · next hphase =>
        rw [hphase]
        rfl
      · rw [goTo_fst]
        rfl
    | callStation call grid =>
      rw [obey, goTo_fst]
      rfl
    | abort =>
      rw [obey, goTo_fst]
      rfl
    | setManual on =>
      cases on with
      | true =>
        rw [obey, goTo_fst]
        rfl
      | false => cases h
    | queueMessage text => cases h
  | heard f => cases h
  | moved s => cases h
  | slot slot granted => cases h

/-- Without such a command the contact goes on, except in manual
operation, where there is none. -/
theorem sameContact_meet (ho : o.isSlot = false) (hstays : o.leaves = false) :
    SameContact a (a.meet o) ∨
      a.contact.phase.engaged = false ∧ (a.meet o).contact.phase.engaged = false := by
  cases o with
  | told c =>
    simp only [meet]
    cases c with
    | callCq => cases hstays
    | callStation call grid => cases hstays
    | abort => cases hstays
    | setManual on =>
      cases on with
      | true => cases hstays
      | false =>
        simp only [obey]
        split
        · next hphase =>
          right
          have hmanual : a.contact.phase = .manual := hphase
          rw [goTo_fst, hmanual]
          exact ⟨rfl, rfl⟩
        · exact .inl ⟨rfl, rfl, rfl⟩
    | queueMessage text =>
      simp only [obey]
      split <;> exact .inl ⟨rfl, rfl, rfl⟩
  | heard f =>
    simp only [meet, receive]
    split <;> exact .inl ⟨rfl, rfl, rfl⟩
  | moved s => exact .inl ⟨rfl, rfl, rfl⟩
  | slot slot granted => cases ho

/-- **Who has given its report between two slots** has stayed in its contact, because the commands
that leave it leave no such phase. -/
theorem sameContact_of_engaged (ho : o.isSlot = false)
    (h : (a.meet o).contact.phase.engaged = true) :
    o.leaves = false ∧ SameContact a (a.meet o) := by
  have hstays : o.leaves = false := by
    cases hleaves : o.leaves with
    | false => rfl
    | true =>
      rw [engaged_of_leaves hleaves] at h
      cases h
  refine ⟨hstays, ?_⟩
  rcases sameContact_meet ho hstays with hsame | ⟨-, hnot⟩
  · exact hsame
  · rw [hnot] at h
    cases h

theorem sameContact_of_engaged_live (hslots : ∀ o ∈ course, o.isSlot = false)
    (h : (a.live course).contact.phase.engaged = true) :
    (∀ o ∈ course, o.leaves = false) ∧ SameContact a (a.live course) := by
  induction course using List.reverseRecOn with
  | nil => exact ⟨by simp, .refl a⟩
  | append_singleton course o ih =>
    rw [live_concat] at h ⊢
    rw [List.forall_mem_append] at hslots ⊢
    obtain ⟨hstays, hsame⟩ := sameContact_of_engaged (hslots.2 o List.mem_cons_self) h
    have hbefore : (a.live course).contact.phase.engaged = true := by
      rw [← hsame.contact]
      exact h
    obtain ⟨hleft, hfirst⟩ := ih hslots.1 hbefore
    exact ⟨⟨hleft, by simpa using hstays⟩, hfirst.trans hsame⟩

/-- **Who has given its report and is not told to drop the contact** stays
in it until the next slot. -/
theorem sameContact_live (hslots : ∀ o ∈ course, o.isSlot = false)
    (hstays : ∀ o ∈ course, o.leaves = false) (h : a.contact.phase.engaged = true) :
    SameContact a (a.live course) := by
  induction course generalizing a with
  | nil => exact .refl a
  | cons o course ih =>
    rw [List.forall_mem_cons] at hslots hstays
    rcases sameContact_meet hslots.1 hstays.1 with hsame | ⟨hnot, -⟩
    · have hlater : (a.meet o).contact.phase.engaged = true := by
        rw [hsame.contact]
        exact h
      exact hsame.trans (ih hslots.2 hstays.2 hlater)
    · rw [hnot] at h
      cases h

/-! ## What is logged -/

/-- **A slot logs the contact that was closing on the air.** Of the phases that end when the next
slot begins only the closing one writes an entry. -/
theorem loggedIn_finish (a : Automaton) (slot : Slot) :
    loggedIn (a.finish slot).2 =
      if a.sentLast = true ∧ a.contact.phase = .logging then a.logEntry?.toList else [] := by
  unfold finish
  dsimp only
  by_cases hsent : a.sentLast = true
  · rw [if_pos hsent]
    unfold afterSending
    dsimp only
    split
    case h_4 hphase =>
      rw [loggedIn_append, loggedIn_completed, loggedIn_goTo, List.append_nil,
        if_pos ⟨hsent, hphase⟩]
      rfl
    case h_5 h1 h2 h3 h4 =>
      rw [if_neg fun h => h4 h.2]
      rfl
    all_goals
      next hphase =>
      rw [loggedIn_goTo, if_neg]
      rintro ⟨-, hlogging⟩
      exact absurd (hlogging.symm.trans hphase) (by simp)
  · rw [if_neg hsent, if_neg fun h => hsent h.1]
    rfl

/-- When a contact has been logged, nothing is left of it, whether the operator calls again or is
idle. -/
theorem forgotten_finish (hsent : a.sentLast = true) (hphase : a.contact.phase = .logging)
    (slot : Slot) :
    (a.finish slot).1.contact.phase = .idle ∧ (a.finish slot).1.contact.Forgotten := by
  unfold finish afterSending
  simp only [hsent, hphase, if_true]
  split
  · rw [goTo_fst]
    exact ⟨rfl, rfl, rfl, rfl, rfl⟩
  · rw [goTo_fst]
    exact ⟨rfl, rfl, rfl, rfl, rfl⟩

/-! ## The closing message -/

/-- A slot sends the message that closes the contact with `partner`. -/
structure Closes (a : Automaton) (slot : Slot) (granted : Bool) (partner : String)
    (t : Transmission) : Prop where
  phase : (a.beginSlot slot granted).1.contact.phase = .logging
  sent : (a.beginSlot slot granted).2.transmission = some t
  text : t.message = (a.beginSlot slot granted).1.contact.role.closing partner a.station.call
  start : t.slotStartMs = slot.startMs

/-- The closing phase composes the closing message. -/
theorem closing_of_message? {m : Message} {partner : String} (h : a.message? = some m)
    (hphase : a.contact.phase = .logging) (htarget : a.contact.target = some partner) :
    m.text = a.contact.role.closing partner a.station.call := by
  simp only [message?, hphase, htarget, Option.map_some, Option.some.injEq] at h
  subst h
  apply String.toList_injective
  cases a.contact.role <;>
    simp [Role.closing, Message.text, Message.tokens, List.intercalate]

/-- **A slot that ends in the closing phase has sent the closing message,**
and has noted it. -/
theorem closes_of_logging {slot : Slot} {granted : Bool} (h : a.Disciplined)
    (hphase : (a.beginSlot slot granted).1.contact.phase = .logging) :
    granted = true ∧ ∃ partner t, a.Closes slot granted partner t ∧
      (a.beginSlot slot granted).1.contact.target = some partner ∧
      (a.beginSlot slot granted).1.sentLast = true ∧
      (a.beginSlot slot granted).1.lastSentAt = slot.startMs := by
  have hsends : (a.beginSlot slot granted).1.contact.phase.transmits = true := by
    rw [hphase]
    rfl
  obtain ⟨rfl, t, ht, hair⟩ := exists_onAirIn h hsends
  obtain ⟨partner, htarget⟩ := Option.isSome_iff_exists.1 (hair.partner (by rw [hphase]; simp))
  obtain ⟨m, hm, rfl⟩ := hair.message
  have htext := closing_of_message? hm hphase htarget
  rw [station_beginSlot] at htext
  exact ⟨rfl, partner, _, ⟨hphase, ht, htext, rfl⟩, htarget, hair.sentLast, (beginSlot_stamps ht).1⟩

/-- What is logged is the contact that is closing on the air. -/
theorem logging_of_mem {slot : Slot} {granted : Bool} {entry : LogEntry}
    (h : entry ∈ loggedIn (a.beginSlot slot granted).2.events) :
    a.sentLast = true ∧ a.contact.phase = .logging ∧ a.logEntry? = some entry := by
  rw [loggedIn_beginSlot, loggedIn_finish] at h
  split at h
  · next hclosing => exact ⟨hclosing.1, hclosing.2, by simpa using h⟩
  · cases h

/-- What is logged, is logged by a slot: no command writes an entry, and what is heard reports
nothing. -/
theorem slot_of_logged {entry : LogEntry} (h : entry ∈ loggedIn (a.tells o)) :
    ∃ slot granted, o = .slot slot granted ∧
      entry ∈ loggedIn (a.beginSlot slot granted).2.events := by
  cases o with
  | slot slot granted => exact ⟨slot, granted, rfl, h⟩
  | told c =>
    rw [tells, loggedIn_obey] at h
    cases h
  | heard _ | moved _ => cases h

/-- After a contact has been logged, the same slot closes no other: the operator is idle again, and
only who waits for a report to be confirmed stages a closing message. -/
theorem not_logging_of_logged (h : a.Steady) (hsent : a.sentLast = true)
    (hphase : a.contact.phase = .logging) (slot : Slot) (granted : Bool) :
    (a.beginSlot slot granted).1.contact.phase ≠ .logging := by
  have hidle : (a.settle slot granted).1.contact.phase = .idle := by
    have hlisten : ((a.finish slot).1.listen slot).1.contact.phase = .idle :=
      (phase_listen _ slot).trans (forgotten_finish hsent hphase slot).1
    rw [settle_eq, countSilence, hlisten]
    exact hlisten
  cases granted with
  | false =>
    rw [beginSlot_denied_fst, hidle]
    exact Phase.noConfusion
  | true =>
    obtain ⟨sent, hcontact⟩ := contact_send (a.settle slot true).1 slot
    rw [beginSlot_granted_fst, hcontact, hidle]
    intro hlogging
    cases hstaged : (a.settle slot true).1.staged with
    | none =>
      rw [hstaged] at hlogging
      cases hlogging
    | some p =>
      rw [hstaged] at hlogging
      obtain rfl : p = .logging := hlogging
      -- Only who waits for a report to be confirmed closes a contact.
      cases hidle.symm.trans ((poised_settle h slot true).closes hstaged)

/-- **Each contact is closed and logged once.**  Wherever a course has led
an operator, and a slot then begins:

* what it logs was closed in the slot before, whose closing message was
  sent to the same partner, and begins where that slot begins;
* a closing phase that the slot before ended in has sent the closing
  message, and the slot logs this contact and no other, unless it was
  dropped in between; then it logs none;
* when it has logged a contact, nothing is left of it, and the next slot
  logs nothing;
* no command logs anything. -/
theorem contact_logged_once (operator : Nat) (station : Station) (policy : Policy)
    (course : List Occasion) (slot : Slot) (granted : Bool) :
    let start := idle operator station policy
    let a := start.live course
    let entries := loggedIn (a.beginSlot slot granted).2.events
    (∀ entry ∈ entries, ∃ before s after t, course = before ++ .slot s true :: after ∧
      (∀ o ∈ after, o.isSlot = false ∧ o.leaves = false) ∧
      (start.live before).Closes s true entry.theirCall t ∧ entry.slotStartMs = t.slotStartMs) ∧
    (∀ before s g after, course = before ++ .slot s g :: after →
      (∀ o ∈ after, o.isSlot = false) →
      ((start.live before).beginSlot s g).1.contact.phase = .logging →
      ∃ partner t, (start.live before).Closes s g partner t ∧
        entries.map (fun entry => (entry.theirCall, entry.slotStartMs)) =
          if after.any Occasion.leaves then [] else [(partner, t.slotStartMs)]) ∧
    (entries ≠ [] → (a.finish slot).1.contact.Forgotten ∧
      ∀ between next g, (∀ o ∈ between, o.isSlot = false) →
        loggedIn (((a.beginSlot slot granted).1.live between).beginSlot next g).2.events = []) ∧
    ∀ c, loggedIn (a.obey c).2 = [] := by
  intro start a entries
  have hsteady : ∀ course, (start.live course).Steady := steady_live operator station policy
  refine ⟨?_, ?_, ?_, loggedIn_obey a⟩
  · intro entry hentry
    obtain ⟨hsent, hphase, hlogged⟩ := logging_of_mem hentry
    have hlistening : start.Listening := ⟨disciplined_idle operator station policy, rfl⟩
    obtain ⟨before, s, after, rfl, hslots, hsame, -⟩ :=
      exists_last_slot hlistening course (by rw [show a.contact.phase = _ from hphase]; rfl)
    have hclosing : ((start.live before).beginSlot s true).1.contact.phase = .logging :=
      hsame.symm.trans hphase
    obtain ⟨-, partner, t, hcloses, htarget, -, hstamp⟩ :=
      closes_of_logging (hsteady before).toDisciplined hclosing
    have hlive : a = ((start.live before).beginSlot s true).1.live after := live_append ..
    have hengaged : (((start.live before).beginSlot s true).1.live after).contact.phase.engaged =
        true := by
      rw [← hlive, hphase]
      rfl
    obtain ⟨hstays, hcontact⟩ := sameContact_of_engaged_live hslots hengaged
    rw [← hlive] at hcontact
    obtain ⟨their, htheir, rfl⟩ := Option.map_eq_some_iff.1 hlogged
    obtain rfl : their = partner := by
      rw [hcontact.contact, htarget] at htheir
      exact (Option.some.inj htheir).symm
    refine ⟨before, s, after, t, rfl, fun o ho => ⟨hslots o ho, hstays o ho⟩, hcloses, ?_⟩
    exact hcontact.lastSentAt.trans (hstamp.trans hcloses.start.symm)
  · rintro before s g after rfl hslots hclosing
    obtain ⟨-, partner, t, hcloses, htarget, hsent, hstamp⟩ :=
      closes_of_logging (hsteady before).toDisciplined hclosing
    have hlive : a = ((start.live before).beginSlot s g).1.live after := live_append ..
    refine ⟨partner, t, hcloses, ?_⟩
    have hentries : entries = if a.sentLast = true ∧ a.contact.phase = .logging then
        a.logEntry?.toList else [] := (loggedIn_beginSlot ..).trans (loggedIn_finish a slot)
    by_cases hleaves : after.any Occasion.leaves = true
    · rw [if_pos hleaves, hentries, if_neg]
      · rfl
      · rintro ⟨-, hphase⟩
        have hengaged : (((start.live before).beginSlot s g).1.live after).contact.phase.engaged =
            true := by
          rw [← hlive, hphase]
          rfl
        obtain ⟨hstays, -⟩ := sameContact_of_engaged_live hslots hengaged
        obtain ⟨o, ho, hdrops⟩ := List.any_eq_true.1 hleaves
        rw [hstays o ho] at hdrops
        cases hdrops
    · have hstays : ∀ o ∈ after, o.leaves = false := by simpa using hleaves
      have hcontact := sameContact_live hslots hstays
        (a := ((start.live before).beginSlot s g).1) (by rw [hclosing]; rfl)
      rw [← hlive] at hcontact
      have hlogged : a.logEntry?.toList.map (fun entry => (entry.theirCall, entry.slotStartMs)) =
          [(partner, t.slotStartMs)] := by
        rw [ logEntry?, hcontact.contact, htarget, hcontact.lastSentAt, hstamp, hcloses.start]
        rfl
      rw [if_neg hleaves, hentries, if_pos, hlogged]
      exact ⟨hcontact.sentLast.trans hsent, by rw [hcontact.contact, hclosing]⟩
  · intro hlogged
    obtain ⟨entry, hentry⟩ := List.exists_mem_of_ne_nil _ hlogged
    obtain ⟨hsent, hphase, -⟩ := logging_of_mem hentry
    refine ⟨(forgotten_finish hsent hphase slot).2, ?_⟩
    intro between next g hslots
    have hnot := not_logging_of_logged (hsteady course) hsent hphase slot granted
    rw [List.eq_nil_iff_forall_not_mem]
    intro other hother
    obtain ⟨-, hagain, -⟩ := logging_of_mem hother
    have hengaged : ((a.beginSlot slot granted).1.live between).contact.phase.engaged = true := by
      rw [hagain]
      rfl
    obtain ⟨-, hcontact⟩ := sameContact_of_engaged_live hslots hengaged
    rw [hcontact.contact] at hagain
    exact hnot hagain

end Automaton

end SlotRadio
