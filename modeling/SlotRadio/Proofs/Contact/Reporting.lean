import SlotRadio.Proofs.Contact.Closing
/-!
# The report that is given, and the report that is logged

A contact is logged with the level at which the partner was heard when the
report was made up.  On the air a level is held within thirty dB of zero.
The two are the same number for every level within these limits, and for no
other.

* `settle_of_confirming` — who is waiting for its report to be confirmed,
  after the steps of a slot that send nothing, was in the same contact
  before and had given the same report;
* `inContact_of_beginSlot` — so a contact goes on through a slot that does
  not give the report again;
* `exists_lastReport` — the report of a contact was given in a slot since
  which the contact has gone on, and no other has been given since;
* `logged_report` — what is logged of it.
-/

namespace SlotRadio

/-- Who has given its report, and is sending nothing, waits for it to be
confirmed. -/
theorem Phase.eq_awaitingConfirm {p : Phase} (hengaged : p.engaged = true)
    (hlistens : p.transmits = false) : p = .awaitingConfirm := by
  cases p <;> simp_all [Phase.engaged, Phase.transmits]

namespace Message

/-- The level that a text ends in, if it ends in one. -/
def levelIn? (text : String) : Option Int :=
  readReport (text.toList.drop (text.toList.length - 3))

theorem levelIn?_of_ends {text : String} (front last : List Char)
    (h : text.toList = front ++ last) (hlength : last.length = 3) :
    levelIn? text = readReport last := by
  rw [levelIn?, h, List.length_append, hlength, Nat.add_sub_cancel, List.drop_left]

end Message

/-- The message that gives a report. -/
def Role.reporting (role : Role) (partner me : String) (level : Int) : Message :=
  match role with
  | caller => .report partner me level
  | replier => .rogerReport partner me level

/-- **A message that gives a report** carries the level within the limits, whichever role gives it:
the last three characters are the sign and the digits. -/
theorem Role.levelIn?_reporting (role : Role) (partner me : String) (level : Int) :
    Message.levelIn? (role.reporting partner me level).text = some (clampReport level) := by
  rw [← readReport_reportText level]
  cases role with
  | caller =>
    refine Message.levelIn?_of_ends (partner.toList ++ ' ' :: me.toList ++ [' ']) _ ?_ rfl
    simp [Role.reporting, Message.text, Message.tokens, List.intercalate]
  | replier =>
    refine Message.levelIn?_of_ends (partner.toList ++ ' ' :: me.toList ++ [' ', 'R']) _ ?_ rfl
    simp [Role.reporting, Message.text, Message.tokens, List.intercalate]

/-- The message that closes a contact gives no report, for neither `R73` nor ` 73` reads as a
level. -/
theorem Role.levelIn?_closing (role : Role) (partner me : String) :
    Message.levelIn? (role.closing partner me) = none := by
  cases role with
  | caller =>
    rw [Message.levelIn?_of_ends (partner.toList ++ ' ' :: me.toList ++ [' ', 'R'])
      ['R', '7', '3'] (by simp [Role.closing]) rfl]
    rfl
  | replier =>
    rw [Message.levelIn?_of_ends (partner.toList ++ ' ' :: me.toList)
      [' ', '7', '3'] (by simp [Role.closing]) rfl]
    rfl

namespace Automaton

variable {a : Automaton} {slot : Slot} {granted : Bool}

/-! ## A contact in which a report was given -/

/-- An operator is in a contact in which it has given the report. -/
structure InContact (a : Automaton) (partner : String) (report : Option Int) : Prop where
  engaged : a.contact.phase.engaged = true
  target : a.contact.target = some partner
  reportSent : a.contact.reportSent = report

/-- A slot gives `partner` a report. -/
structure Reports (a : Automaton) (slot : Slot) (partner : String) (level : Int)
    (t : Transmission) : Prop where
  sent : (a.beginSlot slot true).2.transmission = some t
  text : t.message =
    ((a.beginSlot slot true).1.contact.role.reporting partner a.station.call level).text

/-- The last report of a contact was given in `slot`: since then the contact
has gone on, and no other report was sent. -/
structure LastReport (a : Automaton) (slot : Slot) (after : List Occasion) (partner : String)
    (level : Int) (t : Transmission) : Prop where
  given : a.Reports slot partner level t
  goesOn : ∀ during, during <+: after →
    ((a.beginSlot slot true).1.live during).InContact partner (some level)
  last : ∀ x ∈ (a.beginSlot slot true).1.sentAlong after, Message.levelIn? x.2.message = none

/-- **A slot that ends in the reporting phase has given the report**, at the level that the contact
has kept of the message it answers. -/
theorem reports_of_exchanging {partner : String} {report : Option Int} (h : a.Disciplined)
    (hcontact : (a.beginSlot slot granted).1.InContact partner report)
    (hphase : (a.beginSlot slot granted).1.contact.phase = .exchanging) :
    granted = true ∧ ∃ level t, report = some level ∧ a.Reports slot partner level t := by
  obtain ⟨rfl, t, ht, hair⟩ := exists_onAirIn h (by rw [hphase]; rfl)
  obtain ⟨level, hlevel⟩ := Option.isSome_iff_exists.1 (hair.measured hphase)
  obtain ⟨m, hm, rfl⟩ := hair.message
  refine ⟨rfl, level, _, hcontact.reportSent.symm.trans hlevel, ht, ?_⟩
  have hreport : m = (a.beginSlot slot true).1.contact.role.reporting partner
      (a.beginSlot slot true).1.station.call level := by
    simp only [message?, hphase, hcontact.target, hlevel, Option.map_some, Option.getD_some,
      Option.some.injEq] at hm
    exact hm.symm
  rw [station_beginSlot] at hreport
  exact congrArg Message.text hreport

/-- A phase of the contact after the report says nothing about levels. -/
theorem levelIn?_of_sent {t : Transmission} (h : a.Disciplined)
    (hengaged : (a.beginSlot slot granted).1.contact.phase.engaged = true)
    (hphase : (a.beginSlot slot granted).1.contact.phase ≠ .exchanging)
    (ht : (a.beginSlot slot granted).2.transmission = some t) :
    Message.levelIn? t.message = none := by
  cases hp : (a.beginSlot slot granted).1.contact.phase with
  | logging =>
    obtain ⟨-, partner, t', hcloses, -⟩ := closes_of_logging h hp
    obtain rfl : t' = t := Option.some.inj (hcloses.sent.symm.trans ht)
    rw [hcloses.text]
    exact Role.levelIn?_closing ..
  | awaitingConfirm =>
    have hmanual : (a.beginSlot slot granted).1.contact.phase ≠ .manual := by
      rw [hp]
      exact Phase.noConfusion
    have hair := onAirIn_of_transmission h (Prod.eta (a.beginSlot slot granted)).symm ht hmanual
    obtain ⟨m, hm, -⟩ := hair.message
    simp [message?, hp] at hm
  | exchanging => exact absurd hp hphase
  | idle | callingCq | awaitingReply | replying | manual =>
    rw [hp] at hengaged
    cases hengaged

/-! ## Back through a slot -/

/-- `b` has the partner of `a`, and has given it the same report. -/
structure SameReport (a b : Automaton) : Prop where
  target : b.contact.target = a.contact.target
  reportSent : b.contact.reportSent = a.contact.reportSent

theorem SameReport.trans {a b c : Automaton} (h : SameReport a b) (k : SameReport b c) :
    SameReport a c where
  target := k.target.trans h.target
  reportSent := k.reportSent.trans h.reportSent

/-- Who is now waiting for its report to be confirmed has just given it, or
was waiting before. -/
theorem finish_of_confirming (h : (a.finish slot).1.contact.phase = .awaitingConfirm) :
    a.contact.phase.engaged = true ∧ SameReport a (a.finish slot).1 := by
  rcases finish_cases a slot with ⟨_, -, heq⟩ | ⟨next, -, hnext, heq⟩ | ⟨_, _, -, -, -, heq⟩ <;>
    rw [heq] at h ⊢
  · have hphase : a.contact.phase = .awaitingConfirm := h
    exact ⟨by rw [hphase]; rfl, rfl, rfl⟩
  · rcases hnext with ⟨-, rfl⟩ | ⟨hphase, -⟩
    · cases h
    · exact ⟨by rw [hphase]; rfl, rfl, rfl⟩
  · cases h

/-- What is heard while the report is to be confirmed changes neither. -/
theorem listen_of_confirming (h : (a.listen slot).1.contact.phase = .awaitingConfirm) :
    SameReport a (a.listen slot).1 := by
  rw [phase_listen] at h
  have hboth : (a.listen slot).1.contact.phase = .awaitingConfirm ∧
      SameReport a (a.listen slot).1 := by
    have hstart : ({ a with inbox := [] } : Automaton).contact.phase = .awaitingConfirm ∧
        SameReport a { a with inbox := [] } := ⟨h, rfl, rfl⟩
    refine hearAll_invariant
      (P := fun b => b.contact.phase = .awaitingConfirm ∧ SameReport a b) ?_ hstart a.inbox
    intro b f c ⟨hb, hsame⟩ hc
    refine ⟨(phase_hear hc).trans hb, hsame.trans ?_⟩
    rcases hear_cases hc with ⟨_, _, hidle, -⟩ | ⟨_, _, _, -, hphase, -⟩ |
      ⟨d, next, -, -, hreact, rfl⟩
    · cases hidle.symm.trans hb
    · rcases hphase with hphase | hphase <;> cases hphase.symm.trans hb
    · obtain ⟨given, got, rfl, hnext⟩ := react_cases hreact
      rcases hnext with ⟨-, hgiven, -⟩ | ⟨-, hgiven, -⟩ | ⟨-, -, -, hphase | hphase⟩
      · exact ⟨rfl, hgiven⟩
      · exact ⟨rfl, hgiven⟩
      · cases hphase.symm.trans hb
      · cases hphase.symm.trans hb
  exact hboth.2

/-- Who gives up has no partner any more, even where it keeps its phase to
call again. -/
theorem countSilence_of_confirming {progressed : Bool}
    (h : (a.countSilence slot granted progressed).1.contact.phase = .awaitingConfirm)
    (hpartner : (a.countSilence slot granted progressed).1.contact.target.isSome = true) :
    a.contact.phase = .awaitingConfirm ∧
      SameReport a (a.countSilence slot granted progressed).1 := by
  rcases countSilence_cases a slot granted progressed with heq |
    ⟨-, -, ⟨-, heq | heq⟩ | ⟨-, _, -, heq⟩⟩ <;> rw [heq] at h hpartner ⊢
  · exact ⟨h, rfl, rfl⟩
  · cases hpartner
  · cases hpartner
  · exact ⟨h, rfl, rfl⟩

theorem settle_of_confirming (h : (a.settle slot granted).1.contact.phase = .awaitingConfirm)
    (hpartner : (a.settle slot granted).1.contact.target.isSome = true) :
    a.contact.phase.engaged = true ∧ SameReport a (a.settle slot granted).1 := by
  rw [settle_eq] at h hpartner ⊢
  obtain ⟨hlistened, hcounted⟩ := countSilence_of_confirming h hpartner
  have hheard := listen_of_confirming hlistened
  rw [phase_listen] at hlistened
  obtain ⟨hengaged, hfinished⟩ := finish_of_confirming hlistened
  exact ⟨hengaged, (hfinished.trans hheard).trans hcounted⟩

/-- What is sent in a contact, and is not the report, is sent by who waits
for the report to be confirmed. -/
theorem send_of_engaged (hlistens : a.Listening) (hpoised : a.Poised)
    (hengaged : (a.send slot).1.contact.phase.engaged = true)
    (hphase : (a.send slot).1.contact.phase ≠ .exchanging) :
    a.contact.phase = .awaitingConfirm ∧ SameReport a (a.send slot).1 := by
  obtain ⟨sent, hcontact⟩ := contact_send a slot
  rw [hcontact] at hengaged hphase
  refine ⟨?_, by rw [hcontact], by rw [hcontact]⟩
  cases hstaged : a.staged with
  | none =>
    rw [hstaged] at hengaged
    exact Phase.eq_awaitingConfirm hengaged hlistens.listens
  | some p =>
    rw [hstaged] at hengaged hphase
    have hready := hlistens.staged p hstaged
    -- Of the phases after the report two are staged, and one gives it again.
    cases p with
    | logging => exact hpoised.closes hstaged
    | exchanging => exact absurd rfl hphase
    | awaitingConfirm => exact hready.elim
    | idle | callingCq | awaitingReply | replying | manual => cases hengaged

/-- **A contact goes on through a slot** that does not give the report again: it was the same
contact before, and the level it has given is the one from before. -/
theorem inContact_of_beginSlot {partner : String} {report : Option Int} (h : a.Steady)
    (hlater : (a.beginSlot slot granted).1.InContact partner report)
    (hphase : (a.beginSlot slot granted).1.contact.phase ≠ .exchanging) :
    a.InContact partner report := by
  have hlistens := listening_settle h.toDisciplined slot granted
  have hengaged := hlater.engaged
  have hback : (a.settle slot granted).1.contact.phase = .awaitingConfirm ∧
      SameReport (a.settle slot granted).1 (a.beginSlot slot granted).1 := by
    cases granted with
    | false => exact ⟨Phase.eq_awaitingConfirm hengaged hlistens.listens, rfl, rfl⟩
    | true => exact send_of_engaged hlistens (poised_settle h slot true) hengaged hphase
  have hpartner : (a.settle slot granted).1.contact.target.isSome = true := by
    rw [← hback.2.target, hlater.target]
    rfl
  obtain ⟨hbefore, hsettled⟩ := settle_of_confirming hback.1 hpartner
  have hsame := hsettled.trans hback.2
  exact ⟨hbefore, hsame.target.symm.trans hlater.target,
    hsame.reportSent.symm.trans hlater.reportSent⟩

/-- Who is in a contact has just given the report, or was in the contact
before and gives none. -/
theorem inContact_of_meet {o : Occasion} {partner : String} {report : Option Int} (h : a.Steady)
    (hlater : (a.meet o).InContact partner report) :
    (∃ s level t, o = .slot s true ∧ report = some level ∧ a.Reports s partner level t) ∨
      a.InContact partner report ∧ ∀ x ∈ a.sends o, Message.levelIn? x.2.message = none := by
  cases o with
  | slot s g =>
    by_cases hphase : (a.beginSlot s g).1.contact.phase = .exchanging
    · obtain ⟨rfl, level, t, hlevel, hreports⟩ :=
        reports_of_exchanging h.toDisciplined hlater hphase
      exact .inl ⟨s, level, t, rfl, hlevel, hreports⟩
    · refine .inr ⟨inContact_of_beginSlot h hlater hphase, ?_⟩
      intro x hx
      obtain ⟨t, ht, rfl⟩ := List.mem_map.1 hx
      exact levelIn?_of_sent h.toDisciplined hlater.engaged hphase (Option.mem_toList.1 ht)
  | told _ | heard _ | moved _ =>
    obtain ⟨-, hsame⟩ := sameContact_of_engaged rfl hlater.engaged
    right
    refine ⟨⟨?_, ?_, ?_⟩, fun _ hx => (List.not_mem_nil hx).elim⟩ <;> rw [← hsame.contact]
    · exact hlater.engaged
    · exact hlater.target
    · exact hlater.reportSent

/-! ## Since the report -/

/-- A contact in which no other report is given goes on. -/
theorem LastReport.snoc {after : List Occasion} {o : Occasion} {partner : String} {level : Int}
    {t : Transmission} (h : a.LastReport slot after partner level t)
    (hcontact : (((a.beginSlot slot true).1.live after).meet o).InContact partner (some level))
    (hsent : ∀ x ∈ ((a.beginSlot slot true).1.live after).sends o,
      Message.levelIn? x.2.message = none) :
    a.LastReport slot (after ++ [o]) partner level t where
  given := h.given
  goesOn := by
    intro during hduring
    rcases List.prefix_concat_iff.1 hduring with rfl | hduring
    · rw [live_concat]
      exact hcontact
    · exact h.goesOn during hduring
  last := by
    intro x hx
    rw [sentAlong_append, List.mem_append] at hx
    rcases hx with hx | hx
    · exact h.last x hx
    · rw [sentAlong_singleton] at hx
      exact hsent x hx

/-- **The report of a contact** was given in a slot since which the contact
has gone on, and no other report has been sent since. -/
theorem exists_lastReport (hsteady : a.Steady) (hout : a.contact.phase.engaged = false)
    {course : List Occasion} {partner : String} {report : Option Int}
    (h : (a.live course).InContact partner report) :
    ∃ before s after level t, course = before ++ .slot s true :: after ∧ report = some level ∧
      (a.live before).LastReport s after partner level t := by
  induction course using List.reverseRecOn with
  | nil =>
    have hin : a.contact.phase.engaged = true := h.engaged
    rw [hout] at hin
    cases hin
  | append_singleton course o ih =>
    rw [live_concat] at h
    rcases inContact_of_meet (hsteady.live course) h with
      ⟨s, level, t, rfl, rfl, hreports⟩ | ⟨hbefore, hsent⟩
    · refine ⟨course, s, [], level, t, rfl, rfl, hreports, ?_, ?_⟩
      · intro during hduring
        obtain rfl := List.prefix_nil.1 hduring
        exact h
      · intro x hx
        exact (List.not_mem_nil hx).elim
    · obtain ⟨before, s, after, level, t, rfl, rfl, hlast⟩ := ih hbefore
      have hafter : a.live (before ++ .slot s true :: after) =
          ((a.live before).beginSlot s true).1.live after := live_append ..
      rw [hafter] at h hsent
      exact ⟨before, s, after ++ [o], level, t, by simp, rfl, hlast.snoc h hsent⟩

/-- **The report that is logged.**  Whatever is logged of a contact, at any
point of a course, is the level of the last report that was sent in it.  On
the air the level is held within the limits, so the entry tells what was
sent exactly if the level lies within them. -/
theorem logged_report {operator : Nat} {station : Station} {policy : Policy}
    {course : List Occasion} {o : Occasion} {entry : LogEntry}
    (h : entry ∈ loggedIn (((idle operator station policy).live course).tells o)) :
    ∃ before s after level t, course = before ++ .slot s true :: after ∧
      ((idle operator station policy).live before).LastReport s after entry.theirCall level t ∧
      entry.reportSent = some level ∧ Message.levelIn? t.message = some (clampReport level) ∧
      (entry.reportSent = Message.levelIn? t.message ↔ -30 ≤ level ∧ level ≤ 30) := by
  obtain ⟨slot, granted, rfl, hentry⟩ := slot_of_logged h
  have hcontact : ((idle operator station policy).live course).InContact entry.theirCall
      entry.reportSent := by
    obtain ⟨-, hphase, hlogged⟩ := logging_of_mem hentry
    obtain ⟨their, htheir, rfl⟩ := Option.map_eq_some_iff.1 hlogged
    exact ⟨by rw [hphase]; rfl, htheir, rfl⟩
  obtain ⟨before, s, after, level, t, hcourse, hlevel, hlast⟩ :=
    exists_lastReport (steady_idle operator station policy) rfl hcontact
  have hcarried : Message.levelIn? t.message = some (clampReport level) := by
    rw [hlast.given.text]
    exact Role.levelIn?_reporting ..
  refine ⟨before, s, after, level, t, hcourse, hlast, hlevel, hcarried, ?_⟩
  rw [hcarried, hlevel, Option.some.injEq]
  unfold clampReport
  omega

/-- A caller logs the lowest report there is, and has sent it. -/
theorem logged_report_lowest :
    let start := idle 0 (Station.ofCall "K1ABC" "FN42" 700 [0]) {}
    let course : List Occasion :=
      [.told .callCq, .slot (Mode.ft8.slot 0) true, .heard ⟨"K1ABC W9XYZ EN37", -30, 0, 0, 0⟩,
        .slot (Mode.ft8.slot 2) true, .heard ⟨"K1ABC W9XYZ R-07", -29, 0, 0, 0⟩,
        .slot (Mode.ft8.slot 4) true]
    let entry : LogEntry :=
      ⟨0, "K1ABC", "W9XYZ", some "EN37", some (-30), some (-7), 700, 60000⟩
    let o : Occasion := .slot (Mode.ft8.slot 5) false
    entry ∈ loggedIn ((start.live course).tells o) ∧
      ∃ before s after t, course = before ++ .slot s true :: after ∧
        (start.live before).LastReport s after "W9XYZ" (-30) t ∧
        entry.reportSent = Message.levelIn? t.message := by
  intro start course entry o
  have hentry : entry ∈ loggedIn ((start.live course).tells o) := by decide +kernel
  obtain ⟨before, s, after, level, t, hcourse, hlast, hlevel, -, hsame⟩ := logged_report hentry
  obtain rfl : -30 = level := Option.some.inj hlevel
  exact ⟨hentry, before, s, after, t, hcourse, hlast, hsame.2 (by decide)⟩

/-- **A report below the limits is not logged as it was sent.**  The caller
hears its partner at 35 dB below zero, sends the lowest report there is and
logs another. -/
theorem logged_report_faint :
    let start := idle 0 (Station.ofCall "K1ABC" "FN42" 700 [0]) {}
    let course : List Occasion :=
      [.told .callCq, .slot (Mode.ft8.slot 0) true, .heard ⟨"K1ABC W9XYZ EN37", -35, 0, 0, 0⟩,
        .slot (Mode.ft8.slot 2) true, .heard ⟨"K1ABC W9XYZ R-07", -34, 0, 0, 0⟩,
        .slot (Mode.ft8.slot 4) true]
    let o : Occasion := .slot (Mode.ft8.slot 5) false
    (start.sentAlong course).map (fun x => (x.1, x.2.message)) =
        [(0, "CQ K1ABC FN42"), (2, "W9XYZ K1ABC -30"), (4, "W9XYZ K1ABC RR73")] ∧
      Message.levelIn? "W9XYZ K1ABC -30" = some (-30) ∧
      loggedIn ((start.live course).tells o) =
        [⟨0, "K1ABC", "W9XYZ", some "EN37", some (-35), some (-7), 700, 60000⟩] := by
  decide +kernel

end Automaton

end SlotRadio
