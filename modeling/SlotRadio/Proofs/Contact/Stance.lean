import SlotRadio.Proofs.Contact.Discipline
/-!
# Where an operator stands in a contact

Most of the fifteen variables of an automatic operator do not matter to
its partner.  What matters is its **stance**: it has no partner, it calls
one, or it is in a contact, at one of three stages, with the two reports.

An operator that is given no command moves through the stances as
follows.

* `stands_finish` — what was on the air ends; a contact that was closing
  on the air is logged and over;
* `stands_listen` — one frame advances the contact as `Advances` says;
* `stands_countSilence` — silence changes nothing, or frees the operator;
* `stands_send` — sending turns an opened contact into a reported one.

`stands_beginSlot` puts the four together.
-/

namespace SlotRadio

/-- How far a contact has come: the own report is to be sent for the first
time, it has been sent, or the closing message is to be sent. -/
inductive Stage where
  | opened
  | reported
  | closing

/-- The stage in which a message is on the air. -/
def Stage.sent : Stage → Stage
  | opened | reported => reported
  | closing => closing

theorem Stage.sent_ne_closing {stage : Stage} (h : stage ≠ closing) : stage.sent ≠ closing := by
  cases stage with
  | opened => exact Stage.noConfusion
  | reported => exact h
  | closing => exact h

/-- What an operator is to its partner: it has none, it answers the call of a
station, or it is in a contact. -/
inductive Stance where
  | free
  | calling (partner : String)
  | contact (stage : Stage) (role : Role) (partner : String) (given : Int) (got : Option Int)

namespace Stance

/-- The partner of a stance. -/
def partner? : Stance → Option String
  | free => none
  | calling p | contact _ _ p _ _ => some p

/-- The report given in a stance. -/
def given? : Stance → Option Int
  | free | calling _ => none
  | contact _ _ _ given _ => some given

/-- The report got in a stance. -/
def got? : Stance → Option Int
  | free | calling _ => none
  | contact _ _ _ _ got => got

/-- What remains of a stance when a message, if it was on the air, has
been sent: a contact that was closing is over. -/
def ended : Bool → Stance → Stance
  | true, contact .closing .. => free
  | _, s => s

/-- The stance in which a message is on the air. -/
def sent : Stance → Stance
  | contact stage role p given got => contact stage.sent role p given got
  | s => s

/-- The message of a stance. -/
def message (me grid : String) : Stance → Message
  | free => .cq none me (if grid = "" then none else some grid)
  | calling p => .grid p me grid
  | contact .closing .caller p _ _ => .roger p me true
  | contact .closing .replier p _ _ => .seventyThree p me
  | contact _ .caller p given _ => .report p me given
  | contact _ .replier p given _ => .rogerReport p me given

/-- What a stance enters into the log when its message has been sent. -/
def Logs (me : String) : Bool → Stance → List LogEntry → Prop
  | true, contact .closing _ p given got, entries =>
    ∃ e : LogEntry, entries = [e] ∧ e.myCall = me ∧ e.theirCall = p ∧ e.reportSent = some given ∧
      e.reportReceived = got
  | _, _, entries => entries = []

/-- The phases of a stance, on the air or not, with what is staged and the
side taken. -/
inductive Place : Bool → Stance → Phase → Option Phase → Role → Prop where
  | idle {r : Role} : Place false free .idle none r
  | toCall : Place false free .idle (some .callingCq) .caller
  | called : Place true free .callingCq none .caller
  | awaitsAnswer : Place false free .awaitingReply none .caller
  | toCallAgain : Place false free .awaitingReply (some .callingCq) .caller
  | gaveUp : Place false free .awaitingConfirm (some .callingCq) .caller
  | toReply {p : String} : Place false (calling p) .idle (some .replying) .replier
  | replied {p : String} : Place true (calling p) .replying none .replier
  | awaitsReport {p : String} : Place false (calling p) .awaitingReply none .replier
  | toReplyAgain {p : String} : Place false (calling p) .awaitingReply (some .replying) .replier
  | toReport {r : Role} {p : String} {given : Int} {got : Option Int} :
      Place false (contact .opened r p given got) .awaitingReply (some .exchanging) r
  | reported {r : Role} {p : String} {given : Int} {got : Option Int} :
      Place true (contact .reported r p given got) .exchanging none r
  | awaitsConfirm {r : Role} {p : String} {given : Int} {got : Option Int} :
      Place false (contact .reported r p given got) .awaitingConfirm none r
  | toReportAgain {r : Role} {p : String} {given : Int} {got : Option Int} :
      Place false (contact .reported r p given got) .awaitingConfirm (some .exchanging) r
  | toClose {r : Role} {p : String} {given : Int} {got : Option Int} :
      Place false (contact .closing r p given got) .awaitingConfirm (some .logging) r
  | closed {r : Role} {p : String} {given : Int} {got : Option Int} :
      Place true (contact .closing r p given got) .logging none r

/-- How a message that was heard at a level advances a contact. -/
inductive Advances (me : String) (snr : Int) : Message → Stance → Stance → Prop where
  | call {modifier : Option String} {sender : String} {square : Option String} :
      Advances me snr (.cq modifier sender square) free (calling sender)
  | answer {addressee sender square : String} (hme : Text.sameCall addressee me = true) :
      Advances me snr (.grid addressee sender square) free (contact .opened .caller sender snr none)
  | answerByReport {addressee sender : String} {level : Int}
      (hme : Text.sameCall addressee me = true) :
      Advances me snr (.report addressee sender level) free
        (contact .opened .caller sender snr (some level))
  | firstReport {addressee sender p : String} {level : Int} (hp : Text.sameCall p sender = true) :
      Advances me snr (.report addressee sender level) (calling p)
        (contact .opened .replier p snr (some level))
  | newReport {addressee sender p : String} {level given : Int} {got : Option Int}
      (hp : Text.sameCall p sender = true) :
      Advances me snr (.report addressee sender level) (contact .opened .replier p given got)
        (contact .opened .replier p snr (some level))
  | firstRogerReport {addressee sender p : String} {level : Int}
      (hp : Text.sameCall p sender = true) :
      Advances me snr (.rogerReport addressee sender level) (calling p)
        (contact .opened .replier p snr (some level))
  | newRogerReport {addressee sender p : String} {level given : Int} {got : Option Int}
      (hp : Text.sameCall p sender = true) :
      Advances me snr (.rogerReport addressee sender level) (contact .opened .replier p given got)
        (contact .opened .replier p snr (some level))
  | rogerReport {addressee sender p : String} {level given : Int} {got : Option Int} {stage : Stage}
      (hp : Text.sameCall p sender = true) (hstage : stage ≠ .opened) :
      Advances me snr (.rogerReport addressee sender level) (contact stage .caller p given got)
        (contact .closing .caller p given (some level))
  | roger {addressee sender p : String} {with73 : Bool} {role : Role} {given : Int}
      {got : Option Int} {stage : Stage} (hp : Text.sameCall p sender = true)
      (hstage : stage ≠ .opened) :
      Advances me snr (.roger addressee sender with73) (contact stage role p given got)
        (contact .closing role p given got)
  | seventyThree {addressee sender p : String} {role : Role} {given : Int} {got : Option Int}
      {stage : Stage} (hp : Text.sameCall p sender = true) (hstage : stage ≠ .opened) :
      Advances me snr (.seventyThree addressee sender) (contact stage role p given got)
        (contact .closing role p given got)
  | answerAgain {addressee sender square p : String} {given : Int} {got : Option Int}
      {stage : Stage} (hp : Text.sameCall p sender = true) (hstage : stage ≠ .opened) :
      Advances me snr (.grid addressee sender square) (contact stage .caller p given got)
        (contact .reported .caller p given got)
  | reportAgain {addressee sender p : String} {level given : Int} {got : Option Int} {stage : Stage}
      (hp : Text.sameCall p sender = true) (hstage : stage ≠ .opened) :
      Advances me snr (.report addressee sender level) (contact stage .replier p given got)
        (contact .reported .replier p given (some level))

/-- What a stance can become by hearing at most one message. -/
def Reaches (me : String) (m : Option Message) (s t : Stance) : Prop :=
  t = s ∨ ∃ snr, ∃ n ∈ m, Advances me snr n s t

/-- What a stance can become in a slot in which at most one message is
heard, before anything is sent. -/
def Settles (me : String) (m : Option Message) (onAir : Bool) (s t : Stance) : Prop :=
  ∃ u, Reaches me m (s.ended onAir) u ∧ (t = u ∨ t = free)

end Stance

open Stance

/-- The contact and what is staged are those of a stance. -/
structure Contact.Stands (c : Contact) (staged : Option Phase) (onAir : Bool) (s : Stance) :
    Prop where
  place : Place onAir s c.phase staged c.role
  partner : c.target = s.partner?
  given : c.reportSent = s.given?
  got : c.reportReceived = s.got?

/-- An operator stands in a stance, its message on the air or not. -/
structure Automaton.Stands (a : Automaton) (onAir : Bool) (s : Stance) : Prop where
  contact : a.contact.Stands a.staged onAir s
  sentLast : a.sentLast = onAir

namespace Automaton

/-! ## Hearing -/

section

variable {me sender p : String} {snr : Int} {m : Message} {s : Stance} {c d : Contact}
  {staged : Option Phase} {next : Phase}

/-- Who waits for an answer of its partner gets the first report. -/
theorem advances_of_awaitingReply (hsender : m.sender? = some sender)
    (hfrom : Text.sameCall p sender = true) (hphase : c.phase = .awaitingReply)
    (hp : c.target = some p)
    (hs : c.role = .replier →
      s = calling p ∨ ∃ given got, s = .contact .opened .replier p given got)
    (h : react c snr m = some (d, next)) :
    ∃ t, Advances me snr m s t ∧ d.Stands (some next) false t := by
  have hopened : ∀ level, c.role = .replier →
      Contact.Stands { c with reportReceived := some level, reportSent := some snr }
        (some .exchanging) false (.contact .opened .replier p snr (some level)) := by
    intro level hrole
    refine ⟨?_, hp, rfl, rfl⟩
    show Place false _ c.phase (some .exchanging) c.role
    rw [hphase, hrole]
    exact .toReport
  cases hrole : c.role with
  | caller => cases m <;> simp [react, hphase, hrole] at h
  | replier =>
    cases m <;> simp [react, hphase, hrole] at h
    all_goals
      obtain ⟨rfl, rfl⟩ := h
      obtain rfl := Option.some.inj hsender
    case report addressee level =>
      refine ⟨_, ?_, by simpa [hphase, hrole] using hopened level hrole⟩
      rcases hs hrole with rfl | ⟨given, got, rfl⟩
      · exact .firstReport hfrom
      · exact .newReport hfrom
    case rogerReport addressee level =>
      refine ⟨_, ?_, by simpa [hphase, hrole] using hopened level hrole⟩
      rcases hs hrole with rfl | ⟨given, got, rfl⟩
      · exact .firstRogerReport hfrom
      · exact .newRogerReport hfrom

/-- Who waits for its report to be confirmed closes the contact, or sends
the report again. -/
theorem advances_of_awaitingConfirm {stage : Stage} {x : Int} {got : Option Int}
    (hsender : m.sender? = some sender) (hfrom : Text.sameCall p sender = true)
    (hphase : c.phase = .awaitingConfirm) (hstage : stage ≠ .opened) (hp : c.target = some p)
    (hgiven : c.reportSent = some x) (hgot : c.reportReceived = got)
    (h : react c snr m = some (d, next)) :
    ∃ t, Advances me snr m (.contact stage c.role p x got) t ∧ d.Stands (some next) false t := by
  have hstands : ∀ {t r e}, Place false (.contact t c.role p x r) .awaitingConfirm (some e) c.role →
      Contact.Stands { c with reportReceived := r } (some e) false (.contact t c.role p x r) := by
    intro t r e hplace
    rw [← hphase] at hplace
    exact ⟨hplace, hp, hgiven, rfl⟩
  have hkept : { c with reportReceived := got } = c := by rw [← hgot]
  have hclosing := hkept ▸ hstands (r := got) .toClose
  have hagain := hkept ▸ hstands (r := got) .toReportAgain
  cases hrole : c.role with
  | caller =>
    cases m <;>
      simp only [react, hphase, hrole, Option.some.injEq, Prod.mk.injEq, reduceCtorEq] at h
    all_goals
      obtain ⟨rfl, rfl⟩ := h
      obtain rfl := Option.some.inj hsender
    case rogerReport addressee level =>
      have hclosed := hstands (r := some level) .toClose
      exact ⟨_, .rogerReport hfrom hstage, by simpa [hphase, hrole] using hclosed⟩
    case roger addressee with73 => exact ⟨_, .roger hfrom hstage, hrole ▸ hclosing⟩
    case seventyThree addressee => exact ⟨_, .seventyThree hfrom hstage, hrole ▸ hclosing⟩
    case grid addressee square => exact ⟨_, .answerAgain hfrom hstage, hrole ▸ hagain⟩
  | replier =>
    cases m <;>
      simp only [react, hphase, hrole, Option.some.injEq, Prod.mk.injEq, reduceCtorEq] at h
    all_goals
      obtain ⟨rfl, rfl⟩ := h
      obtain rfl := Option.some.inj hsender
    case roger addressee with73 => exact ⟨_, .roger hfrom hstage, hrole ▸ hclosing⟩
    case seventyThree addressee => exact ⟨_, .seventyThree hfrom hstage, hrole ▸ hclosing⟩
    case report addressee level =>
      exact ⟨_, .reportAgain hfrom hstage,
        by simpa [hphase, hrole] using hstands (r := some level) .toReportAgain⟩

/-- **The partner's message advances a contact as `Advances` says.** A stance with this partner has
a phase that waits, and each of these takes the messages that it waits for. -/
theorem advances_react (hc : c.Stands staged false s) (hsender : m.sender? = some sender)
    (hp : c.target = some p) (hfrom : Text.sameCall p sender = true)
    (h : react c snr m = some (d, next)) :
    ∃ t, Advances me snr m s t ∧ d.Stands (some next) false t := by
  have hpartner : s.partner? = some p := hc.partner.symm.trans hp
  have hgiven := hc.given
  have hgot := hc.got
  have hplace := hc.place
  have hphase : c.phase ≠ .idle := by
    obtain ⟨_, _, _, hnext⟩ := react_cases h
    intro hidle
    simp [hidle] at hnext
  generalize hf : c.phase = phase at hplace hphase
  generalize hr : c.role = role at hplace
  cases hplace
  case idle => exact absurd rfl hphase
  case toCall => exact absurd rfl hphase
  case toReply => exact absurd rfl hphase
  case awaitsAnswer => simp [partner?] at hpartner
  case toCallAgain => simp [partner?] at hpartner
  case gaveUp => simp [partner?] at hpartner
  case awaitsReport q =>
    obtain rfl : q = p := Option.some.inj hpartner
    exact advances_of_awaitingReply hsender hfrom hf hp (fun _ => .inl rfl) h
  case toReplyAgain q =>
    obtain rfl : q = p := Option.some.inj hpartner
    exact advances_of_awaitingReply hsender hfrom hf hp (fun _ => .inl rfl) h
  case toReport q given got =>
    obtain rfl : q = p := Option.some.inj hpartner
    refine advances_of_awaitingReply hsender hfrom hf hp ?_ h
    rintro hrole
    obtain rfl := hr.symm.trans hrole
    exact .inr ⟨given, got, rfl⟩
  all_goals
    obtain rfl := hr
    obtain rfl := Option.some.inj hpartner
    exact advances_of_awaitingConfirm hsender hfrom hf (by simp) hp hgiven hgot h

end

variable {a b : Automaton} {onAir : Bool} {s : Stance}

/-- A call is answered from the free stance only, for every other one has a phase that is not idle
or has something staged. -/
theorem stands_hearCall {modifier : Option String} {sender : String} {square : Option String}
    (snr : Int) (h : a.Stands false s) (hb : a.hearCall sender square = some b) :
    ∃ t, Advances a.station.call snr (.cq modifier sender square) s t ∧ b.Stands false t := by
  unfold hearCall at hb
  split at hb
  · next hidle =>
    obtain rfl := Option.some.inj hb
    have hplace := h.contact.place
    rw [hidle.1, hidle.2.1] at hplace
    cases hplace
    refine ⟨_, .call, ⟨?_, rfl, rfl, rfl⟩, h.sentLast⟩
    show Place false (calling sender) a.contact.phase (some .replying) .replier
    rw [hidle.1]
    exact .toReply
  · simp at hb

/-- The first answer to a call opens a contact. Who has called and is open for a reply is free, so
there is no contact yet that could be overwritten. -/
theorem stands_hearAnswer {m : Message} {sender : String} {snr : Int} (h : a.Stands false s)
    (hopen : a.openForReply = true) (hme : m.isFor a.station.call = true)
    (hsender : m.sender? = some sender) (hb : a.hearAnswer sender snr m = some b) :
    ∃ t, Advances a.station.call snr m s t ∧ b.Stands false t := by
  simp only [openForReply, Bool.and_eq_true, Bool.or_eq_true, decide_eq_true_eq,
    Option.isNone_iff_eq_none] at hopen
  obtain ⟨⟨hrole, htarget⟩, hphase⟩ := hopen
  have hplace := h.contact.place
  have hpartner := h.contact.partner
  rw [hrole] at hplace
  rw [htarget] at hpartner
  have hfree : s = free ∧ a.contact.phase = .awaitingReply := by
    generalize a.staged = staged at hplace
    rcases hphase with hp | hp
    · rw [hp] at hplace
      cases hplace
    · rw [hp] at hplace
      cases hplace
      case toReport => simp [partner?] at hpartner
      all_goals exact ⟨rfl, hp⟩
  obtain ⟨rfl, hwaits⟩ := hfree
  have hopened : ∀ got, Place false (.contact .opened .caller sender snr got) a.contact.phase
      (some .exchanging) a.contact.role := by
    intro got
    rw [hwaits, hrole]
    exact .toReport
  unfold hearAnswer at hb
  split at hb
  · next addressee sender' square =>
    obtain rfl := Option.some.inj hb
    obtain rfl : sender' = sender := Option.some.inj hsender
    exact ⟨_, .answer hme, ⟨hopened none, rfl, rfl, h.contact.got⟩, h.sentLast⟩
  · next addressee sender' level =>
    obtain rfl := Option.some.inj hb
    obtain rfl : sender' = sender := Option.some.inj hsender
    exact ⟨_, .answerByReport hme, ⟨hopened (some level), rfl, rfl, rfl⟩, h.sentLast⟩
  · simp at hb

/-- **A frame advances the contact as `Advances` says.** It is a call, an answer to the operator's
own, or a message of the partner. -/
theorem stands_hear {f : Frame} (h : a.Stands false s) (hb : a.hear f = some b) :
    ∃ t, Advances a.station.call f.snr (Message.parse f.text) s t ∧ b.Stands false t := by
  unfold hear at hb
  split at hb
  · next modifier sender square hm =>
    rw [hm]
    exact stands_hearCall f.snr h hb
  · unfold hearDirected at hb
    split at hb
    · simp at hb
    · next hfor =>
      have hme : (Message.parse f.text).isFor a.station.call = true := by
        simpa using fun hno => hfor (.inl hno)
      obtain ⟨sender, hsender, hb⟩ := Option.bind_eq_some_iff.1 hb
      split at hb
      · next hopen => exact stands_hearAnswer h hopen hme hsender hb
      · split at hb
        · next hfrom =>
          obtain ⟨⟨d, next⟩, hreact, rfl⟩ := Option.map_eq_some_iff.1 hb
          have hpartner : ∃ p, a.contact.target = some p ∧ Text.sameCall p sender = true := by
            cases hp : a.contact.target with
            | none => simp [hp] at hfrom
            | some p => exact ⟨p, rfl, by simpa [hp] using hfrom⟩
          obtain ⟨p, hp, hsame⟩ := hpartner
          obtain ⟨t, hadvances, hd⟩ := advances_react h.contact hsender hp hsame hreact
          exact ⟨t, hadvances, hd, h.sentLast⟩
        · simp at hb

/-! ## The steps of a slot -/

/-- **What was on the air ends.**  A contact that was closing is logged. The stance decides, of
every part of the contact, what it is then. -/
theorem stands_finish (h : a.Stands onAir s) (slot : Slot) :
    (a.finish slot).1.Stands false (s.ended onAir) ∧
      s.Logs a.station.call onAir (loggedIn (a.finish slot).2) := by
  obtain ⟨⟨operator, phase, role, target, targetGrid, lastSent, unanswered, lastHeardIn, given,
    got⟩, station, policy, inbox, staged, queue, sentLast, air, lastSentAt, lastSentCycle,
    current⟩ := a
  obtain ⟨⟨hplace, hpartner, hgiven, hgot⟩, hsent⟩ := h
  dsimp only at hplace hsent hpartner hgiven hgot
  subst hsent hpartner hgiven hgot
  cases hplace
  case called => exact ⟨⟨⟨.awaitsAnswer, rfl, rfl, rfl⟩, rfl⟩, rfl⟩
  case replied => exact ⟨⟨⟨.awaitsReport, rfl, rfl, rfl⟩, rfl⟩, rfl⟩
  case reported => exact ⟨⟨⟨.awaitsConfirm, rfl, rfl, rfl⟩, rfl⟩, rfl⟩
  case closed =>
    simp only [finish, afterSending, if_true]
    split
    · exact ⟨⟨⟨.toCall, rfl, rfl, rfl⟩, rfl⟩, _, rfl, rfl, rfl, rfl, rfl⟩
    · exact ⟨⟨⟨.idle, rfl, rfl, rfl⟩, rfl⟩, _, rfl, rfl, rfl, rfl, rfl⟩
  all_goals exact ⟨⟨⟨by constructor, rfl, rfl, rfl⟩, rfl⟩, rfl⟩

/-- **The inbox,** when it holds at most one frame, advances the contact at most once, and is empty
afterwards. -/
theorem stands_listen {f : Option Frame} (h : a.Stands false s) (hin : a.inbox = f.toList)
    (slot : Slot) :
    ∃ t, Reaches a.station.call (f.map fun f => Message.parse f.text) s t ∧
      (a.listen slot).1.Stands false t ∧ (a.listen slot).1.inbox = [] := by
  have hempty : ({ a with inbox := [] } : Automaton).Stands false s := ⟨h.contact, h.sentLast⟩
  unfold listen
  rw [hin]
  cases f with
  | none => exact ⟨s, .inl rfl, hempty, rfl⟩
  | some f =>
    rw [Option.toList_some]
    cases hb : ({ a with inbox := [] } : Automaton).hear f with
    | none =>
      rw [hearAll_of_none hb]
      exact ⟨s, .inl rfl, hempty, rfl⟩
    | some b =>
      rw [hearAll_of_some hb]
      obtain ⟨t, hadvances, hstands⟩ := stands_hear hempty hb
      refine ⟨t, .inr ⟨f.snr, _, rfl, hadvances⟩, ?_, ?_⟩
      · obtain ⟨⟨hplace, hpartner, hgiven, hgot⟩, hsent⟩ := hstands
        exact ⟨⟨hplace, hpartner, hgiven, hgot⟩, hsent⟩
      · rcases hear_cases hb with ⟨_, _, -, -, -, rfl⟩ | ⟨_, _, _, -, -, rfl⟩ |
          ⟨_, _, -, -, -, rfl⟩ <;> rfl

/-- Who gives up waiting is free: it calls again or is idle, and has forgotten its partner. -/
theorem stands_giveUp (hawaits : a.contact.phase.awaits = true) (hsent : a.sentLast = false) :
    a.giveUp.1.Stands false free := by
  unfold giveUp
  split
  · refine ⟨⟨?_, rfl, rfl, rfl⟩, hsent⟩
    show Place false free a.contact.phase (some .callingCq) .caller
    cases hp : a.contact.phase <;> simp [hp, Phase.awaits] at hawaits
    case awaitingReply => exact .toCallAgain
    case awaitingConfirm => exact .gaveUp
  · simp only [goTo_fst]
    exact ⟨⟨.idle, rfl, rfl, rfl⟩, hsent⟩

/-- The message that was not answered is the message of the stance, so staging it again keeps the
stance. -/
theorem place_phaseAgain {c : Contact} (hawaits : c.phase.awaits = true)
    (hplace : Place false s c.phase none c.role) :
    Place false s c.phase (some (phaseAgain c)) c.role := by
  unfold phaseAgain
  generalize hp : c.phase = phase at hplace hawaits
  generalize hr : c.role = role at hplace
  cases hplace
  case idle => simp [Phase.awaits] at hawaits
  case awaitsAnswer => exact .toCallAgain
  case awaitsReport => exact .toReplyAgain
  case awaitsConfirm => exact .toReportAgain

/-- **Silence** changes no stance, or frees the operator. -/
theorem stands_countSilence (h : a.Stands false s) (slot : Slot) (granted progressed : Bool) :
    ∃ t, (t = s ∨ t = free) ∧ (a.countSilence slot granted progressed).1.Stands false t := by
  obtain ⟨⟨hplace, hpartner, hgiven, hgot⟩, hsent⟩ := h
  unfold countSilence
  split
  · next hwaits =>
    simp only [Bool.and_eq_true, Option.isNone_iff_eq_none] at hwaits
    obtain ⟨⟨⟨hawaits, -⟩, -⟩, hnone⟩ := hwaits
    dsimp only
    split
    · exact ⟨free, .inr rfl, stands_giveUp hawaits hsent⟩
    · rw [hnone] at hplace
      split
      · exact ⟨s, .inl rfl, ⟨place_phaseAgain hawaits hplace, hpartner, hgiven, hgot⟩, hsent⟩
      · refine ⟨s, .inl rfl, ⟨?_, hpartner, hgiven, hgot⟩, hsent⟩
        rw [hnone]
        exact hplace
  · exact ⟨s, .inl rfl, ⟨hplace, hpartner, hgiven, hgot⟩, hsent⟩

/-- A staged phase sends the message of the stance. -/
theorem place_sent {c : Contact} {p : Phase} (hplace : Place false s c.phase (some p) c.role) :
    Place true s.sent p none c.role := by
  generalize c.phase = phase at hplace
  generalize c.role = role at hplace
  cases hplace <;> constructor

theorem transmits_of_place {p : Phase} {r : Role} (hplace : Place true s p none r) :
    p.transmits = true := by
  cases hplace <;> rfl

/-- Where nothing is staged, the operator listens. -/
theorem listens_of_place {p : Phase} {r : Role} (hplace : Place false s p none r) :
    p.transmits = false ∧ p ≠ .manual := by
  cases hplace <;> exact ⟨rfl, by simp⟩

/-- In the phase in which it is sent, the message of a stance is there, with the partner and the
level that the contact has kept. -/
theorem message?_of_stands (h : a.contact.Stands none true s) :
    a.message? = some (s.message a.station.call a.station.grid) := by
  obtain ⟨hplace, hpartner, hgiven, hgot⟩ := h
  unfold message?
  rw [hpartner, hgiven]
  generalize a.contact.phase = phase at hplace
  generalize a.contact.role = role at hplace
  cases hplace with
  | called => rfl
  | replied => rfl
  | reported => cases role <;> rfl
  | closed => cases role <;> rfl

/-- **Sending** turns an opened contact into a reported one; the text is what the new stance sends.
Who has nothing staged is not in a sending phase, and sends nothing. -/
theorem stands_send (h : a.Stands false s) (slot : Slot) :
    a.send slot = (a, none) ∨
      ∃ t, (a.send slot).2 = some t ∧
        t.message = (s.sent.message a.station.call a.station.grid).text ∧
        (a.send slot).1.Stands true s.sent ∧ (a.send slot).1.inbox = a.inbox ∧
        (a.send slot).1.station = a.station := by
  obtain ⟨⟨hplace, hpartner, hgiven, hgot⟩, hsent⟩ := h
  cases hstaged : a.staged with
  | none =>
    left
    rw [hstaged] at hplace
    obtain ⟨hlistens, hmanual⟩ := listens_of_place hplace
    rw [send, enterStaged_of_none hstaged]
    rcases transmit_of_listening hlistens slot with heq | ⟨_, _, hphase, -⟩
    · exact heq
    · exact absurd hphase hmanual
  | some p =>
    right
    rw [hstaged] at hplace
    have hair := place_sent hplace
    have hentered : a.enterStaged.1.contact.Stands none true s.sent := by
      rw [enterStaged_of_some hstaged]
      refine ⟨hair, hpartner.trans ?_, hgiven.trans ?_, hgot.trans ?_⟩
      all_goals
        cases s with
        | free => rfl
        | calling q => rfl
        | contact stage role q given got => rfl
    have htransmits : a.enterStaged.1.contact.phase.transmits = true :=
      transmits_of_place hentered.place
    have hstation : a.enterStaged.1.station = a.station := by
      rw [enterStaged_of_some hstaged]
    have hmessage := message?_of_stands hentered
    rw [hstation] at hmessage
    rw [send, transmit_of_message htransmits hmessage]
    refine ⟨_, rfl, rfl, ⟨⟨?_, hentered.partner, hentered.given, hentered.got⟩, rfl⟩, ?_, hstation⟩
    · rw [enterStaged_of_some hstaged]
      exact hair
    · rw [enterStaged_of_some hstaged]

theorem stands_settle {f : Option Frame} (h : a.Stands onAir s) (hin : a.inbox = f.toList)
    (slot : Slot) (granted : Bool) :
    (a.settle slot granted).1.inbox = [] ∧
    ∃ t, Settles a.station.call (f.map fun f => Message.parse f.text) onAir s t ∧
      (a.settle slot granted).1.Stands false t := by
  have hfinish := (stands_finish h slot).1
  have hcall := (sameSetUp_finish a slot).station
  obtain ⟨u, hreaches, hlisten, hempty⟩ :=
    stands_listen hfinish ((inbox_finish a slot).trans hin) slot
  obtain ⟨t, hlapse, hsilence⟩ :=
    stands_countSilence hlisten slot granted ((a.finish slot).1.listen slot).2
  rw [hcall] at hreaches
  rw [settle_eq]
  exact ⟨(inbox_countSilence ..).trans hempty, t, ⟨u, hreaches, hlapse⟩, hsilence⟩

/-- **A slot** logs a contact that was closing on the air, hears at most
one message, and may then send. -/
theorem stands_beginSlot {f : Option Frame} (h : a.Stands onAir s) (hin : a.inbox = f.toList)
    (slot : Slot) (granted : Bool) :
    s.Logs a.station.call onAir (loggedIn (a.beginSlot slot granted).2.events) ∧
    (a.beginSlot slot granted).1.inbox = [] ∧
    (a.beginSlot slot granted).1.station = a.station ∧
    ∃ t, Settles a.station.call (f.map fun f => Message.parse f.text) onAir s t ∧
      ((a.beginSlot slot granted).2.transmission = none ∧
          (a.beginSlot slot granted).1.Stands false t ∨
        ∃ x, (a.beginSlot slot granted).2.transmission = some x ∧
          x.message = (t.sent.message a.station.call a.station.grid).text ∧
          (a.beginSlot slot granted).1.Stands true t.sent) := by
  obtain ⟨hempty, t, hsettles, hstands⟩ := stands_settle h hin slot granted
  have hsame := (sameSetUp_settle a slot granted).station
  rw [loggedIn_beginSlot]
  refine ⟨(stands_finish h slot).2, ?_⟩
  cases granted with
  | false => exact ⟨hempty, hsame, t, hsettles, .inl ⟨rfl, hstands⟩⟩
  | true =>
    rw [beginSlot_granted_fst, beginSlot_granted_transmission]
    rcases stands_send hstands slot with heq | ⟨x, hx, htext, hsent, hinbox, hstation⟩
    · rw [heq]
      exact ⟨hempty, hsame, t, hsettles, .inl ⟨rfl, hstands⟩⟩
    · rw [hsame] at htext
      exact ⟨hinbox.trans hempty, hstation.trans hsame, t, hsettles, .inr ⟨x, hx, htext, hsent⟩⟩

end Automaton

end SlotRadio
