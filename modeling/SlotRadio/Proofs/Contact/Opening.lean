import SlotRadio.Proofs.Contact.Closing
import SlotRadio.Proofs.Contact.Inbox
/-!
# Who a contact is opened with

Two kinds of operator open a contact with somebody new: one with nothing to
do, which may answer a call, and one that has called and has no answer yet.
The first frame that is good enough opens the contact, and from then on the
inbox says nothing that matters (`Automaton.Deaf`).

* `hearAll_of_opening` — so an inbox does what its first good frame does;
* `first_answer_wins` — whose answer to a call is taken, and what is made
  of it;
* `replies_to_target` — whose call is answered: the station to be worked
  when the call was heard;
* `replies_to_former_target` — which need not be the station to be worked
  when the answer is sent.
-/

namespace SlotRadio

/-- An answer to a call: who gives it, the square or the report that it
brings, and the level at which it was heard. -/
structure Answer where
  sender : String
  square : Option String
  level : Option Int
  snr : Int
  deriving DecidableEq, Repr

/-- The answer to a call by `call` that a message is: a square or a report
that is sent to it. -/
def Message.answer? (call : String) (snr : Int) : Message → Option Answer
  | grid addressee sender square =>
    if Text.sameCall addressee call then some ⟨sender, some square, none, snr⟩ else none
  | report addressee sender level =>
    if Text.sameCall addressee call then some ⟨sender, none, some level, snr⟩ else none
  | cq .. | rogerReport .. | roger .. | seventyThree .. | freeText _ => none

/-- The answer to a call by `call` that a frame brings. -/
def Frame.answer? (f : Frame) (call : String) : Option Answer :=
  (Message.parse f.text).answer? call f.snr

/-- True for a frame that answers a call by `call`. -/
def Frame.answers (f : Frame) (call : String) : Bool :=
  (f.answer? call).isSome

/-- The contact that an answer opens in a slot. -/
def Contact.openedBy (c : Contact) (x : Answer) (slot : Slot) : Contact where
  operator := c.operator
  phase := .awaitingReply
  role := .caller
  target := some x.sender
  targetGrid := x.square
  lastSent := c.lastSent
  unanswered := 0
  lastHeardIn := some slot.id
  reportSent := some x.snr
  reportReceived := x.level

/-- True when `call` is the station to be worked. -/
def Station.targets (s : Station) (call : String) : Bool :=
  s.target.any (Text.sameCall call)

namespace Automaton

variable {a b : Automaton} {slot : Slot} {granted : Bool}

/-! ## Deaf operators -/

/-- A call to everybody is heard as such. -/
theorem hear_of_call {f : Frame} {modifier : Option String} {sender : String}
    {grid : Option String} (hm : Message.parse f.text = .cq modifier sender grid) :
    a.hear f = a.hearCall sender grid := by
  unfold hear
  rw [hm]

/-- What is no call to everybody is heard as a message to somebody. -/
theorem hear_of_directed {f : Frame}
    (hm : ∀ modifier sender grid, Message.parse f.text ≠ .cq modifier sender grid) :
    a.hear f = a.hearDirected f.snr (Message.parse f.text) := by
  unfold hear
  split
  · next hcall => exact absurd hcall (hm _ _ _)
  · rfl

/-- No frame does anything. -/
def Deaf (a : Automaton) : Prop :=
  ∀ f, a.hear f = none

/-- An operator is deaf if it would not answer a call, waits for no answer,
and has a contact that no message advances. -/
theorem deaf_of (hcall : a.contact.phase = .idle → a.staged ≠ none)
    (hopen : a.openForReply = false) (hreact : ∀ snr m, react a.contact snr m = none) :
    a.Deaf := by
  intro f
  unfold hear
  split
  · rw [hearCall, if_neg]
    rintro ⟨hidle, hnone, -⟩
    exact hcall hidle hnone
  · unfold hearDirected
    split
    · rfl
    · simp [hopen, hreact]

/-- However many frames wait, a deaf operator stays as it is. -/
theorem hearAll_of_deaf (h : a.Deaf) (slot : Slot) (frames : List Frame) :
    hearAll slot a frames = (a, false) := by
  induction frames with
  | nil => rfl
  | cons f frames ih => rw [hearAll_of_none (h f), ih]

/-! ## Opening a contact -/

/-- The operator has no contact, and may open one with whom it hears. -/
def Opening (a : Automaton) : Prop :=
  a.contact.phase = .idle ∨ a.openForReply = true

/-- Who can be answered is a caller without a partner, while it calls or
waits. -/
theorem openForReply_iff : a.openForReply = true ↔
    a.contact.role = .caller ∧ a.contact.target = none ∧
      (a.contact.phase = .callingCq ∨ a.contact.phase = .awaitingReply) := by
  simp [openForReply, and_assoc]

/-- No partner's message advances who is about to open a contact, for it is idle or has called, and
neither waits for a partner. -/
theorem react_of_opening {c : Contact}
    (h : c.phase = .idle ∨
      c.role = .caller ∧ (c.phase = .callingCq ∨ c.phase = .awaitingReply))
    (snr : Int) (m : Message) : react c snr m = none := by
  cases hreact : react c snr m with
  | none => rfl
  | some next =>
    obtain ⟨given, got, -, hcases⟩ := react_cases hreact
    rcases h with hphase | ⟨hrole, hphase | hphase⟩ <;> simp [hphase] at hcases
    simp [hrole] at hcases

/-- **Who has opened a contact** hears nothing more in that slot: it is no longer open for a reply,
and its partner has nothing to add before it has been answered. -/
theorem deaf_of_opened {f : Frame} (h : a.Opening) (hb : a.hear f = some b) (slot : Slot) :
    (b.noteProgress slot).Deaf := by
  rcases hear_cases hb with ⟨sender, grid, hidle, -, -, rfl⟩ |
    ⟨sender, grid, got, hrole, hphase, rfl⟩ | ⟨d, next, htarget, -, hreact, -⟩
  · refine deaf_of (fun _ => by simp [noteProgress, restart]) ?_ ?_
    · simp [openForReply, noteProgress, restart]
    · exact react_of_opening (.inl hidle)
  · refine deaf_of (fun _ => by simp [noteProgress]) ?_ ?_
    · simp [openForReply, noteProgress]
    · exact react_of_opening (.inr ⟨hrole, hphase⟩)
  · rcases h with hidle | hopen
    · rw [react_of_opening (.inl hidle)] at hreact
      cases hreact
    · rw [(openForReply_iff.1 hopen).2.1] at htarget
      cases htarget

/-- **An inbox does what its first good frame does,** to who opens a contact. By induction on the
frames: those before it change nothing, and those after it find the operator deaf. -/
theorem hearAll_of_opening (h : a.Opening) (slot : Slot) (frames : List Frame) :
    hearAll slot a frames =
      hearAll slot a (frames.find? fun f => (a.hear f).isSome).toList := by
  induction frames with
  | nil => rfl
  | cons f frames ih =>
    cases hf : a.hear f with
    | some b =>
      have hdeaf := deaf_of_opened h hf slot
      rw [List.find?_cons_of_pos (by simp [hf]), Option.toList_some, hearAll_of_some hf,
        hearAll_of_some hf, hearAll_of_deaf hdeaf, hearAll_of_deaf hdeaf]
    | none => rw [List.find?_cons_of_neg (by simp [hf]), hearAll_of_none hf, ih]

/-! ## Who has no partner -/

/-- Who has no partner has forgotten the last one. -/
def Forgetful (a : Automaton) : Prop :=
  a.contact.target = none → a.contact.Forgotten

/-- Forgetting is about the partner alone. -/
theorem Forgetful.of_samePartner (h : a.Forgetful) (htarget : b.contact.target = a.contact.target)
    (hgrid : b.contact.targetGrid = a.contact.targetGrid)
    (hgiven : b.contact.reportSent = a.contact.reportSent)
    (hgot : b.contact.reportReceived = a.contact.reportReceived) : b.Forgetful := by
  intro hnone
  have hforgotten := h (htarget.symm.trans hnone)
  exact ⟨hnone, hgrid.trans hforgotten.targetGrid, hgiven.trans hforgotten.reportSent,
    hgot.trans hforgotten.reportReceived⟩

/-- A command keeps what `Forgetful` says, because it forgets the partner
where it goes back to calling. -/
theorem forgetful_obey (h : a.Forgetful) (c : Command) : (a.obey c).1.Forgetful := by
  cases c with
  | callCq =>
    simp only [obey]
    split
    · exact fun _ => ⟨rfl, rfl, rfl, rfl⟩
    · rw [goTo_fst]
      exact fun _ => ⟨rfl, rfl, rfl, rfl⟩
  | callStation call grid =>
    rw [obey, goTo_fst]
    exact fun hnone => (Option.some_ne_none _ hnone).elim
  | abort =>
    rw [obey, goTo_fst]
    exact fun _ => ⟨rfl, rfl, rfl, rfl⟩
  | setManual on =>
    cases on with
    | true =>
      rw [obey, goTo_fst]
      exact h.of_samePartner rfl rfl rfl rfl
    | false =>
      simp only [obey]
      split
      · rw [goTo_fst]
        exact h.of_samePartner rfl rfl rfl rfl
      · exact h
  | queueMessage text =>
    simp only [obey]
    split <;> exact h

/-- The end of a transmission keeps what `Forgetful` says. -/
theorem forgetful_finish (h : a.Forgetful) (slot : Slot) : (a.finish slot).1.Forgetful := by
  rcases finish_cases a slot with ⟨_, -, heq⟩ | ⟨_, -, -, heq⟩ | ⟨_, _, -, -, -, heq⟩ <;> rw [heq]
  · exact h.of_samePartner rfl rfl rfl rfl
  · exact h.of_samePartner rfl rfl rfl rfl
  · exact fun _ => ⟨rfl, rfl, rfl, rfl⟩

/-- Whoever has been heard is the partner from then on. -/
theorem target_hear {f : Frame} (h : a.hear f = some b) : b.contact.target ≠ none := by
  rcases hear_cases h with ⟨_, _, -, -, -, rfl⟩ | ⟨_, _, _, -, -, rfl⟩ |
    ⟨d, _, htarget, -, hreact, rfl⟩
  · exact Option.some_ne_none _
  · exact Option.some_ne_none _
  · obtain ⟨given, got, rfl, -⟩ := react_cases hreact
    exact Option.isSome_iff_ne_none.1 htarget

/-- No frame breaks what `Forgetful` says. -/
theorem forgetful_listen (h : a.Forgetful) (slot : Slot) : (a.listen slot).1.Forgetful := by
  have hstart : ({ a with inbox := [] } : Automaton).Forgetful := h
  exact hearAll_invariant (P := Forgetful)
    (fun _ _ _ _ hheard hnone => (target_hear hheard hnone).elim) hstart a.inbox

/-- What happens before the sending step keeps what `Forgetful` says. -/
theorem forgetful_settle (h : a.Forgetful) (slot : Slot) (granted : Bool) :
    (a.settle slot granted).1.Forgetful := by
  have hlisten := forgetful_listen (forgetful_finish h slot) slot
  rw [settle_eq]
  rcases countSilence_cases ((a.finish slot).1.listen slot).1 slot granted
    ((a.finish slot).1.listen slot).2 with heq | ⟨-, -, ⟨-, heq | heq⟩ | ⟨-, _, -, heq⟩⟩ <;>
    rw [heq]
  · exact hlisten
  · exact fun _ => ⟨rfl, rfl, rfl, rfl⟩
  · exact fun _ => ⟨rfl, rfl, rfl, rfl⟩
  · exact hlisten.of_samePartner rfl rfl rfl rfl

/-- Whatever happens to an operator keeps what `Forgetful` says. A slot settles first, and sending
changes none of what it speaks about. -/
theorem forgetful_meet (h : a.Forgetful) (o : Occasion) : (a.meet o).Forgetful := by
  cases o with
  | told c => exact forgetful_obey h c
  | heard f =>
    simp only [meet, receive]
    split <;> exact h
  | moved s => exact h
  | slot slot granted =>
    have hsettle := forgetful_settle h slot granted
    cases granted with
    | false => exact hsettle
    | true =>
      obtain ⟨sent, hcontact⟩ := contact_send (a.settle slot true).1 slot
      rw [meet, beginSlot_granted_fst]
      exact hsettle.of_samePartner (by rw [hcontact]) (by rw [hcontact]) (by rw [hcontact])
        (by rw [hcontact])

/-- **Every operator is forgetful** that has come about from an idle one. -/
theorem forgetful_live (operator : Nat) (station : Station) (policy : Policy)
    (course : List Occasion) : ((idle operator station policy).live course).Forgetful :=
  live_invariant (P := Forgetful) (fun _ o h => forgetful_meet h o)
    (fun _ => ⟨rfl, rfl, rfl, rfl⟩) course

/-! ## An answer to a call -/

/-- The contact with who has answered a call, whose report is to be sent. -/
def accept (a : Automaton) (x : Answer) : Automaton :=
  { a with
    contact :=
      { a.contact with
        target := some x.sender
        targetGrid := x.square.or a.contact.targetGrid
        reportSent := some x.snr
        reportReceived := x.level.or a.contact.reportReceived }
    staged := some .exchanging }

/-- **Who has called** takes answers and nothing else. Another call finds it busy, and what is
directed to it counts as an answer if it brings a grid or a report. -/
theorem hear_of_open (h : a.openForReply = true) (f : Frame) :
    a.hear f = (f.answer? a.station.call).map a.accept := by
  have hphase : a.contact.phase ≠ .idle ∧ a.contact.phase ≠ .manual := by
    rcases (openForReply_iff.1 h).2.2 with hphase | hphase <;> simp [hphase]
  unfold Frame.answer?
  cases hm : Message.parse f.text with
  | cq modifier sender grid => simp [hear_of_call hm, Message.answer?, hearCall, hphase.1]
  | grid addressee sender square | report addressee sender level =>
    rw [hear_of_directed (by simp [hm]), hm]
    by_cases hme : Text.sameCall addressee a.station.call = true <;>
      simp [Message.answer?, hearDirected, Message.isFor, Message.addressee?, Message.sender?,
        hphase.2, hme, h, hearAnswer, accept]
  | rogerReport _ _ _ | roger _ _ _ | seventyThree _ _ | freeText _ =>
    rw [hear_of_directed (by simp [hm]), hm]
    simp [Message.answer?, hearDirected, h, hearAnswer]

/-- When a slot begins, a call that is on the air has ended, and an operator that is open for a
reply waits for one. -/
theorem finish_of_open (h : a.Disciplined) (hopen : a.openForReply = true) (slot : Slot) :
    ∃ sent, (a.finish slot).1 =
      { a with
        slot := some slot
        onAir := false
        sentLast := sent
        contact := { a.contact with phase := .awaitingReply } } := by
  obtain ⟨-, -, hphase⟩ := openForReply_iff.1 hopen
  rcases finish_cases a slot with ⟨sent, hsent, heq⟩ | ⟨next, -, hnext, heq⟩ |
    ⟨_, _, -, hclosing, -⟩
  · rcases hphase with hphase | hphase
    · have hair : a.contact.phase.transmits = true := by
        rw [hphase]
        rfl
      rw [hsent (h.onAir hair).2.1] at hair
      cases hair
    · exact ⟨sent, by rw [heq, ← hphase]⟩
  · rcases hnext with ⟨-, rfl⟩ | ⟨hexchanging, -⟩
    · exact ⟨false, heq⟩
    · rcases hphase with hphase | hphase <;> cases hphase.symm.trans hexchanging
  · rcases hphase with hphase | hphase <;> cases hphase.symm.trans hclosing

/-- Who has called hears its inbox as such. -/
theorem openForReply_atSlot (h : a.Disciplined) (hopen : a.openForReply = true) (slot : Slot) :
    (a.atSlot slot).openForReply = true := by
  obtain ⟨hrole, htarget, -⟩ := openForReply_iff.1 hopen
  obtain ⟨sent, hfinish⟩ := finish_of_open h hopen slot
  rw [atSlot, hfinish]
  exact openForReply_iff.2 ⟨hrole, htarget, .inr rfl⟩

/-- Who enters a sending phase sends its message. -/
theorem send_of_staged {p : Phase} {m : Message} (hstaged : a.staged = some p)
    (hp : p.transmits = true)
    (hm : ({ a with staged := none, contact := { a.contact with phase := p } } :
      Automaton).message? = some m) (slot : Slot) :
    a.send slot =
      ({ a with
          staged := none
          contact := { a.contact with phase := p, lastSent := some m.text }
          lastSentAt := slot.startMs
          lastSentCycle := some slot.cycle
          sentLast := true
          onAir := true },
        some ⟨a.contact.operator, m.text, a.station.frequencyHz, slot.startMs⟩) := by
  rw [send, enterStaged_of_some hstaged, transmit_of_message hp hm]

/-- An answer that is taken counts as progress, and nothing is repeated. -/
theorem countSilence_of_progress (a : Automaton) (slot : Slot) (granted : Bool) :
    a.countSilence slot granted true = (a, []) := by
  simp [countSilence]

/-- A slot opens the contact with who has answered a call.  If it is granted
it sends the report, which is staged otherwise. -/
structure Opens (a : Automaton) (x : Answer) (slot : Slot) (granted : Bool)
    (next : Automaton × SlotOutcome) : Prop where
  contact : next.1.contact =
    if granted then
      { a.contact.openedBy x slot with
        phase := .exchanging
        lastSent := some (Message.report x.sender a.station.call x.snr).text }
    else a.contact.openedBy x slot
  staged : next.1.staged = if granted then none else some .exchanging
  transmission : next.2.transmission =
    if granted then
      some ⟨a.contact.operator, (Message.report x.sender a.station.call x.snr).text,
        a.station.frequencyHz, slot.startMs⟩
    else none

/-- Before it sends anything, a slot that finds one answer has opened the
contact and staged the report. -/
theorem settle_of_answer (h : a.Disciplined) (hforgetful : a.Forgetful)
    (hopen : a.openForReply = true) {f : Frame} {x : Answer}
    (hx : f.answer? a.station.call = some x) (slot : Slot) (granted : Bool) :
    ∃ sent, (({ a with inbox := [f] } : Automaton).settle slot granted).1 =
      { a with
        contact := a.contact.openedBy x slot
        inbox := []
        staged := some .exchanging
        sentLast := sent
        onAir := false
        slot := some slot } := by
  obtain ⟨hrole, htarget, -⟩ := openForReply_iff.1 hopen
  have hforgotten := hforgetful htarget
  obtain ⟨sent, hfinish⟩ := finish_of_open h hopen slot
  refine ⟨sent, ?_⟩
  have hslot : a.atSlot slot =
      { a with
        contact := { a.contact with phase := .awaitingReply }
        inbox := []
        sentLast := sent
        onAir := false
        slot := some slot } := by
    rw [atSlot, hfinish]
  have hhear : (a.atSlot slot).hear f = some ((a.atSlot slot).accept x) := by
    have hcall : (a.atSlot slot).station.call = a.station.call := by rw [hslot]
    rw [hear_of_open (openForReply_atSlot h hopen slot), hcall, hx, Option.map_some]
  rw [settle_inbox, hearAll_of_some hhear, hearAll_nil, countSilence_of_progress, hslot]
  simp [accept, noteProgress, Contact.openedBy, hrole, hforgotten.targetGrid,
    hforgotten.reportReceived]

/-- Who has opened a contact sends its report. -/
theorem send_of_opened {c : Contact} {x : Answer} {heardIn : Slot}
    (hcontact : a.contact = c.openedBy x heardIn) (hstaged : a.staged = some .exchanging)
    (slot : Slot) :
    (a.send slot).1.contact =
        { c.openedBy x heardIn with
          phase := .exchanging
          lastSent := some (Message.report x.sender a.station.call x.snr).text } ∧
      (a.send slot).2 =
        some ⟨c.operator, (Message.report x.sender a.station.call x.snr).text,
          a.station.frequencyHz, slot.startMs⟩ := by
  have hm : ({ a with staged := none, contact := { a.contact with phase := .exchanging } } :
      Automaton).message? = some (.report x.sender a.station.call x.snr) := by
    simp [message?, hcontact, Contact.openedBy]
  rw [send_of_staged hstaged rfl hm, hcontact]
  exact ⟨rfl, rfl⟩

/-- **A slot that finds one answer opens the contact.** Denied, it stages the report; granted, it
sends it as well. -/
theorem opens_of_answer (h : a.Disciplined) (hforgetful : a.Forgetful)
    (hopen : a.openForReply = true) {f : Frame} {x : Answer}
    (hx : f.answer? a.station.call = some x) (slot : Slot) (granted : Bool) :
    a.Opens x slot granted (({ a with inbox := [f] } : Automaton).beginSlot slot granted) := by
  obtain ⟨sent, hsettle⟩ := settle_of_answer h hforgetful hopen hx slot granted
  have hcontact := congrArg contact hsettle
  have hstaged := congrArg staged hsettle
  have hstation := congrArg station hsettle
  cases granted with
  | false => exact ⟨hcontact, hstaged, rfl⟩
  | true =>
    obtain ⟨hnext, ht⟩ := send_of_opened hcontact hstaged slot
    rw [hstation] at hnext ht
    exact ⟨hnext, staged_send _ slot, ht⟩

/-- A caller may as well have heard the first answer only. Frames before it are no answers and
change nothing, and after it the caller is deaf. -/
theorem beginSlot_of_open (h : a.Disciplined) (hopen : a.openForReply = true)
    (frames : List Frame) (slot : Slot) (granted : Bool) :
    ({ a with inbox := frames } : Automaton).beginSlot slot granted =
      ({ a with inbox := (frames.find? fun f => f.answers a.station.call).toList } :
        Automaton).beginSlot slot granted := by
  have hstill := openForReply_atSlot h hopen slot
  have hcall : (a.atSlot slot).station.call = a.station.call :=
    congrArg Station.call (sameSetUp_finish a slot).station
  have hanswers : (fun f => ((a.atSlot slot).hear f).isSome) =
      fun f => f.answers a.station.call := by
    funext f
    rw [hear_of_open hstill, Option.isSome_map, hcall, Frame.answers]
  have hfirst := hearAll_of_opening (.inr hstill) slot frames
  rw [hanswers] at hfirst
  exact beginSlot_of_hearAll hfirst granted

/-- **The first answer wins.**  Wherever a course has led an operator, let it
be a caller without a partner whose call is on the air or is waiting for an
answer.  Some frames are heard, and then a slot begins, granted or not.  Of
the frames that concern the operator and have waited for the slot, the last
sixty-four count:

* the first of them that is an answer opens the contact, with what it says
  and how it was heard, and all the others might as well have been silent;
* if none of them is an answer, the slot goes as it would have gone with
  nothing heard. -/
theorem first_answer_wins {operator : Nat} {station : Station} {policy : Policy}
    {course : List Occasion} {a : Automaton} (ha : (idle operator station policy).live course = a)
    (hrole : a.contact.role = .caller) (htarget : a.contact.target = none)
    (hphase : a.contact.phase = .callingCq ∨ a.contact.phase = .awaitingReply)
    (frames : List Frame) (slot : Slot) (granted : Bool) :
    let waiting := (a.inbox ++ frames.filter a.concerns).rtake inboxLimit
    let next := (a.live (frames.map .heard)).beginSlot slot granted
    match waiting.find? fun f => f.answers a.station.call with
    | some f => ∃ x, f.answer? a.station.call = some x ∧ a.Opens x slot granted next ∧
        next = ({ a with inbox := [f] } : Automaton).beginSlot slot granted
    | none => next = ({ a with inbox := [] } : Automaton).beginSlot slot granted := by
  intro waiting next
  have hdisc : a.Disciplined := ha ▸ disciplined_live operator station policy course
  have hforgetful : a.Forgetful := ha ▸ forgetful_live operator station policy course
  have hlimit : a.inbox.length ≤ inboxLimit := ha ▸ inbox_length_live operator station policy course
  have hopen : a.openForReply = true := openForReply_iff.2 ⟨hrole, htarget, hphase⟩
  have hwaiting : a.live (frames.map .heard) = { a with inbox := waiting } :=
    live_heard (rtake_of_length_le hlimit).symm frames
  have hnext : next =
      ({ a with inbox := (waiting.find? fun f => f.answers a.station.call).toList } :
        Automaton).beginSlot slot granted :=
    (congrArg (beginSlot · slot granted) hwaiting).trans
      (beginSlot_of_open hdisc hopen waiting slot granted)
  clear_value waiting next
  cases hfind : waiting.find? fun f => f.answers a.station.call with
  | none =>
    rw [hfind] at hnext
    exact hnext
  | some f =>
    rw [hfind, Option.toList_some] at hnext
    obtain ⟨x, hx⟩ := Option.isSome_iff_exists.1 (List.find?_some hfind :)
    refine ⟨x, hx, ?_, hnext⟩
    rw [hnext]
    exact opens_of_answer hdisc hforgetful hopen hx slot granted

/-- A caller that hears a confirmation first, and then two stations that
answer, takes the first answer. -/
theorem first_answer_wins_crowded :
    let a := (idle 3 (Station.ofCall "K1ABC" "FN42" 700 [0]) {}).live
      [.told .callCq, .slot (Mode.ft8.slot 0) true]
    let early : Frame := ⟨"K1ABC W9XYZ RR73", -1, 0, 0, 0⟩
    let first : Frame := ⟨"k1abc n0call -07", -35, 0, 0, 0⟩
    let late : Frame := ⟨"K1ABC W9XYZ EN37", -1, 0, 0, 0⟩
    let next := (a.live ([early, first, late].map .heard)).beginSlot (Mode.ft8.slot 2) true
    a.contact.role = .caller ∧ a.contact.target = none ∧ a.contact.phase = .callingCq ∧
      a.Opens ⟨"N0CALL", none, some (-7), -35⟩ (Mode.ft8.slot 2) true next ∧
      next.2.transmission = some ⟨3, "N0CALL K1ABC -30", 700, 30000⟩ := by
  intro a early first late next
  have hrole : a.contact.role = .caller := by decide +kernel
  have htarget : a.contact.target = none := by decide +kernel
  have hphase : a.contact.phase = .callingCq := by decide +kernel
  have hsent : next.2.transmission = some ⟨3, "N0CALL K1ABC -30", 700, 30000⟩ := by decide +kernel
  have hinbox : a.inbox = [] := inbox_beginSlot ..
  have hconcerns : ∀ f ∈ [early, first, late], a.concerns f = true := by decide +kernel
  have hearly : early.answers a.station.call = false := by decide +kernel
  have hfirst : first.answers a.station.call = true := by decide +kernel
  have hx : first.answer? a.station.call = some ⟨"N0CALL", none, some (-7), -35⟩ := by
    decide +kernel
  have ha : (idle 3 (Station.ofCall "K1ABC" "FN42" 700 [0]) {}).live
    [.told .callCq, .slot (Mode.ft8.slot 0) true] = a := rfl
  have hnext : (a.live ([early, first, late].map .heard)).beginSlot (Mode.ft8.slot 2) true = next :=
    rfl
  clear_value next a
  have hwins := first_answer_wins ha hrole htarget (.inl hphase) [early, first, late]
    (Mode.ft8.slot 2) true
  have hwaiting : (a.inbox ++ [early, first, late].filter a.concerns).rtake inboxLimit =
      [early, first, late] := by
    rw [hinbox, List.nil_append, List.filter_eq_self.2 hconcerns]
    rfl
  have hfind : ([early, first, late].find? fun f => f.answers a.station.call) = some first := by
    simp only [List.find?, hearly, hfirst]
  dsimp only at hwins
  rw [hwaiting, hfind, hnext] at hwins
  obtain ⟨x, hanswer, hopens, -⟩ := hwins
  obtain rfl := Option.some.inj (hx.symm.trans hanswer)
  exact ⟨hrole, htarget, hphase, hopens, hsent⟩

/-! ## A call that is answered -/

/-- A call concerns an operator that wants to work its sender. -/
theorem concerns_of_call {f : Frame} {modifier : Option String} {sender : String}
    {grid : Option String} (hf : Message.parse f.text = .cq modifier sender grid) :
    a.concerns f = a.station.targets sender := by
  unfold concerns Station.targets
  rw [hf]
  cases a.station.target <;> rfl

/-- No message that is addressed to an operator makes it stage an answer to a call: it is an answer
to its own, or moves a contact on. -/
theorem staged_hearDirected {snr : Int} {m : Message} (h : a.hearDirected snr m = some b) :
    b.staged ≠ some .replying := by
  intro hstaged
  unfold hearDirected at h
  split at h
  · cases h
  · obtain ⟨sender, -, h⟩ := Option.bind_eq_some_iff.1 h
    split at h
    · unfold hearAnswer at h
      split at h <;> cases h <;> cases hstaged
    · split at h
      · obtain ⟨⟨d, next⟩, hreact, rfl⟩ := Option.map_eq_some_iff.1 h
        obtain ⟨given, got, rfl, hnext⟩ := react_cases hreact
        obtain rfl : next = .replying := Option.some.inj hstaged
        simp at hnext
      · cases h

/-- Only a call makes an operator stage an answer to one, and only one that is idle and has been
told to answer. -/
theorem call_of_staged {f : Frame} (hb : a.hear f = some b) (hstaged : b.staged = some .replying) :
    ∃ modifier sender grid, Message.parse f.text = .cq modifier sender grid ∧
      a.contact.phase = .idle ∧ a.staged = none ∧ a.policy.answersTarget = true ∧
      b = a.restart .replier .replying (some sender) (grid.or a.station.targetGrid) := by
  by_cases hcall : ∃ modifier sender grid, Message.parse f.text = .cq modifier sender grid
  · obtain ⟨modifier, sender, grid, hm⟩ := hcall
    rw [hear_of_call hm, hearCall] at hb
    split at hb
    · next hidle =>
      exact ⟨modifier, sender, grid, hm, hidle.1, hidle.2.1, hidle.2.2,
        (Option.some.inj hb).symm⟩
    · cases hb
  · simp only [not_exists] at hcall
    rw [hear_of_directed hcall] at hb
    exact absurd hstaged (staged_hearDirected hb)

/-- **An inbox that makes an operator stage an answer** holds the call that
is answered, and nothing before it matters. -/
theorem exists_call (hbefore : a.staged ≠ some .replying) {frames : List Frame}
    (hafter : (hearAll slot a frames).1.staged = some .replying) :
    a.contact.phase = .idle ∧ a.staged = none ∧ a.policy.answersTarget = true ∧
      ∃ f ∈ frames, ∃ modifier sender grid, Message.parse f.text = .cq modifier sender grid ∧
        hearAll slot a frames =
          ((a.restart .replier .replying (some sender) (grid.or a.station.targetGrid)).noteProgress
            slot, true) := by
  have hidle : a.contact.phase = .idle := by
    by_contra hbusy
    -- hearing changes no phase, and only an idle operator answers a call
    have hnever : (hearAll slot a frames).1.contact.phase ≠ .idle ∧
        (hearAll slot a frames).1.staged ≠ some .replying := by
      refine hearAll_invariant
        (P := fun b => b.contact.phase ≠ .idle ∧ b.staged ≠ some .replying) ?_ ⟨hbusy, hbefore⟩
        frames
      rintro b f c ⟨hb, -⟩ hc
      refine ⟨fun hp => hb ((phase_hear hc).symm.trans hp), fun hs => ?_⟩
      obtain ⟨_, _, _, -, hphase, -⟩ := call_of_staged hc hs
      exact hb hphase
    exact hnever.2 hafter
  have hfirst := hearAll_of_opening (.inl hidle) slot frames
  rw [hfirst] at hafter
  cases hfind : frames.find? fun f => (a.hear f).isSome with
  | none =>
    rw [hfind] at hafter
    exact absurd hafter hbefore
  | some f =>
    obtain ⟨b, hb⟩ := Option.isSome_iff_exists.1 (List.find?_some hfind :)
    rw [hfind, Option.toList_some, hearAll_of_some hb] at hfirst hafter
    obtain ⟨modifier, sender, grid, hcall, -, hnone, hpolicy, rfl⟩ := call_of_staged hb hafter
    exact ⟨hidle, hnone, hpolicy, f, List.mem_of_find?_eq_some hfind, modifier, sender, grid, hcall,
      hfirst⟩

/-- A slot has begun a reply to `partner`: it has taken the replier's side,
and its answer is on the air or, if the slot was not granted, is staged. -/
structure Replies (a : Automaton) (partner : String) (granted : Bool) : Prop where
  target : a.contact.target = some partner
  role : a.contact.role = .replier
  phase : a.contact.phase = if granted then .replying else .idle
  staged : a.staged = if granted then none else some .replying

/-- Every set-up that is given on a course names the same station to be
worked: then so does the last one. -/
theorem targets_live {sender : String} (h : a.station.targets sender = true)
    {course : List Occasion} (hmoved : ∀ s, .moved s ∈ course → s.targets sender = true) :
    (a.live course).station.targets sender = true := by
  induction course generalizing a with
  | nil => exact h
  | cons o course ih =>
    refine ih ?_ fun s hs => hmoved s (List.mem_cons_of_mem _ hs)
    cases o with
    | told c => rwa [meet, station_obey]
    | heard f => rwa [meet, station_receive]
    | moved s => exact hmoved s List.mem_cons_self
    | slot slot granted => rwa [meet, station_beginSlot]

/-- **Whose call is answered.**  Wherever a course has led an operator, and
whenever a slot makes it stage an answer as it hears its inbox: it answers
calls, it had nothing to do and nothing staged, and the answer goes to the
sender of a call that it has heard since the last slot.  This sender was the
station to be worked when the call was heard.  It is still the station to be
worked in this slot, unless the set-up has been replaced since by one that
names another. -/
theorem replies_to_target {operator : Nat} {station : Station} {policy : Policy}
    {course : List Occasion} {slot : Slot} {a : Automaton}
    (ha : (idle operator station policy).live course = a)
    (hbefore : (a.finish slot).1.staged ≠ some .replying)
    (hafter : ((a.finish slot).1.listen slot).1.staged = some .replying) (granted : Bool) :
    policy.answersTarget = true ∧ (a.finish slot).1.contact.phase = .idle ∧
      (a.finish slot).1.staged = none ∧
      ∃ f modifier sender grid, f ∈ a.inbox ∧
        Message.parse f.text = .cq modifier sender grid ∧
        (a.beginSlot slot granted).1.Replies sender granted ∧
        ∃ before after, course = before ++ .heard f :: after ∧
          (∀ o ∈ after, o.isSlot = false) ∧
          ((idle operator station policy).live before).station.targets sender = true ∧
          ((∀ s, .moved s ∈ after → s.targets sender = true) →
            a.station.targets sender = true) := by
  have hlisten := listen_eq a slot
  rw [hlisten] at hafter
  have hbefore : (a.atSlot slot).staged ≠ some .replying := hbefore
  obtain ⟨hidle, hnone, hpolicy, f, hf, modifier, sender, grid, hcall, hheard⟩ :=
    exists_call hbefore hafter
  have hsettle : (a.settle slot granted).1 =
      ((a.atSlot slot).restart .replier .replying (some sender)
        (grid.or (a.atSlot slot).station.targetGrid)).noteProgress slot := by
    rw [settle_eq, hlisten, hheard, countSilence_of_progress]
  have hreplies : (a.beginSlot slot granted).1.Replies sender granted := by
    cases granted with
    | false =>
      rw [beginSlot_denied_fst, hsettle]
      exact ⟨rfl, rfl, hidle, rfl⟩
    | true =>
      obtain ⟨sent, hcontact⟩ := contact_send (a.settle slot true).1 slot
      rw [hsettle] at hcontact
      rw [beginSlot_granted_fst, hsettle]
      exact ⟨by rw [hcontact]; rfl, by rw [hcontact]; rfl, by rw [hcontact]; rfl, staged_send ..⟩
  have hsame : a.policy = policy := ha ▸ policy_live (idle operator station policy) course
  have hanswers : policy.answersTarget = true := by
    rw [← hsame, ← (sameSetUp_finish a slot).policy]
    exact hpolicy
  refine ⟨hanswers, hidle, hnone, f, modifier, sender, grid, hf, hcall, hreplies, ?_⟩
  subst ha
  obtain ⟨before, after, rfl, hslots, hconcerns⟩ := exists_heard rfl hf
  rw [concerns_of_call hcall] at hconcerns
  refine ⟨before, after, rfl, hslots, hconcerns, fun hmoved => ?_⟩
  rw [live_append]
  refine targets_live hconcerns fun s hs => hmoved s ?_
  simpa using hs

/-- A station to be worked calls while the frequency is being changed, and is answered: the new
set-up names the same station. -/
theorem replies_to_target_retuned :
    let station := { Station.ofCall "K1ABC" "FN42" 1500 [0] with target := some "w9xyz" }
    let retuned := { station with frequencyHz := 700 }
    let call : Frame := ⟨"CQ W9XYZ EN37", -10, 0, 0, 0⟩
    let a := (idle 1 station {}).live [.heard call, .moved retuned]
    let slot := Mode.ft8.slot 0
    (a.finish slot).1.staged ≠ some .replying ∧
      ((a.finish slot).1.listen slot).1.staged = some .replying ∧
      (a.beginSlot slot true).1.Replies "W9XYZ" true ∧
      (a.beginSlot slot true).2.transmission = some ⟨1, "W9XYZ K1ABC FN42", 700, 0⟩ ∧
      a.station.targets "W9XYZ" = true := by
  intro station retuned call a slot
  have hbefore : (a.finish slot).1.staged ≠ some .replying := by decide +kernel
  have hafter : ((a.finish slot).1.listen slot).1.staged = some .replying := by decide +kernel
  have hsent : (a.beginSlot slot true).2.transmission = some ⟨1, "W9XYZ K1ABC FN42", 700, 0⟩ := by
    decide +kernel
  have hparse : Message.parse call.text = .cq none "W9XYZ" (some "EN37") := by decide +kernel
  have hsame : retuned.targets "W9XYZ" = true := by decide +kernel
  have ha : (idle 1 station {}).live [.heard call, .moved retuned] = a := rfl
  clear_value a
  obtain ⟨-, -, -, f, modifier, sender, grid, -, hcall, hreplies, before, after, hcourse, -, -,
    htargets⟩ := replies_to_target ha hbefore hafter true
  have hf : Occasion.heard f ∈ [.heard call, .moved retuned] := hcourse ▸ by simp
  obtain rfl : f = call := by simpa using hf
  obtain ⟨-, rfl, -⟩ := Message.cq.inj (hparse.symm.trans hcall)
  refine ⟨hbefore, hafter, hreplies, hsent, htargets fun s hs => ?_⟩
  have hmoved : Occasion.moved s ∈ [.heard call, .moved retuned] := hcourse ▸ by simp [hs]
  obtain rfl : s = retuned := by simpa using hmoved
  exact hsame

/-- **A call is answered although another station is to be worked by now.**
The set-up was replaced between the call and the slot. -/
theorem replies_to_former_target :
    let station := { Station.ofCall "K1ABC" "FN42" 1500 [0] with target := some "W9XYZ" }
    let other := { station with target := some "N0CALL" }
    let call : Frame := ⟨"CQ W9XYZ EN37", -10, 0, 0, 0⟩
    let a := (idle 1 station {}).live [.heard call, .moved other]
    let slot := Mode.ft8.slot 0
    (a.finish slot).1.staged ≠ some .replying ∧
      ((a.finish slot).1.listen slot).1.staged = some .replying ∧
      (a.beginSlot slot true).1.contact.target = some "W9XYZ" ∧
      (a.beginSlot slot true).2.transmission = some ⟨1, "W9XYZ K1ABC FN42", 1500, 0⟩ ∧
      a.station.target = some "N0CALL" ∧ a.station.targets "W9XYZ" = false := by
  decide +kernel

end Automaton

end SlotRadio
