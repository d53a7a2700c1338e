import SlotRadio.Contact.Automaton
/-!
# The course of an automatic operator

Four things can happen to an automatic operator: it is told something,
it hears a frame, its set-up is replaced, and a slot begins.  A **course**
is a list of such occasions, and `Automaton.live` is where a course leads
to.

What a single step can do is said here once:

* `goTo_fst` — changing the phase changes nothing else;
* `hear_cases`, `react_cases` — the ways in which a frame advances a
  contact;
* `hearAll_invariant` — what every frame preserves, the inbox preserves;
* `finish_cases`, `countSilence_cases` — what the steps of a slot do that
  end a phase and that count the silence;
* `sentIn_settle`, `sentIn_beginSlot` — before the sending step of a slot
  nothing is reported as sent, and after it exactly what was sent;
* `beginSlot_carries` — what is sent, and that it needs a grant.
-/

namespace SlotRadio

namespace ContactEvent

/-- The message that an event puts on the air. -/
def transmission? : ContactEvent → Option Transmission
  | transmitted t => some t
  | phaseChanged .. | timeout .. | completed _ => none

/-- The contact that an event enters into the log. -/
def entry? : ContactEvent → Option LogEntry
  | completed entry => some entry
  | phaseChanged .. | timeout .. | transmitted _ => none

end ContactEvent

/-- The messages put on the air, in order. -/
def sentIn (events : List ContactEvent) : List Transmission :=
  events.filterMap ContactEvent.transmission?

/-- The contacts entered into the log, in order. -/
def loggedIn (events : List ContactEvent) : List LogEntry :=
  events.filterMap ContactEvent.entry?

@[simp] theorem sentIn_nil : sentIn [] = [] := rfl

@[simp] theorem sentIn_append (xs ys : List ContactEvent) :
    sentIn (xs ++ ys) = sentIn xs ++ sentIn ys := by
  simp [sentIn]

@[simp] theorem loggedIn_nil : loggedIn [] = [] := rfl

@[simp] theorem loggedIn_append (xs ys : List ContactEvent) :
    loggedIn (xs ++ ys) = loggedIn xs ++ loggedIn ys := by
  simp [loggedIn]

/-- What can happen to an automatic operator: it is given a command, it hears
a frame, its set-up is replaced, or a slot begins, granted or not. -/
inductive Occasion where
  | told (c : Command)
  | heard (f : Frame)
  | moved (s : Station)
  | slot (slot : Slot) (granted : Bool)

/-- True for the beginning of a slot. -/
def Occasion.isSlot : Occasion → Bool
  | slot .. => true
  | told _ | heard _ | moved _ => false

namespace Automaton

/-- What one occasion makes of an automatic operator. -/
def meet (a : Automaton) : Occasion → Automaton
  | .told c => (a.obey c).1
  | .heard f => a.receive f
  | .moved s => a.updateStation s
  | .slot slot granted => (a.beginSlot slot granted).1

/-- Where a course leads to. -/
def live (a : Automaton) (course : List Occasion) : Automaton :=
  course.foldl meet a

@[simp] theorem live_nil (a : Automaton) : a.live [] = a := rfl

@[simp] theorem live_cons (a : Automaton) (o : Occasion) (course : List Occasion) :
    a.live (o :: course) = (a.meet o).live course := rfl

/-- A course may be cut anywhere: its second part begins where the first has
led to. -/
theorem live_append (a : Automaton) (first second : List Occasion) :
    a.live (first ++ second) = (a.live first).live second := by
  simp [live]

/-- The last occasion of a course is met as any other one, by what the course
has made of the operator. -/
theorem live_concat (a : Automaton) (course : List Occasion) (o : Occasion) :
    a.live (course ++ [o]) = (a.live course).meet o :=
  live_append ..

/-- **What holds at first and is kept by every occasion holds always.** -/
theorem live_invariant {P : Automaton → Prop} {a : Automaton}
    (hstep : ∀ b o, P b → P (b.meet o)) (h : P a) (course : List Occasion) :
    P (a.live course) := by
  induction course generalizing a with
  | nil => exact h
  | cons o course ih => exact ih (hstep a o h)

/-- What one occasion reports. -/
def tells (a : Automaton) : Occasion → List ContactEvent
  | .told c => (a.obey c).2
  | .heard _ | .moved _ => []
  | .slot slot granted => (a.beginSlot slot granted).2.events

/-- What one occasion puts on the air, and in which cycle. -/
def sends (a : Automaton) : Occasion → List (Nat × Transmission)
  | .slot slot granted =>
    (a.beginSlot slot granted).2.transmission.toList.map fun t => (slot.cycle, t)
  | .told _ | .heard _ | .moved _ => []

/-- What a course puts on the air, each message with its cycle. -/
def sentAlong (a : Automaton) : List Occasion → List (Nat × Transmission)
  | [] => []
  | o :: course => a.sends o ++ (a.meet o).sentAlong course

theorem sentAlong_singleton (a : Automaton) (o : Occasion) : a.sentAlong [o] = a.sends o :=
  List.append_nil _

/-- Along a course in two parts, the second part sends what the operator sends
that the first has led to. -/
theorem sentAlong_append (a : Automaton) (first second : List Occasion) :
    a.sentAlong (first ++ second) = a.sentAlong first ++ (a.live first).sentAlong second := by
  induction first generalizing a with
  | nil => rfl
  | cons o first ih =>
    rw [List.cons_append, sentAlong, sentAlong, ih, List.append_assoc, live_cons]

/-! ## Changing the phase -/

/-- **Changing the phase changes nothing else.** -/
@[simp] theorem goTo_fst (a : Automaton) (next : Phase) :
    (a.goTo next).1 = { a with contact := { a.contact with phase := next } } := by
  unfold goTo
  split
  · next h => rw [← h]
  · rfl

/-- A change of phase is reported, and nothing else: it puts no message on the
air. -/
@[simp] theorem sentIn_goTo (a : Automaton) (next : Phase) : sentIn (a.goTo next).2 = [] := by
  unfold goTo
  split <;> rfl

@[simp] theorem loggedIn_goTo (a : Automaton) (next : Phase) : loggedIn (a.goTo next).2 = [] := by
  unfold goTo
  split <;> rfl

/-! ## Hearing -/

/-- The ways in which a partner's message advances a contact.  Only the
reports change, and the next phase sends one or closes. -/
theorem react_cases {c d : Contact} {snr : Int} {m : Message} {next : Phase}
    (h : react c snr m = some (d, next)) :
    ∃ given got, d = { c with reportSent := given, reportReceived := got } ∧
      ((next = .logging ∧ given = c.reportSent ∧
          (c.phase = .awaitingConfirm ∨ c.phase = .exchanging)) ∨
        (next = .exchanging ∧ given = c.reportSent ∧ c.phase = .awaitingConfirm) ∨
        (next = .exchanging ∧ given = some snr ∧ c.role = .replier ∧
          (c.phase = .awaitingReply ∨ c.phase = .replying))) := by
  unfold react at h
  split at h <;> simp only [Option.some.injEq, Prod.mk.injEq, reduceCtorEq] at h
  all_goals
    obtain ⟨rfl, rfl⟩ := h
    refine ⟨_, _, rfl, ?_⟩
    simp_all

/-- The ways in which a frame advances a contact: a call is answered, a
call of one's own is answered, or the partner goes on. -/
theorem hear_cases {a b : Automaton} {f : Frame} (h : a.hear f = some b) :
    (∃ sender grid, a.contact.phase = .idle ∧ a.staged = none ∧ a.policy.answersTarget = true ∧
        b = a.restart .replier .replying (some sender) grid) ∨
      (∃ sender grid got, a.contact.role = .caller ∧
        (a.contact.phase = .callingCq ∨ a.contact.phase = .awaitingReply) ∧
        b = { a with
          contact := { a.contact with
            target := some sender
            targetGrid := grid
            reportSent := some f.snr
            reportReceived := got }
          staged := some .exchanging }) ∨
      ∃ d next, a.contact.target.isSome = true ∧ a.contact.phase ≠ .manual ∧
        react a.contact f.snr (Message.parse f.text) = some (d, next) ∧
        b = { a with contact := d, staged := some next } := by
  unfold hear at h
  split at h
  · left
    unfold hearCall at h
    split at h
    · next hidle =>
      obtain rfl := Option.some.inj h
      exact ⟨_, _, hidle.1, hidle.2.1, hidle.2.2, rfl⟩
    · simp at h
  · unfold hearDirected at h
    split at h
    · simp at h
    · next hfor =>
      obtain ⟨sender, -, h⟩ := Option.bind_eq_some_iff.1 h
      split at h
      · next hopen =>
        right; left
        simp only [openForReply, Bool.and_eq_true, Bool.or_eq_true, decide_eq_true_eq] at hopen
        unfold hearAnswer at h
        split at h
        · obtain rfl := Option.some.inj h
          exact ⟨sender, _, _, hopen.1.1, hopen.2, rfl⟩
        · obtain rfl := Option.some.inj h
          exact ⟨sender, _, _, hopen.1.1, hopen.2, rfl⟩
        · simp at h
      · split at h
        · next hfrom =>
          right; right
          obtain ⟨⟨d, next⟩, hreact, rfl⟩ := Option.map_eq_some_iff.1 h
          have htarget : a.contact.target.isSome = true := by
            cases hc : a.contact.target with
            | none => simp [hc] at hfrom
            | some _ => rfl
          exact ⟨d, next, htarget, fun hm => hfor (.inr hm), hreact, rfl⟩
        · simp at h

/-- A frame that advances the contact is noted as progress, and the frames
after it act on what it has led to. -/
theorem hearAll_of_some {a b : Automaton} {f : Frame} (h : a.hear f = some b) (slot : Slot)
    (frames : List Frame) :
    hearAll slot a (f :: frames) = ((hearAll slot (b.noteProgress slot) frames).1, true) := by
  conv =>
    lhs
    unfold hearAll
  simp only [h]

/-- A frame that does not advance the contact is passed over. -/
theorem hearAll_of_none {a : Automaton} {f : Frame} (h : a.hear f = none) (slot : Slot)
    (frames : List Frame) : hearAll slot a (f :: frames) = hearAll slot a frames := by
  conv =>
    lhs
    unfold hearAll
  simp only [h]

/-- **What every frame preserves, the inbox preserves.** A frame that is not for the operator
changes nothing, so only those that advance it need a step. -/
theorem hearAll_invariant {P : Automaton → Prop} {slot : Slot}
    (hstep : ∀ a f b, P a → a.hear f = some b → P (b.noteProgress slot))
    {a : Automaton} (h : P a) (frames : List Frame) : P (hearAll slot a frames).1 := by
  induction frames generalizing a with
  | nil => exact h
  | cons f frames ih =>
    cases hb : a.hear f with
    | some b =>
      rw [hearAll_of_some hb]
      exact ih (hstep a f b h hb)
    | none =>
      rw [hearAll_of_none hb]
      exact ih h

/-! ## What is reported as sent and as logged -/

/-- The report of a finished contact is no message on the air. -/
theorem sentIn_completed (entries : List LogEntry) :
    sentIn (entries.map .completed) = [] := by
  induction entries with
  | nil => rfl
  | cons entry entries ih => exact ih

/-- What is reported as sent is the message of the slot, if it has one. -/
theorem sentIn_transmitted (t : Option Transmission) :
    sentIn (t.toList.map .transmitted) = t.toList := by
  cases t <;> rfl

theorem loggedIn_transmitted (t : Option Transmission) :
    loggedIn (t.toList.map .transmitted) = [] := by
  cases t <;> rfl

/-- Ending a phase whose message has been sent sends nothing more. -/
theorem sentIn_afterSending (a : Automaton) : sentIn a.afterSending.2 = [] := by
  unfold afterSending
  split
  case h_4 =>
    simp only [sentIn_append, sentIn_completed, List.nil_append]
    exact sentIn_goTo ..
  all_goals first | rfl | exact sentIn_goTo ..

/-- Giving up is silent, also where the operator will call again: the call
waits for a granted slot. -/
theorem sentIn_giveUp (a : Automaton) : sentIn a.giveUp.2 = [] := by
  unfold giveUp
  split
  · rfl
  · exact sentIn_goTo ..

/-- A contact that is given up is not logged. -/
theorem loggedIn_giveUp (a : Automaton) : loggedIn a.giveUp.2 = [] := by
  unfold giveUp
  split
  · rfl
  · exact loggedIn_goTo ..

/-- Counting a silent slot sends nothing, whether or not it exhausts the
patience. -/
theorem sentIn_countSilence (a : Automaton) (slot : Slot) (granted progressed : Bool) :
    sentIn (a.countSilence slot granted progressed).2 = [] := by
  unfold countSilence
  split
  · dsimp only
    split
    · exact sentIn_giveUp _
    · split <;> rfl
  · rfl

theorem loggedIn_countSilence (a : Automaton) (slot : Slot) (granted progressed : Bool) :
    loggedIn (a.countSilence slot granted progressed).2 = [] := by
  unfold countSilence
  split
  · dsimp only
    split
    · exact loggedIn_giveUp _
    · split <;> rfl
  · rfl

/-- Entering the staged phase does not send its message yet. -/
theorem sentIn_enterStaged (a : Automaton) : sentIn a.enterStaged.2 = [] := by
  unfold enterStaged
  split
  · exact sentIn_goTo ..
  · rfl

theorem loggedIn_enterStaged (a : Automaton) : loggedIn a.enterStaged.2 = [] := by
  unfold enterStaged
  split
  · exact loggedIn_goTo ..
  · rfl

/-! ## A slot in four steps

A slot ends what was on the air (`finish`), lets the inbox act, counts
the silence, and, if it is granted, sends (`send`). -/

/-- The first step of a slot: the phase that was on the air ends. -/
def finish (a : Automaton) (slot : Slot) : Automaton × List ContactEvent :=
  let a := { a with slot := some slot, onAir := false }
  if a.sentLast then { a with sentLast := false }.afterSending else (a, [])

/-- The second step: the inbox is heard and empty. -/
def listen (a : Automaton) (slot : Slot) : Automaton × Bool :=
  hearAll slot { a with inbox := [] } a.inbox

/-- The last step of a granted slot: the staged phase is entered and its
message sent. -/
def send (a : Automaton) (slot : Slot) : Automaton × Option Transmission :=
  a.enterStaged.1.transmit slot

/-- What happens before anything is sent, step by step: what was sent is
finished, the inbox is heard, and then the silence is counted. -/
theorem settle_eq (a : Automaton) (slot : Slot) (granted : Bool) :
    a.settle slot granted =
      ((((a.finish slot).1.listen slot).1.countSilence slot granted
          ((a.finish slot).1.listen slot).2).1,
        (a.finish slot).2 ++
          (((a.finish slot).1.listen slot).1.countSilence slot granted
            ((a.finish slot).1.listen slot).2).2) := rfl

/-- A slot that is denied ends where a granted one would begin to send. -/
@[simp] theorem beginSlot_denied_fst (a : Automaton) (slot : Slot) :
    (a.beginSlot slot false).1 = (a.settle slot false).1 := rfl

/-- A slot that is denied puts nothing on the air. -/
@[simp] theorem beginSlot_denied_transmission (a : Automaton) (slot : Slot) :
    (a.beginSlot slot false).2.transmission = none := rfl

/-- A slot that is granted sends from where the steps before have led to. -/
@[simp] theorem beginSlot_granted_fst (a : Automaton) (slot : Slot) :
    (a.beginSlot slot true).1 = ((a.settle slot true).1.send slot).1 := rfl

/-- The message of a granted slot is that of its sending step. -/
@[simp] theorem beginSlot_granted_transmission (a : Automaton) (slot : Slot) :
    (a.beginSlot slot true).2.transmission = ((a.settle slot true).1.send slot).2 := rfl

/-- What the first step of a slot can do: nothing that was on the air ends,
or what was sent is waited for, or the contact that was closed is over. -/
theorem finish_cases (a : Automaton) (slot : Slot) :
    (∃ sent, (a.sentLast = true → a.contact.phase.transmits = false) ∧
        (a.finish slot).1 = { a with slot := some slot, onAir := false, sentLast := sent }) ∨
      (∃ next, a.sentLast = true ∧
        ((a.contact.phase = .callingCq ∨ a.contact.phase = .replying) ∧ next = .awaitingReply ∨
          a.contact.phase = .exchanging ∧ next = .awaitingConfirm) ∧
        (a.finish slot).1 =
          { a with
            slot := some slot
            onAir := false
            sentLast := false
            contact := { a.contact with phase := next } }) ∨
      ∃ role staged, a.sentLast = true ∧ a.contact.phase = .logging ∧
        (staged = a.staged ∧ role = a.contact.role ∨ staged = some .callingCq ∧ role = .caller) ∧
        (a.finish slot).1 =
          { a with
            slot := some slot
            onAir := false
            sentLast := false
            staged
            contact := { a.contact.reset with phase := .idle, role } } := by
  unfold finish
  dsimp only
  split
  · next hsent =>
    unfold afterSending
    cases hphase : a.contact.phase with
    | callingCq =>
      rw [goTo_fst]
      exact .inr (.inl ⟨_, hsent, .inl ⟨.inl rfl, rfl⟩, rfl⟩)
    | replying =>
      rw [goTo_fst]
      exact .inr (.inl ⟨_, hsent, .inl ⟨.inr rfl, rfl⟩, rfl⟩)
    | exchanging =>
      rw [goTo_fst]
      exact .inr (.inl ⟨_, hsent, .inr ⟨rfl, rfl⟩, rfl⟩)
    | logging =>
      right; right
      dsimp only
      rw [goTo_fst]
      split
      · exact ⟨_, _, hsent, rfl, .inr ⟨rfl, rfl⟩, rfl⟩
      · exact ⟨_, _, hsent, rfl, .inl ⟨rfl, rfl⟩, rfl⟩
    | idle | awaitingReply | awaitingConfirm | manual =>
      left
      exact ⟨false, fun _ => rfl, rfl⟩
  · next hsent => exact .inl ⟨a.sentLast, fun h => absurd h hsent, rfl⟩

/-- What counting the silence can do: nothing, or the operator gives up, or
one more cycle is counted, after which the message may be sent again. -/
theorem countSilence_cases (a : Automaton) (slot : Slot) (granted progressed : Bool) :
    (a.countSilence slot granted progressed).1 = a ∨
      a.contact.phase.awaits = true ∧ a.staged = none ∧
        ((a.policy.patience ≤ a.contact.unanswered + 1 ∧
          ((a.countSilence slot granted progressed).1 = a.restart .caller .callingCq none none ∨
            (a.countSilence slot granted progressed).1 =
              { a with contact := { a.contact.reset with phase := .idle } })) ∨
        a.contact.unanswered + 1 < a.policy.patience ∧
          ∃ staged, (staged = none ∨ granted = true ∧ staged = some (phaseAgain a.contact)) ∧
            (a.countSilence slot granted progressed).1 =
              { a with
                contact := { a.contact with unanswered := a.contact.unanswered + 1 }
                staged }) := by
  unfold countSilence
  split
  · next hwaits =>
    simp only [Bool.and_eq_true, Option.isNone_iff_eq_none] at hwaits
    obtain ⟨⟨⟨hawaits, -⟩, -⟩, hnone⟩ := hwaits
    refine .inr ⟨hawaits, hnone, ?_⟩
    dsimp only
    split
    · next hout =>
      refine .inl ⟨hout, ?_⟩
      unfold giveUp
      split
      · exact .inl rfl
      · right
        dsimp only
        rw [goTo_fst, hnone]
        rfl
    · next hleft =>
      refine .inr ⟨Nat.lt_of_not_le hleft, ?_⟩
      split
      · next hgranted => exact ⟨_, .inr ⟨hgranted, rfl⟩, rfl⟩
      · exact ⟨_, .inl hnone, rfl⟩
  · exact .inl rfl

/-- Finishing what was sent in the slot before sends nothing. -/
theorem sentIn_finish (a : Automaton) (slot : Slot) : sentIn (a.finish slot).2 = [] := by
  unfold finish
  dsimp only
  split
  · exact sentIn_afterSending _
  · rfl

/-- **Before the sending step of a slot nothing is reported as sent.** -/
theorem sentIn_settle (a : Automaton) (slot : Slot) (granted : Bool) :
    sentIn (a.settle slot granted).2 = [] := by
  rw [settle_eq, sentIn_append, sentIn_finish, sentIn_countSilence]
  rfl

/-- **A slot reports as sent exactly what it puts on the air.** Neither settling nor entering a
phase reports a message. -/
theorem sentIn_beginSlot (a : Automaton) (slot : Slot) (granted : Bool) :
    sentIn (a.beginSlot slot granted).2.events =
      (a.beginSlot slot granted).2.transmission.toList := by
  cases granted with
  | false => exact sentIn_settle a slot false
  | true =>
    have hsettle := sentIn_settle a slot true
    have henter := sentIn_enterStaged (a.settle slot true).1
    calc sentIn (a.beginSlot slot true).2.events
        = sentIn (a.settle slot true).2 ++ sentIn (a.settle slot true).1.enterStaged.2 ++
            sentIn ((a.beginSlot slot true).2.transmission.toList.map .transmitted) := by
          rw [← sentIn_append, ← sentIn_append]; rfl
      _ = (a.beginSlot slot true).2.transmission.toList := by
          rw [hsettle, henter, sentIn_transmitted]; rfl

/-- **A slot logs exactly the contact that was closing on the air.** -/
theorem loggedIn_beginSlot (a : Automaton) (slot : Slot) (granted : Bool) :
    loggedIn (a.beginSlot slot granted).2.events = loggedIn (a.finish slot).2 := by
  have hsettle : loggedIn (a.settle slot granted).2 = loggedIn (a.finish slot).2 := by
    rw [settle_eq, loggedIn_append, loggedIn_countSilence, List.append_nil]
  cases granted with
  | false => exact hsettle
  | true =>
    have henter := loggedIn_enterStaged (a.settle slot true).1
    calc loggedIn (a.beginSlot slot true).2.events
        = loggedIn (a.settle slot true).2 ++ loggedIn (a.settle slot true).1.enterStaged.2 ++
            loggedIn ((a.beginSlot slot true).2.transmission.toList.map .transmitted) := by
          rw [← loggedIn_append, ← loggedIn_append]; rfl
      _ = loggedIn (a.finish slot).2 := by
          rw [hsettle, henter, loggedIn_transmitted, List.append_nil, List.append_nil]

/-! ## What a slot does not touch -/

/-- `b` has the set-up of `a` and the texts queued by hand. -/
structure SameSetUp (a b : Automaton) : Prop where
  station : b.station = a.station
  policy : b.policy = a.policy
  queue : b.queue = a.queue
  operator : b.contact.operator = a.contact.operator

theorem SameSetUp.refl (a : Automaton) : SameSetUp a a := ⟨rfl, rfl, rfl, rfl⟩

/-- The set-up that two steps keep is kept by both together. -/
theorem SameSetUp.trans {a b c : Automaton} (h : SameSetUp a b) (k : SameSetUp b c) :
    SameSetUp a c where
  station := k.station.trans h.station
  policy := k.policy.trans h.policy
  queue := k.queue.trans h.queue
  operator := k.operator.trans h.operator

/-- Finishing what was sent leaves the set-up as it is. -/
theorem sameSetUp_finish (a : Automaton) (slot : Slot) : SameSetUp a (a.finish slot).1 := by
  rcases finish_cases a slot with ⟨_, -, heq⟩ | ⟨_, -, -, heq⟩ | ⟨_, _, -, -, -, heq⟩
  all_goals
    rw [heq]
    exact ⟨rfl, rfl, rfl, rfl⟩

/-- A frame that advances the contact does not touch the set-up. -/
theorem sameSetUp_hear {a b : Automaton} {f : Frame} (h : a.hear f = some b) : SameSetUp a b := by
  rcases hear_cases h with ⟨sender, grid, -, -, -, rfl⟩ | ⟨sender, grid, got, -, -, rfl⟩ |
    ⟨d, next, -, -, hreact, rfl⟩
  · exact ⟨rfl, rfl, rfl, rfl⟩
  · exact ⟨rfl, rfl, rfl, rfl⟩
  · obtain ⟨given, got, rfl, -⟩ := react_cases hreact
    exact ⟨rfl, rfl, rfl, rfl⟩

/-- A frame that is put into the inbox touches nothing but the inbox. -/
theorem sameSetUp_receive (a : Automaton) (f : Frame) : SameSetUp a (a.receive f) := by
  unfold receive
  split <;> exact ⟨rfl, rfl, rfl, rfl⟩

/-- However many frames wait, hearing them all leaves the set-up as it is. -/
theorem sameSetUp_listen (a : Automaton) (slot : Slot) : SameSetUp a (a.listen slot).1 := by
  have hstart : SameSetUp a { a with inbox := [] } := ⟨rfl, rfl, rfl, rfl⟩
  refine hearAll_invariant (P := SameSetUp a) ?_ hstart a.inbox
  intro b f c hb hc
  exact (hb.trans (sameSetUp_hear hc)).trans ⟨rfl, rfl, rfl, rfl⟩

/-- Neither waiting nor giving up touches the set-up. -/
theorem sameSetUp_countSilence (a : Automaton) (slot : Slot) (granted progressed : Bool) :
    SameSetUp a (a.countSilence slot granted progressed).1 := by
  rcases countSilence_cases a slot granted progressed with heq |
    ⟨-, -, ⟨-, heq | heq⟩ | ⟨-, _, -, heq⟩⟩
  all_goals
    rw [heq]
    exact ⟨rfl, rfl, rfl, rfl⟩

/-- **Before the sending step a slot leaves the set-up alone.** -/
theorem sameSetUp_settle (a : Automaton) (slot : Slot) (granted : Bool) :
    SameSetUp a (a.settle slot granted).1 := by
  rw [settle_eq]
  exact ((sameSetUp_finish a slot).trans (sameSetUp_listen _ slot)).trans
    (sameSetUp_countSilence _ slot granted _)

/-! ## What sending changes -/

/-- Entering the staged phase changes the phase and nothing else, and without one the phase
stays. -/
theorem enterStaged_fst (a : Automaton) :
    a.enterStaged.1 =
      { a with
        contact := { a.contact with phase := a.staged.getD a.contact.phase }
        staged := none } := by
  unfold enterStaged
  split
  · next h => rw [goTo_fst, h, Option.getD_some]
  · next h => rw [h, Option.getD_none, ← h]

/-- A message that is sent is noted in the contact. -/
theorem contact_transmit (a : Automaton) (slot : Slot) :
    ∃ sent, (a.transmit slot).1.contact = { a.contact with lastSent := sent } := by
  unfold transmit
  split
  · exact ⟨_, rfl⟩
  · exact ⟨_, rfl⟩

/-- The inbox is not touched while a message is sent. -/
theorem inbox_transmit (a : Automaton) (slot : Slot) : (a.transmit slot).1.inbox = a.inbox := by
  unfold transmit
  split <;> rfl

/-- The sending of a message stages nothing. -/
theorem staged_transmit (a : Automaton) (slot : Slot) :
    (a.transmit slot).1.staged = a.staged := by
  unfold transmit
  split <;> rfl

theorem policy_transmit (a : Automaton) (slot : Slot) :
    (a.transmit slot).1.policy = a.policy := by
  unfold transmit
  split <;> rfl

/-- **Sending enters the staged phase,** and leaves the rest of the
contact alone. -/
theorem contact_send (a : Automaton) (slot : Slot) :
    ∃ sent, (a.send slot).1.contact =
      { a.contact with phase := a.staged.getD a.contact.phase, lastSent := sent } := by
  obtain ⟨sent, hsent⟩ := contact_transmit a.enterStaged.1 slot
  refine ⟨sent, ?_⟩
  rw [send, hsent, enterStaged_fst]

/-- The sending step leaves nothing staged, because what was staged has been
entered. -/
theorem staged_send (a : Automaton) (slot : Slot) : (a.send slot).1.staged = none := by
  rw [send, staged_transmit, enterStaged_fst]

theorem policy_send (a : Automaton) (slot : Slot) : (a.send slot).1.policy = a.policy := by
  rw [send, policy_transmit, enterStaged_fst]

/-! ## The inbox -/

/-- The frames that wait are still there when what was sent is finished. -/
theorem inbox_finish (a : Automaton) (slot : Slot) : (a.finish slot).1.inbox = a.inbox := by
  rcases finish_cases a slot with ⟨_, -, heq⟩ | ⟨_, -, -, heq⟩ | ⟨_, _, -, -, -, heq⟩
  all_goals exact (congrArg inbox heq :)

/-- Nothing comes into the inbox while the silence is counted, and nothing
leaves it. -/
theorem inbox_countSilence (a : Automaton) (slot : Slot) (granted progressed : Bool) :
    (a.countSilence slot granted progressed).1.inbox = a.inbox := by
  rcases countSilence_cases a slot granted progressed with heq |
    ⟨-, -, ⟨-, heq | heq⟩ | ⟨-, _, -, heq⟩⟩
  all_goals exact (congrArg inbox heq :)

/-- Listening empties the inbox, whether its frames were of any use or not. -/
theorem inbox_listen (a : Automaton) (slot : Slot) : (a.listen slot).1.inbox = [] := by
  refine hearAll_invariant (P := fun b => b.inbox = []) ?_ rfl a.inbox
  intro b f c hb hc
  rcases hear_cases hc with ⟨sender, grid, -, -, -, rfl⟩ | ⟨sender, grid, got, -, -, rfl⟩ |
    ⟨d, next, -, -, -, rfl⟩ <;> exact hb

theorem inbox_send (a : Automaton) (slot : Slot) : (a.send slot).1.inbox = a.inbox := by
  rw [send, inbox_transmit, enterStaged_fst]

/-- **A slot empties the inbox.** -/
theorem inbox_beginSlot (a : Automaton) (slot : Slot) (granted : Bool) :
    (a.beginSlot slot granted).1.inbox = [] := by
  have hsettle : (a.settle slot granted).1.inbox = [] := by
    rw [settle_eq, inbox_countSilence, inbox_listen]
  cases granted with
  | false => exact hsettle
  | true => exact (inbox_send _ slot).trans hsettle

/-! ## Who sends -/

/-- Entering the staged phase touches neither the set-up nor the operator. -/
theorem sameStation_enterStaged (a : Automaton) :
    a.enterStaged.1.station = a.station ∧
      a.enterStaged.1.contact.operator = a.contact.operator := by
  unfold enterStaged
  split
  · rw [goTo_fst]
    exact ⟨rfl, rfl⟩
  · exact ⟨rfl, rfl⟩

/-- Who sends stays the operator that it is. -/
theorem operator_transmit (a : Automaton) (slot : Slot) :
    (a.transmit slot).1.contact.operator = a.contact.operator := by
  unfold transmit
  split <;> rfl

/-- A message carries the operator, the frequency and the slot. -/
theorem transmit_carries {a : Automaton} {slot : Slot} {t : Transmission}
    (h : (a.transmit slot).2 = some t) :
    t.operator = a.contact.operator ∧ t.frequencyHz = a.station.frequencyHz ∧
      t.slotStartMs = slot.startMs := by
  unfold transmit at h
  split at h
  · simp at h
  · obtain rfl := Option.some.inj h
    exact ⟨rfl, rfl, rfl⟩

/-- A message that is sent is stamped with its slot. -/
theorem transmit_stamps {a : Automaton} {slot : Slot} {t : Transmission}
    (h : (a.transmit slot).2 = some t) :
    (a.transmit slot).1.lastSentAt = slot.startMs ∧
      (a.transmit slot).1.lastSentCycle = some slot.cycle := by
  unfold transmit at h ⊢
  split at h
  · simp at h
  · exact ⟨rfl, rfl⟩

/-- **Only a granted slot sends**, in the operator's name and on its frequency, and what it sends is
stamped with the start of the slot. -/
theorem beginSlot_carries {a : Automaton} {slot : Slot} {granted : Bool} {t : Transmission}
    (h : (a.beginSlot slot granted).2.transmission = some t) :
    granted = true ∧ t.operator = a.contact.operator ∧ t.frequencyHz = a.station.frequencyHz ∧
      t.slotStartMs = slot.startMs := by
  cases granted with
  | false =>
    rw [beginSlot_denied_transmission] at h
    cases h
  | true =>
    have hsetUp := sameSetUp_settle a slot true
    obtain ⟨hstation, hoperator⟩ := sameStation_enterStaged (a.settle slot true).1
    rw [beginSlot_granted_transmission] at h
    obtain ⟨ht, hf, hs⟩ := transmit_carries h
    refine ⟨rfl, ?_, ?_, hs⟩
    · rw [ht, hoperator, hsetUp.operator]
    · rw [hf, hstation, hsetUp.station]

/-- **A slot that sends is noted as the last one.** -/
theorem beginSlot_stamps {a : Automaton} {slot : Slot} {granted : Bool} {t : Transmission}
    (h : (a.beginSlot slot granted).2.transmission = some t) :
    (a.beginSlot slot granted).1.lastSentAt = slot.startMs ∧
      (a.beginSlot slot granted).1.lastSentCycle = some slot.cycle := by
  cases granted with
  | false =>
    rw [beginSlot_denied_transmission] at h
    cases h
  | true => exact transmit_stamps h

/-- Whatever a slot brings, the contact stays that of the same operator. -/
theorem operator_beginSlot (a : Automaton) (slot : Slot) (granted : Bool) :
    (a.beginSlot slot granted).1.contact.operator = a.contact.operator := by
  have hsetUp := sameSetUp_settle a slot granted
  cases granted with
  | false => exact hsetUp.operator
  | true =>
    rw [beginSlot_granted_fst, send, operator_transmit,
      (sameStation_enterStaged _).2, hsetUp.operator]

/-- **No command changes the set-up.** A new one comes with the occasion of its own that
`Occasion.moved` is. -/
theorem setUp_obey (a : Automaton) (c : Command) :
    (a.obey c).1.station = a.station ∧ (a.obey c).1.policy = a.policy ∧
      (a.obey c).1.contact.operator = a.contact.operator := by
  cases c with
  | callCq =>
    simp only [obey]
    split
    · exact ⟨rfl, rfl, rfl⟩
    · rw [goTo_fst]
      exact ⟨rfl, rfl, rfl⟩
  | callStation call grid =>
    rw [obey, goTo_fst]
    exact ⟨rfl, rfl, rfl⟩
  | abort =>
    rw [obey, goTo_fst]
    exact ⟨rfl, rfl, rfl⟩
  | setManual on =>
    cases on with
    | true =>
      rw [obey, goTo_fst]
      exact ⟨rfl, rfl, rfl⟩
    | false =>
      simp only [obey]
      split
      · rw [goTo_fst]
        exact ⟨rfl, rfl, rfl⟩
      · exact ⟨rfl, rfl, rfl⟩
  | queueMessage text =>
    simp only [obey]
    split <;> exact ⟨rfl, rfl, rfl⟩

/-- No command hands the contact to another operator, not even one that starts
a new contact. -/
theorem operator_obey (a : Automaton) (c : Command) :
    (a.obey c).1.contact.operator = a.contact.operator :=
  (setUp_obey a c).2.2

/-- No command replaces the set-up: this has an occasion of its own. -/
theorem station_obey (a : Automaton) (c : Command) : (a.obey c).1.station = a.station :=
  (setUp_obey a c).1

/-- **Nothing makes an operator another one.** -/
theorem operator_meet (a : Automaton) (o : Occasion) :
    (a.meet o).contact.operator = a.contact.operator := by
  cases o with
  | told c => simp only [meet, operator_obey]
  | heard f =>
    simp only [meet, receive]
    split <;> rfl
  | moved s => rfl
  | slot slot granted => simp only [meet, operator_beginSlot]

/-! ## Who keeps their set-up -/

/-- A frame that is heard does not replace the set-up. -/
theorem station_receive (a : Automaton) (f : Frame) : (a.receive f).station = a.station := by
  unfold receive
  split <;> rfl

/-- The beginning of a slot does not replace the set-up. -/
theorem station_beginSlot (a : Automaton) (slot : Slot) (granted : Bool) :
    (a.beginSlot slot granted).1.station = a.station := by
  have hsetUp := sameSetUp_settle a slot granted
  have hsent : ∀ b : Automaton, (b.transmit slot).1.station = b.station := by
    intro b
    unfold transmit
    split <;> rfl
  cases granted with
  | false => exact hsetUp.station
  | true =>
    rw [beginSlot_granted_fst, send, hsent, (sameStation_enterStaged _).1, hsetUp.station]

/-- **Nothing changes the policy.** -/
theorem policy_meet (a : Automaton) (o : Occasion) : (a.meet o).policy = a.policy := by
  cases o with
  | told c => exact (setUp_obey a c).2.1
  | heard f =>
    simp only [meet, receive]
    split <;> rfl
  | moved s => rfl
  | slot slot granted =>
    have hsettle := (sameSetUp_settle a slot granted).policy
    cases granted with
    | false => exact hsettle
    | true => exact (policy_send _ slot).trans hsettle

/-- The beginning of a slot does not change how the operator behaves. -/
theorem policy_beginSlot (a : Automaton) (slot : Slot) (granted : Bool) :
    (a.beginSlot slot granted).1.policy = a.policy :=
  policy_meet a (.slot slot granted)

/-- **The policy is fixed** when an operator is made: along a whole course
nothing changes it. -/
theorem policy_live (a : Automaton) (course : List Occasion) :
    (a.live course).policy = a.policy :=
  live_invariant (P := fun b => b.policy = a.policy)
    (fun b o h => (policy_meet b o).trans h) rfl course

/-- **The operator stays the same** along a whole course. -/
theorem operator_live (a : Automaton) (course : List Occasion) :
    (a.live course).contact.operator = a.contact.operator :=
  live_invariant (P := fun b => b.contact.operator = a.contact.operator)
    (fun b o h => (operator_meet b o).trans h) rfl course

/-! ## What a command reports -/

/-- A command reports at most a change of the phase. -/
theorem obey_reports (a : Automaton) (c : Command) :
    (a.obey c).2 = [] ∨ ∃ b next, (a.obey c).2 = (goTo b next).2 := by
  cases c with
  | callCq =>
    simp only [obey]
    split
    · exact .inl rfl
    · exact .inr ⟨_, _, rfl⟩
  | callStation call grid => exact .inr ⟨_, _, rfl⟩
  | abort => exact .inr ⟨_, _, rfl⟩
  | setManual on =>
    cases on with
    | true => exact .inr ⟨_, _, rfl⟩
    | false =>
      simp only [obey]
      split
      · exact .inr ⟨_, _, rfl⟩
      · exact .inl rfl
  | queueMessage text =>
    simp only [obey]
    split <;> exact .inl rfl

/-- A command alone puts nothing on the air; only a granted slot does. -/
theorem sentIn_obey (a : Automaton) (c : Command) : sentIn (a.obey c).2 = [] := by
  rcases obey_reports a c with h | ⟨b, next, h⟩
  · rw [h, sentIn_nil]
  · rw [h, sentIn_goTo]

/-- **Only a slot logs a contact.** -/
theorem loggedIn_obey (a : Automaton) (c : Command) : loggedIn (a.obey c).2 = [] := by
  rcases obey_reports a c with h | ⟨b, next, h⟩
  · rw [h, loggedIn_nil]
  · rw [h, loggedIn_goTo]

end Automaton

end SlotRadio
