import SlotRadio.Proofs.Contact.Agreement
import SlotRadio.Proofs.Contact.Turns
/-!
# The standard exchange

Two operators hear each other and transmit in turns.  One calls everybody,
the other wants to work it.  Then six slots carry the six messages of a
contact, and in the slot after its last message each of the two logs it.

The slots of the exchange are the **legs**.  In a leg one operator answers
what it has heard in the leg before, and the other stops and listens
(`Passed.answer`).  The legs are followed one by one, from
`Standard.leg_zero` to `Standard.leg_six`, each with what the two know by
then (`Terms`); and `standard_exchange` reads off what was sent and logged.

What carries it is that every message of the exchange is read as it was
meant, with the reports held within thirty dB of zero (`parse_text`), and
that nobody counts the silence of the leg that the partner needs.
-/

namespace SlotRadio

open Message

/-- One slot of two operators who hear each other: who of them may transmit,
and how each is heard, but for the text.  What is primed belongs to the second
operator. -/
structure Leg where
  slot : Slot
  granted : Bool
  granted' : Bool
  copy : Frame
  copy' : Frame

/-- Two operators who hear each other. -/
structure Duet where
  first : Automaton
  second : Automaton

/-- An operator hears what the other one has sent. -/
def Automaton.copies (a : Automaton) (copy : Frame) : Option Transmission → Automaton
  | some sent => a.receive { copy with text := sent.message }
  | none => a

namespace Duet

/-- What a leg brings to the two operators. -/
def outcomes (d : Duet) (l : Leg) : SlotOutcome × SlotOutcome :=
  ((d.first.beginSlot l.slot l.granted).2, (d.second.beginSlot l.slot l.granted').2)

/-- The operators after a leg: each has heard what the other has sent. -/
def after (d : Duet) (l : Leg) : Duet where
  first := (d.first.beginSlot l.slot l.granted).1.copies l.copy' (d.outcomes l).2.transmission
  second := (d.second.beginSlot l.slot l.granted').1.copies l.copy (d.outcomes l).1.transmission

/-- The operators before a leg. -/
def before (d : Duet) (legs : Nat → Leg) : Nat → Duet
  | 0 => d
  | k + 1 => (d.before legs k).after (legs k)

/-- What each leg brings. -/
def brought (d : Duet) (legs : Nat → Leg) (k : Nat) : SlotOutcome × SlotOutcome :=
  (d.before legs k).outcomes (legs k)

/-- The messages on the air in a leg. -/
def sent (d : Duet) (legs : Nat → Leg) (k : Nat) : List Transmission :=
  (d.brought legs k).1.transmission.toList ++ (d.brought legs k).2.transmission.toList

/-- What the two operators log in a leg. -/
def logged (d : Duet) (legs : Nat → Leg) (k : Nat) : List LogEntry × List LogEntry :=
  (loggedIn (d.brought legs k).1.events, loggedIn (d.brought legs k).2.events)

/-- True when one of the operators gives up in a leg. -/
def givesUp (d : Duet) (legs : Nat → Leg) (k : Nat) : Bool :=
  timesOut (d.brought legs k).1.events || timesOut (d.brought legs k).2.events

end Duet

/-- The conditions of a standard exchange: the first operator calls, the
second wants to work it, and from cycle `start` on they may transmit in
turns. -/
structure Standard (caller replier : Station) (policy' : Policy) (start : Nat)
    (legs : Nat → Leg) : Prop where
  call : IsToken caller.call
  notCq : caller.call ≠ "CQ"
  square : isGridSquare caller.grid = true
  call' : IsToken replier.call
  notCq' : replier.call ≠ "CQ"
  square' : isGridSquare replier.grid = true
  target : replier.target = some caller.call
  answers : policy'.answersTarget = true
  cycle : ∀ k, (legs k).slot.cycle = start + k
  granted : ∀ k, (legs k).granted = decide ((start + k) % 2 = start % 2)
  granted' : ∀ k, (legs k).granted' = decide ((start + k) % 2 ≠ start % 2)

/-- What is heard does not change the set-up. -/
theorem Automaton.sameSetUp_copies (a : Automaton) (copy : Frame) (sent : Option Transmission) :
    SameSetUp a (a.copies copy sent) := by
  cases sent with
  | none => exact .refl a
  | some sent => exact sameSetUp_receive ..

/-- What is heard waits if it concerns the operator. -/
theorem Automaton.Listens.copies {a : Automaton} {p : Phase} {t : Terms} (h : a.Listens p t [])
    {copy : Frame} {sent : Transmission}
    (hf : a.concerns { copy with text := sent.message } = true) :
    (a.copies copy (some sent)).Listens p t [{ copy with text := sent.message }] :=
  h.receive hf

/-- Who is idle stays so, whatever it hears. -/
theorem Automaton.Pauses.copies {a : Automaton} (h : a.Pauses) (copy : Frame)
    (sent : Option Transmission) : (a.copies copy sent).Pauses := by
  cases sent with
  | none => exact h
  | some sent =>
    rw [Automaton.copies, Automaton.receive]
    split <;> exact ⟨h.phase, h.sentLast⟩

/-- Nobody's set-up changes on the way. -/
theorem Duet.setUp_before (d : Duet) (legs : Nat → Leg) (k : Nat) :
    ((d.before legs k).first.station = d.first.station ∧
        (d.before legs k).first.contact.operator = d.first.contact.operator) ∧
      (d.before legs k).second.station = d.second.station ∧
        (d.before legs k).second.policy = d.second.policy ∧
        (d.before legs k).second.contact.operator = d.second.contact.operator := by
  induction k with
  | zero => exact ⟨⟨rfl, rfl⟩, rfl, rfl, rfl⟩
  | succ k ih =>
    have hfirst := Automaton.sameSetUp_copies
      ((d.before legs k).first.beginSlot (legs k).slot (legs k).granted).1 (legs k).copy'
      ((d.before legs k).outcomes (legs k)).2.transmission
    have hsecond := Automaton.sameSetUp_copies
      ((d.before legs k).second.beginSlot (legs k).slot (legs k).granted').1 (legs k).copy
      ((d.before legs k).outcomes (legs k)).1.transmission
    rw [before, after, hfirst.station, hfirst.operator, hsecond.station, hsecond.policy,
      hsecond.operator]
    simp only [Automaton.station_beginSlot, Automaton.policy_beginSlot,
      Automaton.operator_beginSlot]
    exact ih

/-! ## One leg -/

/-- `x` has just sent the message of phase `p`, and `y` has heard it. -/
structure Passed (x y : Automaton) (p : Phase) (t : Terms) (slot : Slot) (q : Phase) (u : Terms)
    (f : Frame) : Prop where
  speaks : x.Speaks p t slot
  listens : y.Listens q u [f]

section Leg

variable {x y : Automaton} {p q q' : Phase} {t u u' : Terms} {last slot : Slot} {f : Frame}
  {sent : Transmission} {d : Duet} {l : Leg}

/-- **In the next leg the other one answers,** and who has spoken listens. The answer follows in the
next cycle, so the silence of one's own slot is not counted against the partner. -/
theorem Passed.answer (h : Passed x y p t last q u f) (hsends : p.transmits = true)
    (hawaits : p.waiting.awaits = true) (hcycle : slot.cycle = last.cycle + 1)
    (hspeaks : (y.beginSlot slot true).1.Speaks q' u' slot)
    (hbrings : (y.beginSlot slot true).2.Brings (some sent) [])
    (hfor : (parse sent.message).isFor x.station.call = true) (copy copy' : Frame) :
    Passed ((y.beginSlot slot true).1.copies copy (x.beginSlot slot false).2.transmission)
        ((x.beginSlot slot false).1.copies copy' (y.beginSlot slot true).2.transmission)
        q' u' slot p.waiting t { copy' with text := sent.message } ∧
      (x.beginSlot slot false).2.Brings none [] := by
  obtain ⟨hlistens, hsilent⟩ := h.speaks.wait hsends hawaits hcycle
  refine ⟨⟨hspeaks, ?_⟩, hsilent⟩
  rw [hbrings.transmission]
  refine hlistens.copies ?_
  rw [Automaton.concerns, Automaton.station_beginSlot]
  exact Bool.or_eq_true_iff.2 (.inl hfor)

/-- A leg in which the first operator answers. -/
theorem Duet.leg_first (h : Passed d.second d.first p t last q u f) (hsends : p.transmits = true)
    (hawaits : p.waiting.awaits = true) (hcycle : l.slot.cycle = last.cycle + 1)
    (hgranted : l.granted = true) (hgranted' : l.granted' = false)
    (hanswer : (d.first.beginSlot l.slot true).1.Speaks q' u' l.slot ∧
      (d.first.beginSlot l.slot true).2.Brings (some sent) [])
    (hfor : (parse sent.message).isFor d.second.station.call = true) :
    Passed (d.after l).first (d.after l).second q' u' l.slot p.waiting t
        { l.copy with text := sent.message } ∧
      (d.outcomes l).1.Brings (some sent) [] ∧ (d.outcomes l).2.Brings none [] := by
  obtain ⟨hspeaks, hbrings⟩ := hanswer
  obtain ⟨hpassed, hsilent⟩ :=
    h.answer hsends hawaits hcycle hspeaks hbrings hfor l.copy' l.copy
  simp only [after, outcomes, hgranted, hgranted']
  exact ⟨hpassed, hbrings, hsilent⟩

/-- A leg in which the second operator answers. -/
theorem Duet.leg_second (h : Passed d.first d.second p t last q u f) (hsends : p.transmits = true)
    (hawaits : p.waiting.awaits = true) (hcycle : l.slot.cycle = last.cycle + 1)
    (hgranted : l.granted = false) (hgranted' : l.granted' = true)
    (hanswer : (d.second.beginSlot l.slot true).1.Speaks q' u' l.slot ∧
      (d.second.beginSlot l.slot true).2.Brings (some sent) [])
    (hfor : (parse sent.message).isFor d.first.station.call = true) :
    Passed (d.after l).second (d.after l).first q' u' l.slot p.waiting t
        { l.copy' with text := sent.message } ∧
      (d.outcomes l).1.Brings none [] ∧ (d.outcomes l).2.Brings (some sent) [] := by
  obtain ⟨hspeaks, hbrings⟩ := hanswer
  obtain ⟨hpassed, hsilent⟩ :=
    h.answer hsends hawaits hcycle hspeaks hbrings hfor l.copy l.copy'
  simp only [after, outcomes, hgranted, hgranted']
  exact ⟨hpassed, hsilent, hbrings⟩

/-- A leg in which the first operator speaks and the second has not spoken
before. -/
theorem Duet.leg_opening (hgranted : l.granted = true) (hgranted' : l.granted' = false)
    (hspeaks : (d.first.beginSlot l.slot true).1.Speaks q' u' l.slot)
    (hbrings : (d.first.beginSlot l.slot true).2.Brings (some sent) [])
    (hpauses : d.second.beginSlot l.slot false = (y, ⟨none, []⟩)) (hlistens : y.Listens q u [])
    (hconcerns : y.concerns { l.copy with text := sent.message } = true) :
    Passed (d.after l).first (d.after l).second q' u' l.slot q u
        { l.copy with text := sent.message } ∧
      (d.outcomes l).1.Brings (some sent) [] ∧ (d.outcomes l).2.Brings none [] := by
  simp only [after, outcomes, hgranted, hgranted', hbrings.transmission, hpauses]
  exact ⟨⟨hspeaks, hlistens.copies hconcerns⟩, hbrings, rfl, rfl, rfl⟩

/-- A leg in which the second operator answers the closing message, and the
first one logs the contact. -/
theorem Duet.leg_closing {partner : String} (h : Passed d.first d.second .logging t last q u f)
    (htarget : t.target = some partner) (hgranted : l.granted = false)
    (hgranted' : l.granted' = true)
    (hanswer : (d.second.beginSlot l.slot true).1.Speaks q' u' l.slot ∧
      (d.second.beginSlot l.slot true).2.Brings (some sent) []) :
    (d.after l).first.Pauses ∧ (d.after l).second.Speaks q' u' l.slot ∧
      (d.outcomes l).1.Brings none
        [⟨d.first.contact.operator, d.first.station.call, partner, t.targetGrid, t.reportSent,
          t.reportReceived, d.first.station.frequencyHz, last.startMs⟩] ∧
      (d.outcomes l).2.Brings (some sent) [] := by
  obtain ⟨hspeaks, hbrings⟩ := hanswer
  obtain ⟨hpauses, hlogs⟩ := h.speaks.close htarget l.slot
  simp only [after, outcomes, hgranted, hgranted', hlogs.transmission]
  exact ⟨hpauses.copies .., hspeaks, hlogs, hbrings⟩

/-- A leg in which the second operator logs the contact. -/
theorem Duet.leg_closed {partner : String} (hpauses : d.first.Pauses)
    (h : d.second.Speaks .logging t last) (htarget : t.target = some partner)
    (hgranted' : l.granted' = false) :
    (d.outcomes l).1.Brings (d.outcomes l).1.transmission [] ∧
      (d.outcomes l).2.Brings none
        [⟨d.second.contact.operator, d.second.station.call, partner, t.targetGrid, t.reportSent,
          t.reportReceived, d.second.station.frequencyHz, last.startMs⟩] := by
  obtain ⟨-, hlogs⟩ := h.close htarget l.slot
  rw [outcomes, hgranted']
  exact ⟨hpauses.brings .., hlogs⟩

end Leg

/-! ## The legs of the exchange -/

/-- Two fresh operators, of whom the first has been told to call. -/
def Duet.fresh (i j : Nat) (caller replier : Station) (policy policy' : Policy) : Duet where
  first := ((Automaton.idle i caller policy).obey .callCq).1
  second := Automaton.idle j replier policy'

namespace Standard

variable {caller replier : Station} {policy policy' : Policy} {start i j : Nat}
  {legs : Nat → Leg} {d : Duet}

theorem even_leg (h : Standard caller replier policy' start legs) {k : Nat} (hk : k % 2 = 0) :
    (legs k).granted = true ∧ (legs k).granted' = false := by
  rw [h.granted, h.granted']
  exact ⟨decide_eq_true (by omega), decide_eq_false (by omega)⟩

theorem odd_leg (h : Standard caller replier policy' start legs) {k : Nat} (hk : k % 2 = 1) :
    (legs k).granted = false ∧ (legs k).granted' = true := by
  rw [h.granted, h.granted']
  exact ⟨decide_eq_false (by omega), decide_eq_true (by omega)⟩

theorem next_cycle (h : Standard caller replier policy' start legs) (k : Nat) :
    (legs (k + 1)).slot.cycle = (legs k).slot.cycle + 1 := by
  rw [h.cycle, h.cycle, Nat.add_assoc]

theorem toCaller (h : Standard caller replier policy' start legs) :
    IsPair caller.call replier.call :=
  ⟨h.call, h.notCq, h.call'⟩

theorem toReplier (h : Standard caller replier policy' start legs) :
    IsPair replier.call caller.call :=
  ⟨h.call', h.notCq', h.call⟩

/-- The call is read as it was meant. -/
theorem parse_call (h : Standard caller replier policy' start legs) :
    parse (cq none caller.call (some caller.grid)).text =
      cq none caller.call (some caller.grid) :=
  parse_text ⟨by simp, h.call, by simpa using h.square, by simp⟩

/-- The two operators keep their set-up in all legs. -/
theorem setUp (hd : d = Duet.fresh i j caller replier policy policy') (legs : Nat → Leg) (k : Nat) :
    ((d.before legs k).first.station = caller ∧ (d.before legs k).first.contact.operator = i) ∧
      (d.before legs k).second.station = replier ∧
        (d.before legs k).second.policy = policy' ∧
        (d.before legs k).second.contact.operator = j := by
  subst hd
  exact Duet.setUp_before ..

/-- **The first operator calls.** -/
theorem leg_zero (h : Standard caller replier policy' start legs)
    (hd : d = Duet.fresh i j caller replier policy policy') :
    Passed (d.before legs 1).first (d.before legs 1).second .callingCq
        ⟨.caller, none, none, none, none⟩ (legs 0).slot .idle ⟨.caller, none, none, none, none⟩
        { (legs 0).copy with text := (cq none caller.call (some caller.grid)).text } ∧
      (d.brought legs 0).1.Brings
        (some ⟨i, (cq none caller.call (some caller.grid)).text, caller.frequencyHz,
          (legs 0).slot.startMs⟩) [] ∧
      (d.brought legs 0).2.Brings none [] := by
  subst hd
  obtain ⟨hgranted, hgranted'⟩ := h.even_leg (k := 0) rfl
  have hgrid : caller.grid ≠ "" := (isToken_grid h.square).ne
  obtain ⟨hspeaks, hbrings⟩ := Automaton.speaks_call hgrid i policy (legs 0).slot
  obtain ⟨y, hpauses, hlistens, hstation⟩ := Automaton.listens_idle j replier policy' (legs 0).slot
  have htargets : y.concerns
      { (legs 0).copy with text := (cq none caller.call (some caller.grid)).text } =
        y.station.targets caller.call := Automaton.concerns_of_call h.parse_call
  have hconcerns : y.station.targets caller.call = true := by
    simp [Station.targets, hstation, h.target, Text.sameCall_refl]
  exact Duet.leg_opening (d := Duet.fresh i j caller replier policy policy') hgranted hgranted'
    hspeaks hbrings hpauses hlistens (htargets.trans hconcerns)

/-- **The second operator answers** with its grid. -/
theorem leg_one (h : Standard caller replier policy' start legs)
    (hd : d = Duet.fresh i j caller replier policy policy') :
    Passed (d.before legs 2).second (d.before legs 2).first .replying
        ⟨.replier, some caller.call, some caller.grid, none, none⟩ (legs 1).slot .awaitingReply
        ⟨.caller, none, none, none, none⟩
        { (legs 1).copy' with text := (grid caller.call replier.call replier.grid).text } ∧
      (d.brought legs 1).1.Brings none [] ∧
      (d.brought legs 1).2.Brings
        (some ⟨j, (grid caller.call replier.call replier.grid).text, replier.frequencyHz,
          (legs 1).slot.startMs⟩) [] := by
  obtain ⟨hpassed, -, -⟩ := h.leg_zero hd
  obtain ⟨⟨hstation, -⟩, hstation', hpolicy, hoperator⟩ := setUp hd legs 1
  obtain ⟨hgranted, hgranted'⟩ := h.odd_leg (k := 1) rfl
  have hanswer := hpassed.listens.answers_call (hpolicy ▸ h.answers) h.parse_call (legs 1).slot
  rw [hstation', hoperator] at hanswer
  have hread : parse (grid caller.call replier.call replier.grid).text =
      grid caller.call replier.call replier.grid :=
    parse_text ⟨h.toCaller, h.square'⟩
  refine Duet.leg_second hpassed rfl rfl (h.next_cycle 0) hgranted hgranted' hanswer ?_
  rw [hread, hstation]
  exact Text.sameCall_refl _

/-- **The first operator gives a report.** -/
theorem leg_two (h : Standard caller replier policy' start legs)
    (hd : d = Duet.fresh i j caller replier policy policy') :
    Passed (d.before legs 3).first (d.before legs 3).second .exchanging
        ⟨.caller, some replier.call, some replier.grid, some (legs 1).copy'.snr, none⟩
        (legs 2).slot .awaitingReply
        ⟨.replier, some caller.call, some caller.grid, none, none⟩
        { (legs 2).copy with
          text := (report replier.call caller.call (legs 1).copy'.snr).text } ∧
      (d.brought legs 2).1.Brings
        (some ⟨i, (report replier.call caller.call (legs 1).copy'.snr).text, caller.frequencyHz,
          (legs 2).slot.startMs⟩) [] ∧
      (d.brought legs 2).2.Brings none [] := by
  obtain ⟨hpassed, -, -⟩ := h.leg_one hd
  obtain ⟨⟨hstation, hoperator⟩, hstation', -, -⟩ := setUp hd legs 2
  obtain ⟨hgranted, hgranted'⟩ := h.even_leg (k := 2) rfl
  have hread : parse (grid caller.call replier.call replier.grid).text =
      grid (d.before legs 2).first.station.call replier.call replier.grid := by
    rw [hstation]
    exact parse_text ⟨h.toCaller, h.square'⟩
  have hanswer := hpassed.listens.takes_answer hread (legs 2).slot
  rw [hstation, hoperator] at hanswer
  refine Duet.leg_first hpassed rfl rfl (h.next_cycle 1) hgranted hgranted' hanswer ?_
  rw [parse_text (m := report replier.call caller.call _) h.toReplier, hstation']
  exact Text.sameCall_refl _

/-- **The second operator confirms it** and gives one of its own: its level is that at which the
report was copied, and what it has been given is the report as read, within its bounds. -/
theorem leg_three (h : Standard caller replier policy' start legs)
    (hd : d = Duet.fresh i j caller replier policy policy') :
    Passed (d.before legs 4).second (d.before legs 4).first .exchanging
        ⟨.replier, some caller.call, some caller.grid, some (legs 2).copy.snr,
          some (clampReport (legs 1).copy'.snr)⟩
        (legs 3).slot .awaitingConfirm
        ⟨.caller, some replier.call, some replier.grid, some (legs 1).copy'.snr, none⟩
        { (legs 3).copy' with
          text := (rogerReport caller.call replier.call (legs 2).copy.snr).text } ∧
      (d.brought legs 3).1.Brings none [] ∧
      (d.brought legs 3).2.Brings
        (some ⟨j, (rogerReport caller.call replier.call (legs 2).copy.snr).text,
          replier.frequencyHz, (legs 3).slot.startMs⟩) [] := by
  obtain ⟨hpassed, -, -⟩ := h.leg_two hd
  obtain ⟨⟨hstation, -⟩, hstation', -, hoperator⟩ := setUp hd legs 3
  obtain ⟨hgranted, hgranted'⟩ := h.odd_leg (k := 3) rfl
  have hread : parse (report replier.call caller.call (legs 1).copy'.snr).text =
      report (d.before legs 3).second.station.call caller.call
        (clampReport (legs 1).copy'.snr) := by
    rw [hstation']
    exact parse_text (m := report replier.call caller.call _) h.toReplier
  have hanswer := hpassed.listens.takes_report hread (legs 3).slot
  rw [hstation', hoperator] at hanswer
  refine Duet.leg_second hpassed rfl rfl (h.next_cycle 2) hgranted hgranted' hanswer ?_
  rw [parse_text (m := rogerReport caller.call replier.call _) h.toCaller, hstation]
  exact Text.sameCall_refl _

/-- **The first operator closes.** -/
theorem leg_four (h : Standard caller replier policy' start legs)
    (hd : d = Duet.fresh i j caller replier policy policy') :
    Passed (d.before legs 5).first (d.before legs 5).second .logging
        ⟨.caller, some replier.call, some replier.grid, some (legs 1).copy'.snr,
          some (clampReport (legs 2).copy.snr)⟩
        (legs 4).slot .awaitingConfirm
        ⟨.replier, some caller.call, some caller.grid, some (legs 2).copy.snr,
          some (clampReport (legs 1).copy'.snr)⟩
        { (legs 4).copy with text := (roger replier.call caller.call true).text } ∧
      (d.brought legs 4).1.Brings
        (some ⟨i, (roger replier.call caller.call true).text, caller.frequencyHz,
          (legs 4).slot.startMs⟩) [] ∧
      (d.brought legs 4).2.Brings none [] := by
  obtain ⟨hpassed, -, -⟩ := h.leg_three hd
  obtain ⟨⟨hstation, hoperator⟩, hstation', -, -⟩ := setUp hd legs 4
  obtain ⟨hgranted, hgranted'⟩ := h.even_leg (k := 4) rfl
  have hread : parse (rogerReport caller.call replier.call (legs 2).copy.snr).text =
      rogerReport (d.before legs 4).first.station.call replier.call
        (clampReport (legs 2).copy.snr) := by
    rw [hstation]
    exact parse_text (m := rogerReport caller.call replier.call _) h.toCaller
  have hanswer := hpassed.listens.takes_rogerReport hread (legs 4).slot
  rw [hstation, hoperator] at hanswer
  refine Duet.leg_first hpassed rfl rfl (h.next_cycle 3) hgranted hgranted' hanswer ?_
  rw [parse_text (m := roger replier.call caller.call true) h.toReplier, hstation']
  exact Text.sameCall_refl _

/-- The second operator closes, and **the first one logs the contact**, with the report it gave as
it was measured and the one it got as it was read. -/
theorem leg_five (h : Standard caller replier policy' start legs)
    (hd : d = Duet.fresh i j caller replier policy policy') :
    (d.before legs 6).first.Pauses ∧
      (d.before legs 6).second.Speaks .logging
        ⟨.replier, some caller.call, some caller.grid, some (legs 2).copy.snr,
          some (clampReport (legs 1).copy'.snr)⟩ (legs 5).slot ∧
      (d.brought legs 5).1.Brings none
        [⟨i, caller.call, replier.call, some replier.grid, some (legs 1).copy'.snr,
          some (clampReport (legs 2).copy.snr), caller.frequencyHz, (legs 4).slot.startMs⟩] ∧
      (d.brought legs 5).2.Brings
        (some ⟨j, (seventyThree caller.call replier.call).text, replier.frequencyHz,
          (legs 5).slot.startMs⟩) [] := by
  obtain ⟨hpassed, -, -⟩ := h.leg_four hd
  obtain ⟨⟨hstation, hoperator⟩, hstation', -, hoperator'⟩ := setUp hd legs 5
  obtain ⟨hgranted, hgranted'⟩ := h.odd_leg (k := 5) rfl
  have hread : parse (roger replier.call caller.call true).text =
      roger (d.before legs 5).second.station.call caller.call true := by
    rw [hstation']
    exact parse_text (m := roger replier.call caller.call true) h.toReplier
  have hanswer := hpassed.listens.takes_roger hread (legs 5).slot
  rw [hstation', hoperator'] at hanswer
  have hleg := Duet.leg_closing hpassed rfl hgranted hgranted' hanswer
  rw [hstation, hoperator] at hleg
  exact hleg

/-- **The second operator logs the contact.** -/
theorem leg_six (h : Standard caller replier policy' start legs)
    (hd : d = Duet.fresh i j caller replier policy policy') :
    (d.brought legs 6).1.Brings (d.brought legs 6).1.transmission [] ∧
      (d.brought legs 6).2.Brings none
        [⟨j, replier.call, caller.call, some caller.grid, some (legs 2).copy.snr,
          some (clampReport (legs 1).copy'.snr), replier.frequencyHz, (legs 5).slot.startMs⟩] := by
  obtain ⟨hpauses, hspeaks, -, -⟩ := h.leg_five hd
  obtain ⟨-, hstation', -, hoperator'⟩ := setUp hd legs 6
  obtain ⟨-, hgranted'⟩ := h.even_leg (k := 6) rfl
  have hleg := Duet.leg_closed hpauses hspeaks rfl hgranted'
  rw [hstation', hoperator'] at hleg
  exact hleg

end Standard

/-! ## The exchange -/

/-- What a leg brings, read off its two outcomes. -/
theorem Duet.reads {legs : Nat → Leg} {d : Duet} {k : Nat} {sent sent' : Option Transmission}
    {log log' : List LogEntry} (h : (d.brought legs k).1.Brings sent log)
    (h' : (d.brought legs k).2.Brings sent' log') :
    d.sent legs k = sent.toList ++ sent'.toList ∧ d.logged legs k = (log, log') ∧
      d.givesUp legs k = false := by
  rw [Duet.sent, logged, givesUp, h.transmission, h'.transmission, h.logged, h'.logged, h.patient,
    h'.patient]
  exact ⟨rfl, rfl, rfl⟩

/-- A message of three tokens is sent with one space between them. -/
theorem Message.text_of_tokens {m : Message} {x y z : String} (h : m.tokens = [x, y, z]) :
    m.text = x ++ " " ++ y ++ " " ++ z := by
  apply String.toList_injective
  simp [text, h, List.intercalate]

/-- **The standard exchange completes.**  Whatever the two stations and the
levels at which they hear each other, the first six legs carry the six
messages of a contact, one in each.  In the leg after its closing message
each operator logs the contact, with the partner's call and grid, the report
that it gave and the one that it got; nothing else is logged in seven legs,
and nobody gives up. -/
theorem standard_exchange {caller replier : Station} {policy' : Policy} {start : Nat}
    {legs : Nat → Leg} (h : Standard caller replier policy' start legs) (i j : Nat)
    (policy : Policy) :
    let d := Duet.fresh i j caller replier policy policy'
    let a := caller.call
    let b := replier.call
    let given := (legs 1).copy'.snr
    let given' := (legs 2).copy.snr
    let level (snr : Int) := String.ofList (reportText snr)
    let text (x y z : String) := x ++ " " ++ y ++ " " ++ z
    (List.range 6).map (d.sent legs) =
        [[⟨i, text "CQ" a caller.grid, caller.frequencyHz, (legs 0).slot.startMs⟩],
          [⟨j, text a b replier.grid, replier.frequencyHz, (legs 1).slot.startMs⟩],
          [⟨i, text b a (level given), caller.frequencyHz, (legs 2).slot.startMs⟩],
          [⟨j, text a b ("R" ++ level given'), replier.frequencyHz, (legs 3).slot.startMs⟩],
          [⟨i, text b a "RR73", caller.frequencyHz, (legs 4).slot.startMs⟩],
          [⟨j, text a b "73", replier.frequencyHz, (legs 5).slot.startMs⟩]] ∧
      (List.range 7).map (d.logged legs) =
        [([], []), ([], []), ([], []), ([], []), ([], []),
          ([⟨i, a, b, some replier.grid, some given, some (clampReport given'),
            caller.frequencyHz, (legs 4).slot.startMs⟩], []),
          ([], [⟨j, b, a, some caller.grid, some given', some (clampReport given),
            replier.frequencyHz, (legs 5).slot.startMs⟩])] ∧
      (List.range 7).map (d.givesUp legs) = List.replicate 7 false := by
  intro d a b given given' level text
  obtain ⟨-, h0, h0'⟩ := h.leg_zero (d := d) rfl
  obtain ⟨-, h1, h1'⟩ := h.leg_one (d := d) rfl
  obtain ⟨-, h2, h2'⟩ := h.leg_two (d := d) rfl
  obtain ⟨-, h3, h3'⟩ := h.leg_three (d := d) rfl
  obtain ⟨-, h4, h4'⟩ := h.leg_four (d := d) rfl
  obtain ⟨-, -, h5, h5'⟩ := h.leg_five (d := d) rfl
  obtain ⟨h6, h6'⟩ := h.leg_six (d := d) rfl
  obtain ⟨hsent0, hlogged0, hpatient0⟩ := Duet.reads h0 h0'
  obtain ⟨hsent1, hlogged1, hpatient1⟩ := Duet.reads h1 h1'
  obtain ⟨hsent2, hlogged2, hpatient2⟩ := Duet.reads h2 h2'
  obtain ⟨hsent3, hlogged3, hpatient3⟩ := Duet.reads h3 h3'
  obtain ⟨hsent4, hlogged4, hpatient4⟩ := Duet.reads h4 h4'
  obtain ⟨hsent5, hlogged5, hpatient5⟩ := Duet.reads h5 h5'
  obtain ⟨-, hlogged6, hpatient6⟩ := Duet.reads h6 h6'
  have hsix : List.range 6 = [0, 1, 2, 3, 4, 5] := rfl
  have hseven : List.range 7 = [0, 1, 2, 3, 4, 5, 6] := rfl
  rw [hsix, hseven]
  simp only [List.map_cons, List.map_nil]
  refine ⟨?_, ?_, ?_⟩
  · have hroger : String.ofList ('R' :: reportText given') = "R" ++ level given' := by
      apply String.toList_injective
      simp [level]
    rw [hsent0, hsent1, hsent2, hsent3, hsent4, hsent5, text_of_tokens rfl, text_of_tokens rfl,
      text_of_tokens rfl, text_of_tokens rfl, text_of_tokens rfl, text_of_tokens rfl, hroger]
    rfl
  · rw [hlogged0, hlogged1, hlogged2, hlogged3, hlogged4, hlogged5, hlogged6]
  · rw [hpatient0, hpatient1, hpatient2, hpatient3, hpatient4, hpatient5, hpatient6]
    rfl

/-- Two calls that look like contents, levels out of range, an odd first cycle
and no patience at all. -/
theorem standard_exchange_odd :
    let caller := Station.ofCall "RR73" "FN42" 700 [1]
    let replier := { Station.ofCall "73" "EN37" 1500 [0] with target := some "RR73" }
    let legs (k : Nat) : Leg :=
      ⟨Mode.ft4.slot (7 + k), decide (k % 2 = 0), decide (k % 2 = 1), ⟨"", 45, 0, 0, 0⟩,
        ⟨"", -31, 0, 0, 0⟩⟩
    let d := Duet.fresh 0 0 caller replier { patience := 1 } { patience := 1 }
    Standard caller replier { patience := 1 } 7 legs ∧
      ((List.range 6).map (d.sent legs)).map (fun sent => sent.map (·.message)) =
        [["CQ RR73 FN42"], ["RR73 73 EN37"], ["73 RR73 -30"], ["RR73 73 R+30"],
          ["73 RR73 RR73"], ["RR73 73 73"]] := by
  intro caller replier legs d
  have h : Standard caller replier { patience := 1 } 7 legs :=
    { call := by decide +kernel
      notCq := by decide
      square := by decide
      call' := by decide +kernel
      notCq' := by decide
      square' := by decide
      target := rfl
      answers := rfl
      cycle := fun _ => rfl
      granted := fun k => decide_eq_decide.2 (by omega)
      granted' := fun k => decide_eq_decide.2 (by omega) }
  obtain ⟨hsent, -⟩ := standard_exchange h 0 0 { patience := 1 }
  refine ⟨h, ?_⟩
  rw [hsent]
  decide +kernel

end SlotRadio
