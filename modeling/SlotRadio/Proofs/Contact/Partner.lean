import SlotRadio.Proofs.Contact.Opening
/-!
# What only the partner can do

Who is in a contact takes messages of its partner and of nobody else.  Each
of them is an overwrite: it settles reports and stages the phase that answers
it, and leaves everything else that hearing depends on as it is.  Of several
overwrites the last one decides, for each report and for the phase alone
(`Update.follow`), so an inbox is one overwrite as well, or none
(`Automaton.updates`).

* `hearAll_of_partner` — an inbox does to a contact what its overwrites do
  together;
* `hearAll_twice` — hearing an inbox twice is hearing it once, in a contact
  or not;
* `beginSlot_of_redelivery` — so a decoder may deliver the frames of a slot
  again;
* `beginSlot_of_strangers` — nobody else can disturb a contact.
-/

namespace SlotRadio

/-- True for a message that `call` sends to somebody.  A call to everybody
is not one. -/
def Message.isFrom (call : String) : Message → Bool
  | cq .. | freeText _ => false
  | m => m.sender?.any (Text.sameCall call)

/-- A message that is not a call comes from its sender. -/
theorem Message.isFrom_of_directed {m : Message}
    (hm : ∀ modifier sender grid, m ≠ .cq modifier sender grid) (call : String) :
    m.isFrom call = m.sender?.any (Text.sameCall call) := by
  cases m with
  | cq modifier sender grid => exact absurd rfl (hm modifier sender grid)
  | _ => rfl

/-- True for a frame that carries a message which `call` sends to somebody. -/
def Frame.comesFrom (f : Frame) (call : String) : Bool :=
  (Message.parse f.text).isFrom call

/-- What a message of the partner overwrites: the reports, where it settles
them, and the phase to enter next. -/
structure Update where
  given : Option Int
  got : Option Int
  next : Phase
  deriving DecidableEq, Repr

namespace Update

/-- What a message overwrites, as far as it does not depend on what was there
before. -/
def ofMessage? (role : Role) (phase : Phase) (snr : Int) (m : Message) : Option Update :=
  (Automaton.react { operator := 0, role, phase } snr m).map fun (c, next) =>
    ⟨c.reportSent, c.reportReceived, next⟩

/-- Nothing is overwritten in manual operation. -/
theorem ofMessage_manual (role : Role) (snr : Int) (m : Message) :
    ofMessage? role .manual snr m = none := by
  cases role <;> cases m <;> rfl

/-- One overwrite after the other. -/
def follow (u v : Update) : Update where
  given := v.given.or u.given
  got := v.got.or u.got
  next := v.next

instance : Std.Associative follow where
  assoc u v w := by simp [follow, Option.or_assoc]

/-- To overwrite twice with the same is to overwrite once. -/
instance : Std.IdempotentOp follow where
  idempotent u := by simp [follow]

end Update

namespace Automaton

variable {a : Automaton}

/-! ## Overwrites -/

/-- A partner's message overwrites. -/
theorem react_eq (c : Contact) (snr : Int) (m : Message) :
    react c snr m = (Update.ofMessage? c.role c.phase snr m).map fun u =>
      ({ c with
          reportSent := u.given.or c.reportSent
          reportReceived := u.got.or c.reportReceived },
        u.next) := by
  obtain ⟨_, phase, role, _, _, _, _, _, _, _⟩ := c
  cases role <;> cases phase <;> cases m <;> rfl

/-- What an overwrite makes of an operator. -/
def apply (a : Automaton) (u : Update) : Automaton :=
  { a with
    contact :=
      { a.contact with
        reportSent := u.given.or a.contact.reportSent
        reportReceived := u.got.or a.contact.reportReceived }
    staged := some u.next }

/-- What a frame overwrites: something only if it comes from the partner and
is addressed to the operator. -/
def update? (a : Automaton) (f : Frame) : Option Update :=
  if (Message.parse f.text).isFor a.station.call ∧ a.contact.target.any f.comesFrom then
    Update.ofMessage? a.contact.role a.contact.phase f.snr (Message.parse f.text)
  else none

/-- **Who opens no contact** takes the overwrites of its partner and nothing else: calls find it
busy, and answers find it closed. -/
theorem hear_of_partner (h : ¬a.Opening) (f : Frame) : a.hear f = (a.update? f).map a.apply := by
  have hbusy : a.contact.phase ≠ .idle := fun hidle => h (.inl hidle)
  have hopen : a.openForReply = false := Bool.eq_false_iff.2 fun hopen => h (.inr hopen)
  unfold update? Frame.comesFrom
  by_cases hcall : ∃ modifier sender grid, Message.parse f.text = .cq modifier sender grid
  · obtain ⟨modifier, sender, grid, hm⟩ := hcall
    simp [hear_of_call hm, hm, hearCall, hbusy, Message.isFor, Message.addressee?]
  · simp only [not_exists] at hcall
    rw [hear_of_directed hcall]
    simp only [Message.isFrom_of_directed hcall]
    generalize Message.parse f.text = m
    by_cases hmanual : a.contact.phase = .manual
    · simp [hearDirected, hmanual, Update.ofMessage_manual]
    · cases hfor : m.isFor a.station.call <;> cases hsender : m.sender? <;>
        simp [hearDirected, hmanual, hopen, hfor, hsender]
      next sender =>
      split
      · rw [react_eq, Option.map_map]
        rfl
      · rfl

/-- What the frames of an inbox overwrite together, if anything. -/
def updates (a : Automaton) (frames : List Frame) : Option Update :=
  (frames.map a.update?).foldr (Option.merge Update.follow) none

theorem updates_cons (a : Automaton) (f : Frame) (frames : List Frame) :
    a.updates (f :: frames) = Option.merge Update.follow (a.update? f) (a.updates frames) := by
  rw [updates, List.map_cons, List.foldr_cons, updates]

theorem updates_append (a : Automaton) (xs ys : List Frame) :
    a.updates (xs ++ ys) = Option.merge Update.follow (a.updates xs) (a.updates ys) := by
  induction xs with
  | nil => exact Option.merge_none_left.symm
  | cons f xs ih =>
    rw [List.cons_append, updates_cons, updates_cons, ih]
    exact (Std.Associative.assoc (a.update? f) (a.updates xs) (a.updates ys)).symm

/-- What an operator becomes that takes an overwrite in a slot, and whether
it has taken one. -/
def take (slot : Slot) (a : Automaton) : Option Update → Automaton × Bool
  | some u => ((a.apply u).noteProgress slot, true)
  | none => (a, false)

/-- One overwrite after the other is one overwrite. -/
theorem take_apply (slot : Slot) (a : Automaton) (u : Update) (v : Option Update) :
    (take slot ((a.apply u).noteProgress slot) v).1 =
      (take slot a (Option.merge Update.follow (some u) v)).1 := by
  cases v with
  | none => rfl
  | some v => simp [take, apply, noteProgress, Update.follow, Option.or_assoc]

/-- **An inbox does to a contact** what its overwrites do together, as none of them touches who the
partner is or what it may send. -/
theorem hearAll_of_partner (h : ¬a.Opening) (slot : Slot) (frames : List Frame) :
    hearAll slot a frames = take slot a (a.updates frames) := by
  induction frames generalizing a with
  | nil => rfl
  | cons f frames ih =>
    have hf := hear_of_partner h f
    rw [updates_cons]
    cases hu : a.update? f with
    | none =>
      rw [hu, Option.map_none] at hf
      rw [hearAll_of_none hf, ih h, Option.merge_none_left]
    | some u =>
      rw [hu, Option.map_some] at hf
      -- neither who the partner is nor what it may send has been overwritten
      have hrest : hearAll slot ((a.apply u).noteProgress slot) frames =
          take slot ((a.apply u).noteProgress slot) (a.updates frames) :=
        ih (a := (a.apply u).noteProgress slot) h
      rw [hearAll_of_some hf, hrest, take_apply]
      cases a.updates frames <;> rfl

/-! ## Frames that are delivered again -/

/-- **Hearing an inbox twice is hearing it once.**  Who opens a contact hears
nothing after the first good frame; who is in one is overwritten with the same
again. -/
theorem hearAll_twice (slot : Slot) (a : Automaton) (frames : List Frame) :
    hearAll slot a (frames ++ frames) = hearAll slot a frames := by
  by_cases h : a.Opening
  · rw [hearAll_of_opening h, List.find?_append, Option.or_self, ← hearAll_of_opening h]
  · rw [hearAll_of_partner h, hearAll_of_partner h, updates_append]
    exact congrArg (take slot a) (Std.IdempotentOp.idempotent (a.updates frames))

/-- **A decoder may deliver the frames of a slot again.**  Whatever an
operator is in the middle of and has heard before: if all that it hears finds
room in its inbox, then the slot that comes next brings the same and leaves
it in the same state, whether it has heard some frames once or one time after
the other. -/
theorem beginSlot_of_redelivery (a : Automaton) (frames : List Frame)
    (h : a.inbox.length + 2 * (frames.filter a.concerns).length ≤ inboxLimit) (slot : Slot)
    (granted : Bool) :
    ((a.live (frames.map .heard)).live (frames.map .heard)).beginSlot slot granted =
      (a.live (frames.map .heard)).beginSlot slot granted := by
  have hinbox : a.inbox = a.inbox.rtake inboxLimit := (rtake_of_length_le (by omega)).symm
  have honce : a.live (frames.map .heard) =
      { a with inbox := a.inbox ++ frames.filter a.concerns } := by
    rw [live_heard hinbox, rtake_of_length_le (by rw [List.length_append]; omega)]
  have htwice : a.live ((frames ++ frames).map .heard) =
      { a with inbox := a.inbox ++ (frames.filter a.concerns ++ frames.filter a.concerns) } := by
    rw [live_heard hinbox, List.filter_append,
      rtake_of_length_le (by simp only [List.length_append]; omega)]
  rw [← live_append, ← List.map_append, honce, htwice]
  refine beginSlot_of_hearAll ?_ granted
  rw [hearAll_append slot _ a.inbox, hearAll_append slot _ a.inbox, hearAll_twice]

/-- Two stations answer a call, and the decoder says so twice. -/
theorem beginSlot_of_redelivery_answers :
    let a := (idle 3 (Station.ofCall "K1ABC" "FN42" 700 [0]) {}).live
      [.told .callCq, .slot (Mode.ft8.slot 0) true]
    let pass := [⟨"K1ABC W9XYZ EN37", -12, 0, 0, 0⟩, ⟨"K1ABC N0CALL -07", -3, 0, 0, 0⟩]
    let once := (a.live (pass.map .heard)).beginSlot (Mode.ft8.slot 2) true
    a.inbox.length + 2 * (pass.filter a.concerns).length ≤ inboxLimit ∧
      ((a.live (pass.map .heard)).live (pass.map .heard)).beginSlot (Mode.ft8.slot 2) true = once ∧
      once.2.transmission = some ⟨3, "W9XYZ K1ABC -12", 700, 30000⟩ := by
  intro a pass once
  have hroom : a.inbox.length + 2 * (pass.filter a.concerns).length ≤ inboxLimit := by
    decide +kernel
  have hsent : once.2.transmission = some ⟨3, "W9XYZ K1ABC -12", 700, 30000⟩ := by decide +kernel
  exact ⟨hroom, beginSlot_of_redelivery a pass hroom (Mode.ft8.slot 2) true, hsent⟩

/-! ## Frames of other stations -/

/-- What is overwritten comes from the partner, so the other frames may be left out before. -/
theorem updates_filter {partner : String} (h : a.contact.target = some partner)
    (frames : List Frame) :
    a.updates (frames.filter fun f => f.comesFrom partner) = a.updates frames := by
  induction frames with
  | nil => rfl
  | cons f frames ih =>
    cases hf : f.comesFrom partner with
    | true => rw [List.filter_cons_of_pos (by exact hf), updates_cons, updates_cons, ih]
    | false =>
      have hnone : a.update? f = none := if_neg fun hboth => by simp [h, hf] at hboth
      rw [List.filter_cons_of_neg (by simp [hf]), updates_cons, ih, hnone, Option.merge_none_left]

/-- **Nobody else can disturb a contact.**  Let an operator have a partner,
whom it is answering, sending a report to, or waiting for, and let two
inboxes hold the same messages of the partner in the same order.  Whatever
else they hold, calls to everybody (the partner's own too), messages of other
stations to the operator or to anybody, and free text: the slot that comes
next brings the same and leaves it in the same state. -/
theorem beginSlot_of_strangers {partner : String} (htarget : a.contact.target = some partner)
    (hphase : a.contact.phase = .replying ∨ a.contact.phase = .exchanging ∨
      a.contact.phase = .awaitingReply ∨ a.contact.phase = .awaitingConfirm)
    {xs ys : List Frame}
    (h : (xs.filter fun f => f.comesFrom partner) = ys.filter fun f => f.comesFrom partner)
    (slot : Slot) (granted : Bool) :
    ({ a with inbox := xs } : Automaton).beginSlot slot granted =
      ({ a with inbox := ys } : Automaton).beginSlot slot granted := by
  have hslot : (a.atSlot slot).contact.target = some partner ∧
      (a.atSlot slot).contact.phase ≠ .idle := by
    rcases finish_cases a slot with ⟨sent, -, heq⟩ | ⟨next, -, hnext, heq⟩ |
      ⟨role, staged, -, hclosing, -⟩
    · rw [atSlot, heq]
      refine ⟨htarget, fun hidle => ?_⟩
      simp [show a.contact.phase = .idle from hidle] at hphase
    · rw [atSlot, heq]
      refine ⟨htarget, fun hidle => ?_⟩
      obtain rfl : next = .idle := hidle
      simp at hnext
    · simp [hclosing] at hphase
  have hcontact : ¬(a.atSlot slot).Opening := by
    rintro (hidle | hopen)
    · exact hslot.2 hidle
    · rw [(openForReply_iff.1 hopen).2.1] at hslot
      cases hslot.1
  refine beginSlot_of_hearAll ?_ granted
  rw [hearAll_of_partner hcontact, hearAll_of_partner hcontact, ← updates_filter hslot.1 xs, h,
    updates_filter hslot.1]

/-- While a report is confirmed, others call, close contacts that they have
never had, and answer a call that is over. -/
theorem beginSlot_of_strangers_confirming :
    let a := (idle 3 (Station.ofCall "K1ABC" "FN42" 700 [0]) {}).live
      [.told .callCq, .slot (Mode.ft8.slot 0) true,
        .heard ⟨"K1ABC W9XYZ EN37", -12, 0, 0, 0⟩, .slot (Mode.ft8.slot 2) true]
    let call : Frame := ⟨"CQ N0CALL FN20", -1, 0, 0, 0⟩
    let closing : Frame := ⟨"K1ABC N0CALL RR73", -1, 0, 0, 0⟩
    let confirming : Frame := ⟨"K1ABC W9XYZ R-07", -12, 0, 0, 0⟩
    let late : Frame := ⟨"K1ABC G4ABC IO91", -1, 0, 0, 0⟩
    let next := ({ a with inbox := [confirming] } : Automaton).beginSlot (Mode.ft8.slot 4) true
    a.contact.target = some "W9XYZ" ∧ a.contact.phase = .exchanging ∧
      ({ a with inbox := [call, closing, confirming, late] } : Automaton).beginSlot
        (Mode.ft8.slot 4) true = next ∧
      next.2.transmission = some ⟨3, "W9XYZ K1ABC RR73", 700, 60000⟩ := by
  intro a call closing confirming late next
  have htarget : a.contact.target = some "W9XYZ" := by decide +kernel
  have hphase : a.contact.phase = .exchanging := by decide +kernel
  have hsent : next.2.transmission = some ⟨3, "W9XYZ K1ABC RR73", 700, 60000⟩ := by decide +kernel
  have hcall : call.comesFrom "W9XYZ" = false := by decide +kernel
  have hclosing : closing.comesFrom "W9XYZ" = false := by decide +kernel
  have hconfirming : confirming.comesFrom "W9XYZ" = true := by decide +kernel
  have hlate : late.comesFrom "W9XYZ" = false := by decide +kernel
  refine ⟨htarget, hphase, ?_, hsent⟩
  refine beginSlot_of_strangers htarget (.inr (.inl hphase)) ?_ (Mode.ft8.slot 4) true
  simp [hcall, hclosing, hconfirming, hlate]

end Automaton

end SlotRadio
