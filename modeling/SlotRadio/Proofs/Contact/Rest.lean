import SlotRadio.Proofs.Contact.Opening
/-!
# An operator at rest

Who is told to drop its contact rests: it is idle, with no partner and with
nothing staged, queued, waiting or on the air.  The side it took and the
cycle of its last transmission stay as they were, but nobody looks at them
before there is a partner again.

* `call_of_rests` — a frame that a resting operator acts on is a call to
  everybody that it answers;
* `beginSlot_of_rests` — a slot in which it answers none reports nothing
  and sends nothing;
* `rests_live` — so it rests, and is silent, until it answers a call or is
  told something;
* `abort_silences` — the same from the moment in which the contact is
  dropped.
-/

namespace SlotRadio

/-- True for a call to everybody. -/
def Message.isCall : Message → Bool
  | cq .. => true
  | grid .. | report .. | rogerReport .. | roger .. | seventyThree .. | freeText _ => false

/-- True for an occasion on which the operator is told something. -/
def Occasion.isTold : Occasion → Bool
  | told _ => true
  | heard _ | moved _ | slot .. => false

namespace Automaton

/-- The operator has nothing to do. -/
structure Rests (a : Automaton) : Prop where
  phase : a.contact.phase = .idle
  staged : a.staged = none
  target : a.contact.target = none
  sentLast : a.sentLast = false
  onAir : a.onAir = false

/-- True when, of some frames that act one after the other, one is a call to
everybody that the operator answers. -/
def answersIn (slot : Slot) : Automaton → List Frame → Bool
  | _, [] => false
  | a, f :: fs =>
    match a.hear f with
    | some b => (Message.parse f.text).isCall || answersIn slot (b.noteProgress slot) fs
    | none => answersIn slot a fs

/-- True when a slot makes the operator answer a call that it has heard. -/
def answers (a : Automaton) : Occasion → Bool
  | .slot slot _ => answersIn slot (a.atSlot slot) a.inbox
  | .told _ | .heard _ | .moved _ => false

/-- True when the operator answers a call on a course. -/
def answersAlong (a : Automaton) : List Occasion → Bool
  | [] => false
  | o :: course => a.answers o || (a.meet o).answersAlong course

/-- What a course reports. -/
def tellsAlong (a : Automaton) : List Occasion → List ContactEvent
  | [] => []
  | o :: course => a.tells o ++ (a.meet o).tellsAlong course

variable {a b : Automaton} {slot : Slot}

theorem answersIn_of_some {f : Frame} (h : a.hear f = some b) (slot : Slot)
    (frames : List Frame) :
    answersIn slot a (f :: frames) =
      ((Message.parse f.text).isCall || answersIn slot (b.noteProgress slot) frames) := by
  conv =>
    lhs
    unfold answersIn
  simp only [h]

theorem answersIn_of_none {f : Frame} (h : a.hear f = none) (slot : Slot) (frames : List Frame) :
    answersIn slot a (f :: frames) = answersIn slot a frames := by
  conv =>
    lhs
    unfold answersIn
  simp only [h]

/-- **Only a call wakes a resting operator up.**  It has no partner who could
go on, and it has not called. -/
theorem call_of_rests (h : a.Rests) {f : Frame} (hb : a.hear f = some b) :
    (Message.parse f.text).isCall = true := by
  rcases hear_cases hb with ⟨sender, grid, -, -, -, rfl⟩ | ⟨_, _, _, -, hphase, -⟩ |
    ⟨_, _, htarget, -⟩
  · obtain ⟨modifier, sender, grid, hcall, -⟩ := call_of_staged hb rfl
    rw [hcall]
    rfl
  · rcases hphase with hphase | hphase <;> cases h.phase.symm.trans hphase
  · rw [h.target] at htarget
    cases htarget

/-- An inbox without a call that is answered does nothing. -/
theorem hearAll_of_rests (h : a.Rests) {frames : List Frame}
    (hcalls : answersIn slot a frames = false) : hearAll slot a frames = (a, false) := by
  induction frames with
  | nil => rfl
  | cons f frames ih =>
    cases hf : a.hear f with
    | some b =>
      rw [answersIn_of_some hf, call_of_rests h hf, Bool.true_or] at hcalls
      cases hcalls
    | none =>
      rw [answersIn_of_none hf] at hcalls
      rw [hearAll_of_none hf]
      exact ih hcalls

/-- What was on the air ended before the operator went to rest. -/
theorem finish_of_rests (h : a.Rests) (slot : Slot) :
    a.finish slot = ({ a with slot := some slot }, []) := by
  simp [finish, h.sentLast, h.onAir]

theorem rests_atSlot (h : a.Rests) (slot : Slot) : (a.atSlot slot).Rests := by
  rw [atSlot, finish_of_rests h]
  exact ⟨h.phase, h.staged, h.target, h.sentLast, h.onAir⟩

/-- A resting operator sends nothing. -/
theorem send_of_rests (h : a.Rests) (slot : Slot) : a.send slot = (a, none) := by
  have hlistens : a.contact.phase.transmits = false := by
    rw [h.phase]
    rfl
  rw [send, enterStaged_of_none h.staged]
  rcases transmit_of_listening hlistens slot with heq | ⟨_, _, hmanual, -⟩
  · exact heq
  · cases h.phase.symm.trans hmanual

/-- **A slot leaves a resting operator at rest,** unless it makes it answer a call: nothing was on
the air, nothing is staged, and there is no silence to count. -/
theorem beginSlot_of_rests (h : a.Rests)
    (hcalls : answersIn slot (a.atSlot slot) a.inbox = false) (granted : Bool) :
    a.beginSlot slot granted = ({ a with inbox := [], slot := some slot }, ⟨none, []⟩) := by
  have hrests := rests_atSlot h slot
  have hslot : a.atSlot slot = { a with inbox := [], slot := some slot } := by
    rw [atSlot, finish_of_rests h]
  have hsilence : (a.atSlot slot).countSilence slot granted false = (a.atSlot slot, []) := by
    simp [countSilence, hrests.phase, Phase.awaits]
  have hsettle : a.settle slot granted = (a.atSlot slot, []) := by
    rw [settle_eq, listen_eq, hearAll_of_rests hrests hcalls, hsilence, finish_of_rests h]
    rfl
  rw [← hslot]
  cases granted with
  | false => simp only [beginSlot, hsettle, Bool.false_eq_true, if_false]
  | true =>
    have hsend : (a.atSlot slot).transmit slot = (a.atSlot slot, none) := by
      simpa [send, enterStaged_of_none hrests.staged] using send_of_rests hrests slot
    simp [beginSlot, hsettle, enterStaged_of_none hrests.staged, hsend]

/-- **One occasion leaves a resting operator at rest** and makes it neither
report nor send anything. -/
theorem rests_meet (h : a.Rests) {o : Occasion} (hnew : o.isTold = false)
    (hcalls : a.answers o = false) :
    (a.meet o).Rests ∧ a.tells o = [] ∧ a.sends o = [] := by
  cases o with
  | told c => cases hnew
  | heard f =>
    refine ⟨?_, rfl, rfl⟩
    rw [meet, receive]
    split
    · exact ⟨h.phase, h.staged, h.target, h.sentLast, h.onAir⟩
    · exact h
  | moved s => exact ⟨⟨h.phase, h.staged, h.target, h.sentLast, h.onAir⟩, rfl, rfl⟩
  | slot slot granted =>
    have hslot := beginSlot_of_rests h hcalls granted
    rw [meet, tells, sends, hslot]
    exact ⟨⟨h.phase, h.staged, h.target, h.sentLast, h.onAir⟩, rfl, rfl⟩

/-- **A resting operator rests on,** as long as it is told nothing and answers no call, along any
course of frames, set-ups and slots. -/
theorem rests_live (h : a.Rests) {course : List Occasion}
    (hnew : ∀ o ∈ course, o.isTold = false) (hcalls : a.answersAlong course = false) :
    a.tellsAlong course = [] ∧ a.sentAlong course = [] ∧
      ∀ first second, course = first ++ second → (a.live first).Rests := by
  induction course generalizing a with
  | nil =>
    refine ⟨rfl, rfl, fun first second hcourse => ?_⟩
    obtain ⟨rfl, -⟩ := List.append_eq_nil_iff.1 hcourse.symm
    exact h
  | cons o course ih =>
    rw [answersAlong, Bool.or_eq_false_iff] at hcalls
    obtain ⟨hnext, htells, hsends⟩ := rests_meet h (hnew o List.mem_cons_self) hcalls.1
    obtain ⟨htold, hsent, hrests⟩ :=
      ih hnext (fun p hp => hnew p (List.mem_cons_of_mem o hp)) hcalls.2
    refine ⟨?_, ?_, fun first second hcourse => ?_⟩
    · rw [tellsAlong, htells, htold, List.append_nil]
    · rw [sentAlong, hsends, hsent, List.append_nil]
    · cases first with
      | nil => exact h
      | cons p first =>
        obtain ⟨rfl, rfl⟩ := List.cons.inj hcourse
        exact hrests first second rfl

/-- Dropping the contact puts the operator to rest. -/
theorem rests_abort (a : Automaton) : (a.meet (.told .abort)).Rests := by
  rw [meet, obey, goTo_fst]
  exact ⟨rfl, rfl, rfl, rfl, rfl⟩

/-- **Dropping the contact silences the operator.**  Whatever it was doing
when it was told so, and whatever frames it then hears, set-ups it is given
and slots begin, granted or not: as long as it is told nothing else and
answers no call to everybody, it reports nothing, sends nothing, and at
every moment is idle with nothing staged, no partner and nothing on the
air. -/
theorem abort_silences (a : Automaton) {later : List Occasion}
    (hnew : ∀ o ∈ later, o.isTold = false)
    (hcalls : (a.meet (.told .abort)).answersAlong later = false) :
    (a.meet (.told .abort)).tellsAlong later = [] ∧
      (a.meet (.told .abort)).sentAlong later = [] ∧
      ∀ first second, later = first ++ second →
        ((a.meet (.told .abort)).live first).Rests :=
  rests_live (rests_abort a) hnew hcalls

/-- A caller drops its contact after it has given its report.  The partner
goes on, and a station that is not to be worked calls. -/
theorem abort_silences_partner :
    let station := { Station.ofCall "K1ABC" "FN42" 700 [0] with target := some "N0CALL" }
    let a := (idle 0 station {}).live
      [.told .callCq, .slot (Mode.ft8.slot 0) true, .heard ⟨"K1ABC W9XYZ EN37", -5, 0, 0, 0⟩,
        .slot (Mode.ft8.slot 2) true, .heard ⟨"K1ABC W9XYZ R-07", -5, 0, 0, 0⟩]
    let later : List Occasion :=
      [.heard ⟨"K1ABC W9XYZ R-07", -5, 0, 0, 0⟩, .slot (Mode.ft8.slot 4) true,
        .moved { station with frequencyHz := 1500 }, .heard ⟨"CQ W9XYZ EN37", -5, 0, 0, 0⟩,
        .heard ⟨"K1ABC W9XYZ RR73", -5, 0, 0, 0⟩, .slot (Mode.ft8.slot 6) true,
        .slot (Mode.ft8.slot 8) true]
    a.contact.phase = .exchanging ∧ a.inbox ≠ [] ∧ a.policy.answersTarget = true ∧
      (∀ o ∈ later, o.isTold = false) ∧ (a.meet (.told .abort)).answersAlong later = false ∧
      (a.meet (.told .abort)).tellsAlong later = [] ∧
      ((a.meet (.told .abort)).live later).Rests := by
  intro station a later
  have hphase : a.contact.phase = .exchanging := by decide +kernel
  have hinbox : a.inbox ≠ [] := by
    have hlength : a.inbox.length = 1 := by decide +kernel
    exact List.ne_nil_of_length_pos (by omega)
  have hnew : ∀ o ∈ later, o.isTold = false := by decide +kernel
  have hcalls : (a.meet (.told .abort)).answersAlong later = false := by decide +kernel
  obtain ⟨htells, -, hrests⟩ := abort_silences a hnew hcalls
  exact ⟨hphase, hinbox, by decide +kernel, hnew, hcalls, htells,
    hrests later [] (List.append_nil later).symm⟩

end Automaton

end SlotRadio
