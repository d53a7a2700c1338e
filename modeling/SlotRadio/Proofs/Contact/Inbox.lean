import Mathlib.Data.List.DropRight
import Mathlib.Data.List.Induction
import SlotRadio.Proofs.Contact.Course
/-!
# The inbox between two slots

Frames that concern an operator wait in its inbox for the next slot, the
last sixty-four of them and no more.  The slot hears them in their order
and keeps none.

* `live_heard` — what waits after some frames have been heard;
* `exists_heard` — a frame that waits was heard after the last slot, and
  concerned the operator as it was set up then;
* `hearAll_append` — an inbox is heard part by part;
* `beginSlot_of_hearAll` — a slot depends on its inbox only by what hearing
  it does.
-/

namespace SlotRadio

namespace Automaton

variable {a : Automaton} {slot : Slot} {granted : Bool}

/-! ## What waits -/

/-- Of a list that grows at its end the last `n` are kept by dropping the
first of them when there are so many already. -/
theorem rtake_concat {α : Type} (xs : List α) (x : α) {n : Nat} (hn : 0 < n) :
    (xs ++ [x]).rtake n =
      (if (xs.rtake n).length = n then (xs.rtake n).drop 1 else xs.rtake n) ++ [x] := by
  have hcut : xs.length + 1 - n ≤ xs.length := by omega
  have hconcat : (xs ++ [x]).rtake n = xs.drop (xs.length + 1 - n) ++ [x] := by
    rw [List.rtake, List.length_append, List.length_singleton, List.drop_append_of_le_length hcut]
  rw [hconcat, List.rtake, List.length_drop]
  split
  · next hfull =>
    rw [List.drop_drop]
    congr 2
    omega
  · next hroom =>
    congr 2
    omega

/-- A frame that concerns the operator waits, and of too many the first is
dropped. -/
theorem receive_eq {past : List Frame} (h : a.inbox = past.rtake inboxLimit) (f : Frame) :
    a.receive f =
      { a with inbox := (past ++ [f].filter a.concerns).rtake inboxLimit } := by
  unfold receive
  split
  · next hconcerns =>
    rw [List.filter_cons_of_pos hconcerns, List.filter_nil,
      rtake_concat past f (by decide : 0 < inboxLimit), ← h]
  · next hnot =>
    rw [List.filter_cons_of_neg hnot, List.filter_nil, List.append_nil, ← h]

/-- Which frames concern an operator is a matter of its set-up. -/
theorem concerns_receive (a : Automaton) (f : Frame) : (a.receive f).concerns = a.concerns := by
  funext g
  simp only [concerns, station_receive]

/-- **What waits** after some frames have been heard: the last of those that
concern the operator, with what has waited before. -/
theorem live_heard {past : List Frame} (h : a.inbox = past.rtake inboxLimit)
    (frames : List Frame) :
    a.live (frames.map .heard) =
      { a with inbox := (past ++ frames.filter a.concerns).rtake inboxLimit } := by
  induction frames generalizing a past with
  | nil =>
    rw [List.filter_nil, List.append_nil, ← h]
    rfl
  | cons f frames ih =>
    have hfirst := receive_eq h f
    have hinbox : (a.receive f).inbox = (past ++ [f].filter a.concerns).rtake inboxLimit :=
      congrArg inbox hfirst
    calc a.live ((f :: frames).map .heard)
        = (a.receive f).live (frames.map .heard) := live_cons a (.heard f) (frames.map .heard)
      _ = { a.receive f with
            inbox := ((past ++ [f].filter a.concerns) ++ frames.filter a.concerns).rtake
              inboxLimit } := by
          rw [ih hinbox, concerns_receive]
      _ = { a with inbox := (past ++ (f :: frames).filter a.concerns).rtake inboxLimit } := by
          rw [hfirst, List.append_assoc, ← List.filter_append, List.singleton_append]

theorem rtake_of_length_le {α : Type} {xs : List α} {n : Nat} (h : xs.length ≤ n) :
    xs.rtake n = xs := by
  rw [List.rtake, Nat.sub_eq_zero_of_le h, List.drop_zero]

/-- A command keeps the inbox or empties it. -/
theorem inbox_obey (a : Automaton) (c : Command) :
    (a.obey c).1.inbox = a.inbox ∨ (a.obey c).1.inbox = [] := by
  cases c with
  | callCq =>
    left
    simp only [obey]
    split
    · rfl
    · rw [goTo_fst]
      rfl
  | callStation call grid =>
    left
    rw [obey, goTo_fst]
    rfl
  | abort =>
    right
    rw [obey, goTo_fst]
  | setManual on =>
    left
    cases on with
    | true => rw [obey, goTo_fst]
    | false =>
      simp only [obey]
      split
      · rw [goTo_fst]
      · rfl
  | queueMessage text =>
    left
    simp only [obey]
    split <;> rfl

/-- **No more than the limit** ever waits: a frame beyond it drops the oldest one, and everything
else leaves the inbox or empties it. -/
theorem inbox_length_meet (h : a.inbox.length ≤ inboxLimit) (o : Occasion) :
    (a.meet o).inbox.length ≤ inboxLimit := by
  cases o with
  | told c =>
    rcases inbox_obey a c with heq | heq
    · exact (congrArg List.length heq).trans_le h
    · exact (congrArg List.length heq).trans_le (Nat.zero_le _)
  | heard f =>
    rw [meet, receive_eq (rtake_of_length_le h).symm, List.rtake, List.length_drop]
    omega
  | moved s => exact h
  | slot slot granted =>
    rw [meet, inbox_beginSlot]
    exact Nat.zero_le _

theorem inbox_length_live (operator : Nat) (station : Station) (policy : Policy)
    (course : List Occasion) :
    ((idle operator station policy).live course).inbox.length ≤ inboxLimit :=
  live_invariant (P := fun b => b.inbox.length ≤ inboxLimit)
    (fun _ o h => inbox_length_meet h o) (Nat.zero_le _) course

/-- What waits after an occasion has waited before, or was just heard; no
frame waits longer than a slot. -/
theorem mem_inbox_meet {f : Frame} {o : Occasion} (h : f ∈ (a.meet o).inbox) :
    o.isSlot = false ∧ (f ∈ a.inbox ∨ o = .heard f ∧ a.concerns f = true) := by
  cases o with
  | told c =>
    refine ⟨rfl, .inl ?_⟩
    rcases inbox_obey a c with heq | heq
    · exact heq ▸ h
    · have hnone : f ∈ ([] : List Frame) := heq ▸ h
      cases hnone
  | heard g =>
    refine ⟨rfl, ?_⟩
    simp only [meet, receive] at h
    split at h
    · next hconcerns =>
      rcases List.mem_append.1 h with hkept | hnew
      · left
        split at hkept
        · exact List.mem_of_mem_drop hkept
        · exact hkept
      · obtain rfl := List.mem_singleton.1 hnew
        exact .inr ⟨rfl, hconcerns⟩
    · exact .inl h
  | moved s => exact ⟨rfl, .inl h⟩
  | slot slot granted =>
    rw [meet, inbox_beginSlot] at h
    cases h

/-- **Where a frame comes from:** it was heard after the last slot, and
concerned the operator as it was then. -/
theorem exists_heard (hempty : a.inbox = []) {course : List Occasion} {f : Frame}
    (h : f ∈ (a.live course).inbox) :
    ∃ before after, course = before ++ .heard f :: after ∧ (∀ o ∈ after, o.isSlot = false) ∧
      (a.live before).concerns f = true := by
  -- from the end: the last occasion let the frame wait, or was its arrival
  induction course using List.reverseRecOn with
  | nil =>
    rw [live_nil, hempty] at h
    cases h
  | append_singleton course o ih =>
    rw [live_concat] at h
    obtain ⟨hslot, hwaited | ⟨rfl, hconcerns⟩⟩ := mem_inbox_meet h
    · obtain ⟨before, after, rfl, hafter, hconcerns⟩ := ih hwaited
      refine ⟨before, after ++ [o], by simp, ?_, hconcerns⟩
      exact List.forall_mem_append.2 ⟨hafter, by simpa using hslot⟩
    · exact ⟨course, [], rfl, by simp, hconcerns⟩

/-! ## What a slot hears -/

/-- The operator as it hears its inbox in a slot: what was on the air has
ended. -/
def atSlot (a : Automaton) (slot : Slot) : Automaton :=
  { (a.finish slot).1 with inbox := [] }

theorem listen_eq (a : Automaton) (slot : Slot) :
    (a.finish slot).1.listen slot = hearAll slot (a.atSlot slot) a.inbox := by
  rw [listen, inbox_finish, atSlot]

/-- What ends in a slot does not depend on the inbox, which is heard only afterwards. -/
theorem finish_inbox (a : Automaton) (frames : List Frame) (slot : Slot) :
    ({ a with inbox := frames } : Automaton).finish slot =
      ({ (a.finish slot).1 with inbox := frames }, (a.finish slot).2) := by
  unfold finish
  dsimp only
  split
  · unfold afterSending
    cases hphase : a.contact.phase with
    | callingCq | replying | exchanging => simp [goTo, hphase]
    | logging =>
      dsimp only
      split <;> simp [goTo, hphase, restart, Contact.reset, logEntry?]
    | idle | awaitingReply | awaitingConfirm | manual => rfl
  · rfl

/-- What a slot settles, by what hearing its inbox does. -/
theorem settle_inbox (a : Automaton) (frames : List Frame) (slot : Slot) (granted : Bool) :
    ({ a with inbox := frames } : Automaton).settle slot granted =
      (((hearAll slot (a.atSlot slot) frames).1.countSilence slot granted
          (hearAll slot (a.atSlot slot) frames).2).1,
        (a.finish slot).2 ++
          ((hearAll slot (a.atSlot slot) frames).1.countSilence slot granted
            (hearAll slot (a.atSlot slot) frames).2).2) := by
  rw [settle_eq, listen_eq, atSlot, finish_inbox]
  rfl

/-- **A slot depends on its inbox** only by what hearing it does. -/
theorem beginSlot_of_hearAll {xs ys : List Frame}
    (h : hearAll slot (a.atSlot slot) xs = hearAll slot (a.atSlot slot) ys) (granted : Bool) :
    ({ a with inbox := xs } : Automaton).beginSlot slot granted =
      ({ a with inbox := ys } : Automaton).beginSlot slot granted := by
  simp only [beginSlot, settle_inbox, h]

theorem hearAll_nil (slot : Slot) (a : Automaton) : hearAll slot a [] = (a, false) := rfl

/-- An inbox is heard part by part. -/
theorem hearAll_append (slot : Slot) (a : Automaton) (xs ys : List Frame) :
    hearAll slot a (xs ++ ys) =
      ((hearAll slot (hearAll slot a xs).1 ys).1,
        (hearAll slot a xs).2 || (hearAll slot (hearAll slot a xs).1 ys).2) := by
  induction xs generalizing a with
  | nil => rfl
  | cons f xs ih =>
    cases hf : a.hear f with
    | some b =>
      rw [List.cons_append, hearAll_of_some hf, hearAll_of_some hf, ih]
      rfl
    | none => rw [List.cons_append, hearAll_of_none hf, hearAll_of_none hf, ih]

end Automaton

end SlotRadio
