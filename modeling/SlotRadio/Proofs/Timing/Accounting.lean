import Mathlib.Algebra.GroupWithZero.Nat
import Mathlib.Order.MinMax
import SlotRadio.Proofs.Timing.Releasing
/-!
# Where the checkpoints of a schedule go

A schedule is turned to slots and shown the time, in any order.  What it
is shown between two turns is a **watch**: the slot and the looks at the
clock in it.  A checkpoint is *seen* in a watch if one of the looks comes
at its moment or later (`Watch.saw`), and *missed* otherwise.

* `Watched` — after some looks, the checkpoints that have been disposed of
  are the seen ones, because the offsets are ascending and a look stops at
  the first checkpoint that is still to come;
* `length_windowsOf_run` — every checkpoint of every watch is released, or
  reported as skipped, or missed;
* `checkpoints_accounted` — the same, watch by watch and in total.

A missed checkpoint goes without a report: turning to the next slot
releases a deadline that is still to come, but not what else there is.
-/

namespace SlotRadio

namespace Release

/-- The checkpoint that is released on time. -/
def checkpoint? : Release → Option Checkpoint
  | checkpoint c => some c
  | overrun .. | deadline _ => none

/-- The checkpoints that are reported as skipped. -/
def skipped : Release → List Nat
  | overrun _ skipped _ => skipped
  | checkpoint _ | deadline _ => []

end Release

/-- The checkpoints that are released on time, in order. -/
def onTimeOf (rs : List Release) : List Checkpoint :=
  rs.filterMap Release.checkpoint?

/-- The checkpoints that are reported as skipped, in order. -/
def skippedOf (rs : List Release) : List Nat :=
  rs.flatMap Release.skipped

@[simp] theorem skippedOf_append (xs ys : List Release) :
    skippedOf (xs ++ ys) = skippedOf xs ++ skippedOf ys :=
  List.flatMap_append

/-- What is disposed of is on time or skipped. -/
theorem length_windowsOf (rs : List Release) :
    (windowsOf rs).length = (onTimeOf rs).length + (skippedOf rs).length := by
  induction rs with
  | nil => rfl
  | cons r rs ih =>
    have hwindows : (windowsOf (r :: rs)).length = r.windows.length + (windowsOf rs).length :=
      List.length_append
    have hskipped : (skippedOf (r :: rs)).length = r.skipped.length + (skippedOf rs).length :=
      List.length_append
    have honTime : (onTimeOf (r :: rs)).length =
        r.checkpoint?.toList.length + (onTimeOf rs).length := by
      unfold onTimeOf
      rw [List.filterMap_cons]
      cases r.checkpoint? <;> simp [Nat.add_comm]
    have hone : r.windows.length = r.checkpoint?.toList.length + r.skipped.length := by
      cases r <;> simp [Release.windows, Release.checkpoint?, Release.skipped]
    omega

/-! ## Initial parts

In an ascending list what lies below a bound is an initial part. -/

section Initial

variable {α : Type} {p : α → Bool} {l : List α}

/-- Where a property once lost is not got back, the elements that have it are
those at the beginning. -/
theorem length_takeWhile_eq_countP (h : l.Pairwise fun a b => p b = true → p a = true) :
    (l.takeWhile p).length = l.countP p := by
  induction l with
  | nil => rfl
  | cons a rest ih =>
    rw [List.pairwise_cons] at h
    by_cases ha : p a = true
    · rw [List.takeWhile_cons_of_pos ha, List.countP_cons_of_pos ha, List.length_cons, ih h.2]
    · have hnone : rest.countP p = 0 := List.countP_eq_zero.2 fun b hb hpb => ha (h.1 b hb hpb)
      rw [List.takeWhile_cons_of_neg ha, List.countP_cons_of_neg ha, hnone]
      rfl

/-- Where a property once lost is not got back, an element has it exactly if
it stands before as many as have it. -/
theorem lt_countP_iff (h : l.Pairwise fun a b => p b = true → p a = true) (j : Nat) :
    j < l.countP p ↔ ∃ a, l[j]? = some a ∧ p a = true := by
  induction l generalizing j with
  | nil => simp
  | cons a rest ih =>
    rw [List.pairwise_cons] at h
    by_cases ha : p a = true
    · rw [List.countP_cons_of_pos ha]
      cases j with
      | zero => simp [ha]
      | succ j => simpa using ih h.2 j
    · have hnone : ∀ b ∈ a :: rest, ¬p b = true := by grind
      rw [List.countP_eq_zero.2 hnone]
      constructor
      · intro hj
        omega
      · rintro ⟨b, hb, hpb⟩
        exact absurd hpb (hnone b (List.mem_of_getElem? hb))

/-- Where a property once lost is not got back, elements dropped at the
beginning are dropped from those that have it. -/
theorem countP_drop (h : l.Pairwise fun a b => p b = true → p a = true) (n : Nat) :
    (l.drop n).countP p = l.countP p - n := by
  apply eq_of_forall_lt_iff
  intro j
  have hshift : j < l.countP p - n ↔ n + j < l.countP p := by omega
  rw [lt_countP_iff (h.sublist (List.drop_sublist ..)), hshift, lt_countP_iff h,
    List.getElem?_drop]

end Initial

/-- In an ascending list each entry is below all later ones. -/
theorem pairwise_of_ascending {offsets : List Nat} (h : Mode.ascending offsets = true) :
    offsets.Pairwise (· < ·) := by
  apply List.isChain_iff_pairwise.1
  induction offsets with
  | nil => exact .nil
  | cons a rest ih =>
    cases rest with
    | nil => exact .singleton a
    | cons b rest =>
      simp only [Mode.ascending, Bool.and_eq_true, decide_eq_true_eq] at h
      exact .cons_cons h.1 (ih h.2)

/-! ## Watches -/

/-- A slot and the looks at the clock before the next one begins, by the times
that were read. -/
structure Watch where
  slot : Slot
  looks : List Nat

namespace Watch

/-- True for a checkpoint that was due at one of the looks. -/
def saw (w : Watch) (offset : Nat) : Bool :=
  w.looks.any (w.slot.startMs + offset ≤ ·)

/-- The number of checkpoints that were due at one of the looks. -/
def seen (w : Watch) (offsets : List Nat) : Nat :=
  offsets.countP w.saw

/-- The number of checkpoints that were due at none of the looks. -/
def missed (w : Watch) (offsets : List Nat) : Nat :=
  offsets.countP fun offset => !w.saw offset

variable {offsets : List Nat}

/-- A checkpoint of the slot is seen or missed. -/
theorem seen_add_missed (w : Watch) (offsets : List Nat) :
    w.seen offsets + w.missed offsets = offsets.length := by
  have hall := List.length_eq_countP_add_countP w.saw (l := offsets)
  have hmissed : offsets.countP (fun offset => !w.saw offset) =
      offsets.countP fun offset => decide ¬w.saw offset = true :=
    List.countP_congr fun offset _ => by simp
  unfold seen missed
  omega

/-- Whoever saw a checkpoint saw the earlier ones. -/
theorem saw_initial (w : Watch) (hasc : offsets.Pairwise (· < ·)) :
    offsets.Pairwise fun a b => w.saw b = true → w.saw a = true := by
  refine hasc.imp ?_
  intro a b hab hb
  simp only [saw, List.any_eq_true, decide_eq_true_eq] at hb ⊢
  obtain ⟨now, hnow, hdue⟩ := hb
  exact ⟨now, hnow, by omega⟩

/-- A checkpoint is among the seen ones exactly if some look came at its
moment or later. -/
theorem lt_seen_iff (w : Watch) (hasc : offsets.Pairwise (· < ·)) (j : Nat) :
    j < w.seen offsets ↔ ∃ offset, offsets[j]? = some offset ∧ w.saw offset = true :=
  lt_countP_iff (w.saw_initial hasc) j

/-- Of two series of looks the one that went further counts. -/
theorem seen_append (hasc : offsets.Pairwise (· < ·)) (slot : Slot) (first second : List Nat) :
    (⟨slot, first ++ second⟩ : Watch).seen offsets =
      max ((⟨slot, first⟩ : Watch).seen offsets) ((⟨slot, second⟩ : Watch).seen offsets) := by
  apply eq_of_forall_lt_iff
  intro j
  rw [lt_max_iff, lt_seen_iff _ hasc, lt_seen_iff _ hasc, lt_seen_iff _ hasc]
  simp only [saw, List.any_append, Bool.or_eq_true, and_or_left, exists_or]

end Watch

namespace Schedule

/-- What can happen to a schedule: a slot begins, or it is shown the time. -/
inductive Step where
  | turn (slot : Slot)
  | look (now : Nat)

/-- What one step releases. -/
def take (s : Schedule) : Step → Schedule × List Release
  | .turn slot => s.beginSlot slot
  | .look now => s.release now

/-- Takes steps one after the other and lists what they release. -/
def run (s : Schedule) : List Step → Schedule × List Release
  | [] => (s, [])
  | step :: rest =>
    let (next, released) := s.take step
    let (last, later) := run next rest
    (last, released ++ later)

/-- The looks before the next slot begins. -/
def looksOf : List Step → List Nat
  | .look now :: rest => now :: looksOf rest
  | .turn _ :: _ | [] => []

/-- The slots that begin, each with the looks in it. -/
def watches : List Step → List Watch
  | .turn slot :: rest => ⟨slot, looksOf rest⟩ :: watches rest
  | .look _ :: rest => watches rest
  | [] => []

@[simp] theorem run_nil (s : Schedule) : s.run [] = (s, []) := rfl

@[simp] theorem run_cons (s : Schedule) (step : Step) (rest : List Step) :
    s.run (step :: rest) =
      (((s.take step).1.run rest).1, (s.take step).2 ++ ((s.take step).1.run rest).2) := rfl

/-- A course may be cut anywhere: its second part goes on from the schedule
that the first has led to. -/
theorem run_append (s : Schedule) (first second : List Step) :
    s.run (first ++ second) =
      (((s.run first).1.run second).1, (s.run first).2 ++ ((s.run first).1.run second).2) := by
  induction first generalizing s with
  | nil => rfl
  | cons step first ih => simp [ih]

/-! ## One step -/

/-- Turning to a slot releases at most a deadline. -/
theorem beginSlot_cases (s : Schedule) (slot : Slot) :
    (s.beginSlot slot).2 = [] ∨ ∃ old, (s.beginSlot slot).2 = [.deadline old] := by
  unfold beginSlot
  cases s.slot with
  | none => exact .inl rfl
  | some old =>
    cases s.deadlineReleased with
    | true => exact .inl rfl
    | false => exact .inr ⟨old, rfl⟩

/-- A slot that begins releases no checkpoint of the one before. -/
theorem windowsOf_beginSlot (s : Schedule) (slot : Slot) : windowsOf (s.beginSlot slot).2 = [] := by
  rcases beginSlot_cases s slot with h | ⟨old, h⟩ <;> rw [h] <;> rfl

/-- A slot that begins reports no checkpoint of the one before as skipped, not
even one that nobody has seen. -/
theorem skippedOf_beginSlot (s : Schedule) (slot : Slot) : skippedOf (s.beginSlot slot).2 = [] := by
  rcases beginSlot_cases s slot with h | ⟨old, h⟩ <;> rw [h] <;> rfl

/-- The pass over the coming checkpoints stops at the first that is not
due. -/
theorem next_sweep (s : Schedule) (slot : Slot) (now i : Nat) (offsets : List Nat)
    (pending : Bool) :
    (s.sweep slot now i offsets pending).next =
      i + (offsets.takeWhile fun offset => slot.startMs + offset ≤ now).length := by
  induction offsets generalizing i pending with
  | nil => rfl
  | cons offset rest ih =>
    by_cases hdue : slot.startMs + offset ≤ now
    · have hnow : ¬now < slot.startMs + offset := by omega
      rw [List.takeWhile_cons_of_pos (by simpa using hdue), List.length_cons]
      simp only [sweep, if_neg hnow]
      split <;> simp only [ih] <;> omega
    · rw [List.takeWhile_cons_of_neg (by simpa using hdue)]
      simp [sweep, if_pos (Nat.lt_of_not_le hdue)]

/-- What is released on time reports nothing as skipped. -/
theorem skippedOf_sweep (s : Schedule) (slot : Slot) (now i : Nat) (offsets : List Nat)
    (pending : Bool) : skippedOf (s.sweep slot now i offsets pending).released = [] := by
  induction offsets generalizing i pending with
  | nil => rfl
  | cons offset rest ih =>
    simp only [sweep]
    split
    · rfl
    · have hbefore : ∀ first : Bool,
          skippedOf (if first then [Release.deadline slot] else []) = [] := by
        intro first
        cases first <;> rfl
      split
      · simp only [skippedOf_append, hbefore, ih, List.append_nil]
      · simp only [skippedOf_append, hbefore, List.nil_append]
        exact ih ..

/-- **The count of the skipped checkpoints** goes up by those reported, and a turn of the slot,
which skips none, leaves it alone. -/
theorem overruns_take (s : Schedule) (step : Step) :
    (s.take step).1.overruns = s.overruns + (skippedOf (s.take step).2).length := by
  cases step with
  | turn slot =>
    show s.overruns = s.overruns + (skippedOf (s.beginSlot slot).2).length
    rw [skippedOf_beginSlot]
    rfl
  | look now =>
    simp only [take, release]
    split
    · rfl
    · next slot hslot =>
      have hreleased := skippedOf_sweep s slot now s.next (s.offsets.drop s.next)
        (!s.deadlineReleased && s.deadlineOf slot ≤ now)
      generalize s.sweep slot now s.next (s.offsets.drop s.next) _ = found at hreleased
      have hlast :
          skippedOf (if found.deadlinePending then [Release.deadline slot] else []) = [] := by
        cases found.deadlinePending <;> rfl
      have hreport : skippedOf (if found.skipped.isEmpty then []
          else [Release.overrun slot.id found.skipped found.lateMs]) = found.skipped := by
        cases found.skipped <;> simp [skippedOf, Release.skipped]
      simp only [skippedOf_append, hreleased, hlast, hreport, List.append_nil]

/-- **The counter counts what is reported**: it grows by the number of the
checkpoints that are reported as skipped. -/
theorem overruns_run (s : Schedule) (course : List Step) :
    (s.run course).1.overruns = s.overruns + (skippedOf (s.run course).2).length := by
  induction course generalizing s with
  | nil => rfl
  | cons step course ih =>
    have hstep := overruns_take s step
    rw [run_cons, ih, skippedOf_append, List.length_append]
    omega

/-- No step changes the checkpoints. -/
theorem offsets_take (s : Schedule) (step : Step) : (s.take step).1.offsets = s.offsets := by
  cases step with
  | turn slot => rfl
  | look now =>
    simp only [take, release]
    split <;> rfl

/-- Along a whole course the checkpoints stay the same. -/
theorem offsets_run (s : Schedule) (course : List Step) :
    (s.run course).1.offsets = s.offsets := by
  induction course generalizing s with
  | nil => rfl
  | cons step course ih =>
    rw [run_cons, ih]
    exact offsets_take s step

/-! ## A watch -/

/-- In a watch the checkpoints that have been disposed of are the seen
ones. -/
structure Watched (offsets : List Nat) (s : Schedule) (w : Watch) : Prop where
  current : s.slot = some w.slot
  same : s.offsets = offsets
  next : s.next = w.seen offsets

variable {offsets : List Nat} {s : Schedule} {slot : Slot} {looks : List Nat}

/-- When a slot has just begun nothing has been seen of it. -/
theorem watched_beginSlot (h : s.offsets = offsets) (slot : Slot) :
    Watched offsets (s.beginSlot slot).1 ⟨slot, []⟩ where
  current := rfl
  same := h
  next := by
    symm
    apply List.countP_eq_zero.2
    simp [Watch.saw]

/-- **A look disposes of what is due,** as the offsets are ascending: what has been due at some look
is then an initial part of them, and so is what this look adds to it. -/
theorem watched_release (hasc : offsets.Pairwise (· < ·)) (h : Watched offsets s ⟨slot, looks⟩)
    (now : Nat) : Watched offsets (s.release now).1 ⟨slot, looks ++ [now]⟩ := by
  have hlook : (fun offset => decide (slot.startMs + offset ≤ now)) =
      (⟨slot, [now]⟩ : Watch).saw := by
    funext offset
    simp [Watch.saw]
  have hinitial := (⟨slot, [now]⟩ : Watch).saw_initial hasc
  have hnext : (s.release now).1.next =
      s.next + ((⟨slot, [now]⟩ : Watch).seen offsets - s.next) := by
    simp only [release, h.current]
    rw [next_sweep, hlook, h.same,
      length_takeWhile_eq_countP (hinitial.sublist (List.drop_sublist ..)), countP_drop hinitial]
    rfl
  refine ⟨(released_release h.current now).current, ?_, ?_⟩
  · exact (offsets_take s (.look now)).trans h.same
  · rw [hnext, h.next, Watch.seen_append hasc]
    omega

/-- The looks of a watch release the checkpoints that they see. -/
theorem watched_looks (hasc : offsets.Pairwise (· < ·)) (h : Watched offsets s ⟨slot, looks⟩)
    (more : List Nat) :
    Watched offsets (s.run (more.map .look)).1 ⟨slot, looks ++ more⟩ ∧
      Released slot s (s.run (more.map .look)).1 (s.run (more.map .look)).2 := by
  induction more generalizing s looks with
  | nil =>
    rw [List.append_nil]
    exact ⟨h, released_refl h.current⟩
  | cons now more ih =>
    obtain ⟨hlater, hreleased⟩ := ih (watched_release hasc h now)
    rw [List.append_assoc] at hlater
    exact ⟨hlater, (released_release h.current now).trans hreleased⟩

/-- **The accounts of a course** that goes on in a watch. By induction on the course: a look moves
windows from those missed to those reported, and a turn opens another watch. -/
theorem length_windowsOf_run (hasc : offsets.Pairwise (· < ·))
    (h : Watched offsets s ⟨slot, looks⟩) (course : List Step) :
    (windowsOf (s.run course).2).length + s.next +
        (⟨slot, looks ++ looksOf course⟩ : Watch).missed offsets +
        ((watches course).map (·.missed offsets)).sum =
      offsets.length * ((watches course).length + 1) := by
  have hall : s.next + (⟨slot, looks⟩ : Watch).missed offsets = offsets.length := by
    rw [h.next, Watch.seen_add_missed]
  induction course generalizing s slot looks with
  | nil => simpa [windowsOf, looksOf, watches] using hall
  | cons step course ih =>
    cases step with
    | look now =>
      have hlook := released_release h.current now
      have hlength := hlook.windows.length_eq
      have hnext := hlook.next
      have hwatched := watched_release hasc h now
      have hlater := ih hwatched (by rw [hwatched.next, Watch.seen_add_missed])
      rw [List.length_range'] at hlength
      rw [List.append_assoc, List.singleton_append] at hlater
      simp only [run_cons, take, windowsOf_append, List.length_append, looksOf, watches]
      omega
    | turn next =>
      have hwatched := watched_beginSlot h.same next
      have hlater := ih hwatched (by rw [hwatched.next, Watch.seen_add_missed])
      have hbegun : (s.beginSlot next).1.next = 0 := rfl
      rw [List.nil_append] at hlater
      simp only [run_cons, take, windowsOf_append, windowsOf_beginSlot, List.nil_append, looksOf,
        List.append_nil, watches, List.map_cons, List.sum_cons, List.length_cons]
      rw [Nat.mul_add _ _ 1]
      omega

/-- Before the first slot nothing is released, so the accounts begin with it. -/
theorem length_windowsOf_idle (hasc : offsets.Pairwise (· < ·)) (hslot : s.slot = none)
    (hsame : s.offsets = offsets) (course : List Step) :
    (windowsOf (s.run course).2).length + ((watches course).map (·.missed offsets)).sum =
      offsets.length * (watches course).length := by
  induction course with
  | nil => rfl
  | cons step course ih =>
    cases step with
    | look now =>
      rw [run_cons, show s.take (.look now) = (s, []) from release_of_none hslot now]
      exact ih
    | turn slot =>
      have hlater := length_windowsOf_run hasc (watched_beginSlot hsame slot) course
      have hbegun : (s.beginSlot slot).1.next = 0 := rfl
      simp only [run_cons, take, windowsOf_append, windowsOf_beginSlot, List.nil_append, watches,
        List.map_cons, List.sum_cons, List.length_cons] at hlater ⊢
      omega

/-- **Where the checkpoints go.**  A schedule with ascending offsets is
turned to slots and shown the time in any order and at any times.

* The count of skipped checkpoints is the number of those reported as
  skipped.  With those released on time and the missed ones it makes up
  all checkpoints of all slots that have begun.
* From the beginning of a slot to that of the next one, what is released
  is about that slot, and its checkpoints are the seen ones, each of them
  once.  So if none is missed, every checkpoint is released exactly once. -/
theorem checkpoints_accounted {offsets : List Nat} (h : Mode.ascending offsets = true)
    (leadMs toleranceMs : Nat) (course : List Step) :
    let total := (idle offsets leadMs toleranceMs).run course
    total.1.overruns = (skippedOf total.2).length ∧
    total.1.overruns + (onTimeOf total.2).length + ((watches course).map (·.missed offsets)).sum =
      offsets.length * (watches course).length ∧
    ∀ (w : Watch) (next : Slot),
      let released := ((total.1.beginSlot w.slot).1.run (w.looks.map .look ++ [.turn next])).2
      (∀ r ∈ released, r.IsAbout w.slot) ∧ (windowsOf released).Nodup ∧
      (∀ j, j ∈ windowsOf released ↔ ∃ offset, offsets[j]? = some offset ∧ w.saw offset = true) ∧
      (w.missed offsets = 0 → (windowsOf released).Perm (List.range offsets.length)) := by
  intro total
  have hasc := pairwise_of_ascending h
  have hcount : total.1.overruns = (skippedOf total.2).length :=
    (overruns_run (idle offsets leadMs toleranceMs) course).trans (Nat.zero_add _)
  refine ⟨hcount, ?_, ?_⟩
  · have hall : (windowsOf total.2).length + ((watches course).map (·.missed offsets)).sum =
        offsets.length * (watches course).length := length_windowsOf_idle hasc rfl rfl course
    rw [length_windowsOf] at hall
    rw [hcount]
    omega
  · intro w next released
    have hsame : total.1.offsets = offsets := offsets_run (idle offsets leadMs toleranceMs) course
    obtain ⟨hwatched, hlooks⟩ :=
      watched_looks hasc (watched_beginSlot hsame w.slot) w.looks
    have hall := hlooks.trans (released_beginSlot hwatched.current next)
    have hlist : released = ((total.1.beginSlot w.slot).1.run (w.looks.map .look)).2 ++
        (((total.1.beginSlot w.slot).1.run (w.looks.map .look)).1.beginSlot next).2 := by
      simp only [released, run_append, run_cons, run_nil, take, List.append_nil]
    rw [← hlist] at hall
    have hwindows : (windowsOf released).Perm (List.range (w.seen offsets)) := by
      have hnext : ((total.1.beginSlot w.slot).1.run (w.looks.map .look)).1.next = w.seen offsets :=
        hwatched.next
      rw [List.range_eq_range', ← hnext]
      exact hall.windows
    refine ⟨hall.about, hwindows.nodup_iff.2 List.nodup_range, ?_, ?_⟩
    · intro j
      rw [hwindows.mem_iff, List.mem_range]
      exact w.lt_seen_iff hasc j
    · intro hnone
      have hseen : w.seen offsets = offsets.length := by
        have hboth := w.seen_add_missed offsets
        omega
      rw [← hseen]
      exact hwindows

/-- A second look that comes late, but in the slot. -/
theorem checkpoints_accounted_late :
    let offsets := Mode.ft8.checkpoints
    let w : Watch := ⟨Mode.ft8.slot 0, [11820, 14900]⟩
    let s := ((idle offsets 250 100).beginSlot w.slot).1
    let released := (s.run (w.looks.map .look ++ [.turn (Mode.ft8.slot 1)])).2
    Mode.ascending offsets = true ∧ w.missed offsets = 0 ∧
      released = [.checkpoint ⟨w.slot, 0, 11800⟩, .overrun 0 [1, 2] 1100, .deadline w.slot] ∧
      (windowsOf released).Perm (List.range 3) := by
  intro offsets w s released
  have hasc : Mode.ascending offsets = true := by decide
  have hmissed : w.missed offsets = 0 := by decide
  have hslot := (checkpoints_accounted hasc 250 100 []).2.2 w (Mode.ft8.slot 1)
  exact ⟨hasc, hmissed, by decide, hslot.2.2.2 hmissed⟩

/-- **A stall that lasts into the next slot loses checkpoints.**  When the
next slot begins, the second and the third checkpoint of this one have
neither been released nor reported as skipped, nor are they counted. -/
theorem stall_across_slots :
    let slot := Mode.ft8.slot 0
    let s := ((idle Mode.ft8.checkpoints 250 100).beginSlot slot).1
    let after := s.run [.look 11850, .turn (Mode.ft8.slot 1), .look 15050]
    Mode.ascending Mode.ft8.checkpoints = true ∧
      after.2 = [.checkpoint ⟨slot, 0, 11800⟩, .deadline slot] ∧
      windowsOf after.2 = [0] ∧ after.1.overruns = 0 := by
  decide

end Schedule

end SlotRadio
