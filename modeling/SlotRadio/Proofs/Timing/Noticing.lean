import Mathlib.Data.List.Basic
import SlotRadio.Proofs.Timing.Accounting
/-!
# When a checkpoint is noticed

A checkpoint is noticed by the first look at the clock that comes at its
moment or later, and this look decides what becomes of it: it is released
if the look is in time, and skipped if not.  What the clock says later, or
has said before, does not matter.

* `onTimeOf_sweep`, `skipped_sweep` — one pass over the coming checkpoints
  releases or skips those that are due, up to the first that is not;
* `coming_release` — the look leaves the others, which later looks treat in
  the same way;
* `onTimeOf_looks`, `skippedOf_looks`, `next_looks` — what a series of looks
  releases, skips and disposes of, said of each checkpoint by itself.
-/

namespace SlotRadio

namespace Checkpoint

/-- The moment of a checkpoint. -/
def dueMs (c : Checkpoint) : Nat :=
  c.slot.startMs + c.offsetMs

/-- True at the moment of a checkpoint and later. -/
def isDue (c : Checkpoint) (now : Nat) : Bool :=
  c.dueMs ≤ now

/-- True as long as a checkpoint is not too late. -/
def inTime (c : Checkpoint) (toleranceMs now : Nat) : Bool :=
  now - c.dueMs ≤ toleranceMs

/-- The look at the clock that notices a checkpoint. -/
def noticed? (c : Checkpoint) (looks : List Nat) : Option Nat :=
  looks.find? c.isDue

/-- A checkpoint is due from its moment on. -/
theorem isDue_iff {c : Checkpoint} {n : Nat} :
    c.isDue n = true ↔ c.slot.startMs + c.offsetMs ≤ n :=
  decide_eq_true_iff

/-- A checkpoint is noticed in time up to the tolerance after its moment. -/
theorem inTime_iff {c : Checkpoint} {t n : Nat} :
    c.inTime t n = true ↔ n - (c.slot.startMs + c.offsetMs) ≤ t :=
  decide_eq_true_iff

/-- What is in time was in time before. -/
theorem inTime_of_le {c : Checkpoint} {toleranceMs t u : Nat} (h : u ≤ t)
    (ht : c.inTime toleranceMs t = true) : c.inTime toleranceMs u = true := by
  rw [inTime_iff] at ht ⊢
  omega

/-- A checkpoint that is due at a look is noticed by it. -/
theorem noticed?_of_isDue {c : Checkpoint} {now : Nat} (h : c.isDue now = true)
    (looks : List Nat) : c.noticed? (now :: looks) = some now :=
  List.find?_cons_of_pos h

/-- A checkpoint that is not due yet is left to the later looks. -/
theorem noticed?_of_not_isDue {c : Checkpoint} {now : Nat} (h : c.isDue now = false)
    (looks : List Nat) : c.noticed? (now :: looks) = c.noticed? looks :=
  List.find?_cons_of_neg (by simp [h])

end Checkpoint

@[simp] theorem onTimeOf_append (xs ys : List Release) :
    onTimeOf (xs ++ ys) = onTimeOf xs ++ onTimeOf ys :=
  List.filterMap_append

section Initial

variable {α : Type} {p : α → Bool} {l : List α}

/-- Where a property once lost is not got back, taking while it holds takes
all that have it. -/
theorem takeWhile_eq_filter (h : l.Pairwise fun a b => p b = true → p a = true) :
    l.takeWhile p = l.filter p := by
  induction l with
  | nil => rfl
  | cons a rest ih =>
    rw [List.pairwise_cons] at h
    by_cases ha : p a = true
    · rw [List.takeWhile_cons_of_pos ha, List.filter_cons_of_pos ha, ih h.2]
    · have hnone : ∀ b ∈ rest, ¬p b = true := fun b hb hpb => ha (h.1 b hb hpb)
      rw [List.takeWhile_cons_of_neg ha, List.filter_cons_of_neg ha, List.filter_eq_nil_iff.2 hnone]

/-- A list in which `p` holds of an initial part is that part and the rest. -/
theorem filter_append_filter_not (h : l.Pairwise fun a b => p b = true → p a = true) :
    l.filter p ++ l.filter (fun a => !p a) = l := by
  induction l with
  | nil => rfl
  | cons a rest ih =>
    rw [List.pairwise_cons] at h
    by_cases ha : p a = true
    · rw [List.filter_cons_of_pos ha, List.filter_cons_of_neg (by simpa using ha), List.cons_append,
        ih h.2]
    · have hnone : ∀ b ∈ a :: rest, ¬p b = true := by grind
      rw [List.filter_eq_nil_iff.2 hnone, List.nil_append,
        List.filter_eq_self.2 fun b hb => by simpa using hnone b hb]

/-- What is chosen from the initial part and what from the rest. -/
theorem filter_split (h : l.Pairwise fun a b => p b = true → p a = true) {q first second : α → Bool}
    (hfirst : ∀ a, p a = true → q a = first a) (hsecond : ∀ a, p a = false → q a = second a) :
    l.filter q = (l.filter p).filter first ++ (l.filter fun a => !p a).filter second := by
  conv_lhs => rw [← filter_append_filter_not h]
  rw [List.filter_append]
  congr 1
  · exact List.filter_congr fun a ha => hfirst a (List.mem_filter.1 ha).2
  · exact List.filter_congr fun a ha => hsecond a (by simpa using (List.mem_filter.1 ha).2)

end Initial

namespace Schedule

/-! ## The coming checkpoints -/

/-- The checkpoints of a slot with given offsets, the first of which has
index `i`. -/
def checkpointsFrom (slot : Slot) (i : Nat) (offsets : List Nat) : List Checkpoint :=
  (offsets.zipIdx i).map fun (offset, j) => ⟨slot, j, offset⟩

/-- The checkpoints that are still to come in a slot. -/
def coming (s : Schedule) (slot : Slot) : List Checkpoint :=
  checkpointsFrom slot s.next (s.offsets.drop s.next)

variable {s : Schedule} {slot : Slot}

theorem checkpointsFrom_cons (slot : Slot) (i offset : Nat) (rest : List Nat) :
    checkpointsFrom slot i (offset :: rest) =
      ⟨slot, i, offset⟩ :: checkpointsFrom slot (i + 1) rest := rfl

/-- The coming checkpoints are numbered from `next` on. -/
theorem index_coming (s : Schedule) (slot : Slot) :
    (s.coming slot).map Checkpoint.index = List.range' s.next (s.coming slot).length := by
  rw [coming, checkpointsFrom, List.map_map, List.length_map, List.length_zipIdx]
  exact List.zipIdx_map_snd s.next (s.offsets.drop s.next)

/-- Behind the first checkpoints come the others, with their own numbers. -/
theorem drop_checkpointsFrom (slot : Slot) (i : Nat) (offsets : List Nat) (n : Nat) :
    (checkpointsFrom slot i offsets).drop n = checkpointsFrom slot (i + n) (offsets.drop n) := by
  induction n generalizing i offsets with
  | zero => rfl
  | succ n ih =>
    cases offsets with
    | nil => rfl
    | cons offset rest =>
      rw [checkpointsFrom_cons, List.drop_succ_cons, List.drop_succ_cons, ih, Nat.add_right_comm]
      rfl

/-- A checkpoint of a slot has one of the offsets. -/
theorem mem_checkpointsFrom {c : Checkpoint} {i : Nat} {offsets : List Nat} :
    c ∈ checkpointsFrom slot i offsets ↔
      c.slot = slot ∧ i ≤ c.index ∧ offsets[c.index - i]? = some c.offsetMs := by
  obtain ⟨own, index, offset⟩ := c
  rw [checkpointsFrom, List.mem_map]
  constructor
  · rintro ⟨⟨o, j⟩, hmem, heq⟩
    obtain ⟨rfl, rfl, rfl⟩ := Checkpoint.mk.inj heq
    exact ⟨rfl, List.mk_mem_zipIdx_iff_le_and_getElem?_sub.1 hmem⟩
  · rintro ⟨rfl, hmem⟩
    exact ⟨(offset, index), List.mk_mem_zipIdx_iff_le_and_getElem?_sub.2 hmem, rfl⟩

/-- Ascending offsets give ascending moments. -/
theorem dueMs_checkpointsFrom {i : Nat} {offsets : List Nat} (hasc : offsets.Pairwise (· < ·)) :
    (checkpointsFrom slot i offsets).Pairwise fun c d => c.dueMs < d.dueMs := by
  induction offsets generalizing i with
  | nil => exact .nil
  | cons offset rest ih =>
    rw [List.pairwise_cons] at hasc
    rw [checkpointsFrom_cons, List.pairwise_cons]
    refine ⟨fun d hd => ?_, ih hasc.2⟩
    obtain ⟨hslot, -, hoffset⟩ := mem_checkpointsFrom.1 hd
    have hlater : offset < d.offsetMs := hasc.1 _ (List.mem_of_getElem? hoffset)
    simp only [Checkpoint.dueMs, hslot]
    omega

/-- The checkpoints to come are in the order of their moments. -/
theorem dueMs_coming (hasc : s.offsets.Pairwise (· < ·)) (slot : Slot) :
    (s.coming slot).Pairwise fun c d => c.dueMs < d.dueMs :=
  dueMs_checkpointsFrom (hasc.sublist (List.drop_sublist ..))

/-- Where one of the coming checkpoints is due, the earlier ones are. -/
theorem isDue_coming (hasc : s.offsets.Pairwise (· < ·)) (slot : Slot) (now : Nat) :
    (s.coming slot).Pairwise fun c d => d.isDue now = true → c.isDue now = true := by
  refine (dueMs_coming hasc slot).imp ?_
  intro c d hcd hd
  simp only [Checkpoint.isDue, decide_eq_true_eq] at hd ⊢
  omega

/-- What is chosen of the coming checkpoints by the look that notices them:
the present look notices those that are due, and a later one the others. -/
theorem filter_noticed? (hasc : s.offsets.Pairwise (· < ·)) (slot : Slot) (now : Nat)
    (looks : List Nat) (q : Checkpoint → Option Nat → Bool) :
    ((s.coming slot).filter fun c => q c (c.noticed? (now :: looks))) =
      ((s.coming slot).filter (·.isDue now)).filter (fun c => q c (some now)) ++
        ((s.coming slot).filter fun c => !c.isDue now).filter fun c => q c (c.noticed? looks) := by
  refine filter_split (isDue_coming hasc slot now) ?_ ?_
  · intro c hdue
    rw [Checkpoint.noticed?_of_isDue hdue]
  · intro c hdue
    rw [Checkpoint.noticed?_of_not_isDue hdue]

/-! ## One look -/

section Sweep

variable (s : Schedule) (slot : Slot) (now i : Nat) (offsets : List Nat) (pending : Bool)

/-- One pass releases those of the due checkpoints that are in time, whether or not the deadline
comes between them. -/
theorem onTimeOf_sweep :
    onTimeOf (s.sweep slot now i offsets pending).released =
      ((checkpointsFrom slot i offsets).takeWhile (·.isDue now)).filter
        (·.inTime s.toleranceMs now) := by
  induction offsets generalizing i pending with
  | nil => rfl
  | cons offset rest ih =>
    have hbefore : ∀ first : Bool,
        onTimeOf (if first then [Release.deadline slot] else []) = [] := by
      intro first
      cases first <;> rfl
    have hlast : ∀ c rs, onTimeOf (.checkpoint c :: rs) = c :: onTimeOf rs := fun _ _ => rfl
    have hnow := Checkpoint.isDue_iff (c := ⟨slot, i, offset⟩) (n := now)
    have hin := Checkpoint.inTime_iff (c := ⟨slot, i, offset⟩) (t := s.toleranceMs) (n := now)
    simp only [sweep, checkpointsFrom_cons, List.takeWhile_cons, hnow]
    split
    · next hlater =>
      rw [if_neg (Nat.not_le.2 hlater)]
      rfl
    · next hdue =>
      rw [if_pos (Nat.le_of_not_lt hdue), List.filter_cons]
      simp only [hin]
      split
      · next hlate =>
        rw [if_neg (Nat.not_le.2 hlate)]
        simp only [onTimeOf_append, hbefore, ih, List.nil_append]
      · next hearly =>
        rw [if_pos (Nat.le_of_not_lt hearly)]
        simp only [onTimeOf_append, hbefore, hlast, ih, List.nil_append]

/-- One pass skips the others of them. -/
theorem skipped_sweep :
    (s.sweep slot now i offsets pending).skipped =
      (((checkpointsFrom slot i offsets).takeWhile (·.isDue now)).filter
        fun c => !c.inTime s.toleranceMs now).map Checkpoint.index := by
  induction offsets generalizing i pending with
  | nil => rfl
  | cons offset rest ih =>
    have hnow := Checkpoint.isDue_iff (c := ⟨slot, i, offset⟩) (n := now)
    have hin := Checkpoint.inTime_iff (c := ⟨slot, i, offset⟩) (t := s.toleranceMs) (n := now)
    simp only [sweep, checkpointsFrom_cons, List.takeWhile_cons, hnow]
    split
    · next hlater =>
      rw [if_neg (Nat.not_le.2 hlater)]
      rfl
    · next hdue =>
      rw [if_pos (Nat.le_of_not_lt hdue), List.filter_cons]
      simp only [Bool.not_eq_true', ← Bool.not_eq_true, hin]
      split
      · next hlate =>
        rw [if_pos (Nat.not_le.2 hlate)]
        simp only [ih, List.map_cons]
      · next hearly =>
        rw [if_neg (not_not.2 (Nat.le_of_not_lt hearly))]
        exact ih ..

/-- One pass stops after the due checkpoints. -/
theorem next_sweep_eq :
    (s.sweep slot now i offsets pending).next =
      i + ((checkpointsFrom slot i offsets).takeWhile (·.isDue now)).length := by
  rw [next_sweep]
  congr 1
  induction offsets generalizing i with
  | nil => rfl
  | cons offset rest ih =>
    rw [checkpointsFrom_cons, List.takeWhile_cons, List.takeWhile_cons]
    show _ = (if decide (slot.startMs + offset ≤ now) = true then _
      else _ : List Checkpoint).length
    split
    · rw [List.length_cons, List.length_cons, ih]
    · rfl

end Sweep

/-- What a look at the clock reports is a report of skipped checkpoints, what
its pass has released, and a deadline that is still pending. -/
theorem release_eq (h : s.slot = some slot) (now : Nat) :
    let due := !s.deadlineReleased && s.deadlineOf slot ≤ now
    let found := s.sweep slot now s.next (s.offsets.drop s.next) due
    s.release now =
      ({ s with
          next := found.next
          deadlineReleased := s.deadlineReleased || due
          overruns := s.overruns + found.skipped.length },
        (if found.skipped.isEmpty then []
          else [.overrun slot.id found.skipped found.lateMs]) ++ found.released ++
        if found.deadlinePending then [.deadline slot] else []) := by
  unfold release
  rw [h]

variable (h : s.slot = some slot) (hasc : s.offsets.Pairwise (· < ·))

include h hasc

/-- **A look releases** the checkpoints that are due and in time. -/
theorem onTimeOf_release (now : Nat) :
    onTimeOf (s.release now).2 =
      ((s.coming slot).filter (·.isDue now)).filter (·.inTime s.toleranceMs now) := by
  have hsweep := onTimeOf_sweep s slot now s.next (s.offsets.drop s.next)
    (!s.deadlineReleased && s.deadlineOf slot ≤ now)
  have hdue := takeWhile_eq_filter (isDue_coming hasc slot now)
  rw [coming] at hdue ⊢
  rw [hdue] at hsweep
  have hreport : ∀ (b : Bool) skipped late,
      onTimeOf (if b then [] else [.overrun slot.id skipped late]) = [] := by
    intro b _ _
    cases b <;> rfl
  have hlast : ∀ b : Bool, onTimeOf (if b then [.deadline slot] else []) = [] := by
    intro b
    cases b <;> rfl
  rw [release_eq h]
  simp only [onTimeOf_append, hreport, hlast, hsweep, List.nil_append, List.append_nil]

/-- **A look skips** the checkpoints that are due and too late. -/
theorem skippedOf_release (now : Nat) :
    skippedOf (s.release now).2 =
      (((s.coming slot).filter (·.isDue now)).filter fun c =>
        !c.inTime s.toleranceMs now).map Checkpoint.index := by
  have hsweep := skipped_sweep s slot now s.next (s.offsets.drop s.next)
    (!s.deadlineReleased && s.deadlineOf slot ≤ now)
  have hreleased := skippedOf_sweep s slot now s.next (s.offsets.drop s.next)
    (!s.deadlineReleased && s.deadlineOf slot ≤ now)
  have hdue := takeWhile_eq_filter (isDue_coming hasc slot now)
  rw [coming] at hdue ⊢
  rw [hdue] at hsweep
  have hreport : ∀ (skipped : List Nat) (late : Nat),
      skippedOf (if skipped.isEmpty then [] else [.overrun slot.id skipped late]) = skipped := by
    intro skipped _
    cases skipped <;> simp [skippedOf, Release.skipped]
  have hlast : ∀ b : Bool, skippedOf (if b then [.deadline slot] else []) = [] := by
    intro b
    cases b <;> rfl
  rw [release_eq h]
  simp only [skippedOf_append, hreport, hlast, hreleased, hsweep, List.append_nil]

/-- A look disposes of the checkpoints that are due. -/
theorem next_release (now : Nat) :
    (s.release now).1.next = s.next + ((s.coming slot).filter (·.isDue now)).length := by
  rw [release_eq h, ← takeWhile_eq_filter (isDue_coming hasc slot now)]
  exact next_sweep_eq ..

/-- **A look leaves** the checkpoints that are not due. -/
theorem coming_release (now : Nat) :
    (s.release now).1.coming slot = (s.coming slot).filter fun c => !c.isDue now := by
  have hoffsets : (s.release now).1.offsets = s.offsets := offsets_take s (.look now)
  have hboth := filter_append_filter_not (isDue_coming hasc slot now)
  calc (s.release now).1.coming slot
      = (s.coming slot).drop ((s.coming slot).filter (·.isDue now)).length := by
        rw [coming, next_release h hasc, hoffsets, coming, drop_checkpointsFrom, List.drop_drop]
    _ = (s.coming slot).filter fun c => !c.isDue now := by
        conv_lhs => rw [← hboth]
        rw [List.drop_append_of_le_length, List.drop_eq_nil_of_le]
        all_goals simp

omit hasc

/-- What a look leaves as it is. -/
theorem fixed_release (now : Nat) :
    (s.release now).1.slot = some slot ∧ (s.release now).1.offsets = s.offsets ∧
      (s.release now).1.leadMs = s.leadMs ∧ (s.release now).1.toleranceMs = s.toleranceMs := by
  rw [release_eq h]
  exact ⟨h, rfl, rfl, rfl⟩

/-- A look does not move the deadline. -/
theorem deadlineOf_release (now : Nat) :
    (s.release now).1.deadlineOf slot = s.deadlineOf slot := by
  obtain ⟨-, -, hlead, -⟩ := fixed_release h now
  rw [deadlineOf, hlead, deadlineOf]

/-- The deadline counts as released from the first look at its moment or
later. -/
theorem deadlineReleased_release (now : Nat) :
    (s.release now).1.deadlineReleased =
      (s.deadlineReleased || decide (s.deadlineOf slot ≤ now)) := by
  rw [release_eq h]
  cases s.deadlineReleased <;> rfl

/-! ## A series of looks -/

/-- What a series of looks leaves as it is. -/
theorem fst_looks (looks : List Nat) :
    let after := (s.run (looks.map .look)).1
    after = { s with
      next := after.next
      deadlineReleased := after.deadlineReleased
      overruns := after.overruns } := by
  induction looks generalizing s with
  | nil => rfl
  | cons now looks ih =>
    obtain ⟨hslot, hoffsets, hlead, htolerance⟩ := fixed_release h now
    have hlater := ih hslot
    rw [hslot, hoffsets, hlead, htolerance, ← h] at hlater
    exact hlater

/-- What a series of looks releases is released altogether. -/
theorem released_looks (looks : List Nat) :
    Released slot s (s.run (looks.map .look)).1 (s.run (looks.map .look)).2 := by
  induction looks generalizing s with
  | nil => exact released_refl h
  | cons now looks ih => exact (released_release h now).trans (ih (fixed_release h now).1)

/-- The deadline is released by a look that comes at its moment or later. -/
theorem deadlineReleased_looks (looks : List Nat) :
    (s.run (looks.map .look)).1.deadlineReleased =
      (s.deadlineReleased || looks.any (s.deadlineOf slot ≤ ·)) := by
  induction looks generalizing s with
  | nil => simp
  | cons now looks ih =>
    have hlater := ih (fixed_release h now).1
    rw [deadlineOf_release h, deadlineReleased_release h] at hlater
    rw [List.map_cons, run_cons, List.any_cons, ← Bool.or_assoc]
    exact hlater

include hasc

/-- **A series of looks releases** the checkpoints that are noticed in
time. -/
theorem onTimeOf_looks (looks : List Nat) :
    onTimeOf (s.run (looks.map .look)).2 =
      (s.coming slot).filter fun c => (c.noticed? looks).any (c.inTime s.toleranceMs) := by
  induction looks generalizing s with
  | nil => simp [onTimeOf, Checkpoint.noticed?]
  | cons now looks ih =>
    obtain ⟨hslot, hoffsets, -, htolerance⟩ := fixed_release h now
    have hlater := ih hslot (hoffsets ▸ hasc)
    rw [coming_release h hasc, htolerance] at hlater
    rw [List.map_cons, run_cons, onTimeOf_append]
    refine (congrArg₂ (· ++ ·) (onTimeOf_release h hasc now) hlater).trans ?_
    exact (filter_noticed? hasc slot now looks fun c seen =>
      seen.any (c.inTime s.toleranceMs)).symm

/-- **A series of looks skips** the checkpoints that are noticed too late. By induction on the
looks: what the first one disposes of is no longer coming for the others. -/
theorem skippedOf_looks (looks : List Nat) :
    skippedOf (s.run (looks.map .look)).2 =
      ((s.coming slot).filter fun c =>
        (c.noticed? looks).any fun now => !c.inTime s.toleranceMs now).map Checkpoint.index := by
  induction looks generalizing s with
  | nil => simp [skippedOf, Checkpoint.noticed?]
  | cons now looks ih =>
    obtain ⟨hslot, hoffsets, -, htolerance⟩ := fixed_release h now
    have hlater := ih hslot (hoffsets ▸ hasc)
    rw [coming_release h hasc, htolerance] at hlater
    rw [List.map_cons, run_cons, skippedOf_append]
    refine (congrArg₂ (· ++ ·) (skippedOf_release h hasc now) hlater).trans ?_
    rw [← List.map_append]
    exact congrArg (List.map _) (filter_noticed? hasc slot now looks fun c seen =>
      seen.any fun when => !c.inTime s.toleranceMs when).symm

/-- **A series of looks disposes** of the checkpoints that are noticed at
all. -/
theorem next_looks (looks : List Nat) :
    (s.run (looks.map .look)).1.next =
      s.next + ((s.coming slot).filter fun c => (c.noticed? looks).isSome).length := by
  induction looks generalizing s with
  | nil => simp [Checkpoint.noticed?]
  | cons now looks ih =>
    obtain ⟨hslot, hoffsets, -, -⟩ := fixed_release h now
    have hlater := ih hslot (hoffsets ▸ hasc)
    rw [coming_release h hasc, next_release h hasc, Nat.add_assoc, ← List.length_append] at hlater
    rw [List.map_cons, run_cons, filter_noticed? hasc slot now looks fun _ seen => seen.isSome]
    simp only [Option.isSome_some, List.filter_true]
    exact hlater

end Schedule

end SlotRadio
