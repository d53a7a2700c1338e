import Mathlib.Data.List.Perm.Basic
import SlotRadio.Timing.Schedule
/-!
# What a schedule has released

Every checkpoint of a slot is disposed of in its turn: it is released on
time or reported as skipped, and `next` is the first that is still to
come.  So one look at the clock disposes of the checkpoints from the old
`next` up to the new one, each of them once (`Released.windows`); and it
releases the deadline if it is the one that notes it as released.

`swept_sweep` is this for the pass over the coming checkpoints, by
induction along them, and `released_release` for the look as a whole.
-/

namespace SlotRadio

namespace Release

/-- The checkpoints that are disposed of, by their position. -/
def windows : Release → List Nat
  | checkpoint c => [c.index]
  | overrun _ skipped _ => skipped
  | deadline _ => []

/-- The slot whose deadline is released. -/
def deadline? : Release → Option Slot
  | deadline slot => some slot
  | checkpoint _ | overrun .. => none

/-- What is released belongs to `slot`. -/
def IsAbout (slot : Slot) : Release → Prop
  | checkpoint c => c.slot = slot
  | overrun slotId _ _ => slotId = slot.id
  | deadline s => s = slot

end Release

/-- The checkpoints that are disposed of, in order. -/
def windowsOf (rs : List Release) : List Nat :=
  rs.flatMap Release.windows

/-- The deadlines that are released, in order. -/
def deadlinesOf (rs : List Release) : List Slot :=
  rs.filterMap Release.deadline?

@[simp] theorem windowsOf_append (xs ys : List Release) :
    windowsOf (xs ++ ys) = windowsOf xs ++ windowsOf ys :=
  List.flatMap_append

@[simp] theorem deadlinesOf_append (xs ys : List Release) :
    deadlinesOf (xs ++ ys) = deadlinesOf xs ++ deadlinesOf ys :=
  List.filterMap_append

namespace Schedule

/-- What one pass over the checkpoints from the `i`-th on has found. -/
structure Swept (slot : Slot) (i : Nat) (pending : Bool) (found : Sweep) : Prop where
  next : i ≤ found.next
  windows : (windowsOf found.released ++ found.skipped).Perm (List.range' i (found.next - i))
  deadlines : deadlinesOf found.released =
    if pending && !found.deadlinePending then [slot] else []
  still : found.deadlinePending = true → pending = true
  about : ∀ r ∈ found.released, r.IsAbout slot

variable {slot : Slot} {i : Nat} {pending : Bool}

/-- Nothing more is due. -/
theorem swept_nil (slot : Slot) (i : Nat) (pending : Bool) :
    Swept slot i pending ⟨[], [], 0, i, pending⟩ where
  next := Nat.le_refl i
  windows := by simp [windowsOf]
  deadlines := by cases pending <;> rfl
  still := id
  about := fun _ hr => absurd hr List.not_mem_nil

/-- The `i`-th checkpoint comes before the later ones, whether it is on
time or not. -/
theorem perm_range_cons {next : Nat} {windows : List Nat} (hnext : i + 1 ≤ next)
    (h : windows.Perm (List.range' (i + 1) (next - (i + 1)))) :
    (i :: windows).Perm (List.range' i (next - i)) := by
  have hlength : next - i = next - (i + 1) + 1 := by omega
  rw [hlength, List.range'_succ]
  exact h.cons i

/-- The deadline goes before the `i`-th checkpoint, or stays pending. -/
theorem deadlines_before {found : Sweep} (first : Bool) (hfirst : first = true → pending = true)
    (h : Swept slot (i + 1) (pending && !first) found) :
    deadlinesOf (if first then [.deadline slot] else []) ++ deadlinesOf found.released =
      if pending && !found.deadlinePending then [slot] else [] := by
  have hstill := h.still
  rw [h.deadlines]
  cases first with
  | false => simp [deadlinesOf]
  | true =>
    have hpending : pending = true := hfirst rfl
    have hgone : found.deadlinePending = false := by simpa using hstill
    simp [hpending, hgone, deadlinesOf, Release.deadline?]

/-- **One pass over the coming checkpoints** disposes of those that are
due, each of them once. -/
theorem swept_sweep (s : Schedule) (slot : Slot) (now i : Nat) (offsets : List Nat)
    (pending : Bool) : Swept slot i pending (s.sweep slot now i offsets pending) := by
  induction offsets generalizing i pending with
  | nil => exact swept_nil slot i pending
  | cons offset rest ih =>
    unfold sweep
    dsimp only
    split
    · exact swept_nil slot i pending
    · generalize hfirst : (pending && decide (s.deadlineOf slot ≤ slot.startMs + offset)) = first
      have hpending : first = true → pending = true := by
        intro htrue
        rw [← hfirst, Bool.and_eq_true] at htrue
        exact htrue.1
      have hrest := ih (i + 1) (pending && !first)
      generalize s.sweep slot now (i + 1) rest (pending && !first) = found at hrest
      have hdeadlines := deadlines_before first hpending hrest
      have hnext := hrest.next
      have hbefore : windowsOf (if first then [Release.deadline slot] else []) = [] := by
        cases first <;> rfl
      have habout : ∀ r ∈ (if first then [Release.deadline slot] else []), r.IsAbout slot := by
        cases first <;> simp [Release.IsAbout]
      have hstill : found.deadlinePending = true → pending = true := by
        intro hleft
        have hboth := hrest.still hleft
        rw [Bool.and_eq_true] at hboth
        exact hboth.1
      split
      · -- The checkpoint is noticed too late.
        refine ⟨Nat.le_of_succ_le hnext, ?_, ?_, hstill, ?_⟩
        · have hmiddle : (windowsOf found.released ++ i :: found.skipped).Perm
              (i :: (windowsOf found.released ++ found.skipped)) := List.perm_middle
          rw [windowsOf_append, hbefore, List.nil_append]
          exact hmiddle.trans (perm_range_cons hnext hrest.windows)
        · rw [deadlinesOf_append]
          exact hdeadlines
        · intro r hr
          exact (List.mem_append.1 hr).elim (habout r) (hrest.about r)
      · -- The checkpoint is on time.
        refine ⟨Nat.le_of_succ_le hnext, ?_, ?_, hstill, ?_⟩
        · rw [windowsOf_append, hbefore, List.nil_append]
          exact perm_range_cons hnext hrest.windows
        · rw [deadlinesOf_append]
          exact hdeadlines
        · intro r hr
          rcases List.mem_append.1 hr with hr | hr
          · exact habout r hr
          · rcases List.mem_cons.1 hr with rfl | hr
            · rfl
            · exact hrest.about r hr

/-- What a look at the clock has released in `slot`, which turned the
schedule `s` into `t`. -/
structure Released (slot : Slot) (s t : Schedule) (rs : List Release) : Prop where
  current : t.slot = some slot
  next : s.next ≤ t.next
  windows : (windowsOf rs).Perm (List.range' s.next (t.next - s.next))
  deadlines : deadlinesOf rs =
    if t.deadlineReleased && !s.deadlineReleased then [slot] else []
  stays : s.deadlineReleased = true → t.deadlineReleased = true
  about : ∀ r ∈ rs, r.IsAbout slot

/-- **A look at the clock disposes of the checkpoints that are due**, each
of them once, and releases the deadline if it is due for the first time. -/
theorem released_release {s : Schedule} (h : s.slot = some slot) (now : Nat) :
    Released slot s (s.release now).1 (s.release now).2 := by
  unfold release
  rw [h]
  dsimp only
  generalize hdue : (!s.deadlineReleased && decide (s.deadlineOf slot ≤ now)) = due
  have hfound := swept_sweep s slot now s.next (s.offsets.drop s.next) due
  generalize s.sweep slot now s.next (s.offsets.drop s.next) due = found at hfound
  generalize hreport : (if found.skipped.isEmpty then []
    else [Release.overrun slot.id found.skipped found.lateMs]) = report
  generalize hlast : (if found.deadlinePending then [Release.deadline slot] else []) = last
  have hreportWindows : windowsOf report = found.skipped := by
    rw [← hreport]
    cases found.skipped <;> simp [windowsOf, Release.windows]
  have hlastWindows : windowsOf last = [] := by
    rw [← hlast]
    cases found.deadlinePending <;> rfl
  have hdeadlines : deadlinesOf (report ++ found.released ++ last) =
      if due then [slot] else [] := by
    have hsilent : deadlinesOf report = [] := by
      rw [← hreport]
      cases found.skipped <;> rfl
    rw [deadlinesOf_append, deadlinesOf_append, hsilent, hfound.deadlines, ← hlast]
    cases hleft : found.deadlinePending with
    | false => simp [deadlinesOf]
    | true =>
      have hpending : due = true := hfound.still hleft
      simp [hpending, deadlinesOf, Release.deadline?]
  refine ⟨rfl, hfound.next, ?_, ?_, ?_, ?_⟩
  · rw [windowsOf_append, windowsOf_append, hreportWindows, hlastWindows, List.append_nil]
    exact List.perm_append_comm.trans hfound.windows
  · rw [hdeadlines, ← hdue]
    cases s.deadlineReleased <;> simp
  · intro hreleased
    simp [hreleased]
  · intro r hr
    rcases List.mem_append.1 hr with hr | hr
    · rcases List.mem_append.1 hr with hr | hr
      · rw [← hreport] at hr
        cases hskipped : found.skipped.isEmpty <;> simp [hskipped] at hr
        rw [hr]
        rfl
      · exact hfound.about r hr
    · rw [← hlast] at hr
      cases hleft : found.deadlinePending <;> simp [hleft] at hr
      rw [hr]
      rfl

/-- Without a slot nothing is released. -/
theorem release_of_none {s : Schedule} (h : s.slot = none) (now : Nat) :
    s.release now = (s, []) := by
  unfold release
  rw [h]

theorem released_refl {s : Schedule} (h : s.slot = some slot) : Released slot s s [] where
  current := h
  next := Nat.le_refl _
  windows := by simp [windowsOf]
  deadlines := by cases s.deadlineReleased <;> rfl
  stays := id
  about := fun _ hr => absurd hr List.not_mem_nil

/-- **What is released one after the other** is released altogether. -/
theorem Released.trans {s t u : Schedule} {first second : List Release}
    (h : Released slot s t first) (h' : Released slot t u second) :
    Released slot s u (first ++ second) := by
  have hst := h.next
  have htu := h'.next
  refine ⟨h'.current, Nat.le_trans hst htu, ?_, ?_, h'.stays ∘ h.stays, ?_⟩
  · have hwhole : u.next - s.next = (t.next - s.next) + (u.next - t.next) := by omega
    have hjoin : s.next + (t.next - s.next) = t.next := by omega
    rw [windowsOf_append, hwhole, ← List.range'_append_1, hjoin]
    exact h.windows.append h'.windows
  · have hstays := h.stays
    have hstays' := h'.stays
    rw [deadlinesOf_append, h.deadlines, h'.deadlines]
    cases hs : s.deadlineReleased with
    | true => simp [hstays hs]
    | false =>
      cases ht : t.deadlineReleased with
      | true => simp [hstays' ht]
      | false => simp
  · intro r hr
    exact (List.mem_append.1 hr).elim (h.about r) (h'.about r)

/-- **A deadline that is still to come** when the next slot begins is
released then. -/
theorem released_beginSlot {s : Schedule} (h : s.slot = some slot) (next : Slot) :
    Released slot s { s with deadlineReleased := true } (s.beginSlot next).2 := by
  have hlate : (s.beginSlot next).2 = if s.deadlineReleased then [] else [.deadline slot] := by
    unfold beginSlot
    rw [h]
    cases s.deadlineReleased <;> rfl
  rw [hlate]
  refine ⟨h, Nat.le_refl _, ?_, ?_, fun _ => rfl, ?_⟩
  · cases s.deadlineReleased <;> simp [windowsOf, Release.windows]
  · cases s.deadlineReleased <;> rfl
  · intro r hr
    cases hreleased : s.deadlineReleased with
    | true => simp [hreleased] at hr
    | false =>
      rw [hreleased] at hr
      rw [List.mem_singleton.1 hr]
      rfl

theorem beginSlot_of_none {s : Schedule} (h : s.slot = none) (next : Slot) :
    (s.beginSlot next).2 = [] := by
  unfold beginSlot
  rw [h]
  rfl

end Schedule

end SlotRadio
