import Mathlib.Data.List.Basic
import SlotRadio.Proofs.Timing.Noticing
/-!
# What a look at the clock releases, and in which order

A look releases what is due: first the report of the checkpoints that are
too late, then the others and the deadline in the order of their moments
(`Before`).  It has something to release exactly if the next moment that
the schedule knows of has come, and after it that moment is ahead
(`release_ne_nil_iff`, `lt_nextMoment?_release`).

From look to look the checkpoints go in the order of their index, because
those that are too late are the earlier ones (`windowsOf_release`).  So
from one turn of the schedule to the next they are `0, 1, 2, …`, whatever
the clock says; and the deadline is released once, by a look or by the
next turn.  `prompt_always` puts this together.
-/

namespace SlotRadio

namespace Release

/-- True for the report of checkpoints that were noticed too late. -/
def isOverrun : Release → Bool
  | overrun .. => true
  | checkpoint _ | deadline _ => false

/-- The order of the moments, where the deadline is at `limit` and goes
before a checkpoint at the same moment. -/
def Before (limit : Nat) : Release → Release → Prop
  | checkpoint c, checkpoint d => c.dueMs < d.dueMs
  | checkpoint c, deadline _ => c.dueMs < limit
  | deadline _, checkpoint c => limit ≤ c.dueMs
  | deadline _, deadline _ | overrun .., _ | _, overrun .. => False

end Release

/-- What reports come first and what follows them dispose of: the skipped windows stand in the
reports only, and those released in time only behind them. -/
theorem windowsOf_of_reports {report rest : List Release}
    (hreport : ∀ r ∈ report, r.isOverrun = true) (hrest : ∀ r ∈ rest, r.isOverrun = false) :
    windowsOf (report ++ rest) =
      skippedOf (report ++ rest) ++ (onTimeOf (report ++ rest)).map Checkpoint.index := by
  have hskipped : windowsOf report = skippedOf report := by
    refine List.flatMap_congr fun r hr => ?_
    cases r with
    | overrun slotId skipped lateMs => rfl
    | checkpoint c => exact absurd (hreport _ hr) Bool.false_ne_true
    | deadline slot => exact absurd (hreport _ hr) Bool.false_ne_true
  have hnone : onTimeOf report = [] := by
    refine List.filterMap_eq_nil_iff.2 fun r hr => ?_
    cases r with
    | overrun slotId skipped lateMs => rfl
    | checkpoint c => exact absurd (hreport _ hr) Bool.false_ne_true
    | deadline slot => rfl
  have honTime : skippedOf rest = [] ∧ windowsOf rest = (onTimeOf rest).map Checkpoint.index := by
    induction rest with
    | nil => exact ⟨rfl, rfl⟩
    | cons r rest ih =>
      obtain ⟨hempty, hwindows⟩ := ih fun r hr => hrest r (List.mem_cons_of_mem _ hr)
      cases r with
      | overrun slotId skipped lateMs =>
        exact absurd (hrest _ List.mem_cons_self).symm Bool.false_ne_true
      | checkpoint c => exact ⟨hempty, congrArg (c.index :: ·) hwindows⟩
      | deadline slot => exact ⟨hempty, hwindows⟩
  rw [windowsOf_append, skippedOf_append, onTimeOf_append, hskipped, hnone, honTime.1, honTime.2,
    List.append_nil, List.nil_append]

namespace Schedule

/-! ## The order of one pass -/

/-- What one pass over the checkpoints from the `i`-th on releases: those
checkpoints, and the deadline if it was pending, in the order of their
moments.  A deadline that is left over comes after all of them. -/
structure Ordered (limit : Nat) (slot : Slot) (i : Nat) (offsets : List Nat) (pending : Bool)
    (found : Sweep) : Prop where
  kinds : ∀ r ∈ found.released, (pending = true ∧ r = .deadline slot) ∨
    ∃ c ∈ checkpointsFrom slot i offsets, r = .checkpoint c
  inOrder : found.released.Pairwise (Release.Before limit)
  left : found.deadlinePending = true →
    pending = true ∧ ∀ r ∈ found.released, r.Before limit (.deadline slot)

section Ordered

variable {limit i offset : Nat} {slot : Slot} {offsets : List Nat} {pending : Bool} {found : Sweep}

theorem ordered_nil (limit : Nat) (slot : Slot) (i : Nat) (offsets : List Nat) (pending : Bool)
    (next : Nat) : Ordered limit slot i offsets pending ⟨[], [], 0, next, pending⟩ where
  kinds := fun _ hr => absurd hr List.not_mem_nil
  inOrder := .nil
  left := fun h => ⟨h, fun _ hr => absurd hr List.not_mem_nil⟩

/-- What releases less is in order, too. -/
theorem Ordered.sublist (h : Ordered limit slot i offsets pending found) {less : Sweep}
    (hsub : less.released.Sublist found.released)
    (hleft : less.deadlinePending = found.deadlinePending) :
    Ordered limit slot i offsets pending less where
  kinds := fun r hr => h.kinds r (hsub.subset hr)
  inOrder := h.inOrder.sublist hsub
  left := fun hpending =>
    have hboth := h.left (hleft ▸ hpending)
    ⟨hboth.1, fun r hr => hboth.2 r (hsub.subset hr)⟩

/-- A checkpoint goes before the later ones, and before the deadline if that
is later. -/
theorem Ordered.cons (hasc : (offset :: offsets).Pairwise (· < ·))
    (h : Ordered limit slot (i + 1) offsets pending found)
    (hlimit : pending = true → slot.startMs + offset < limit) :
    Ordered limit slot i (offset :: offsets) pending
      { found with released := .checkpoint ⟨slot, i, offset⟩ :: found.released } where
  kinds := by
    rintro r (_ | ⟨_, hr⟩)
    · exact .inr ⟨_, List.mem_cons_self, rfl⟩
    · refine (h.kinds r hr).imp_right ?_
      rintro ⟨c, hc, rfl⟩
      exact ⟨c, List.mem_cons_of_mem _ hc, rfl⟩
  inOrder := by
    refine List.pairwise_cons.2 ⟨fun r hr => ?_, h.inOrder⟩
    have hascending : (checkpointsFrom slot i (offset :: offsets)).Pairwise
        fun c d => c.dueMs < d.dueMs := dueMs_checkpointsFrom hasc
    have hlater := (List.pairwise_cons.1 hascending).1
    rcases h.kinds r hr with ⟨hpending, rfl⟩ | ⟨c, hc, rfl⟩
    · exact hlimit hpending
    · exact hlater c hc
  left := by
    intro hleft
    obtain ⟨hpending, hall⟩ := h.left hleft
    refine ⟨hpending, ?_⟩
    rintro r (_ | ⟨_, hr⟩)
    · exact hlimit hpending
    · exact hall r hr

/-- The deadline goes before the checkpoints that are not earlier. -/
theorem Ordered.deadline (h : Ordered limit slot i offsets false found)
    (hlimit : ∀ c ∈ checkpointsFrom slot i offsets, limit ≤ c.dueMs) :
    Ordered limit slot i offsets true
      { found with released := .deadline slot :: found.released } where
  kinds := by
    rintro r (_ | ⟨_, hr⟩)
    · exact .inl ⟨rfl, rfl⟩
    · exact .inr ((h.kinds r hr).resolve_left (by simp))
  inOrder := by
    refine List.pairwise_cons.2 ⟨fun r hr => ?_, h.inOrder⟩
    obtain ⟨c, hc, rfl⟩ := (h.kinds r hr).resolve_left (by simp)
    exact hlimit c hc
  left := fun hleft => absurd (h.left hleft).1 Bool.false_ne_true

end Ordered

/-- **One pass over the coming checkpoints** goes by their moments. By induction on the offsets: the
deadline, if it is pending, goes before the first checkpoint that does not precede it. -/
theorem ordered_sweep (s : Schedule) (slot : Slot) (now i : Nat) {offsets : List Nat}
    (hasc : offsets.Pairwise (· < ·)) (pending : Bool) :
    Ordered (s.deadlineOf slot) slot i offsets pending (s.sweep slot now i offsets pending) := by
  induction offsets generalizing i pending with
  | nil => exact ordered_nil ..
  | cons offset rest ih =>
    have hrest := (List.pairwise_cons.1 hasc).2
    have hascending : (checkpointsFrom slot i (offset :: rest)).Pairwise
        fun c d => c.dueMs < d.dueMs := dueMs_checkpointsFrom hasc
    simp only [sweep]
    split
    · exact ordered_nil ..
    · generalize hfirst : (pending && decide (s.deadlineOf slot ≤ slot.startMs + offset)) = first
      have hall := ih (i + 1) hrest (pending && !first)
      generalize s.sweep slot now (i + 1) rest (pending && !first) = found at hall
      cases first with
      | false =>
        have hlimit : pending = true → slot.startMs + offset < s.deadlineOf slot := by
          rintro rfl
          simpa using hfirst
        rw [Bool.not_false, Bool.and_true] at hall
        have hwhole := hall.cons hasc hlimit
        split
        · exact hwhole.sublist (List.sublist_cons_self ..) rfl
        · exact hwhole
      | true =>
        rw [Bool.and_eq_true, decide_eq_true_eq] at hfirst
        obtain ⟨rfl, hlimit⟩ := hfirst
        have hlater : ∀ c ∈ checkpointsFrom slot i (offset :: rest),
            s.deadlineOf slot ≤ c.dueMs := by
          rintro c (_ | ⟨_, hc⟩)
          · exact hlimit
          · exact Nat.le_trans hlimit (Nat.le_of_lt ((List.pairwise_cons.1 hascending).1 c hc))
        have hwhole := (hall.cons hasc (by simp)).deadline hlater
        split
        · exact hwhole.sublist ((List.sublist_cons_self ..).cons_cons _) rfl
        · exact hwhole

/-! ## One look -/

/-- What a look at the time `now` releases in a slot: the checkpoints that are
due and not too late, those that are due and too late, and the deadline, if
its moment has come.  There is one report at most, and the others stand behind
it by their moments. -/
structure Prompt (s : Schedule) (slot : Slot) (now : Nat) (rs : List Release) : Prop where
  onTime : onTimeOf rs =
    ((s.coming slot).filter (·.isDue now)).filter (·.inTime s.toleranceMs now)
  skipped : skippedOf rs =
    (((s.coming slot).filter (·.isDue now)).filter fun c =>
      !c.inTime s.toleranceMs now).map Checkpoint.index
  deadline : ∀ other, Release.deadline other ∈ rs ↔
    other = slot ∧ s.deadlineReleased = false ∧ s.deadlineOf slot ≤ now
  order : ∃ report rest, rs = report ++ rest ∧ report.length ≤ 1 ∧
    (∀ r ∈ report, r.isOverrun = true) ∧ (∀ r ∈ rest, r.isOverrun = false) ∧
    rest.Pairwise (Release.Before (s.deadlineOf slot))

section Look

variable {s : Schedule} {slot : Slot}

theorem mem_deadlinesOf {rs : List Release} {slot : Slot} :
    slot ∈ deadlinesOf rs ↔ .deadline slot ∈ rs := by
  rw [deadlinesOf, List.mem_filterMap]
  constructor
  · rintro ⟨r, hr, hslot⟩
    cases r with
    | deadline other => exact Option.some.inj hslot ▸ hr
    | checkpoint c => exact absurd hslot (by simp [Release.deadline?])
    | overrun slotId skipped lateMs => exact absurd hslot (by simp [Release.deadline?])
  · intro hr
    exact ⟨_, hr, rfl⟩

/-- What a look releases is in order behind the report. A deadline that the pass has not released is
later than everything that it has. -/
theorem order_release (h : s.slot = some slot) (hasc : s.offsets.Pairwise (· < ·)) (now : Nat) :
    ∃ report rest, (s.release now).2 = report ++ rest ∧ report.length ≤ 1 ∧
      (∀ r ∈ report, r.isOverrun = true) ∧ (∀ r ∈ rest, r.isOverrun = false) ∧
      rest.Pairwise (Release.Before (s.deadlineOf slot)) := by
  have hcoming := hasc.sublist (List.drop_sublist s.next s.offsets)
  have hfound := ordered_sweep s slot now s.next hcoming
    (!s.deadlineReleased && s.deadlineOf slot ≤ now)
  rw [release_eq h]
  generalize s.sweep slot now s.next (s.offsets.drop s.next) _ = found at hfound
  refine ⟨_, found.released ++ if found.deadlinePending then [.deadline slot] else [],
    List.append_assoc .., ?_, ?_, ?_, ?_⟩
  · split <;> simp
  · cases found.skipped <;> simp [Release.isOverrun]
  · intro r hr
    rcases List.mem_append.1 hr with hr | hr
    · rcases hfound.kinds r hr with ⟨-, rfl⟩ | ⟨c, -, rfl⟩ <;> rfl
    · cases hleft : found.deadlinePending <;> simp [hleft] at hr
      rw [hr]
      rfl
  · cases hleft : found.deadlinePending with
    | false => simpa using hfound.inOrder
    | true =>
      refine List.pairwise_append.2 ⟨hfound.inOrder, List.pairwise_singleton .., ?_⟩
      intro r hr last hlast
      rw [List.mem_singleton.1 hlast]
      exact (hfound.left hleft).2 r hr

/-- **A look releases what is due, in order.** -/
theorem prompt_release (h : s.slot = some slot) (hasc : s.offsets.Pairwise (· < ·)) (now : Nat) :
    Prompt s slot now (s.release now).2 where
  onTime := onTimeOf_release h hasc now
  skipped := skippedOf_release h hasc now
  deadline := by
    intro other
    rw [← mem_deadlinesOf, (released_release h now).deadlines, deadlineReleased_release h]
    cases s.deadlineReleased <;> by_cases hdue : s.deadlineOf slot ≤ now <;> simp [hdue]
  order := order_release h hasc now

/-- The due checkpoints that are too late are the earlier ones. -/
theorem Prompt.windowsOf_eq (hasc : s.offsets.Pairwise (· < ·)) {now : Nat} {rs : List Release}
    (h : Prompt s slot now rs) :
    windowsOf rs = ((s.coming slot).filter (·.isDue now)).map Checkpoint.index := by
  obtain ⟨report, rest, rfl, -, hreport, hrest, -⟩ := h.order
  have hlate : (((s.coming slot).filter (·.isDue now))).Pairwise fun c d =>
      (!d.inTime s.toleranceMs now) = true → (!c.inTime s.toleranceMs now) = true := by
    refine ((dueMs_coming hasc slot).sublist List.filter_sublist).imp ?_
    intro c d hcd
    simp only [Bool.not_eq_true', ← Bool.not_eq_true, Checkpoint.inTime_iff]
    simp only [Checkpoint.dueMs] at hcd
    omega
  have hboth := filter_append_filter_not hlate
  simp only [Bool.not_not] at hboth
  rw [windowsOf_of_reports hreport hrest, h.skipped, h.onTime, ← List.map_append, hboth]

/-- **The checkpoints of one look go in the order of their index.** -/
theorem windowsOf_release (h : s.slot = some slot) (hasc : s.offsets.Pairwise (· < ·)) (now : Nat) :
    windowsOf (s.release now).2 = List.range' s.next ((s.release now).1.next - s.next) := by
  generalize hdue : (s.coming slot).filter (·.isDue now) = due
  generalize hlater : ((s.coming slot).filter fun c => !c.isDue now) = later
  have hboth : due ++ later = s.coming slot := by
    rw [← hdue, ← hlater]
    exact filter_append_filter_not (isDue_coming hasc slot now)
  have hindices : due.map Checkpoint.index ++ later.map Checkpoint.index =
      List.range' s.next due.length ++ List.range' (s.next + due.length) later.length := by
    rw [← List.map_append, List.range'_append_1, ← List.length_append, hboth]
    exact index_coming s slot
  rw [(prompt_release h hasc now).windowsOf_eq hasc, next_release h hasc now, hdue,
    Nat.add_sub_cancel_left]
  exact List.append_inj_left hindices (by rw [List.length_map, List.length_range'])

/-- **The checkpoints of a series of looks go in the order of their
index.** -/
theorem windowsOf_looks (h : s.slot = some slot) (hasc : s.offsets.Pairwise (· < ·))
    (looks : List Nat) :
    windowsOf (s.run (looks.map .look)).2 =
      List.range' s.next ((s.run (looks.map .look)).1.next - s.next) := by
  induction looks generalizing s with
  | nil => simp [windowsOf]
  | cons now looks ih =>
    obtain ⟨hslot, hoffsets, -, -⟩ := fixed_release h now
    have hfirst := (released_release h now).next
    have hothers := (released_looks hslot looks).next
    have hlater := ih hslot (hoffsets ▸ hasc)
    simp only [List.map_cons, run_cons, take, windowsOf_append]
    rw [windowsOf_release h hasc, hlater]
    generalize (s.release now).1.next = middle at *
    generalize ((s.release now).1.run (looks.map .look)).1.next = last at *
    have hjoin : s.next + (middle - s.next) = middle := by omega
    have hsum : middle - s.next + (last - middle) = last - s.next := by omega
    rw [← hsum, ← List.range'_append_1, hjoin]

/-! ## The next moment -/

theorem earlier_le_iff {first second : Option Nat} {now : Nat} :
    (∃ t, earlier first second = some t ∧ t ≤ now) ↔
      (∃ t, first = some t ∧ t ≤ now) ∨ ∃ t, second = some t ∧ t ≤ now := by
  cases first <;> cases second <;> simp [earlier]

/-- The next moment has come if the first checkpoint that is still to come
is due, or the deadline. -/
theorem nextMoment?_le_iff (h : s.slot = some slot) (now : Nat) :
    (∃ t, s.nextMoment? = some t ∧ t ≤ now) ↔
      (∃ offset, s.offsets[s.next]? = some offset ∧ slot.startMs + offset ≤ now) ∨
        s.deadlineReleased = false ∧ s.deadlineOf slot ≤ now := by
  have hnext : s.nextMoment? = earlier (s.offsets[s.next]?.map (slot.startMs + ·))
      (if s.deadlineReleased then none else some (s.deadlineOf slot)) := by
    rw [nextMoment?, h]
    rfl
  rw [hnext, earlier_le_iff]
  refine or_congr ?_ ?_
  · simp
  · cases s.deadlineReleased <;> simp

/-- One pass finds nothing if nothing is due. -/
theorem sweep_nothing_iff (s : Schedule) (slot : Slot) (now i : Nat) (offsets : List Nat)
    (pending : Bool) :
    let found := s.sweep slot now i offsets pending
    (found.skipped = [] ∧ found.released = [] ∧ found.deadlinePending = false) ↔
      (∀ offset, offsets.head? = some offset → now < slot.startMs + offset) ∧ pending = false := by
  cases offsets with
  | nil => simp [sweep]
  | cons offset rest =>
    by_cases hlater : now < slot.startMs + offset
    · simp [sweep, hlater]
    · simp only [sweep, if_neg hlater]
      split <;> simp [hlater]

/-- **A look releases something exactly if the next moment has come.** That moment is the next
checkpoint or the deadline, whichever is still to come and earlier. -/
theorem release_ne_nil_iff (s : Schedule) (now : Nat) :
    (s.release now).2 ≠ [] ↔ ∃ t, s.nextMoment? = some t ∧ t ≤ now := by
  cases h : s.slot with
  | none =>
    have hnone : s.nextMoment? = none := by
      rw [nextMoment?, h]
      rfl
    simp [release_of_none h, hnone]
  | some slot =>
    have hnothing := sweep_nothing_iff s slot now s.next (s.offsets.drop s.next)
      (!s.deadlineReleased && s.deadlineOf slot ≤ now)
    rw [nextMoment?_le_iff h, ← not_iff_not, not_not, release_eq h]
    dsimp only at hnothing ⊢
    generalize s.sweep slot now s.next (s.offsets.drop s.next) _ = found at hnothing ⊢
    rw [List.head?_drop] at hnothing
    have hempty : ((if found.skipped.isEmpty then []
          else [Release.overrun slot.id found.skipped found.lateMs]) ++ found.released ++
        if found.deadlinePending then [.deadline slot] else []) = [] ↔
        found.skipped = [] ∧ found.released = [] ∧ found.deadlinePending = false := by
      simp
    rw [hempty, hnothing, not_or]
    refine and_congr ?_ ?_
    · simp only [not_exists, not_and, Nat.not_le]
    · cases s.deadlineReleased <;> simp

/-- **After a look the next moment is ahead.** -/
theorem lt_nextMoment?_release (hasc : s.offsets.Pairwise (· < ·)) {now t : Nat}
    (h : (s.release now).1.nextMoment? = some t) : now < t := by
  cases hslot : s.slot with
  | none =>
    rw [release_of_none hslot, nextMoment?, hslot] at h
    exact absurd h nofun
  | some slot =>
    by_contra hnow
    have hcome := (nextMoment?_le_iff (fixed_release hslot now).1 now).1
      ⟨t, h, Nat.le_of_not_lt hnow⟩
    rcases hcome with ⟨offset, hoffset, hdue⟩ | ⟨hreleased, hdue⟩
    · -- The first checkpoint to come is among those that the look has left.
      have hmem : ⟨slot, (s.release now).1.next, offset⟩ ∈ (s.release now).1.coming slot := by
        refine mem_checkpointsFrom.2 ⟨rfl, Nat.le_refl _, ?_⟩
        simpa using hoffset
      rw [coming_release hslot hasc, List.mem_filter] at hmem
      have hnot : Checkpoint.isDue ⟨slot, (s.release now).1.next, offset⟩ now = true :=
        Checkpoint.isDue_iff.2 hdue
      simp [hnot] at hmem
    · rw [deadlineOf_release hslot] at hdue
      rw [deadlineReleased_release hslot, decide_eq_true hdue, Bool.or_true] at hreleased
      exact absurd hreleased.symm Bool.false_ne_true

end Look

/-! ## Any course -/

/-- No step changes the settings. -/
theorem settings_take (s : Schedule) (step : Step) :
    (s.take step).1.offsets = s.offsets ∧ (s.take step).1.leadMs = s.leadMs ∧
      (s.take step).1.toleranceMs = s.toleranceMs := by
  cases step with
  | turn slot => exact ⟨rfl, rfl, rfl⟩
  | look now =>
    cases h : s.slot with
    | none =>
      rw [take, release_of_none h]
      exact ⟨rfl, rfl, rfl⟩
    | some slot => exact (fixed_release h now).2

theorem settings_run (s : Schedule) (course : List Step) :
    (s.run course).1.offsets = s.offsets ∧ (s.run course).1.leadMs = s.leadMs ∧
      (s.run course).1.toleranceMs = s.toleranceMs := by
  induction course generalizing s with
  | nil => exact ⟨rfl, rfl, rfl⟩
  | cons step course ih =>
    obtain ⟨hoffsets, hlead, htolerance⟩ := settings_take s step
    obtain ⟨hoffsets', hlead', htolerance'⟩ := ih (s.take step).1
    exact ⟨hoffsets'.trans hoffsets, hlead'.trans hlead, htolerance'.trans htolerance⟩

/-- **A schedule is prompt** at all times, whatever turns it takes and
whatever the clock says.  A look has something to release exactly if the
next moment has come, and then the next moment is ahead.  In a slot the
checkpoints go in the order of their index, from the first on; the
deadline is released by the looks if one of them has met it, and by the
next turn if not; and every look releases what is due, in order. -/
theorem prompt_always {offsets : List Nat} (h : Mode.ascending offsets = true)
    (leadMs toleranceMs : Nat) (course : List Step) :
    let s := ((idle offsets leadMs toleranceMs).run course).1
    (∀ now, ((s.release now).2 ≠ [] ↔ ∃ t, s.nextMoment? = some t ∧ t ≤ now) ∧
      ∀ t, (s.release now).1.nextMoment? = some t → now < t) ∧
    ∀ (slot : Slot) (looks : List Nat),
      let armed := (s.beginSlot slot).1
      let looked := armed.run (looks.map .look)
      let met := looks.any (armed.deadlineOf slot ≤ ·)
      (looked.1.offsets = offsets ∧ looked.1.leadMs = leadMs ∧
        looked.1.toleranceMs = toleranceMs) ∧
      windowsOf looked.2 = List.range looked.1.next ∧
      deadlinesOf looked.2 = (if met then [slot] else []) ∧
      (∀ next, (looked.1.beginSlot next).2 = if met then [] else [.deadline slot]) ∧
      ∀ now, Prompt looked.1 slot now (looked.1.release now).2 := by
  intro s
  have hpair := pairwise_of_ascending h
  obtain ⟨hoffsets, hlead, htolerance⟩ := settings_run (idle offsets leadMs toleranceMs) course
  have hsame : s.offsets = offsets := hoffsets
  refine ⟨fun now => ⟨release_ne_nil_iff s now, ?_⟩, ?_⟩
  · intro t
    exact lt_nextMoment?_release (hsame ▸ hpair)
  · intro slot looks armed looked met
    have hslot : armed.slot = some slot := rfl
    have harmed : armed.offsets.Pairwise (· < ·) := by
      show s.offsets.Pairwise (· < ·)
      exact hsame ▸ hpair
    obtain ⟨hoffsets', hlead', htolerance'⟩ := settings_run armed (looks.map .look)
    have hlooked : looked.1.slot = some slot := (released_looks hslot looks).current
    have hreleased : looked.1.deadlineReleased = met := deadlineReleased_looks hslot looks
    refine ⟨⟨hoffsets'.trans hoffsets, hlead'.trans hlead, htolerance'.trans htolerance⟩,
      ?_, ?_, ?_, ?_⟩
    · rw [List.range_eq_range']
      exact windowsOf_looks hslot harmed looks
    · calc deadlinesOf looked.2
          = if looked.1.deadlineReleased && !armed.deadlineReleased then [slot] else [] :=
            (released_looks hslot looks).deadlines
        _ = if met && true then [slot] else [] := by
            rw [hreleased]
            rfl
        _ = if met then [slot] else [] := by rw [Bool.and_true]
    · intro next
      simp only [beginSlot, hlooked, hreleased]
      cases met <;> rfl
    · intro now
      have hascending : looked.1.offsets.Pairwise (· < ·) := by
        rw [hoffsets']
        exact harmed
      exact prompt_release hlooked hascending now

/-- A clock that is set back twice, and a deadline at the moment of the
second checkpoint. -/
theorem prompt_always_set_back :
    let offsets := Mode.ft8.checkpoints
    let course := [Step.look 5, .turn (Mode.ft8.slot 0), .look 20000, .look 3]
    let s := ((idle offsets 2200 100).run course).1
    let slot := Mode.ft8.slot 2
    let looks := [41000, 3]
    let looked := (s.beginSlot slot).1.run (looks.map .look)
    let released := (looked.1.release 42850).2
    Mode.ascending offsets = true ∧ looked.2 = [] ∧ looked.1.nextMoment? = some 41800 ∧
      released = [.overrun 2 [0] 1050, .deadline slot, .checkpoint ⟨slot, 1, 12800⟩] ∧
      Prompt looked.1 slot 42850 released := by
  intro offsets course s slot looks looked released
  have hasc : Mode.ascending offsets = true := by decide
  have hslot := (prompt_always hasc 2200 100 course).2 slot looks
  exact ⟨hasc, by decide, by decide, by decide, hslot.2.2.2.2 42850⟩

end Schedule

end SlotRadio
