import SlotRadio.Proofs.Contact.Stamping
import SlotRadio.Proofs.Engine.Freshness
import SlotRadio.Proofs.Engine.Handling
import SlotRadio.Proofs.Timing.Releasing
/-!
# Which slot a report is about

The reports of a session fall into chapters: each begins with the report
that a slot began, and lasts until the next one.  What is due in a slot,
and what operators do in it, is reported in its chapter (`Chapter`); what
was still due when the next slot begins is reported before that
(`Complete`).

* `Attributed.extend` — what reports without a beginning add to the last
  chapter;
* `Attributed.turn` — what a slot that begins does to the chapters;
* `attributed_meet` — every request does one or the other, or both;
* `events_attributed` — what this says about a whole session.
-/

namespace SlotRadio

namespace Event

/-- The slot that is reported to begin. -/
def begins? : Event → Option Slot
  | slotStart slot .. => some slot
  | checkpoint _ | deadline _ | clockAnomaly .. | scheduleOverrun .. | contact _ | refusal _
  | mixReady .. | mixUnderrun _ | mixOverrun _ | mixFailed .. => none

/-- True for a report of what is due in a slot. -/
def isDue : Event → Bool
  | checkpoint _ | deadline _ | scheduleOverrun .. => true
  | slotStart .. | clockAnomaly .. | contact _ | refusal _ | mixReady .. | mixUnderrun _
  | mixOverrun _ | mixFailed .. => false

/-- The checkpoints that are reported, on time or skipped. -/
def windows : Event → List Nat
  | checkpoint c => [c.index]
  | scheduleOverrun _ skipped _ => skipped
  | slotStart .. | deadline _ | clockAnomaly .. | contact _ | refusal _ | mixReady ..
  | mixUnderrun _ | mixOverrun _ | mixFailed .. => []

/-- The slot whose deadline is reported. -/
def deadline? : Event → Option Slot
  | deadline slot => some slot
  | slotStart .. | checkpoint _ | clockAnomaly .. | scheduleOverrun .. | contact _ | refusal _
  | mixReady .. | mixUnderrun _ | mixOverrun _ | mixFailed .. => none

/-- What is due, what is sent and what changes is reported for `slot`; a
change of phase may be reported for none. -/
def IsAbout (slot : Slot) : Event → Prop
  | checkpoint c => c.slot = slot
  | deadline s => s = slot
  | scheduleOverrun slotId _ _ => slotId = slot.id
  | contact (.transmitted t) => t.slotStartMs = slot.startMs
  | contact (.phaseChanged _ _ _ slotId) => slotId = none ∨ slotId = some slot.id
  | contact (.timeout ..) | contact (.completed _) | slotStart .. | clockAnomaly .. | refusal _
  | mixReady .. | mixUnderrun _ | mixOverrun _ | mixFailed .. => True

end Event

/-- The slots that are reported to begin, in order. -/
def slotsIn (events : List Event) : List Slot :=
  events.filterMap Event.begins?

/-- The checkpoints that are reported, in order. -/
def windowsIn (events : List Event) : List Nat :=
  events.flatMap Event.windows

/-- The deadlines that are reported, in order. -/
def deadlinesIn (events : List Event) : List Slot :=
  events.filterMap Event.deadline?

@[simp] theorem slotsIn_append (xs ys : List Event) :
    slotsIn (xs ++ ys) = slotsIn xs ++ slotsIn ys :=
  List.filterMap_append

@[simp] theorem windowsIn_append (xs ys : List Event) :
    windowsIn (xs ++ ys) = windowsIn xs ++ windowsIn ys :=
  List.flatMap_append

@[simp] theorem deadlinesIn_append (xs ys : List Event) :
    deadlinesIn (xs ++ ys) = deadlinesIn xs ++ deadlinesIn ys :=
  List.filterMap_append

/-- Reports of which none is of a slot's beginning begin no slot. -/
theorem slotsIn_eq_nil {events : List Event} (h : ∀ x ∈ events, x.begins? = none) :
    slotsIn events = [] :=
  List.filterMap_eq_nil_iff.2 h

/-- Reports of which none is of a due moment tell of no checkpoint. -/
theorem windowsIn_eq_nil {events : List Event} (h : ∀ x ∈ events, x.isDue = false) :
    windowsIn events = [] := by
  apply List.flatMap_eq_nil_iff.2
  intro x hx
  have hdue := h x hx
  cases x <;> first | rfl | cases hdue

/-- Reports of which none is of a due moment tell of no deadline. -/
theorem deadlinesIn_eq_nil {events : List Event} (h : ∀ x ∈ events, x.isDue = false) :
    deadlinesIn events = [] := by
  apply List.filterMap_eq_nil_iff.2
  intro x hx
  have hdue := h x hx
  cases x <;> first | rfl | cases hdue

/-! ## What a schedule releases is reported -/

open Engine (reportOf)

/-- The checkpoints that are reported are those that the schedule has disposed
of, be it on time or too late. -/
theorem windowsIn_reports (rs : List Release) : windowsIn (rs.map reportOf) = windowsOf rs := by
  induction rs with
  | nil => rfl
  | cons r rs ih =>
    have hhead : (reportOf r).windows = r.windows := by cases r <;> rfl
    simp only [windowsIn, windowsOf, List.map_cons, List.flatMap_cons] at ih ⊢
    rw [hhead, ih]

/-- The deadlines that are reported are those that the schedule has
released. -/
theorem deadlinesIn_reports (rs : List Release) :
    deadlinesIn (rs.map reportOf) = deadlinesOf rs := by
  induction rs with
  | nil => rfl
  | cons r rs ih =>
    have hhead : (reportOf r).deadline? = r.deadline? := by cases r <;> rfl
    simp only [deadlinesIn, deadlinesOf, List.map_cons, List.filterMap_cons] at ih ⊢
    rw [hhead, ih]

/-- A report is about the slot that the release is about. -/
theorem isAbout_reportOf {r : Release} {slot : Slot} (h : r.IsAbout slot) :
    (reportOf r).IsAbout slot := by
  cases r <;> exact h

/-- Nothing that a schedule releases begins a slot. -/
theorem begins?_reportOf (r : Release) : (reportOf r).begins? = none := by
  cases r <;> rfl

/-- The reports `events`, made in `slot`, are about it, and tell what
turned the schedule `s` into `t`. -/
structure Tells (slot : Slot) (s t : Schedule) (events : List Event) : Prop where
  about : ∀ x ∈ events, x.IsAbout slot
  released : ∃ rs, Schedule.Released slot s t rs ∧
    windowsIn events = windowsOf rs ∧ deadlinesIn events = deadlinesOf rs

/-! ## Chapters -/

/-- What has been reported since `slot` began, when the schedule is `s`:
the checkpoints up to the next one, and the deadline if it is over. -/
structure Chapter (s : Schedule) (slot : Slot) (during : List Event) : Prop where
  current : s.slot = some slot
  about : ∀ x ∈ during, x.IsAbout slot
  windows : (windowsIn during).Perm (List.range s.next)
  deadlines : deadlinesIn during = if s.deadlineReleased then [slot] else []

/-- What has been reported from the beginning of `slot` to that of the
next one. -/
structure Complete (slot : Slot) (during : List Event) : Prop where
  about : ∀ x ∈ during, x.IsAbout slot
  windows : (windowsIn during).Nodup
  deadlines : deadlinesIn during = [slot]

/-- **A chapter goes on** with the reports of a step that is made in its slot. The windows so far
are an initial range of the checkpoints, and the step adds the range that follows it. -/
theorem Chapter.append {s t : Schedule} {slot : Slot} {during events : List Event}
    (h : Chapter s slot during) (htells : Tells slot s t events) :
    Chapter t slot (during ++ events) := by
  obtain ⟨rs, hreleased, hwindows, hdeadlines⟩ := htells.released
  refine ⟨hreleased.current, ?_, ?_, ?_⟩
  · intro x hx
    exact (List.mem_append.1 hx).elim (h.about x) (htells.about x)
  · have hlength : t.next = s.next + (t.next - s.next) := by
      have hnext := hreleased.next
      omega
    rw [windowsIn_append, hwindows, hlength, List.range_eq_range', ← List.range'_append_1,
      ← List.range_eq_range', Nat.zero_add]
    exact h.windows.append hreleased.windows
  · have hstays := hreleased.stays
    rw [deadlinesIn_append, hdeadlines, h.deadlines, hreleased.deadlines]
    cases hs : s.deadlineReleased with
    | false => simp
    | true => simp [hstays hs]

/-- A chapter whose deadline is over has all that it can have. -/
theorem Chapter.complete {s : Schedule} {slot : Slot} {during : List Event}
    (h : Chapter s slot during) (hreleased : s.deadlineReleased = true) :
    Complete slot during where
  about := h.about
  windows := h.windows.nodup_iff.2 List.nodup_range
  deadlines := by rw [h.deadlines, if_pos hreleased]

namespace Engine

/-- The reports `past` of a session are in chapters, the last of which is
that of the current slot. -/
structure Attributed (e : Engine) (past : List Event) : Prop where
  operators : ∀ x ∈ e.roster.toList, x.2.slot = none ∨ x.2.slot = e.schedule.slot
  ascending : (slotsIn past).Pairwise (·.cycle < ·.cycle)
  announced : ∀ s ∈ slotsIn past, ∃ last, e.tracker.highest = some last ∧ s.cycle ≤ last
  idle : e.schedule.slot = none → e.schedule.deadlineReleased = true
  fresh : (∀ x ∈ past, x.begins? = none) → e.schedule.slot = none
  preface : ∀ {before x after}, past = before ++ x :: after → x.isDue = true →
    ∃ y ∈ before, y.begins?.isSome = true
  last : ∀ {earlier x slot during}, past = earlier ++ x :: during → x.begins? = some slot →
    (∀ y ∈ during, y.begins? = none) → Chapter e.schedule slot during
  complete : ∀ {earlier x slot during y later}, past = earlier ++ x :: during ++ y :: later →
    x.begins? = some slot → (∀ z ∈ during, z.begins? = none) → y.begins?.isSome = true →
      Complete slot during

/-- Before the first report there are no chapters, no slot has been announced and nothing can be
due. -/
theorem attributed_initial (mode : Mode) (config : Config) :
    Attributed (initial mode config) [] where
  operators := fun x hx => absurd hx List.not_mem_nil
  ascending := .nil
  announced := fun s hs => absurd hs List.not_mem_nil
  idle := fun _ => rfl
  fresh := fun _ => rfl
  preface := fun h => by simp at h
  last := fun h => by simp at h
  complete := fun h => by simp at h

variable {e f : Engine} {past events : List Event}

/-- **Reports without a beginning** belong to the last chapter. A report that begins a slot
therefore stands in the past part of every cut, and only what has been said of the last chapter has
to be shown anew. -/
theorem Attributed.extend (h : Attributed e past) (hfree : ∀ x ∈ events, x.begins? = none)
    (hhighest : f.tracker.highest = e.tracker.highest)
    (hoperators : ∀ x ∈ f.roster.toList, x.2.slot = none ∨ x.2.slot = f.schedule.slot)
    (hnone : e.schedule.slot = none → f.schedule = e.schedule ∧ ∀ x ∈ events, x.isDue = false)
    (htells : ∀ slot, e.schedule.slot = some slot → Tells slot e.schedule f.schedule events) :
    Attributed f (past ++ events) := by
  have hslots : slotsIn (past ++ events) = slotsIn past := by
    rw [slotsIn_append, slotsIn_eq_nil hfree, List.append_nil]
  have hnot : ∀ x slot, x.begins? = some slot → x ∉ events := by
    intro x slot hx hmem
    rw [hfree x hmem] at hx
    cases hx
  refine ⟨hoperators, by rw [hslots]; exact h.ascending, ?_, ?_, ?_, ?_, ?_, ?_⟩
  · rw [hslots, hhighest]
    exact h.announced
  · intro hslot
    cases hold : e.schedule.slot with
    | none =>
      rw [(hnone hold).1]
      exact h.idle hold
    | some slot =>
      obtain ⟨rs, hreleased, -⟩ := (htells slot hold).released
      rw [hreleased.current] at hslot
      cases hslot
  · intro hnever
    have hslot := h.fresh fun x hx => hnever x (List.mem_append_left _ hx)
    rw [(hnone hslot).1]
    exact hslot
  · intro before x after hsplit hdue
    rcases append_cut hsplit with ⟨zs, rfl, hevents⟩ | ⟨zs, hpast, -⟩
    · -- Something has begun before, or nothing could be due.
      by_contra hnever
      have hslot : e.schedule.slot = none := by
        apply h.fresh
        intro y hy
        by_contra hsome
        exact hnever ⟨y, List.mem_append_left _ hy, Option.isSome_iff_ne_none.2 hsome⟩
      have hquiet := (hnone hslot).2 x (by simp [hevents])
      rw [hquiet] at hdue
      cases hdue
    · exact h.preface hpast hdue
  · intro earlier x slot during hsplit hx hduring
    obtain ⟨zs, hpast, rfl⟩ := append_cut_left hsplit (hnot x slot hx)
    have hchapter := h.last hpast hx fun y hy => hduring y (List.mem_append_left _ hy)
    exact hchapter.append (htells slot hchapter.current)
  · intro earlier x slot during y later hsplit hx hduring hy
    obtain ⟨next, hnext⟩ := Option.isSome_iff_exists.1 hy
    obtain ⟨zs, hpast, -⟩ := append_cut_left hsplit (hnot y next hnext)
    exact h.complete hpast hx hduring hy

/-- **A slot that begins** ends the last chapter, whose deadline is over,
and begins a new one. -/
theorem Attributed.turn (h : Attributed e past) (hreleased : e.schedule.deadlineReleased = true)
    {x : Event} {slot : Slot} (hx : x.begins? = some slot) (hfree : ∀ y ∈ events, y.begins? = none)
    (hlater : ∀ last, e.tracker.highest = some last → last < slot.cycle)
    (hhighest : f.tracker.highest = some slot.cycle)
    (hoperators : ∀ y ∈ f.roster.toList, y.2.slot = none ∨ y.2.slot = f.schedule.slot)
    (hchapter : Chapter f.schedule slot events) : Attributed f (past ++ x :: events) := by
  have hslots : slotsIn (past ++ x :: events) = slotsIn past ++ [slot] := by
    rw [slotsIn_append]
    congr 1
    show (x :: events).filterMap Event.begins? = [slot]
    rw [List.filterMap_cons, hx]
    exact congrArg (slot :: ·) (slotsIn_eq_nil hfree)
  have hbefore : ∀ s ∈ slotsIn past, s.cycle < slot.cycle := by
    intro s hs
    obtain ⟨last, hlast, hle⟩ := h.announced s hs
    exact Nat.lt_of_le_of_lt hle (hlater last hlast)
  have hnot : ∀ y next, y.begins? = some next → y ∉ events := by
    intro y next hy hmem
    rw [hfree y hmem] at hy
    cases hy
  refine ⟨hoperators, ?_, ?_, ?_, ?_, ?_, ?_, ?_⟩
  · rw [hslots, List.pairwise_append]
    refine ⟨h.ascending, List.pairwise_singleton _ _, ?_⟩
    intro s hs t ht
    rw [List.mem_singleton.1 ht]
    exact hbefore s hs
  · intro s hs
    rw [hslots] at hs
    refine ⟨slot.cycle, hhighest, ?_⟩
    rcases List.mem_append.1 hs with hs | hs
    · exact Nat.le_of_lt (hbefore s hs)
    · exact Nat.le_of_eq (congrArg Slot.cycle (List.mem_singleton.1 hs))
  · intro hnone
    rw [hchapter.current] at hnone
    cases hnone
  · intro hnever
    have hnone := hnever x (by simp)
    rw [hx] at hnone
    cases hnone
  · intro before y after hsplit hdue
    have hopened : x.begins?.isSome = true := by rw [hx]; rfl
    rcases append_cut hsplit with ⟨zs, rfl, hrest⟩ | ⟨zs, hpast, -⟩
    · cases zs with
      | nil =>
        obtain ⟨rfl, -⟩ := List.cons.inj hrest
        cases x <;> simp_all [Event.begins?, Event.isDue]
      | cons z zs =>
        obtain ⟨rfl, -⟩ := List.cons.inj hrest
        exact ⟨x, by simp, hopened⟩
    · exact h.preface hpast hdue
  · intro earlier y next during hsplit hy hduring
    rcases append_cut_middle hsplit (hnot y next hy) with ⟨-, rfl, rfl⟩ | ⟨mid, -, rfl⟩
    · obtain rfl : slot = next := Option.some.inj (hx.symm.trans hy)
      exact hchapter
    · have hnone := hduring x (by simp)
      rw [hx] at hnone
      cases hnone
  · intro earlier y next during z later hsplit hy hduring hz
    obtain ⟨following, hfollowing⟩ := Option.isSome_iff_exists.1 hz
    rcases append_cut_middle hsplit (hnot z following hfollowing) with
      ⟨hpast, -, -⟩ | ⟨mid, hpast, -⟩
    · exact (h.last hpast hy hduring).complete hreleased
    · exact h.complete hpast hy hduring hz

/-! ## Requests -/

/-- What an operator reports in `slot` is about it, if it is stamped with
this slot or with none. -/
theorem isAbout_contact {slot : Slot} {stamp : Option Slot} {reports : List ContactEvent}
    (hstamp : stamp = none ∨ stamp = some slot) (hstamped : Stamped stamp reports)
    (hsent : ∀ t ∈ sentIn reports, t.slotStartMs = slot.startMs) {y : ContactEvent}
    (hy : y ∈ reports) : (Event.contact y).IsAbout slot := by
  cases y with
  | phaseChanged n before after id =>
    have hid : id = stamp.map (·.id) := hstamped _ hy id rfl
    rcases hstamp with rfl | rfl
    · exact .inl hid
    · exact .inr hid
  | transmitted t => exact hsent t (List.mem_filterMap.2 ⟨_, hy, rfl⟩)
  | timeout n phase cycles => trivial
  | completed entry => trivial

/-- The report of a mix names no slot of the schedule, and so is at its place
in every chapter. -/
theorem isAbout_of_isMixing {x : Event} (h : x.isMixing = true) (slot : Slot) :
    x.IsAbout slot := by
  cases x <;> trivial

/-- The report of a mix is not of a due moment. -/
theorem isDue_of_isMixing {x : Event} (h : x.isMixing = true) : x.isDue = false := by
  cases x <;> first | rfl | cases h

/-- The report of a mix begins no slot. -/
theorem begins?_of_isMixing {x : Event} (h : x.isMixing = true) : x.begins? = none := by
  cases x <;> first | rfl | cases h

/-- Reports that are about the slot, but of nothing that is due, leave the
schedule as it is. -/
theorem tells_of_quiet {s : Schedule} {slot : Slot} (hslot : s.slot = some slot)
    (habout : ∀ x ∈ events, x.IsAbout slot) (hquiet : ∀ x ∈ events, x.isDue = false) :
    Tells slot s s events where
  about := habout
  released :=
    ⟨[], Schedule.released_refl hslot, windowsIn_eq_nil hquiet, deadlinesIn_eq_nil hquiet⟩

/-- **A request that is no look** reports nothing that would have to be in
another chapter. -/
theorem attributed_of_ne_look (h : Attributed e past) {r : Request} (hr : r ≠ .look) (t : Moment) :
    Attributed (e.meet t r).engine (past ++ (e.meet t r).events) := by
  obtain ⟨hschedule, hevents⟩ := meet_of_ne_look hr e t
  have hquiet := quiet_meet hr e t
  have hdue : ∀ x ∈ (e.meet t r).events, x.isDue = false := by
    intro x hx
    rcases hevents x hx with hmixing | ⟨n, a, c, y, -, -, rfl⟩
    · exact isDue_of_isMixing hmixing
    · rfl
  apply h.extend
  · intro x hx
    rcases hevents x hx with hmixing | ⟨n, a, c, y, -, -, rfl⟩
    · exact begins?_of_isMixing hmixing
    · rfl
  · rw [hquiet.tracker]
  · intro x hx
    rw [hschedule]
    rcases hquiet.operators x hx with hold | ⟨station, policy, hnew⟩ | ⟨a, o, ha, ho, hchanged⟩
    · exact h.operators x hold
    · left
      rw [hnew]
      rfl
    · rw [hchanged, Automaton.slot_meet ho]
      exact h.operators _ ha
  · intro _
    exact ⟨hschedule, hdue⟩
  · intro slot hslot
    rw [hschedule]
    refine tells_of_quiet hslot ?_ hdue
    intro x hx
    rcases hevents x hx with hmixing | ⟨n, a, c, y, ha, hy, rfl⟩
    · exact isAbout_of_isMixing hmixing slot
    · have hstamp := h.operators _ (Roster.get?_eq_some_iff.1 ha)
      rw [hslot] at hstamp
      refine isAbout_contact hstamp (Automaton.inSlot_obey a c).stamped ?_ hy
      intro t ht
      rw [Automaton.sentIn_obey] at ht
      exact absurd ht List.not_mem_nil

/-- What is reported when a slot opens, besides its beginning, is about this
slot and none of its moments. -/
theorem mem_opening {e : Engine} {slot : Slot} {x : Event} (hx : x ∈ e.opening slot) :
    x.begins? = none ∧ x.isDue = false ∧ x.IsAbout slot := by
  rcases List.mem_append.1 hx with hx | hx
  · obtain ⟨c, -, rfl⟩ := List.mem_map.1 hx
    exact ⟨rfl, rfl, trivial⟩
  · obtain ⟨y, hy, rfl⟩ := List.mem_map.1 hx
    obtain ⟨⟨n, a⟩, -, hy⟩ := List.mem_flatMap.1 hy
    have hin := Automaton.inSlot_beginSlot a slot ((e.grant slot).allows n)
    refine ⟨rfl, rfl, isAbout_contact (.inr rfl) hin.stamped ?_ hy⟩
    intro t ht
    rw [Automaton.sentIn_beginSlot] at ht
    exact (Automaton.beginSlot_carries (Option.mem_toList.1 ht)).2.2.2

/-- **A slot that begins** is reported after the deadline of the one
before, and what operators do then is reported for it. -/
theorem attributed_beginSlot (h : Attributed e past) {slot : Slot} {t : Tracker}
    (hlater : ∀ last, e.tracker.highest = some last → last < slot.cycle)
    (hhighest : t.highest = some slot.cycle) (previous : Option Slot) :
    Attributed (({ e with tracker := t } : Engine).beginSlot slot previous).1
      (past ++ (({ e with tracker := t } : Engine).beginSlot slot previous).2) := by
  have hlate : Attributed { e with schedule := { e.schedule with deadlineReleased := true } }
      (past ++ (e.schedule.beginSlot slot).2.map reportOf) := by
    apply h.extend
    · intro x hx
      obtain ⟨r, -, rfl⟩ := List.mem_map.1 hx
      exact begins?_reportOf r
    · rfl
    · exact h.operators
    · intro hnone
      have hsame : { e.schedule with deadlineReleased := true } = e.schedule := by
        rw [← h.idle hnone]
      rw [Schedule.beginSlot_of_none hnone]
      exact ⟨hsame, fun x hx => absurd hx List.not_mem_nil⟩
    · intro old hold
      have hreleased := Schedule.released_beginSlot hold slot
      refine ⟨?_, _, hreleased, windowsIn_reports _, deadlinesIn_reports _⟩
      intro x hx
      obtain ⟨r, hr, rfl⟩ := List.mem_map.1 hx
      exact isAbout_reportOf (hreleased.about r hr)
  rw [events_beginSlot, ← List.append_assoc]
  refine hlate.turn rfl rfl (fun x hx => (mem_opening hx).1) hlater hhighest ?_ ?_
  · intro x hx
    rw [roster_beginSlot] at hx
    obtain ⟨⟨n, a⟩, -, rfl⟩ := List.mem_map.1 hx
    exact .inr (Automaton.inSlot_beginSlot a slot _).stays
  · refine ⟨rfl, fun x hx => (mem_opening hx).2.2, ?_, ?_⟩
    · rw [windowsIn_eq_nil fun x hx => (mem_opening hx).2.1]
      exact .nil
    · exact deadlinesIn_eq_nil fun x hx => (mem_opening hx).2.1

/-- Following the clock may begin a slot, and only then is anything
reported but a clock that went back. -/
theorem attributed_follow (h : Attributed e past) (now : Nat) :
    Attributed (e.follow now).1 (past ++ (e.follow now).2) := by
  by_cases hslot : ∃ slot previous, (e.tracker.observe now).2 = some (.slotStart slot previous)
  · obtain ⟨slot, previous, hseen⟩ := hslot
    obtain ⟨-, hlater, hhighest, -⟩ := Tracker.observe_slotStart hseen
    rw [follow_slotStart hseen]
    exact attributed_beginSlot h hlater hhighest previous
  · have hseen : ∀ slot previous, (e.tracker.observe now).2 ≠ some (.slotStart slot previous) :=
      fun slot previous hseen => hslot ⟨slot, previous, hseen⟩
    obtain ⟨hfst, hsilent⟩ := follow_otherwise hseen
    have hanomaly : ∀ x ∈ (e.follow now).2, x.isAnomaly = true := by
      rcases follow_cases e now with ⟨⟨x, hx, hstart⟩, -⟩ | ⟨hanomaly, -⟩
      · rw [(hsilent x hx).1] at hstart
        cases hstart
      · exact hanomaly
    have hquiet : ∀ x ∈ (e.follow now).2, x.isDue = false := by
      intro x hx
      have hx := hanomaly x hx
      cases x <;> first | rfl | cases hx
    rw [hfst]
    apply h.extend
    · intro x hx
      have hx := hanomaly x hx
      cases x <;> first | rfl | cases hx
    · exact Tracker.highest_observe hseen
    · exact h.operators
    · exact fun _ => ⟨rfl, hquiet⟩
    · intro slot hslot
      refine tells_of_quiet hslot ?_ hquiet
      intro x hx
      have hx := hanomaly x hx
      cases x <;> trivial

section Tick

variable {before later : List Release} {mixed : List Event}

/-- A look at the clock reports mixing, and what is due in the slot; it reports nothing else once
the clock has been followed. -/
theorem mem_reports (hmixed : ∀ x ∈ mixed, x.isMixing = true) {x : Event}
    (hx : x ∈ before.map reportOf ++ mixed ++ later.map reportOf) :
    x.isMixing = true ∨ ∃ r ∈ before ++ later, x = reportOf r := by
  rcases List.mem_append.1 hx with hx | hx
  · rcases List.mem_append.1 hx with hx | hx
    · obtain ⟨r, hr, rfl⟩ := List.mem_map.1 hx
      exact .inr ⟨r, List.mem_append_left _ hr, rfl⟩
    · exact .inl (hmixed x hx)
  · obtain ⟨r, hr, rfl⟩ := List.mem_map.1 hx
    exact .inr ⟨r, List.mem_append_right _ hr, rfl⟩

/-- What is due in the slot is reported, with a mix in its midst. The mix reports neither windows
nor deadlines, so what is counted is what the schedule has released. -/
theorem tells_of_release {s : Schedule} {slot : Slot} (hslot : s.slot = some slot) {now : Nat}
    (hreleased : (s.release now).2 = before ++ later) (hmixed : ∀ x ∈ mixed, x.isMixing = true) :
    Tells slot s (s.release now).1 (before.map reportOf ++ mixed ++ later.map reportOf) := by
  have hrelease := Schedule.released_release hslot now
  have hquiet : ∀ x ∈ mixed, x.isDue = false := fun x hx => isDue_of_isMixing (hmixed x hx)
  rw [hreleased] at hrelease
  refine ⟨?_, _, hrelease, ?_, ?_⟩
  · intro x hx
    rcases mem_reports hmixed hx with hmixing | ⟨r, hr, rfl⟩
    · exact isAbout_of_isMixing hmixing slot
    · exact isAbout_reportOf (hrelease.about r hr)
  · rw [windowsIn_append, windowsIn_append, windowsIn_eq_nil hquiet, windowsIn_reports,
      windowsIn_reports, List.append_nil, windowsOf_append]
  · rw [deadlinesIn_append, deadlinesIn_append, deadlinesIn_eq_nil hquiet, deadlinesIn_reports,
      deadlinesIn_reports, List.append_nil, deadlinesOf_append]

end Tick

/-- A look at the clock reports what is due in the slot that it finds: following the clock may begin
a chapter, and what is released afterwards extends it. -/
theorem attributed_tick (h : Attributed e past) (t : Moment) :
    Attributed (e.tick t).1 (past ++ (e.tick t).2) := by
  obtain ⟨before, later, done, hreleased, htick, hmixes, -⟩ := tick_cases e t
  have hfollow := attributed_follow h t.look
  have hsame := hmixes.sameRadio
  have hschedule : done.1.schedule = ((e.follow t.look).1.schedule.release t.now).1 :=
    hmixes.schedule
  have hevents : (e.tick t).2 = (e.follow t.look).2 ++
      (before.map reportOf ++ done.2 ++ later.map reportOf) := by
    rw [htick]
    simp only [List.append_assoc]
  have hslot : done.1.schedule.slot = (e.follow t.look).1.schedule.slot := by
    rw [hschedule]
    cases hcurrent : (e.follow t.look).1.schedule.slot with
    | none => rw [Schedule.release_of_none hcurrent, hcurrent]
    | some slot => exact (Schedule.released_release hcurrent t.now).current
  have hfst : (e.tick t).1 = done.1 := by rw [htick]
  rw [hfst, hevents, ← List.append_assoc]
  apply hfollow.extend
  · intro x hx
    rcases mem_reports hmixes.isMixing hx with hmixing | ⟨r, -, rfl⟩
    · exact begins?_of_isMixing hmixing
    · exact begins?_reportOf r
  · exact congrArg Tracker.highest hsame.tracker
  · intro x hx
    have hroster : done.1.roster = (e.follow t.look).1.roster := hsame.roster
    rw [hroster] at hx
    rw [hslot]
    exact hfollow.operators x hx
  · intro hnone
    rw [Schedule.release_of_none hnone] at hreleased hschedule
    refine ⟨hschedule, ?_⟩
    intro x hx
    rcases mem_reports hmixes.isMixing hx with hmixing | ⟨r, hr, -⟩
    · exact isDue_of_isMixing hmixing
    · rw [← hreleased] at hr
      exact absurd hr List.not_mem_nil
  · intro slot hcurrent
    rw [hschedule]
    exact tells_of_release hcurrent hreleased hmixes.isMixing

/-- **Every request reports for the slot that it finds.** -/
theorem attributed_meet (h : Attributed e past) (t : Moment) (r : Request) :
    Attributed (e.meet t r).engine (past ++ (e.meet t r).events) := by
  by_cases hr : r = .look
  · subst hr
    exact attributed_tick h t
  · exact attributed_of_ne_look h hr t

end Engine

namespace Session

/-- So does every session. -/
theorem attributed_run (mode : Mode) (config : Config) (requests : List (Moment × Request)) :
    Engine.Attributed (run ⟨.initial mode config, true⟩ requests).1.engine
      (run ⟨.initial mode config, true⟩ requests).2 := by
  have h := run_invariant (P := Engine.Attributed) (s := ⟨.initial mode config, true⟩)
    (fun e past t r hattributed => Engine.attributed_meet hattributed t r)
    (Engine.attributed_initial mode config) requests
  rwa [List.nil_append] at h

/-- Reports go on up to the next beginning, if there is one, and up to their end if not. -/
theorem exists_next_beginning (rest : List Event) :
    ∃ more later, rest = more ++ later ∧ (∀ x ∈ more, x.begins? = none) ∧
      (later = [] ∨ ∃ y tail, later = y :: tail ∧ y.begins?.isSome = true) := by
  induction rest with
  | nil => exact ⟨[], [], rfl, fun _ hx => absurd hx List.not_mem_nil, .inl rfl⟩
  | cons x rest ih =>
    cases hx : x.begins? with
    | none =>
      obtain ⟨more, later, rfl, hmore, hlater⟩ := ih
      exact ⟨x :: more, later, rfl, List.forall_mem_cons.2 ⟨hx, hmore⟩, hlater⟩
    | some slot =>
      refine ⟨[], x :: rest, rfl, fun _ hx => absurd hx List.not_mem_nil, .inr ?_⟩
      exact ⟨x, rest, rfl, by rw [hx]; rfl⟩

/-- **Which slot a report is about.**  Whatever is asked of an engine in
whatever order, and whatever the clock shows: the slots begin in order,
and nothing is due before the first one.  From the beginning of a slot to
that of the next, everything that is due, is sent or changes is reported
for this slot, no checkpoint is disposed of twice, and the deadline is
reported at most once, and has been when the next slot begins. -/
theorem events_attributed (mode : Mode) (config : Config) (requests : List (Moment × Request)) :
    let stream := (run ⟨.initial mode config, true⟩ requests).2
    (slotsIn stream).Pairwise (·.cycle < ·.cycle) ∧
      (∀ before x after, stream = before ++ x :: after → x.isDue = true →
        ∃ y ∈ before, y.begins?.isSome = true) ∧
      ∀ earlier x slot during rest, stream = earlier ++ x :: during ++ rest →
        x.begins? = some slot → (∀ y ∈ during, y.begins? = none) →
          (∀ y ∈ during, y.IsAbout slot) ∧ (windowsIn during).Nodup ∧
            (deadlinesIn during).length ≤ 1 ∧
            ((∃ y later, rest = y :: later ∧ y.begins?.isSome = true) →
              deadlinesIn during = [slot]) := by
  intro stream
  have h := attributed_run mode config requests
  refine ⟨h.ascending, fun before x after => h.preface, ?_⟩
  intro earlier x slot during rest hsplit hx hduring
  obtain ⟨more, later, rfl, hmore, hlater⟩ := exists_next_beginning rest
  -- The chapter that `during` is the first part of.
  have hchapter : (∀ y ∈ during ++ more, y.IsAbout slot) ∧ (windowsIn (during ++ more)).Nodup ∧
      (deadlinesIn (during ++ more)).length ≤ 1 := by
    have hfree : ∀ y ∈ during ++ more, y.begins? = none := by
      intro y hy
      exact (List.mem_append.1 hy).elim (hduring y) (hmore y)
    rcases hlater with rfl | ⟨y, tail, rfl, hy⟩
    · have hlast := h.last (by simpa using hsplit) hx hfree
      refine ⟨hlast.about, hlast.windows.nodup_iff.2 List.nodup_range, ?_⟩
      rw [hlast.deadlines]
      split <;> simp
    · have hcomplete := h.complete (by simpa using hsplit) hx hfree hy
      exact ⟨hcomplete.about, hcomplete.windows,
        Nat.le_of_eq (congrArg List.length hcomplete.deadlines)⟩
  obtain ⟨habout, hwindows, hdeadlines⟩ := hchapter
  rw [windowsIn_append] at hwindows
  rw [deadlinesIn_append, List.length_append] at hdeadlines
  refine ⟨fun y hy => habout y (List.mem_append_left _ hy), (List.nodup_append.1 hwindows).1,
    by omega, ?_⟩
  rintro ⟨y, tail, hnext, hy⟩
  exact (h.complete (by rw [← hnext]; exact hsplit) hx hduring hy).deadlines

end Session

end SlotRadio
