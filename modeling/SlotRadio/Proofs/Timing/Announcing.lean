import Mathlib.Algebra.Group.Nat.Defs
import Mathlib.Data.List.Induction
import SlotRadio.Proofs.Timing.Following
/-!
# What a sequence of readings shows

A tracker that is shown readings in any order announces the records among
their cycles, and nothing else: a slot is announced exactly if its cycle
is higher than those of all readings before (`IsRecord`).

The readings fall into **stretches**, each of which begins with an
anomaly, except the first.  A reading is an anomaly exactly if it lies
more than the tolerance below the highest one of the stretch that it
would go on (`stretch`).

* `Traced` — what a tracker remembers is the highest reading of the
  stretch and the highest cycle of all;
* `Traced.observe_cases` — so every reading is a record, an anomaly, or
  shows nothing;
* `run_shows` — what a whole sequence of readings shows.
-/

namespace SlotRadio

namespace Tick

/-- True if the clock went back. -/
def isAnomaly : Tick → Bool
  | anomaly .. => true
  | slotStart .. => false

/-- The cycle that is announced. -/
def cycle? : Tick → Option Nat
  | slotStart slot _ => some slot.cycle
  | anomaly .. => none

end Tick

/-- The highest of some readings and one more. -/
theorem max?_concat {l : List Nat} {m : Nat} (h : l.max? = some m) (a : Nat) :
    (l ++ [a]).max? = some (max m a) := by
  obtain ⟨hmem, hle⟩ := List.max?_eq_some_iff.1 h
  apply List.max?_eq_some_iff.2
  constructor
  · rcases Nat.le_total m a with hma | hma
    · rw [Nat.max_eq_right hma]
      exact List.mem_append_right _ (List.mem_singleton.2 rfl)
    · rw [Nat.max_eq_left hma]
      exact List.mem_append_left _ hmem
  · intro b hb
    rcases List.mem_append.1 hb with hb | hb
    · have := hle b hb
      omega
    · have := List.mem_singleton.1 hb
      omega

/-- One more that is at least as high as all of them is the highest. -/
theorem max?_concat_of_le {l : List Nat} {a : Nat} (h : ∀ b ∈ l, b ≤ a) :
    (l ++ [a]).max? = some a := by
  apply List.max?_eq_some_iff.2
  constructor
  · exact List.mem_append_right _ (List.mem_singleton.2 rfl)
  · intro b hb
    rcases List.mem_append.1 hb with hb | hb
    · exact h b hb
    · exact Nat.le_of_eq (List.mem_singleton.1 hb)

namespace Tracker

/-- The tracker that has been shown some readings. -/
def after (t : Tracker) (readings : List Nat) : Tracker :=
  readings.foldl (fun t now => (t.observe now).1) t

/-- The readings from the last anomaly on, that one included, given what
each of them has shown. -/
def latest (shown : List (Nat × Option Tick)) : List Nat :=
  shown.foldl
    (fun recent (now, tick) => if tick.any Tick.isAnomaly then [now] else recent ++ [now]) []

/-- The stretch that the next reading would go on. -/
def stretch (t : Tracker) (readings : List Nat) : List Nat :=
  latest (readings.zip (t.run readings))

/-- What a reading shows after others. -/
def shows (t : Tracker) (readings : List Nat) (now : Nat) : Option Tick :=
  ((t.after readings).observe now).2

/-- The cycles announced, in order. -/
def announced (ticks : List (Option Tick)) : List Nat :=
  ticks.filterMap (·.bind Tick.cycle?)

/-- The cycle of a reading is higher than all before. -/
def IsRecord (mode : Mode) (readings : List Nat) (now : Nat) : Prop :=
  ∀ s ∈ readings, s / mode.slotMs < now / mode.slotMs

@[simp] theorem after_nil (t : Tracker) : t.after [] = t := rfl

/-- A series of readings may be cut anywhere: its second part is followed from
where the first has led to. -/
theorem after_append (t : Tracker) (xs ys : List Nat) :
    t.after (xs ++ ys) = (t.after xs).after ys :=
  List.foldl_append

/-- The last of a series of readings is met by what those before it have led
to. -/
theorem after_concat (t : Tracker) (readings : List Nat) (now : Nat) :
    t.after (readings ++ [now]) = ((t.after readings).observe now).1 := by
  rw [after_append]
  rfl

/-- What a series of readings shows is what its first part shows, and then
what the second does from there. -/
theorem run_append (t : Tracker) (xs ys : List Nat) :
    t.run (xs ++ ys) = t.run xs ++ (t.after xs).run ys := by
  induction xs generalizing t with
  | nil => rfl
  | cons x xs ih => exact congrArg (List.cons _) (ih (t.observe x).1)

/-- What the last reading shows stands at the end. -/
theorem run_concat (t : Tracker) (readings : List Nat) (now : Nat) :
    t.run (readings ++ [now]) = t.run readings ++ [t.shows readings now] := by
  rw [run_append]
  rfl

/-- Each reading shows one thing, or nothing. -/
@[simp] theorem length_run (t : Tracker) (readings : List Nat) :
    (t.run readings).length = readings.length := by
  induction readings generalizing t with
  | nil => rfl
  | cons x xs ih => exact congrArg Nat.succ (ih (t.observe x).1)

/-- **Each reading goes on the stretch**, or begins one. -/
theorem stretch_concat (t : Tracker) (readings : List Nat) (now : Nat) :
    t.stretch (readings ++ [now]) =
      if (t.shows readings now).any Tick.isAnomaly then [now]
      else t.stretch readings ++ [now] := by
  have hlength : readings.length = (t.run readings).length := (length_run t readings).symm
  have hzip : (readings ++ [now]).zip (t.run (readings ++ [now])) =
      readings.zip (t.run readings) ++ [(now, t.shows readings now)] := by
    rw [run_concat, List.zip_append hlength]
    rfl
  unfold stretch latest
  rw [hzip, List.foldl_append]
  rfl

/-- The readings since the last jump are readings. -/
theorem mem_of_mem_stretch {t : Tracker} {readings : List Nat} {s : Nat}
    (h : s ∈ t.stretch readings) : s ∈ readings := by
  induction readings using List.reverseRecOn with
  | nil => exact h
  | append_singleton readings now ih =>
    rw [stretch_concat] at h
    split at h
    · exact List.mem_append_right _ h
    · rcases List.mem_append.1 h with h | h
      · exact List.mem_append_left _ (ih h)
      · exact List.mem_append_right _ h

/-- Where there are readings, there are some since the last jump: the one that
jumped is itself among them. -/
theorem stretch_ne_nil (t : Tracker) {readings : List Nat} (h : readings ≠ []) :
    t.stretch readings ≠ [] := by
  obtain ⟨before, now, rfl⟩ := (List.eq_nil_or_concat readings).resolve_left h
  rw [List.concat_eq_append, stretch_concat]
  split <;> simp

/-! ## One reading, exactly -/

section Observe

variable {t : Tracker} {last now : Nat}

/-- The first reading is entered as it is. -/
theorem observe_first (h : t.lastReading = none) : t.observe now = t.enter now := by
  unfold observe
  rw [h]

/-- A reading that is not before the last one is entered. -/
theorem observe_onward (h : t.lastReading = some last) (hle : last ≤ now) :
    t.observe now = t.enter now := by
  unfold observe
  rw [h]
  exact if_pos hle

/-- A small step back shows nothing and changes nothing. -/
theorem observe_jitter (h : t.lastReading = some last) (hlt : now < last)
    (hle : last ≤ now + t.toleranceMs) : t.observe now = (t, none) := by
  have hback : last - now ≤ t.toleranceMs := by omega
  unfold observe
  rw [h]
  dsimp only
  rw [if_neg (Nat.not_le.2 hlt), if_pos hback]

/-- A step back beyond the tolerance sets the tracker to its slot and is shown
as an anomaly. -/
theorem observe_jump (h : t.lastReading = some last) (hlt : now + t.toleranceMs < last) :
    t.observe now =
      ({ t with lastReading := some now, current := some (slotOf t.mode now) },
        some (.anomaly (jump (last - now)) (slotOf t.mode now))) := by
  have hback : ¬ last - now ≤ t.toleranceMs := by omega
  have hlate : ¬ last ≤ now := by omega
  unfold observe
  rw [h]
  dsimp only
  rw [if_neg hlate, if_neg hback]

/-- No reading changes what counts as jitter. -/
theorem tolerance_observe (t : Tracker) (now : Nat) :
    (t.observe now).1.toleranceMs = t.toleranceMs := by
  rcases Tracker.observe_cases t now with h | ⟨_, _, -, -, h⟩ | ⟨-, h⟩
  · rw [h]
  · rw [h]
  · rcases enter_cases t now with ⟨-, h'⟩ | ⟨-, h'⟩ | ⟨-, h'⟩ <;> rw [h, h']

end Observe

/-- A jump back that a signed word can hold is reported as it is. -/
theorem jump_eq {back : Nat} (h : back < 2 ^ 63) : jump back = -(back : Int) := by
  unfold jump Word.count
  have hback : (Int.ofNat back) = (back : Int) := rfl
  rw [hback, Int.bmod_def]
  omega

/-! ## What is remembered -/

/-- What a tracker remembers of the readings that it was shown. -/
structure Traced (mode : Mode) (toleranceMs : Nat) (readings : List Nat) : Prop where
  grid : ((start mode toleranceMs).after readings).mode = mode
  tolerance : ((start mode toleranceMs).after readings).toleranceMs = toleranceMs
  follows : ((start mode toleranceMs).after readings).Follows
  last : ((start mode toleranceMs).after readings).lastReading =
    ((start mode toleranceMs).stretch readings).max?
  highest : ((start mode toleranceMs).after readings).highest =
    (readings.map (· / mode.slotMs)).max?

variable {mode : Mode} {toleranceMs : Nat} {readings : List Nat}

/-- **The current slot** is that of the latest time that was read since the
last jump. -/
theorem Traced.current (h : Traced mode toleranceMs readings) :
    ((start mode toleranceMs).after readings).current =
      ((start mode toleranceMs).stretch readings).max?.map (slotOf mode) := by
  have hfollows := h.follows
  unfold Follows at hfollows
  rw [hfollows, h.last, h.grid]

/-- A cycle is no record if a reading before has one as high. -/
theorem not_isRecord_iff {now : Nat} :
    ¬ IsRecord mode readings now ↔ ∃ s ∈ readings, now / mode.slotMs ≤ s / mode.slotMs := by
  constructor
  · intro hnot
    by_contra hnone
    apply hnot
    intro s hs
    by_contra hlt
    exact hnone ⟨s, hs, Nat.le_of_not_lt hlt⟩
  · rintro ⟨s, hs, hle⟩ hrecord
    have := hrecord s hs
    omega

/-- A reading that does not go back is a record and announced, or shows nothing. The tracker
compares its cycle with the current and the highest one, and both are cycles of readings before. -/
theorem Traced.enter_cases (h : Traced mode toleranceMs readings) (now : Nat) :
    let t := (start mode toleranceMs).after readings
    (t.enter now).1.lastReading = some now ∧
      (IsRecord mode readings now ∧
          (t.enter now).2 = some (.slotStart (slotOf mode now)
            (((start mode toleranceMs).stretch readings).max?.map (slotOf mode))) ∧
          (t.enter now).1.highest = some (now / mode.slotMs) ∨
        ¬ IsRecord mode readings now ∧ (t.enter now).2 = none ∧
          (t.enter now).1.highest = t.highest) := by
  intro t
  rcases Tracker.enter_cases t now with ⟨hsame, heq⟩ | ⟨hlate, heq⟩ | ⟨hnew, heq⟩
  · rw [heq]
    refine ⟨rfl, .inr ⟨?_, rfl, rfl⟩⟩
    -- The current slot is that of a reading of the stretch.
    rw [h.current, h.grid] at hsame
    cases hmax : ((start mode toleranceMs).stretch readings).max? with
    | none => simp [hmax] at hsame
    | some last =>
      have hid : last / mode.slotMs = now / mode.slotMs := by simpa [hmax] using hsame
      exact not_isRecord_iff.2
        ⟨last, mem_of_mem_stretch (List.max?_mem hmax), Nat.le_of_eq hid.symm⟩
  · rw [heq]
    refine ⟨rfl, .inr ⟨?_, rfl, rfl⟩⟩
    rw [h.highest, h.grid] at hlate
    cases hmax : (readings.map (· / mode.slotMs)).max? with
    | none => simp [hmax] at hlate
    | some top =>
      obtain ⟨s, hs, hstop⟩ := List.mem_map.1 (List.max?_mem hmax)
      have htop : now / mode.slotMs ≤ top := by
        rw [hmax] at hlate
        exact of_decide_eq_true hlate
      exact not_isRecord_iff.2 ⟨s, hs, by omega⟩
  · rw [heq]
    refine ⟨rfl, .inl ⟨?_, ?_, ?_⟩⟩
    · intro s hs
      rw [h.highest, h.grid] at hnew
      have hmem : s / mode.slotMs ∈ readings.map (· / mode.slotMs) := List.mem_map_of_mem hs
      cases hmax : (readings.map (· / mode.slotMs)).max? with
      | none =>
        rw [List.max?_eq_none_iff.1 hmax] at hmem
        exact absurd hmem List.not_mem_nil
      | some top =>
        have hle : s / mode.slotMs ≤ top := (List.max?_eq_some_iff.1 hmax).2 _ hmem
        have hlt : ¬ now / mode.slotMs ≤ top := by
          rw [hmax] at hnew
          exact of_decide_eq_false hnew
        omega
    · rw [h.grid, h.current]
    · rw [h.grid]
      rfl

/-- **Every reading is a record, an anomaly, or shows nothing.** It is compared with the highest
reading since the last anomaly, which is what the tracker remembers as the last. -/
theorem Traced.observe_cases (h : Traced mode toleranceMs readings) (now : Nat) :
    let t := (start mode toleranceMs).after readings
    let recent := (start mode toleranceMs).stretch readings
    (IsRecord mode readings now ∧ (∀ s ∈ recent, s ≤ now) ∧
        (start mode toleranceMs).shows readings now =
          some (.slotStart (slotOf mode now) (recent.max?.map (slotOf mode))) ∧
        (t.observe now).1.lastReading = some now ∧
        (t.observe now).1.highest = some (now / mode.slotMs)) ∨
      (¬ IsRecord mode readings now ∧ (t.observe now).1.highest = t.highest ∧
        ∃ top, recent.max? = some top ∧
          (now + toleranceMs < top ∧
              (start mode toleranceMs).shows readings now =
                some (.anomaly (jump (top - now)) (slotOf mode now)) ∧
              (t.observe now).1.lastReading = some now ∨
            top ≤ now + toleranceMs ∧ (start mode toleranceMs).shows readings now = none ∧
              (t.observe now).1.lastReading = some (max top now))) := by
  intro t recent
  have hshows : (start mode toleranceMs).shows readings now = (t.observe now).2 := rfl
  rw [hshows]
  have hlast : t.lastReading = recent.max? := h.last
  cases hmax : recent.max? with
  | none =>
    have hnil : recent = [] := List.max?_eq_none_iff.1 hmax
    have hfirst : readings = [] := by
      by_contra hne
      exact stretch_ne_nil _ hne hnil
    have hall : ∀ s ∈ recent, s ≤ now := by
      intro s hs
      rw [hnil] at hs
      exact absurd hs List.not_mem_nil
    obtain ⟨hreading, hrecord | ⟨hnot, -, -⟩⟩ := h.enter_cases now
    · rw [observe_first (hlast.trans hmax), ← hmax]
      exact .inl ⟨hrecord.1, hall, hrecord.2.1, hreading, hrecord.2.2⟩
    · -- The first reading is a record.
      exfalso
      apply hnot
      intro s hs
      rw [hfirst] at hs
      exact absurd hs List.not_mem_nil
  | some top =>
    have htop : top ∈ readings := mem_of_mem_stretch (List.max?_mem hmax)
    have hle : ∀ s ∈ recent, s ≤ top := (List.max?_eq_some_iff.1 hmax).2
    rw [hmax] at hlast
    by_cases honward : top ≤ now
    · have hall : ∀ s ∈ recent, s ≤ now := fun s hs => Nat.le_trans (hle s hs) honward
      rw [observe_onward hlast honward]
      obtain ⟨hreading, ⟨hrecord, htick, hhighest⟩ | ⟨hnot, htick, hhighest⟩⟩ := h.enter_cases now
      · rw [← hmax]
        exact .inl ⟨hrecord, hall, htick, hreading, hhighest⟩
      · refine .inr ⟨hnot, hhighest, top, rfl, .inr ⟨by omega, htick, ?_⟩⟩
        rw [hreading, Nat.max_eq_right honward]
    · have hback : now < top := Nat.lt_of_not_le honward
      have hnot : ¬ IsRecord mode readings now :=
        not_isRecord_iff.2 ⟨top, htop, Nat.div_le_div_right (Nat.le_of_lt hback)⟩
      by_cases hjump : now + toleranceMs < top
      · have hjump' : now + t.toleranceMs < top := by
          rw [h.tolerance]
          exact hjump
        rw [observe_jump hlast hjump', h.grid]
        exact .inr ⟨hnot, rfl, top, rfl, .inl ⟨hjump, rfl, rfl⟩⟩
      · have hjitter : top ≤ now + t.toleranceMs := by
          rw [h.tolerance]
          omega
        rw [observe_jitter hlast hback hjitter]
        refine .inr ⟨hnot, rfl, top, rfl, .inr ⟨by omega, rfl, ?_⟩⟩
        rw [hlast, Nat.max_eq_left (Nat.le_of_lt hback)]

/-- **What a tracker remembers, it remembers after one more reading.** A record is the new maximum
throughout, an anomaly begins another stretch, and all else leaves the highest cycle. -/
theorem Traced.concat (h : Traced mode toleranceMs readings) (now : Nat) :
    Traced mode toleranceMs (readings ++ [now]) := by
  have hmap : (readings ++ [now]).map (· / mode.slotMs) =
      readings.map (· / mode.slotMs) ++ [now / mode.slotMs] := by
    rw [List.map_append]
    rfl
  refine ⟨?_, ?_, ?_, ?_, ?_⟩
  · rw [after_concat, mode_observe, h.grid]
  · rw [after_concat, tolerance_observe, h.tolerance]
  · rw [after_concat]
    exact follows_observe h.follows now
  · rw [after_concat, stretch_concat]
    rcases h.observe_cases now with ⟨-, hall, htick, hlast, -⟩ |
      ⟨-, -, top, hmax, ⟨-, htick, hlast⟩ | ⟨-, htick, hlast⟩⟩
    · rw [htick, hlast]
      exact (max?_concat_of_le hall).symm
    · rw [htick, hlast]
      rfl
    · rw [htick, hlast]
      exact (max?_concat hmax now).symm
  · rw [after_concat, hmap]
    rcases h.observe_cases now with ⟨hrecord, -, -, -, hhighest⟩ | ⟨hnot, hhighest, -⟩
    · rw [hhighest]
      refine (max?_concat_of_le ?_).symm
      intro c hc
      obtain ⟨s, hs, rfl⟩ := List.mem_map.1 hc
      exact Nat.le_of_lt (hrecord s hs)
    · -- Some reading before has a cycle as high.
      obtain ⟨s, hs, hle⟩ := not_isRecord_iff.1 hnot
      have hmem : s / mode.slotMs ∈ readings.map (· / mode.slotMs) := List.mem_map_of_mem hs
      rw [hhighest, h.highest]
      cases hmax : (readings.map (· / mode.slotMs)).max? with
      | none =>
        rw [List.max?_eq_none_iff.1 hmax] at hmem
        exact absurd hmem List.not_mem_nil
      | some top =>
        have htop : s / mode.slotMs ≤ top := (List.max?_eq_some_iff.1 hmax).2 _ hmem
        rw [max?_concat hmax, Nat.max_eq_left (by omega)]

/-- **Whatever has been read**, the tracker knows the latest time since the
last jump and the highest cycle of all. -/
theorem traced (mode : Mode) (toleranceMs : Nat) (readings : List Nat) :
    Traced mode toleranceMs readings := by
  induction readings using List.reverseRecOn with
  | nil => exact ⟨rfl, rfl, rfl, rfl, rfl⟩
  | append_singleton readings now ih => exact ih.concat now

/-! ## What is shown -/

section Shown

variable {now : Nat}

/-- **A slot is announced exactly if its cycle is a record**, and with it
the slot current before. -/
theorem shows_slotStart_iff {slot : Slot} {previous : Option Slot} :
    (start mode toleranceMs).shows readings now = some (.slotStart slot previous) ↔
      IsRecord mode readings now ∧ slot = slotOf mode now ∧
        previous = ((start mode toleranceMs).stretch readings).max?.map (slotOf mode) := by
  rcases (traced mode toleranceMs readings).observe_cases now with ⟨hrecord, -, hshows, -⟩ |
    ⟨hnot, -, top, -, ⟨-, hshows, -⟩ | ⟨-, hshows, -⟩⟩
  · rw [hshows]
    simp only [Option.some.injEq, Tick.slotStart.injEq, hrecord, true_and, eq_comm]
  · simp [hshows, hnot]
  · simp [hshows, hnot]

/-- **A reading is an anomaly exactly if it lies more than the tolerance
below the highest of its stretch.** -/
theorem shows_anomaly_iff {jumpMs : Int} {slot : Slot} :
    (start mode toleranceMs).shows readings now = some (.anomaly jumpMs slot) ↔
      ∃ top, ((start mode toleranceMs).stretch readings).max? = some top ∧
        now + toleranceMs < top ∧ jumpMs = jump (top - now) ∧ slot = slotOf mode now := by
  rcases (traced mode toleranceMs readings).observe_cases now with ⟨-, hall, hshows, -⟩ |
    ⟨-, -, top, hmax, ⟨hlt, hshows, -⟩ | ⟨hle, hshows, -⟩⟩
  · rw [hshows]
    constructor
    · simp
    · -- A record is not below a reading of its stretch.
      rintro ⟨top, hmax, hlt, -⟩
      have := hall top (List.max?_mem hmax)
      omega
  · rw [hshows]
    constructor
    · intro h
      simp only [Option.some.injEq, Tick.anomaly.injEq] at h
      exact ⟨top, hmax, hlt, h.1.symm, h.2.symm⟩
    · rintro ⟨top', hmax', -, rfl, rfl⟩
      obtain rfl : top = top' := Option.some.inj (hmax.symm.trans hmax')
      rfl
  · rw [hshows]
    constructor
    · simp
    · rintro ⟨top', hmax', hlt, -⟩
      obtain rfl : top = top' := Option.some.inj (hmax.symm.trans hmax')
      omega

/-- What is neither a record nor an anomaly shows nothing, and only that does. -/
theorem shows_none_iff :
    (start mode toleranceMs).shows readings now = none ↔
      ¬ IsRecord mode readings now ∧
        ∀ top, ((start mode toleranceMs).stretch readings).max? = some top →
          top ≤ now + toleranceMs := by
  rcases (traced mode toleranceMs readings).observe_cases now with ⟨hrecord, -, hshows, -⟩ |
    ⟨hnot, -, top, hmax, ⟨hlt, hshows, -⟩ | ⟨hle, hshows, -⟩⟩
  · simp [hshows, hrecord]
  · rw [hshows]
    constructor
    · simp
    · rintro ⟨-, hnear⟩
      have := hnear top hmax
      omega
  · rw [hshows]
    refine ⟨fun _ => ⟨hnot, ?_⟩, fun _ => rfl⟩
    intro top' hmax'
    obtain rfl : top = top' := Option.some.inj (hmax.symm.trans hmax')
    exact hle

/-- **The slot announced before** is missing only at first, and earlier: it is that of the highest
reading of the stretch, which is one of those that a record exceeds. -/
theorem previous_of_shows {slot : Slot} {previous : Option Slot}
    (h : (start mode toleranceMs).shows readings now = some (.slotStart slot previous)) :
    (previous = none ↔ readings = []) ∧ ∀ p, previous = some p → p.cycle < slot.cycle := by
  obtain ⟨hrecord, rfl, rfl⟩ := shows_slotStart_iff.1 h
  constructor
  · rw [Option.map_eq_none_iff, List.max?_eq_none_iff]
    constructor
    · intro hnil
      by_contra hne
      exact stretch_ne_nil _ hne hnil
    · intro hnil
      rw [hnil]
      rfl
  · intro p hp
    obtain ⟨top, hmax, rfl⟩ := Option.map_eq_some_iff.1 hp
    exact hrecord top (mem_of_mem_stretch (List.max?_mem hmax))

/-- After a reading there is a current slot: that of the highest reading
of the stretch. -/
theorem current_after_concat (mode : Mode) (toleranceMs : Nat) (readings : List Nat) (now : Nat) :
    ∃ last, ((start mode toleranceMs).stretch (readings ++ [now])).max? = some last ∧
      ((start mode toleranceMs).after (readings ++ [now])).current = some (slotOf mode last) := by
  have hcurrent := (traced mode toleranceMs (readings ++ [now])).current
  cases hmax : ((start mode toleranceMs).stretch (readings ++ [now])).max? with
  | none =>
    have hnil := List.max?_eq_none_iff.1 hmax
    exact absurd hnil (stretch_ne_nil _ (by simp))
  | some last =>
    rw [hmax] at hcurrent
    exact ⟨last, rfl, hcurrent⟩

end Shown

/-- **The announced cycles go up.** By induction on the readings, the last one at the end: what it
announces is a record, and so later than all that was announced of the others. -/
theorem announced_run (mode : Mode) (toleranceMs : Nat) (readings : List Nat) :
    (announced ((start mode toleranceMs).run readings)).Pairwise (· < ·) ∧
      ∀ c ∈ announced ((start mode toleranceMs).run readings),
        ∃ s ∈ readings, c = s / mode.slotMs := by
  induction readings using List.reverseRecOn with
  | nil => exact ⟨.nil, fun c hc => absurd hc List.not_mem_nil⟩
  | append_singleton readings now ih =>
    obtain ⟨hpairs, hreadings⟩ := ih
    have hsplit : announced ((start mode toleranceMs).run (readings ++ [now])) =
        announced ((start mode toleranceMs).run readings) ++
          announced [(start mode toleranceMs).shows readings now] := by
      rw [run_concat]
      exact List.filterMap_append
    have hnew : ∀ c ∈ announced [(start mode toleranceMs).shows readings now],
        IsRecord mode readings now ∧ c = now / mode.slotMs := by
      intro c hc
      obtain ⟨tick, htick, hcycle⟩ := List.mem_filterMap.1 hc
      obtain ⟨tick, rfl, hcycle⟩ := Option.bind_eq_some_iff.1 hcycle
      have hshows := (List.mem_singleton.1 htick).symm
      cases tick with
      | slotStart slot previous =>
        obtain ⟨hrecord, rfl, -⟩ := shows_slotStart_iff.1 hshows
        exact ⟨hrecord, (Option.some.inj hcycle).symm⟩
      | anomaly jumpMs slot => simp [Tick.cycle?] at hcycle
    have hone : (announced [(start mode toleranceMs).shows readings now]).Pairwise (· < ·) := by
      cases (start mode toleranceMs).shows readings now with
      | none => exact .nil
      | some tick =>
        cases tick with
        | slotStart slot previous => exact List.pairwise_singleton _ _
        | anomaly jumpMs slot => exact .nil
    rw [hsplit]
    constructor
    · refine List.pairwise_append.2 ⟨hpairs, hone, ?_⟩
      intro c hc d hd
      obtain ⟨s, hs, rfl⟩ := hreadings c hc
      obtain ⟨hrecord, rfl⟩ := hnew d hd
      exact hrecord s hs
    · intro c hc
      rcases List.mem_append.1 hc with hc | hc
      · obtain ⟨s, hs, rfl⟩ := hreadings c hc
        exact ⟨s, List.mem_append_left _ hs, rfl⟩
      · obtain ⟨-, rfl⟩ := hnew c hc
        exact ⟨now, List.mem_append_right _ (List.mem_singleton.2 rfl), rfl⟩

/-- What is shown at a position depends on the readings up to it. -/
theorem getElem?_run (t : Tracker) (before later : List Nat) (now : Nat) :
    (t.run (before ++ now :: later))[before.length]? = some (t.shows before now) := by
  have hlength : (t.run before).length = before.length := length_run t before
  rw [run_append, List.getElem?_append_right (Nat.le_of_eq hlength), hlength, Nat.sub_self]
  rfl

/-- **What a sequence of readings shows**, whatever their order.  A
reading announces its slot exactly if its cycle is a record, and with it
the slot current before, which is earlier and is missing only at first.
It is an anomaly exactly if it lies more than the tolerance below the
highest reading of the stretch, by as much as is reported.  It shows
nothing otherwise.  The current slot is then that of the highest reading
of the stretch, and the announced cycles go up.

A jump is reported as a signed word, so it has to fit into one. -/
theorem run_shows (mode : Mode) (toleranceMs : Nat) (before later : List Nat) (now : Nat)
    (hjump : ∀ s ∈ (start mode toleranceMs).stretch before, s < now + 2 ^ 63) :
    let t := start mode toleranceMs
    let recent := t.stretch before
    ∃ tick, (t.run (before ++ now :: later))[before.length]? = some tick ∧
      (∀ slot previous, tick = some (.slotStart slot previous) ↔
        IsRecord mode before now ∧ slot = slotOf mode now ∧
          previous = recent.max?.map (slotOf mode)) ∧
      (∀ jumpMs slot, tick = some (.anomaly jumpMs slot) ↔
        ∃ top, recent.max? = some top ∧ now + toleranceMs < top ∧
          jumpMs = -((top : Int) - now) ∧ slot = slotOf mode now) ∧
      (tick = none ↔ ¬ IsRecord mode before now ∧
        ∀ top, recent.max? = some top → top ≤ now + toleranceMs) ∧
      (∀ slot previous, tick = some (.slotStart slot previous) →
        (previous = none ↔ before = []) ∧ ∀ p, previous = some p → p.cycle < slot.cycle) ∧
      (∃ last, (t.stretch (before ++ [now])).max? = some last ∧
        (t.after (before ++ [now])).current = some (slotOf mode last)) ∧
      (announced (t.run (before ++ now :: later))).Pairwise (· < ·) := by
  intro t recent
  have hreported : ∀ top, recent.max? = some top → now + toleranceMs < top →
      jump (top - now) = -((top : Int) - now) := by
    intro top hmax hlt
    have hfits := hjump top (List.max?_mem hmax)
    rw [jump_eq (by omega)]
    omega
  refine ⟨t.shows before now, getElem?_run t before later now, fun _ _ => shows_slotStart_iff, ?_,
    shows_none_iff, fun _ _ h => previous_of_shows h,
    current_after_concat mode toleranceMs before now, (announced_run mode toleranceMs _).1⟩
  intro jumpMs slot
  constructor
  · intro h
    obtain ⟨top, hmax, hlt, rfl, rfl⟩ := shows_anomaly_iff.1 h
    exact ⟨top, hmax, hlt, hreported top hmax hlt, rfl⟩
  · rintro ⟨top, hmax, hlt, rfl, rfl⟩
    exact shows_anomaly_iff.2 ⟨top, hmax, hlt, (hreported top hmax hlt).symm, rfl⟩

/-- A slot announced after a jump back, and some jitter, comes with the
slot that the clock went back to. -/
theorem run_shows_after_jump :
    (∀ s ∈ (start .ft8 500).stretch [30100, 15500, 15400], s < 45000 + 2 ^ 63) ∧
      IsRecord .ft8 [30100, 15500, 15400] 45000 ∧
      ((start .ft8 500).run [30100, 15500, 15400, 45000])[3]? =
        some (some (.slotStart (slotOf .ft8 45000) (some (slotOf .ft8 15500)))) := by
  have hjump : ∀ s ∈ (start .ft8 500).stretch [30100, 15500, 15400], s < 45000 + 2 ^ 63 := by
    decide
  have hrecord : IsRecord .ft8 [30100, 15500, 15400] 45000 := by
    unfold IsRecord
    decide
  obtain ⟨tick, htick, hstart, -⟩ := run_shows .ft8 500 [30100, 15500, 15400] [] 45000 hjump
  refine ⟨hjump, hrecord, htick.trans (congrArg some ?_)⟩
  exact (hstart _ _).2 ⟨hrecord, rfl, rfl⟩

end Tracker

end SlotRadio
