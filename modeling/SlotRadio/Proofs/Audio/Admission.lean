import SlotRadio.Proofs.Audio.Minding
/-!
# Admitting a clip

Before a mixer knows whether it takes a clip, it turns to the slot of the
clip, and drops what it has for another one.  That a clip is refused
shows only after that.  Still nothing is lost on a clip that is refused:
a mixer that has just been emptied takes it, and one that is full, or has
the clip already, is for its slot anyway (`turnTo_of_cached`).

* `Admission` — the ways in which a mixer treats a clip, with the mixer
  that each of them leaves;
* `admission_add` — there are no others, if the mixer may hold a clip;
* `add_all_or_nothing` — so a clip is taken or nothing changes, and the
  clips of other operators go for a new slot only.
-/

namespace SlotRadio.Mixer

/-- What becomes of a clip that is offered, and of the mixer. -/
inductive Admission (m : Mixer) (clip : Clip) : Mixer × Except MixFault Acceptance → Prop
  | refused {fault : MixFault} (hwhy : clip.rate = 0 ∨ m.isElsewhere clip.slotStartMs = false) :
    Admission m clip (m, .error fault)
  | repeated (hhere : m.isElsewhere clip.slotStartMs = false) :
    Admission m clip (m, .ok .duplicate)
  | stored {accepted : Acceptance} (hhere : m.isElsewhere clip.slotStartMs = false)
      (haccepted : accepted = .inserted ∨ accepted = .replaced) :
    Admission m clip ({ m with slotStart := some clip.slotStartMs }.store clip, .ok accepted)
  | purged (helse : m.isElsewhere clip.slotStartMs = true) :
    Admission m clip
      ({ m.clear with slotStart := some clip.slotStartMs }.store clip, .ok .purgedStale)

variable {m : Mixer} {clip : Clip}

theorem isElsewhere_iff {start : Nat} :
    m.isElsewhere start = true ↔ ∃ held, m.slotStart = some held ∧ held ≠ start := by
  simp [isElsewhere, Option.any_eq_true]

/-- A mixer that has clips is turned to their slot. -/
theorem turnTo_of_cached (htagged : m.Tagged) (hne : m.clips ≠ []) {start : Nat}
    (hhere : m.isElsewhere start = false) : m.turnTo start = (m, false) := by
  obtain ⟨c, hc⟩ := List.exists_mem_of_ne_nil _ hne
  have hslot : m.slotStart = some c.slotStartMs := htagged c hc
  have hstart : c.slotStartMs = start := by simpa [isElsewhere, hslot] using hhere
  rw [turnTo_of_here hhere, ← hstart, ← hslot]

/-- A mixer without clips refuses none that has a rate. -/
theorem order_ne_nil_of_unwanted (hcoherent : m.Coherent) (hroom : 0 < m.settings.maxOperators)
    (hrate : clip.rate ≠ 0) (hhere : m.isElsewhere clip.slotStartMs = false)
    (hunwanted : (m.add clip).2 = .ok .duplicate ∨ ∃ fault, (m.add clip).2 = .error fault) :
    m.order ≠ [] := by
  intro hnil
  have hnone := hcoherent.entries_of_order_nil hnil clip.operator
  have hfree : ¬ m.settings.maxOperators ≤ 0 := Nat.not_le_of_lt hroom
  have htaken : (m.add clip).2 = .ok .inserted := by
    simp [add, hrate, turnTo_of_here hhere, hnone, hnil, hfree]
  rw [htaken] at hunwanted
  rcases hunwanted with hdup | ⟨fault, hfault⟩
  · cases hdup
  · cases hfault

/-- **How a mixer that may hold a clip treats one.** With room for one operator at least, a clip of
another slot is never turned away: it empties the mixer first. -/
theorem admission_add (hregular : m.Regular) (hroom : 0 < m.settings.maxOperators) (clip : Clip) :
    Admission m clip (m.add clip) := by
  rcases add_outcome m clip with ⟨hrate, hadd⟩ | ⟨hrate, hleft, hunwanted⟩ |
    ⟨accepted, hrate, haccepted, hadd⟩
  · rw [hadd]
    exact .refused (.inl hrate)
  · cases helse : m.isElsewhere clip.slotStartMs with
    | true =>
      -- The emptied mixer has room for the clip.
      rw [add_of_elsewhere hrate helse hroom] at hunwanted
      rcases hunwanted with hdup | ⟨fault, hfault⟩
      · cases hdup
      · cases hfault
    | false =>
      have hlisted := order_ne_nil_of_unwanted hregular.toCoherent hroom hrate helse hunwanted
      have hne : m.clips ≠ [] := fun hnil => hlisted (hregular.clips_eq_nil_iff.1 hnil)
      rw [turnTo_of_cached hregular.tagged hne helse] at hleft
      rcases hunwanted with hdup | ⟨fault, hfault⟩
      · rw [show m.add clip = (m, .ok .duplicate) from Prod.ext hleft hdup]
        exact .repeated helse
      · rw [show m.add clip = (m, .error fault) from Prod.ext hleft hfault]
        exact .refused (.inr helse)
  · rw [hadd]
    rcases haccepted with ⟨rfl, helse⟩ | ⟨haccepted, hhere⟩
    · rw [turnTo_of_elsewhere helse]
      exact .purged helse
    · rw [turnTo_of_here hhere]
      exact .stored hhere haccepted

/-- A stored clip is its operator's entry, and the others are as they
were. -/
theorem entries_store (m : Mixer) (clip : Clip) (k : Nat) :
    (m.store clip).entries k = if k = clip.operator then some clip else m.entries k :=
  rfl

section

variable {result : Mixer × Except MixFault Acceptance}

theorem Admission.unchanged (h : Admission m clip result)
    (hunwanted : result.2 = .ok .duplicate ∨ ∃ fault, result.2 = .error fault) :
    result.1 = m := by
  cases h with
  | refused hwhy => rfl
  | repeated hhere => rfl
  | stored hhere haccepted => rcases haccepted with rfl | rfl <;> simp at hunwanted
  | purged helse => simp at hunwanted

/-- A clip that is cached changes nothing for other operators, and
nothing about what is due and what has been played. -/
theorem Admission.apart (h : Admission m clip result)
    (haccepted : result.2 = .ok .inserted ∨ result.2 = .ok .replaced) :
    result.1.entries clip.operator = some clip ∧
      (∀ k, k ≠ clip.operator → result.1.entries k = m.entries k) ∧
      result.1.dueAt = m.dueAt ∧ m.Moved 0 result.1 := by
  cases h with
  | refused hwhy => simp at haccepted
  | repeated hhere => simp at haccepted
  | stored hhere hkind =>
    refine ⟨?_, ?_, rfl, ⟨rfl, rfl⟩⟩
    · rw [entries_store, if_pos rfl]
    · intro k hk
      rw [entries_store, if_neg hk]
  | purged helse => simp at haccepted

theorem Admission.purges_iff (h : Admission m clip result) (hrate : clip.rate ≠ 0) :
    result.2 = .ok .purgedStale ↔ m.isElsewhere clip.slotStartMs = true := by
  cases h with
  | refused hwhy => simp [hwhy.resolve_left hrate]
  | repeated hhere => simp [hhere]
  | stored hhere haccepted => rcases haccepted with rfl | rfl <;> simp [hhere]
  | purged helse => simp [helse]

/-- A clip for which others had to go is alone, and nothing of it has been
asked for or played. -/
theorem Admission.alone (h : Admission m clip result) (hpurged : result.2 = .ok .purgedStale) :
    result.1.clips = [clip] ∧ result.1.dueAt = none ∧ result.1.elapsedMs = 0 ∧
      result.1.playbackStart = none := by
  cases h with
  | refused hwhy => cases hpurged
  | repeated hhere => cases hpurged
  | stored hhere haccepted => rcases haccepted with rfl | rfl <;> cases hpurged
  | purged helse =>
    have hentry : ({ m.clear with slotStart := some clip.slotStartMs }.store clip).entries
        clip.operator = some clip := ClipTable.set_self ..
    exact ⟨List.filterMap_cons_some hentry, rfl, rfl, rfl⟩

end

/-- **A clip is taken or nothing changes.**  Whatever a mixer that may
hold clips has been asked: if it refuses a clip, or has it already, it is
the mixer that it was before.  If the clip is inserted or replaces one,
it is cached, and the clips of all other operators, the mix that is due
and the offsets are as they were.  A clip with a rate makes the others go
exactly if the mixer is turned to another slot; then it is all that is
left, no mix is due, and nothing has been played. -/
theorem add_all_or_nothing (settings : MixerSettings) (hroom : 1 ≤ settings.maxOperators)
    (requests : List MixerRequest) (clip : Clip) :
    let m := ((empty settings).run requests).1
    let after := (m.add clip).1
    let reply := (m.add clip).2
    (reply = .ok .duplicate ∨ (∃ fault, reply = .error fault) → after = m) ∧
      (reply = .ok .inserted ∨ reply = .ok .replaced →
        after.entries clip.operator = some clip ∧
          (∀ k, k ≠ clip.operator → after.entries k = m.entries k) ∧
          after.dueAt = m.dueAt ∧ m.Moved 0 after) ∧
      (clip.rate ≠ 0 →
        (reply = .ok .purgedStale ↔ ∃ held, m.slotStart = some held ∧ held ≠ clip.slotStartMs)) ∧
      (reply = .ok .purgedStale →
        after.clips = [clip] ∧ after.dueAt = none ∧ after.elapsedMs = 0 ∧
          after.playbackStart = none) := by
  intro m after reply
  have hregular : m.Regular := regular_run_empty settings requests
  have hsettings : m.settings = settings := settings_run _ requests
  have hadmission := admission_add hregular (hsettings ▸ hroom) clip
  refine ⟨hadmission.unchanged, hadmission.apart, ?_, hadmission.alone⟩
  intro hrate
  rw [← isElsewhere_iff]
  exact hadmission.purges_iff hrate

/-- A mixer for two operators is full and waits to mix: a third operator
is refused and nothing changes, an operator's second clip replaces the
first, and a clip for the next slot makes both operators go. -/
theorem add_all_or_nothing_full :
    let settings : MixerSettings := { maxOperators := 2 }
    let clip : Nat → Nat → Clip := fun n start => ⟨n, #[0.25], 4, start, start, none⟩
    let m := ((empty settings).run
      [.add (clip 1 0), .add (clip 2 0), .schedule 0 none]).1
    (m.add (clip 3 0)).2 = .error (.cacheFull 2) ∧ (m.add (clip 3 0)).1 = m ∧
      (m.add (clip 2 0)).1.entries 1 = m.entries 1 ∧ m.dueAt = some 100 ∧
      (m.add (clip 2 0)).1.dueAt = some 100 ∧ (m.add (clip 3 15000)).1.clips = [clip 3 15000] := by
  intro settings clip m
  have hroom : 1 ≤ settings.maxOperators := by decide
  have hfull : (m.add (clip 3 0)).2 = .error (.cacheFull 2) := rfl
  have hdue : m.dueAt = some 100 := rfl
  obtain ⟨hunchanged, -⟩ := add_all_or_nothing settings hroom _ (clip 3 0)
  obtain ⟨-, hapart, -⟩ := add_all_or_nothing settings hroom
    [.add (clip 1 0), .add (clip 2 0), .schedule 0 none] (clip 2 0)
  obtain ⟨-, -, hpurges, halone⟩ := add_all_or_nothing settings hroom
    [.add (clip 1 0), .add (clip 2 0), .schedule 0 none] (clip 3 15000)
  obtain ⟨-, hothers, hdue', -⟩ := hapart (.inr rfl)
  have hpurged := (hpurges (by decide)).2 ⟨0, rfl, by decide⟩
  exact ⟨hfull, hunchanged (.inr ⟨_, hfull⟩), hothers 1 (by decide), hdue, hdue'.trans hdue,
    (halone hpurged).1⟩

end SlotRadio.Mixer
