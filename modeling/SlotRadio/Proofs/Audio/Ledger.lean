import SlotRadio.Proofs.Audio.Cache
import SlotRadio.Proofs.Audio.Staging
/-!
# The cache and its ledger

Who works with a mixer sees what it answers, not what it holds.  From the
answers alone a **ledger** can be kept: the operators in the order in
which they came, and the clip of each.  An inserted clip comes last, one
that replaces another keeps its place, and an operator that was removed
and comes back comes last again (`Ledger.note`).

* `Regular` — what every mixer keeps: table and list agree, the clips
  have rates, are for one slot, and there are not too many;
* `kept_meet` — a request keeps this, and the ledger that describes the
  cache describes it afterwards with the answer noted;
* `cached_as_answered` — so after any requests the cache is what the
  answers say, and what is mixed is all of it.
-/

namespace SlotRadio

/-- What a mixer can be asked. -/
inductive MixerRequest where
  | add (clip : Clip)
  | remove (operator : Nat)
  | clear
  | schedule (now : Nat) (target : Option Nat)
  | cancel
  | takeIfDue (now : Nat)
  | takeWaiting (quality : Quality)
  | plan (elapsedMs : Nat) (quality : Quality)
  | planAgain (playedMs : Nat) (quality : Quality)
  | record (result : Except MixFault MixSummary)
  | mixAll (elapsedMs : Nat)
  | mixIfDue (now : Nat)
  | mixAgain (playedMs : Nat)
  | beginPlayback (now : Nat)

/-- What a mixer answers. -/
inductive MixerReply where
  | done
  | answered (yes : Bool)
  | accepted (result : Except MixFault Acceptance)
  | scheduled (result : Scheduling)
  | planned (plan : Option MixPlan)
  | mixed (outcome : Option (Except MixFault MixResult))

namespace Mixer

/-- Meets one request. -/
def meet (m : Mixer) : MixerRequest → Mixer × MixerReply
  | .add clip => ((m.add clip).1, .accepted (m.add clip).2)
  | .remove operator => ((m.remove operator).1, .answered (m.remove operator).2)
  | .clear => (m.clear, .done)
  | .schedule now target => ((m.schedule now target).1, .scheduled (m.schedule now target).2)
  | .cancel => (m.cancel.1, .answered m.cancel.2)
  | .takeIfDue now => ((m.takeIfDue now).1, .answered (m.takeIfDue now).2)
  | .takeWaiting quality => ((m.takeWaiting quality).1, .planned (m.takeWaiting quality).2)
  | .plan elapsedMs quality => (m, .planned (some (m.plan elapsedMs quality)))
  | .planAgain playedMs quality =>
    ((m.planAgain playedMs quality).1, .planned (some (m.planAgain playedMs quality).2))
  | .record result => ((m.record result).1, .mixed (some (m.record result).2))
  | .mixAll elapsedMs => ((m.mixAll elapsedMs).1, .mixed (some (m.mixAll elapsedMs).2))
  | .mixIfDue now => ((m.mixIfDue now).1, .mixed (m.mixIfDue now).2)
  | .mixAgain playedMs => ((m.mixAgain playedMs).1, .mixed (some (m.mixAgain playedMs).2))
  | .beginPlayback now => (m.beginPlayback now, .done)

/-- Meets requests one after the other, and lists them with their
answers. -/
def run (m : Mixer) : List MixerRequest → Mixer × List (MixerRequest × MixerReply)
  | [] => (m, [])
  | r :: rest =>
    let (last, later) := (m.meet r).1.run rest
    (last, (r, (m.meet r).2) :: later)

end Mixer

/-! ## Ledgers -/

/-- What is cached according to a mixer's answers: the operators in the
order in which they came, and the clip of each. -/
structure Ledger where
  order : List Nat
  entries : ClipTable

namespace Ledger

/-- Nothing is cached. -/
def empty : Ledger := ⟨[], fun _ => none⟩

/-- Enters what a mixer has answered. -/
def note (l : Ledger) : MixerRequest × MixerReply → Ledger
  | (.add clip, .accepted (.ok .inserted)) =>
    ⟨l.order ++ [clip.operator], l.entries.set clip.operator (some clip)⟩
  | (.add clip, .accepted (.ok .replaced)) =>
    { l with entries := l.entries.set clip.operator (some clip) }
  | (.add clip, .accepted (.ok .purgedStale)) =>
    ⟨[clip.operator], empty.entries.set clip.operator (some clip)⟩
  | (.remove operator, .answered true) =>
    ⟨l.order.filter (· != operator), l.entries.set operator none⟩
  | (.clear, _) => empty
  | (_, .mixed (some (.error _))) => empty
  | _ => l

/-- The ledger of a whole course of requests. -/
def ofHistory (history : List (MixerRequest × MixerReply)) : Ledger :=
  history.foldl note empty

/-- The ledger says what is cached. -/
structure Describes (l : Ledger) (m : Mixer) : Prop where
  order : l.order = m.order
  entries : l.entries = m.entries

/-- Only what is cached matters. -/
theorem Describes.congr {l : Ledger} {m n : Mixer} (h : l.Describes m)
    (hentries : n.entries = m.entries) (horder : n.order = m.order) : l.Describes n where
  order := h.order.trans horder.symm
  entries := h.entries.trans hentries.symm

end Ledger

namespace Mixer

variable {m n : Mixer} {clip : Clip}

/-! ## What a mixer keeps -/

/-- The table and the list agree, all clips have rates and are for the
slot that the mixer is turned to, and there are no more than may be. -/
structure Regular (m : Mixer) : Prop extends Coherent m where
  rated : ∀ k c, m.entries k = some c → c.rate ≠ 0
  bounded : m.order.length ≤ m.settings.maxOperators
  tagged : m.Tagged

/-- A mixer that holds nothing is regular. -/
theorem regular_of_nothing (hentries : ∀ k, m.entries k = none) (horder : m.order = []) :
    m.Regular where
  toCoherent := coherent_of_nothing hentries horder
  rated := by
    intro k c h
    rw [hentries] at h
    cases h
  bounded := by simp [horder]
  tagged := by
    intro c hc
    rw [clips_of_order_nil horder] at hc
    exact absurd hc List.not_mem_nil

/-- A mixer that may hold no clip holds none. -/
theorem Regular.order_eq_nil (h : m.Regular) (hfull : m.settings.maxOperators = 0) :
    m.order = [] :=
  List.eq_nil_of_length_eq_zero (Nat.le_zero.1 (hfull ▸ h.bounded))

/-- The table of a mixer that lists nobody is empty. -/
theorem Coherent.entries_of_order_nil (h : m.Coherent) (hnil : m.order = []) (k : Nat) :
    m.entries k = none := by
  rw [h.entries_eq_none_iff, hnil]
  exact List.not_mem_nil

/-- Two mixers hold the same clips for the same slot. -/
structure SameCache (m n : Mixer) : Prop where
  settings : n.settings = m.settings
  slotStart : n.slotStart = m.slotStart
  entries : n.entries = m.entries
  order : n.order = m.order

theorem SameCache.refl (m : Mixer) : m.SameCache m := ⟨rfl, rfl, rfl, rfl⟩

/-- Two steps that leave the cache alone leave it alone together. -/
theorem SameCache.trans {l : Mixer} (h : m.SameCache n) (k : n.SameCache l) : m.SameCache l :=
  ⟨k.settings.trans h.settings, k.slotStart.trans h.slotStart, k.entries.trans h.entries,
    k.order.trans h.order⟩

/-- What is mixed of the same cache is the same. -/
theorem SameCache.clips (h : m.SameCache n) : n.clips = m.clips :=
  clips_congr h.entries h.order

/-- A mixer with the cache of a regular one is regular. -/
theorem SameCache.regular (h : m.SameCache n) (hm : m.Regular) : n.Regular where
  toCoherent := hm.toCoherent.congr h.entries h.order
  rated := by
    rw [h.entries]
    exact hm.rated
  bounded := by
    rw [h.order, h.settings]
    exact hm.bounded
  tagged := by
    intro c hc
    rw [h.slotStart]
    exact hm.tagged c (h.clips ▸ hc)

/-- Giving up what is due leaves the cache alone. -/
theorem sameCache_cancel (m : Mixer) : m.SameCache m.cancel.1 := by
  rcases cancel_cases m with ⟨-, h⟩ | ⟨-, h⟩
  · rw [h]
    exact .refl m
  · rw [h]
    exact ⟨rfl, rfl, rfl, rfl⟩

/-- Asking for a mix leaves the cache alone. -/
theorem sameCache_schedule (m : Mixer) (now : Nat) (target : Option Nat) :
    m.SameCache (m.schedule now target).1 := by
  have hcancel := sameCache_cancel m
  rcases schedule_cases m now target with ⟨-, h⟩ | ⟨_, _, -, -, h⟩ | ⟨_, -, -, h⟩
  · rw [h]
    exact hcancel
  · rw [h]
    exact hcancel.trans ⟨rfl, rfl, rfl, rfl⟩
  · rw [h]
    exact hcancel.trans ⟨rfl, rfl, rfl, rfl⟩

/-- Taking the mix that is due leaves the cache alone. -/
theorem sameCache_takeIfDue (m : Mixer) (now : Nat) : m.SameCache (m.takeIfDue now).1 := by
  unfold takeIfDue
  split <;> exact ⟨rfl, rfl, rfl, rfl⟩

/-- Taking the mix that is waited for leaves the cache alone. -/
theorem sameCache_takeWaiting (m : Mixer) (quality : Quality) :
    m.SameCache (m.takeWaiting quality).1 := by
  unfold takeWaiting
  split <;> exact ⟨rfl, rfl, rfl, rfl⟩

/-- Planning to mix on leaves the cache alone. -/
theorem sameCache_planAgain (m : Mixer) (playedMs : Nat) (quality : Quality) :
    m.SameCache (m.planAgain playedMs quality).1 :=
  (sameCache_cancel m).trans ⟨rfl, rfl, rfl, rfl⟩

/-- A mix that does not fail leaves the cache alone; one that fails
empties it. -/
theorem record_cases (m : Mixer) (result : Except MixFault MixSummary) :
    m.SameCache (m.record result).1 ∧ (∃ outcome, (m.record result).2 = .ok outcome) ∨
      (m.record result).1 = m.clear ∧ ∃ fault, (m.record result).2 = .error fault := by
  unfold record
  split
  · exact .inr ⟨rfl, _, rfl⟩
  · dsimp only
    split <;> exact .inl ⟨⟨rfl, rfl, rfl, rfl⟩, _, rfl⟩

/-! ## Keeping the ledger -/

/-- A regular mixer and the ledger of its cache. -/
structure Kept (m : Mixer) (l : Ledger) : Prop where
  regular : m.Regular
  described : l.Describes m

variable {l : Ledger}

/-- The ledger that a mixer's own cache would give describes it. -/
theorem Regular.kept (h : m.Regular) : m.Kept ⟨m.order, m.entries⟩ :=
  ⟨h, ⟨rfl, rfl⟩⟩

/-- A mixer that holds nothing and the empty ledger. -/
theorem kept_of_nothing (hentries : ∀ k, m.entries k = none) (horder : m.order = []) :
    m.Kept .empty :=
  ⟨regular_of_nothing hentries horder, ⟨horder.symm, funext fun k => (hentries k).symm⟩⟩

/-- The same cache has the same ledger. -/
theorem SameCache.kept (h : m.SameCache n) (hm : m.Kept l) : n.Kept l :=
  ⟨h.regular hm.regular, hm.described.congr h.entries h.order⟩

/-- The outcome of a mix is entered: the ledger stays if it is a result,
and is emptied by a failure. -/
theorem kept_record (hm : m.Kept l) (result : Except MixFault MixSummary) {r : MixerRequest}
    (hr : ∀ outcome, l.note (r, .mixed (some (.ok outcome))) = l)
    (hr' : ∀ fault, l.note (r, .mixed (some (.error fault))) = .empty) :
    (m.record result).1.Kept (l.note (r, .mixed (some (m.record result).2))) := by
  rcases record_cases m result with ⟨hsame, outcome, h⟩ | ⟨hclear, fault, h⟩
  · rw [h, hr]
    exact hsame.kept hm
  · rw [h, hclear, hr']
    exact kept_of_nothing (fun _ => rfl) rfl

/-! ### A clip that is offered -/

/-- Turning to another slot empties the mixer. -/
theorem turnTo_of_elsewhere {start : Nat} (h : m.isElsewhere start = true) :
    m.turnTo start = ({ m.clear with slotStart := some start }, true) :=
  if_pos h

/-- Turning to the slot of the cache, or to the first one, drops
nothing. -/
theorem turnTo_of_here {start : Nat} (h : m.isElsewhere start = false) :
    m.turnTo start = ({ m with slotStart := some start }, false) :=
  if_neg (Bool.eq_false_iff.1 h)

/-- Storing a clip for the slot of a regular mixer that has room for it
keeps the mixer regular. -/
theorem Regular.store (h : m.Regular) (hslot : m.slotStart = some clip.slotStartMs)
    (hrate : clip.rate ≠ 0)
    (hroom : (m.store clip).order.length ≤ m.settings.maxOperators) :
    (m.store clip).Regular where
  toCoherent := h.toCoherent.store clip
  rated := by
    intro k c hentry
    rcases entries_store_eq_some.1 hentry with ⟨-, rfl⟩ | ⟨-, hold⟩
    · exact hrate
    · exact h.rated k c hold
  bounded := hroom
  tagged := by
    intro c hc
    rcases mem_clips_store hc with rfl | hc
    · exact hslot
    · exact h.tagged c hc

/-- The clip of an operator that is cached takes the place of the former
one. -/
theorem kept_store_of_some (hm : m.Kept l) (hslot : m.slotStart = some clip.slotStartMs)
    (hrate : clip.rate ≠ 0) (hcached : (m.entries clip.operator).isSome = true) :
    (m.store clip).Kept
      { l with entries := l.entries.set clip.operator (some clip) } := by
  have horder := order_store_of_isSome hcached
  refine ⟨hm.regular.store hslot hrate ?_, hm.described.order.trans horder.symm, ?_⟩
  · rw [horder]
    exact hm.regular.bounded
  · rw [hm.described.entries]
    rfl

/-- The clip of another operator comes last. -/
theorem kept_store_of_none (hm : m.Kept l) (hslot : m.slotStart = some clip.slotStartMs)
    (hrate : clip.rate ≠ 0) (hnew : m.entries clip.operator = none)
    (hfree : m.order.length < m.settings.maxOperators) :
    (m.store clip).Kept
      ⟨l.order ++ [clip.operator], l.entries.set clip.operator (some clip)⟩ := by
  have horder : (m.store clip).order = m.order ++ [clip.operator] :=
    order_store_of_not_isSome (by simp [hnew])
  refine ⟨hm.regular.store hslot hrate ?_, ?_, ?_⟩
  · rw [horder, List.length_append]
    exact hfree
  · rw [horder, hm.described.order]
  · rw [hm.described.entries]
    rfl

/-- **What a mixer answers to a clip is what becomes of it.** A clip of another slot is entered in
an empty ledger, one of the current slot in the ledger as it is. -/
theorem kept_add (hm : m.Kept l) (clip : Clip) :
    (m.add clip).1.Kept (l.note (.add clip, .accepted (m.add clip).2)) := by
  unfold add
  split
  · exact hm
  · next hrate =>
    cases helse : m.isElsewhere clip.slotStartMs with
    | true =>
      rw [turnTo_of_elsewhere helse]
      have hturned : Kept { m.clear with slotStart := some clip.slotStartMs } .empty :=
        kept_of_nothing (fun _ => rfl) rfl
      dsimp only
      split
      · next cached hcached => cases hcached
      · split
        · next hfull =>
          -- A mixer that may hold nothing has held nothing before.
          have hnil : m.order = [] := hm.regular.order_eq_nil (Nat.le_zero.1 hfull)
          have hbare := hm.regular.toCoherent.entries_of_order_nil hnil
          exact ⟨hturned.regular, hm.described.congr (funext fun k => (hbare k).symm) hnil.symm⟩
        · next hfree =>
          exact kept_store_of_none hturned rfl hrate rfl (Nat.lt_of_not_le hfree)
    | false =>
      rw [turnTo_of_here helse]
      have hturned : Kept { m with slotStart := some clip.slotStartMs } l := by
        have htagged := (turnTo_cases hm.regular.tagged clip.slotStartMs).2.1
        rw [turnTo_of_here helse] at htagged
        exact ⟨⟨hm.regular.toCoherent.congr rfl rfl, hm.regular.rated, hm.regular.bounded,
          htagged⟩, hm.described.congr rfl rfl⟩
      dsimp only
      split
      · next cached hcached =>
        split
        · exact hturned
        · have hsome : (m.entries clip.operator).isSome = true := by rw [hcached]; rfl
          exact kept_store_of_some hturned rfl hrate hsome
      · next hnone =>
        split
        · exact hturned
        · next hfree =>
          exact kept_store_of_none hturned rfl hrate hnone (Nat.lt_of_not_le hfree)

/-! ### Any request -/

/-- Dropping an operator keeps a mixer regular. -/
theorem Regular.without (h : m.Regular) (operator : Nat) : (m.without operator).Regular where
  toCoherent := h.toCoherent.without operator
  rated := fun k c hentry => h.rated k c (entries_without_eq_some.1 hentry).2
  bounded := Nat.le_trans (List.length_filter_le ..) h.bounded
  tagged := fun c hc => h.tagged c (mem_clips_without hc)

/-- **What a mixer answers to a removal is what becomes of the clip.** -/
theorem kept_remove (hm : m.Kept l) (operator : Nat) :
    (m.remove operator).1.Kept (l.note (.remove operator, .answered (m.remove operator).2)) := by
  have hwithout : (m.without operator).Kept
      ⟨l.order.filter (· != operator), l.entries.set operator none⟩ := by
    refine ⟨hm.regular.without operator, ?_, ?_⟩
    · rw [hm.described.order]
      rfl
    · rw [hm.described.entries]
      rfl
  rcases remove_cases m operator with ⟨-, h⟩ | ⟨-, ⟨-, -, h⟩ | ⟨-, h⟩⟩
  · rw [h]
    exact hm
  · rw [h]
    exact SameCache.kept (m := m.without operator) ⟨rfl, rfl, rfl, rfl⟩ hwithout
  · rw [h]
    exact hwithout

/-- **A request keeps the cache and its ledger.** Besides adding, removing and clearing only a mix
that fails changes what is cached, and that one is answered as such. -/
theorem kept_meet (hm : m.Kept l) (r : MixerRequest) :
    (m.meet r).1.Kept (l.note (r, (m.meet r).2)) := by
  cases r with
  | add clip => exact kept_add hm clip
  | remove operator => exact kept_remove hm operator
  | clear => exact kept_of_nothing (fun _ => rfl) rfl
  | schedule now target => exact (sameCache_schedule m now target).kept hm
  | cancel => exact (sameCache_cancel m).kept hm
  | takeIfDue now => exact (sameCache_takeIfDue m now).kept hm
  | takeWaiting quality => exact (sameCache_takeWaiting m quality).kept hm
  | plan elapsedMs quality => exact hm
  | planAgain playedMs quality => exact (sameCache_planAgain m playedMs quality).kept hm
  | record result => exact kept_record hm result (fun _ => rfl) fun _ => rfl
  | mixAll elapsedMs => exact kept_record hm _ (fun _ => rfl) fun _ => rfl
  | mixIfDue now =>
    have htaken := (sameCache_takeIfDue m now).kept hm
    simp only [meet, mixIfDue]
    split
    · next taken h =>
      rw [h] at htaken
      exact kept_record htaken _ (fun _ => rfl) fun _ => rfl
    · next taken h =>
      rw [h] at htaken
      exact htaken
  | mixAgain playedMs =>
    exact kept_record ((sameCache_planAgain m playedMs .spectral).kept hm) _ (fun _ => rfl)
      fun _ => rfl
  | beginPlayback now => exact SameCache.kept (m := m) ⟨rfl, rfl, rfl, rfl⟩ hm

/-- **A request keeps a mixer regular.** -/
theorem Regular.meet (h : m.Regular) (r : MixerRequest) : (m.meet r).1.Regular :=
  (kept_meet h.kept r).regular

/-- What requests keep together. -/
theorem kept_run (hm : m.Kept l) (requests : List MixerRequest) :
    (m.run requests).1.Kept ((m.run requests).2.foldl Ledger.note l) := by
  induction requests generalizing m l with
  | nil => exact hm
  | cons r rest ih => exact ih (kept_meet hm r)

/-- The result of a mix does not change the settings. -/
theorem settings_record (m : Mixer) (result : Except MixFault MixSummary) :
    (m.record result).1.settings = m.settings := by
  rcases record_cases m result with ⟨hsame, -⟩ | ⟨hclear, -⟩
  · exact hsame.settings
  · rw [hclear]
    rfl

theorem settings_add (m : Mixer) (clip : Clip) : (m.add clip).1.settings = m.settings := by
  have hturned : (m.turnTo clip.slotStartMs).1.settings = m.settings := by
    unfold turnTo
    split <;> rfl
  rcases add_outcome m clip with ⟨-, h⟩ | ⟨-, h, -⟩ | ⟨accepted, -, -, h⟩
  · rw [h]
  · rw [h]
    exact hturned
  · rw [h]
    exact hturned

theorem settings_remove (m : Mixer) (operator : Nat) :
    (m.remove operator).1.settings = m.settings := by
  rcases remove_cases m operator with ⟨-, h⟩ | ⟨-, ⟨-, -, h⟩ | ⟨-, h⟩⟩ <;> rw [h] <;> rfl

/-- No request changes the settings, so the bounds they set hold along every run. -/
theorem settings_meet (m : Mixer) (r : MixerRequest) : (m.meet r).1.settings = m.settings := by
  cases r with
  | add clip => exact settings_add m clip
  | remove operator => exact settings_remove m operator
  | schedule now target => exact (sameCache_schedule m now target).settings
  | cancel => exact (sameCache_cancel m).settings
  | takeIfDue now => exact (sameCache_takeIfDue m now).settings
  | takeWaiting quality => exact (sameCache_takeWaiting m quality).settings
  | planAgain playedMs quality => exact (sameCache_planAgain m playedMs quality).settings
  | record result => exact settings_record m result
  | mixAll elapsedMs => exact settings_record m _
  | mixIfDue now =>
    have htaken := (sameCache_takeIfDue m now).settings
    simp only [meet, mixIfDue]
    split
    · next taken h =>
      rw [h] at htaken
      exact (settings_record taken _).trans htaken
    · next taken h =>
      rw [h] at htaken
      exact htaken
  | mixAgain playedMs =>
    exact (settings_record _ _).trans (sameCache_planAgain m playedMs .spectral).settings
  | clear => rfl
  | plan elapsedMs quality => rfl
  | beginPlayback now => rfl

/-- No series of requests changes the settings. -/
theorem settings_run (m : Mixer) (requests : List MixerRequest) :
    (m.run requests).1.settings = m.settings := by
  induction requests generalizing m with
  | nil => rfl
  | cons r rest ih => exact (ih _).trans (settings_meet m r)

/-- A mixer without clips that has met any requests is regular. -/
theorem regular_run_empty (settings : MixerSettings) (requests : List MixerRequest) :
    ((empty settings).run requests).1.Regular :=
  (kept_run (kept_of_nothing (fun _ => rfl) rfl) requests).regular

/-- **The cache is what the answers say.**  Whatever is asked of a mixer:
its list names each operator once, and exactly those that the table has;
a clip stands under its own operator, has a rate and is for the slot of
the cache; there are no more than may be.  List and table are those of
the ledger, where the operators stand in the order in which they came.
What is mixed is every entry, once each, in this order. -/
theorem cached_as_answered (settings : MixerSettings) (requests : List MixerRequest) :
    let m := ((empty settings).run requests).1
    let l := Ledger.ofHistory ((empty settings).run requests).2
    m.order.Nodup ∧ (∀ k, k ∈ m.order ↔ (m.entries k).isSome = true) ∧
      (∀ k clip, m.entries k = some clip →
        clip.operator = k ∧ clip.rate ≠ 0 ∧ m.slotStart = some clip.slotStartMs) ∧
      m.order.length ≤ settings.maxOperators ∧
      m.order = l.order ∧ m.entries = l.entries ∧
      ∀ elapsedMs quality,
        (m.plan elapsedMs quality).clips.map (·.operator) = l.order ∧
          (m.plan elapsedMs quality).clips.map some = l.order.map l.entries := by
  intro m l
  have hkept : m.Kept l := kept_run (kept_of_nothing (fun _ => rfl) rfl) requests
  have hregular := hkept.regular
  refine ⟨hregular.distinct, hregular.listed, ?_, ?_, hkept.described.order.symm,
    hkept.described.entries.symm, ?_⟩
  · intro k clip hentry
    have hown := hregular.owned k clip hentry
    have hmem : clip ∈ m.clips := hregular.mem_clips_iff.2 (hown ▸ hentry)
    exact ⟨hown, hregular.rated k clip hentry, hregular.tagged clip hmem⟩
  · have hsettings : m.settings = settings := settings_run _ requests
    rw [← hsettings]
    exact hregular.bounded
  · intro elapsedMs quality
    rw [hkept.described.order, hkept.described.entries]
    exact ⟨hregular.operators_clips, hregular.map_entries.symm⟩

end Mixer

end SlotRadio
