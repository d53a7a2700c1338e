import Mathlib.Data.List.Nodup
import SlotRadio.Audio.Mixer
/-!
# How the clips are stored

A mixer keeps its clips in a table and the operators in a list, and both
are changed by several functions.  If one of them forgot the other, a
clip could stand in the table and never be mixed, since a mix takes what
the list names and passes over what the table does not have.

* `Coherent` — the table and the list agree;
* `Coherent.store`, `Coherent.without` — the two functions that change
  both keep this;
* `Coherent.operators_clips`, `Coherent.map_entries` — so the clips that
  are mixed are one list over both: their operators are the list, and
  each is the entry of its operator.
-/

namespace SlotRadio

namespace ClipTable

variable {table : ClipTable} {number k : Nat} {entry : Option Clip}

/-- The entry that has been changed is the new one. -/
@[simp] theorem set_self : table.set number entry number = entry :=
  if_pos rfl

/-- The other entries are the old ones. -/
theorem set_of_ne (h : k ≠ number) : table.set number entry k = table k :=
  if_neg h

/-- What is found after a change is the new entry, or was found before. -/
theorem set_eq_some {c : Clip} :
    table.set number entry k = some c ↔
      k = number ∧ entry = some c ∨ k ≠ number ∧ table k = some c := by
  by_cases h : k = number
  · simp [h]
  · simp [set_of_ne h, h]

end ClipTable

namespace Mixer

/-- The table and the list agree: the list names each operator once, and
exactly the operators that have an entry; and a clip stands under its own
operator. -/
structure Coherent (m : Mixer) : Prop where
  distinct : m.order.Nodup
  listed : ∀ k, k ∈ m.order ↔ (m.entries k).isSome = true
  owned : ∀ k clip, m.entries k = some clip → clip.operator = k

variable {m n : Mixer} {clip c : Clip}

/-! ## The clips that are mixed -/

/-- A clip is mixed if the list leads to it. -/
theorem mem_clips : c ∈ m.clips ↔ ∃ k ∈ m.order, m.entries k = some c := by
  simp [clips]

/-- Where nobody is listed nothing is mixed. -/
theorem clips_of_order_nil (h : m.order = []) : m.clips = [] := by
  rw [clips, h]
  rfl

/-- The table and the list are all that the clips depend on. -/
theorem clips_congr (hentries : n.entries = m.entries) (horder : n.order = m.order) :
    n.clips = m.clips := by
  rw [clips, clips, hentries, horder]

/-- The entries after a clip has been stored. -/
theorem entries_store_eq_some {k : Nat} :
    (m.store clip).entries k = some c ↔
      k = clip.operator ∧ c = clip ∨ k ≠ clip.operator ∧ m.entries k = some c := by
  refine ClipTable.set_eq_some.trans ?_
  rw [Option.some.injEq, eq_comm (a := clip)]

/-- The entries without an operator. -/
theorem entries_without_eq_some {operator k : Nat} :
    (m.without operator).entries k = some c ↔ k ≠ operator ∧ m.entries k = some c := by
  refine ClipTable.set_eq_some.trans ?_
  simp

/-- The list stays when the clip of an operator is stored who has one. -/
theorem order_store_of_isSome (h : (m.entries clip.operator).isSome = true) :
    (m.store clip).order = m.order :=
  if_pos h

/-- A new operator comes last on the list. -/
theorem order_store_of_not_isSome (h : ¬ (m.entries clip.operator).isSome = true) :
    (m.store clip).order = m.order ++ [clip.operator] :=
  if_neg h

/-- A clip that is mixed after one has been stored is this one or was
mixed before. -/
theorem mem_clips_store (h : c ∈ (m.store clip).clips) : c = clip ∨ c ∈ m.clips := by
  obtain ⟨k, hk, hentry⟩ := mem_clips.1 h
  rcases entries_store_eq_some.1 hentry with ⟨-, rfl⟩ | ⟨hother, hold⟩
  · exact .inl rfl
  · refine .inr (mem_clips.2 ⟨k, ?_, hold⟩)
    by_cases hsome : (m.entries clip.operator).isSome = true
    · rwa [order_store_of_isSome hsome] at hk
    · rw [order_store_of_not_isSome hsome, List.mem_append, List.mem_singleton] at hk
      exact hk.resolve_right hother

/-- The clips of a mixer without an operator are among its clips. -/
theorem mem_clips_without {operator : Nat} (h : c ∈ (m.without operator).clips) :
    c ∈ m.clips := by
  obtain ⟨k, hk, hentry⟩ := mem_clips.1 h
  obtain ⟨-, hold⟩ := entries_without_eq_some.1 hentry
  exact mem_clips.2 ⟨k, (List.mem_filter.1 hk).1, hold⟩

/-! ## What keeps the table and the list together -/

/-- Where neither has anything they agree. -/
theorem coherent_of_nothing (hentries : ∀ k, m.entries k = none) (horder : m.order = []) :
    m.Coherent where
  distinct := by
    rw [horder]
    exact .nil
  listed := by
    intro k
    simp [horder, hentries]
  owned := by
    intro k clip h
    rw [hentries] at h
    cases h

/-- Other fields make no difference. -/
theorem Coherent.congr (h : m.Coherent) (hentries : n.entries = m.entries)
    (horder : n.order = m.order) : n.Coherent where
  distinct := horder ▸ h.distinct
  listed := by
    rw [hentries, horder]
    exact h.listed
  owned := hentries ▸ h.owned

/-- An operator that is not listed has no entry, and the other way
round. -/
theorem Coherent.entries_eq_none_iff (h : m.Coherent) (k : Nat) :
    m.entries k = none ↔ k ∉ m.order := by
  rw [h.listed, Option.not_isSome_iff_eq_none]

/-- The list after a clip has been stored names who was listed before, and
the clip's operator. -/
theorem mem_order_store {k : Nat} (h : m.Coherent) :
    k ∈ (m.store clip).order ↔ k = clip.operator ∨ k ∈ m.order := by
  by_cases hsome : (m.entries clip.operator).isSome = true
  · have hown : clip.operator ∈ m.order := (h.listed _).2 hsome
    rw [order_store_of_isSome hsome]
    exact ⟨.inr, fun hk => hk.elim (fun heq => heq ▸ hown) id⟩
  · rw [order_store_of_not_isSome hsome, List.mem_append, List.mem_singleton, or_comm]

/-- **Storing a clip keeps the table and the list together.** A new operator goes to the end of the
list as it enters the table, and one that is in both is in both afterwards. -/
theorem Coherent.store (h : m.Coherent) (clip : Clip) : (m.store clip).Coherent where
  distinct := by
    by_cases hsome : (m.entries clip.operator).isSome = true
    · rw [order_store_of_isSome hsome]
      exact h.distinct
    · rw [order_store_of_not_isSome hsome]
      refine List.nodup_append.2 ⟨h.distinct, List.nodup_singleton _, ?_⟩
      intro k hk j hj hsame
      rw [hsame, List.mem_singleton.1 hj] at hk
      exact hsome ((h.listed _).1 hk)
  listed := by
    intro k
    rw [mem_order_store h]
    show _ ↔ (m.entries.set clip.operator (some clip) k).isSome = true
    by_cases hk : k = clip.operator
    · simp [hk]
    · simp [ClipTable.set_of_ne hk, hk, h.listed]
  owned := by
    intro k c hentry
    rcases entries_store_eq_some.1 hentry with ⟨rfl, rfl⟩ | ⟨-, hold⟩
    · rfl
    · exact h.owned k c hold

/-- **Dropping an operator from both keeps them together.** -/
theorem Coherent.without (h : m.Coherent) (operator : Nat) : (m.without operator).Coherent where
  distinct := h.distinct.filter _
  listed := by
    intro k
    show k ∈ m.order.filter (· != operator) ↔
      (m.entries.set operator none k).isSome = true
    rw [List.mem_filter]
    by_cases hk : k = operator
    · simp [hk]
    · simp [ClipTable.set_of_ne hk, hk, h.listed]
  owned := fun k c hentry => h.owned k c (entries_without_eq_some.1 hentry).2

/-- Turning to a slot keeps the table and the list, or empties both. -/
theorem Coherent.turnTo (h : m.Coherent) (start : Nat) : (m.turnTo start).1.Coherent := by
  unfold Mixer.turnTo
  split
  · exact coherent_of_nothing (fun _ => rfl) rfl
  · exact h.congr rfl rfl

/-! ## One list over both -/

/-- **Each operator on the list has its clip among those that are mixed**,
in the place that it has on the list. -/
theorem Coherent.map_entries (h : m.Coherent) : m.order.map m.entries = m.clips.map some := by
  have hsome : ∀ k ∈ m.order, (m.entries k).isSome = true := fun k hk => (h.listed k).1 hk
  show _ = (m.order.filterMap m.entries).map some
  generalize m.order = ks at hsome
  induction ks with
  | nil => rfl
  | cons k ks ih =>
    obtain ⟨hk, hks⟩ := List.forall_mem_cons.1 hsome
    obtain ⟨c, hc⟩ := Option.isSome_iff_exists.1 hk
    rw [List.filterMap_cons_some hc, List.map_cons, List.map_cons, hc, ih hks]

/-- **The operators of the clips that are mixed are the list.** -/
theorem Coherent.operators_clips (h : m.Coherent) : m.clips.map (·.operator) = m.order := by
  have hnamed : (m.order.map m.entries).map (Option.map (·.operator)) = m.order.map some := by
    rw [List.map_map]
    apply List.map_congr_left
    intro k hk
    obtain ⟨c, hc⟩ := Option.isSome_iff_exists.1 ((h.listed k).1 hk)
    show (m.entries k).map (·.operator) = some k
    rw [hc]
    exact congrArg some (h.owned k c hc)
  rw [h.map_entries, List.map_map] at hnamed
  refine List.map_injective_iff.2 (fun _ _ => Option.some.inj) ?_
  rw [← hnamed, List.map_map]
  rfl

/-- An operator is listed exactly if a clip of its own is mixed. -/
theorem Coherent.mem_order_iff (h : m.Coherent) {k : Nat} :
    k ∈ m.order ↔ ∃ c ∈ m.clips, c.operator = k := by
  rw [← h.operators_clips, List.mem_map]

/-- A clip is mixed exactly if it is the entry of its operator. -/
theorem Coherent.mem_clips_iff (h : m.Coherent) :
    c ∈ m.clips ↔ m.entries c.operator = some c := by
  rw [mem_clips]
  constructor
  · rintro ⟨k, -, hentry⟩
    rw [h.owned k c hentry]
    exact hentry
  · intro hentry
    exact ⟨c.operator, (h.listed _).2 (by rw [hentry]; rfl), hentry⟩

/-- Something is mixed exactly if someone is listed. -/
theorem Coherent.clips_eq_nil_iff (h : m.Coherent) : m.clips = [] ↔ m.order = [] := by
  rw [← h.operators_clips, List.map_eq_nil_iff]

/-- Where a clip has been stored someone is listed. -/
theorem Coherent.order_store_ne_nil (h : m.Coherent) (clip : Clip) : (m.store clip).order ≠ [] :=
  List.ne_nil_of_mem ((mem_order_store h).2 (.inl rfl))

end Mixer

end SlotRadio
