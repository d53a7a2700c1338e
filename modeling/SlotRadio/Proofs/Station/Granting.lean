import Mathlib.Data.List.Pairwise
import SlotRadio.Station.Arbitration
/-!
# What is granted

Arbitration grants claims of the slot's turn only, and no two of them
overlap.  Both are kept by each decision (`settle_cases`) and so hold of
the whole grant.
-/

namespace SlotRadio.Grant

/-- No two granted claims overlap. -/
def Apart (separation : Nat) (g : Grant) : Prop :=
  g.granted.Pairwise fun c d => c.station.overlaps separation d.station = false

/-- **A decision** refuses a claim, or grants one that overlaps none of
those granted so far. -/
theorem settle_cases (separation turn : Nat) (g : Grant) (c : Claim) :
    (g.settle separation turn c).granted = g.granted ∨
      (g.settle separation turn c).granted = g.granted ++ [c] ∧
        ∀ d ∈ g.granted, d.station.overlaps separation c.station = false := by
  unfold settle
  split
  · exact .inl rfl
  · next hnone =>
    right
    refine ⟨rfl, ?_⟩
    intro d hd
    simpa using List.find?_eq_none.1 hnone d hd

theorem apart_settle {separation turn : Nat} {g : Grant} (h : g.Apart separation) (c : Claim) :
    (g.settle separation turn c).Apart separation := by
  unfold Apart at h ⊢
  rcases settle_cases separation turn g c with heq | ⟨heq, hfree⟩
  · rw [heq]
    exact h
  · rw [heq, List.pairwise_append]
    refine ⟨h, List.pairwise_singleton _ _, ?_⟩
    intro d hd e he
    rw [List.mem_singleton.1 he]
    exact hfree d hd

theorem apart_foldl {separation turn : Nat} {g : Grant} (h : g.Apart separation)
    (cs : List Claim) : (cs.foldl (settle separation turn) g).Apart separation := by
  induction cs generalizing g with
  | nil => exact h
  | cons c cs ih => exact ih (apart_settle h c)

theorem mem_foldl_granted {separation turn : Nat} {g : Grant} {cs : List Claim} {c : Claim}
    (h : c ∈ (cs.foldl (settle separation turn) g).granted) : c ∈ g.granted ∨ c ∈ cs := by
  induction cs generalizing g with
  | nil => exact .inl h
  | cons d cs ih =>
    rcases ih h with hc | hc
    · rcases settle_cases separation turn g d with heq | ⟨heq, -⟩
      · rw [heq] at hc
        exact .inl hc
      · rw [heq] at hc
        rcases List.mem_append.1 hc with hc | hc
        · exact .inl hc
        · exact .inr (by simp [List.mem_singleton.1 hc])
    · exact .inr (List.mem_cons_of_mem d hc)

variable {mode : Mode} {slot : Slot} {claims : List Claim} {separation : Nat}

/-- **Only claims of the slot's turn are granted.** -/
theorem mem_granted {c : Claim} (h : c ∈ (ofClaims mode slot claims separation).granted) :
    c ∈ claims ∧ c.station.hasTurn mode slot = true := by
  rcases mem_foldl_granted h with hc | hc
  · simp [empty] at hc
  · exact List.mem_filter.1 (List.mem_mergeSort.1 hc)

/-- **No two granted claims overlap.** -/
theorem apart_ofClaims (mode : Mode) (slot : Slot) (claims : List Claim) (separation : Nat) :
    (ofClaims mode slot claims separation).Apart separation := by
  have hempty : empty.Apart separation := List.Pairwise.nil
  exact apart_foldl hempty _

/-- Two operators that may both transmit have granted claims, which are
far enough apart. -/
theorem separated_of_allows {i j : Nat} (hij : i ≠ j)
    (hi : (ofClaims mode slot claims separation).allows i = true)
    (hj : (ofClaims mode slot claims separation).allows j = true) :
    ∃ c ∈ claims, ∃ d ∈ claims, c.operator = i ∧ d.operator = j ∧
      c.station.overlaps separation d.station = false := by
  obtain ⟨c, hc, hci⟩ := List.any_eq_true.1 hi
  obtain ⟨d, hd, hdj⟩ := List.any_eq_true.1 hj
  have hci : c.operator = i := by simpa using hci
  have hdj : d.operator = j := by simpa using hdj
  refine ⟨c, (mem_granted hc).1, d, (mem_granted hd).1, hci, hdj, ?_⟩
  have hne : c ≠ d := by
    rintro rfl
    exact hij (hci.symm.trans hdj)
  have hsymm : Std.Symm fun c d : Claim => c.station.overlaps separation d.station = false := by
    refine ⟨?_⟩
    intro c d h
    rw [Station.overlaps_comm]
    exact h
  exact (apart_ofClaims mode slot claims separation).forall hc hd hne

end SlotRadio.Grant
