import SlotRadio.Contact.Automaton
/-!
# The roster

The registered operators with what they do, in ascending order of their
numbers.  No number occurs twice.
-/

namespace SlotRadio

/-- The registered operators with their automata, in ascending order. -/
structure Roster where
  toList : List (Nat × Automaton)
  ascending : toList.Pairwise (·.1 < ·.1)

namespace Roster

/-- Nobody. -/
def empty : Roster := ⟨[], .nil⟩

/-- Puts an operator into its place, which nobody has yet. -/
def place (n : Nat) (a : Automaton) : List (Nat × Automaton) → List (Nat × Automaton)
  | [] => [(n, a)]
  | (m, b) :: rest =>
    if n < m then (n, a) :: (m, b) :: rest
    else if n = m then (n, a) :: rest
    else (m, b) :: place n a rest

theorem fst_mem_place {n : Nat} {a : Automaton} {l : List (Nat × Automaton)}
    {x : Nat × Automaton} (h : x ∈ place n a l) : x.1 = n ∨ x ∈ l := by
  induction l with
  | nil => simp [place] at h; simp [h]
  | cons y l ih =>
    obtain ⟨m, b⟩ := y
    unfold place at h
    split at h
    · rcases List.mem_cons.1 h with h | h
      · exact .inl (by rw [h])
      · exact .inr h
    · split at h
      · rcases List.mem_cons.1 h with h | h
        · exact .inl (by rw [h])
        · exact .inr (List.mem_cons_of_mem _ h)
      · rcases List.mem_cons.1 h with h | h
        · exact .inr (by simp [h])
        · rcases ih h with h | h
          · exact .inl h
          · exact .inr (List.mem_cons_of_mem _ h)

/-- **Placing keeps the order.** -/
theorem ascending_place {n : Nat} {a : Automaton} {l : List (Nat × Automaton)}
    (h : l.Pairwise (·.1 < ·.1)) : (place n a l).Pairwise (·.1 < ·.1) := by
  induction l with
  | nil => simp [place]
  | cons y l ih =>
    obtain ⟨m, b⟩ := y
    obtain ⟨hm, hl⟩ := List.pairwise_cons.1 h
    unfold place
    split
    · next hlt =>
      refine List.pairwise_cons.2 ⟨?_, h⟩
      intro x hx
      rcases List.mem_cons.1 hx with rfl | hx
      · exact hlt
      · exact Nat.lt_trans hlt (hm x hx)
    · split
      · next heq => exact List.pairwise_cons.2 ⟨fun x hx => heq ▸ hm x hx, hl⟩
      · next hlt hne =>
        refine List.pairwise_cons.2 ⟨?_, ih hl⟩
        intro x hx
        rcases fst_mem_place hx with hx | hx
        · omega
        · exact hm x hx

/-- Registers an operator, in the place of one with the same number. -/
def insert (r : Roster) (n : Nat) (a : Automaton) : Roster :=
  ⟨place n a r.toList, ascending_place r.ascending⟩

/-- Strikes an operator off. -/
def erase (r : Roster) (n : Nat) : Roster :=
  ⟨r.toList.filter (·.1 != n), r.ascending.filter _⟩

/-- The automaton of an operator. -/
def get? (r : Roster) (n : Nat) : Option Automaton :=
  (r.toList.find? (·.1 == n)).map (·.2)

/-- Lets every automaton take a step. -/
def map (r : Roster) (f : Nat → Automaton → Automaton) : Roster where
  toList := r.toList.map fun (n, a) => (n, f n a)
  ascending := by
    refine List.pairwise_map.2 (r.ascending.imp ?_)
    intro x y h
    exact h

/-- The operators' wishes to transmit. -/
def stations (r : Roster) : List (Nat × Station) :=
  r.toList.map fun (n, a) => (n, a.station)

end Roster

end SlotRadio
