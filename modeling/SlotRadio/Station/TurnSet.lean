/-!
# Sets of turns

The turns in which a station may transmit form a finite set of numbers,
kept as the strictly ascending list of its members.  So equal sets are
equal values, and the first member is the least.

* `TurnSet.insert`, `TurnSet.ofList` — building a set;
* `TurnSet.ofList_toList` — a set is made of the list of its members;
* `TurnSet.firstCommon?` — the least number in both of two sets.
-/

namespace SlotRadio

/-- A finite set of natural numbers, as the ascending list of its members. -/
structure TurnSet where
  toList : List Nat
  ascending : toList.Pairwise (· < ·)
  deriving DecidableEq

namespace TurnSet

/-- The empty set. -/
def empty : TurnSet := ⟨[], .nil⟩

/-- Puts a number into its place in an ascending list. -/
def place (n : Nat) : List Nat → List Nat
  | [] => [n]
  | m :: ms => if n < m then n :: m :: ms else if n = m then m :: ms else m :: place n ms

theorem mem_place {n k : Nat} {ms : List Nat} : k ∈ place n ms ↔ k = n ∨ k ∈ ms := by
  induction ms with
  | nil => simp [place]
  | cons m ms ih =>
    simp only [place]
    split
    · simp
    · split
      · next h => subst h; simp
      · simp only [List.mem_cons, ih, or_left_comm]

/-- **Placing keeps the order.** -/
theorem pairwise_place {n : Nat} {ms : List Nat} (h : ms.Pairwise (· < ·)) :
    (place n ms).Pairwise (· < ·) := by
  induction ms with
  | nil => simp [place]
  | cons m ms ih =>
    obtain ⟨hm, hms⟩ := List.pairwise_cons.1 h
    unfold place
    split
    · next hlt =>
      refine List.pairwise_cons.2 ⟨?_, h⟩
      intro k hk
      rcases List.mem_cons.1 hk with rfl | hk
      · exact hlt
      · exact Nat.lt_trans hlt (hm k hk)
    · split
      · exact h
      · next hlt hne =>
        refine List.pairwise_cons.2 ⟨?_, ih hms⟩
        intro k hk
        rcases mem_place.1 hk with rfl | hk
        · omega
        · exact hm k hk

/-- A set with one more number. -/
def insert (n : Nat) (s : TurnSet) : TurnSet :=
  ⟨place n s.toList, pairwise_place s.ascending⟩

/-- The set of the numbers in a list. -/
def ofList (ns : List Nat) : TurnSet :=
  ns.foldl (fun s n => s.insert n) empty

/-- A number beyond all others comes last. -/
theorem place_of_forall_lt {n : Nat} {ms : List Nat} (h : ∀ m ∈ ms, m < n) :
    place n ms = ms ++ [n] := by
  induction ms with
  | nil => rfl
  | cons m ms ih =>
    obtain ⟨hm, hms⟩ := List.forall_mem_cons.1 h
    rw [place, if_neg (by omega), if_neg (by omega), ih hms]
    rfl

theorem toList_foldl_insert {ns : List Nat} {s : TurnSet}
    (h : (s.toList ++ ns).Pairwise (· < ·)) :
    (ns.foldl (fun s n => s.insert n) s).toList = s.toList ++ ns := by
  induction ns generalizing s with
  | nil => simp
  | cons n ns ih =>
    have hlast : (s.insert n).toList = s.toList ++ [n] :=
      place_of_forall_lt fun m hm => (List.pairwise_append.1 h).2.2 m hm n (by simp)
    have hrest : (s.insert n).toList ++ ns = s.toList ++ n :: ns := by
      rw [hlast, List.append_assoc]
      rfl
    rw [List.foldl_cons, ih (hrest ▸ h), hrest]

/-- **A set is made of the list of its members.** -/
theorem ofList_toList (s : TurnSet) : ofList s.toList = s := by
  have hlist : (ofList s.toList).toList = s.toList := toList_foldl_insert s.ascending
  cases hset : ofList s.toList
  rw [hset] at hlist
  cases s
  cases hlist
  rfl

/-- True for the members. -/
def contains (s : TurnSet) (n : Nat) : Bool :=
  s.toList.contains n

/-- The least number in both of two sets. -/
def firstCommon? (a b : TurnSet) : Option Nat :=
  a.toList.find? b.contains

/-- **Two sets have a common number exactly when a number is in both.** -/
theorem firstCommon?_isSome {a b : TurnSet} :
    (a.firstCommon? b).isSome ↔ ∃ n, a.contains n = true ∧ b.contains n = true := by
  simp [firstCommon?, List.find?_isSome, contains]

end TurnSet

end SlotRadio
