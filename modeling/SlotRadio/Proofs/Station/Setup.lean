import SlotRadio.Proofs.Station.Granting
/-!
# Checking a set-up

Two stations **clash** if they have a common turn and are not far enough
apart in the band.  The check of a list of operators asks this of every
two of them (`firstOverlap?_eq_none_iff`), so its order does not matter
(`firstOverlap?_eq_none_of_perm`), and one operator more can only clash
with one of the others (`firstOverlap?_concat`).

Arbitration asks whether two operators *whose turn it is* are far enough
apart.  Where no two stations clash, this never refuses anybody
(`ofClaims_of_compatible`).
-/

namespace SlotRadio

/-- Two stations that would be heard on top of each other in some turn. -/
def Station.Clashes (separation : Nat) (a b : Station) : Prop :=
  (∃ turn, a.turns.contains turn = true ∧ b.turns.contains turn = true) ∧
    Station.distance a.frequencyHz b.frequencyHz < separation

theorem Station.Clashes.symm {separation : Nat} {a b : Station} (h : a.Clashes separation b) :
    b.Clashes separation a := by
  obtain ⟨⟨turn, ha, hb⟩, hnear⟩ := h
  exact ⟨⟨turn, hb, ha⟩, Station.distance_comm a.frequencyHz b.frequencyHz ▸ hnear⟩

/-- **The check of two stations** finds a turn exactly if they clash. -/
theorem Station.conflict?_eq_none_iff {separation : Nat} {a b : Station} :
    a.conflict? separation b = none ↔ ¬a.Clashes separation b := by
  unfold Station.conflict? Station.Clashes
  rw [← TurnSet.firstCommon?_isSome]
  by_cases hnear : Station.distance a.frequencyHz b.frequencyHz < separation
  · simp [Station.overlaps, hnear]
  · simp [Station.overlaps, hnear]

/-- No two of some operators clash. -/
def Compatible (separation : Nat) (l : List (Nat × Station)) : Prop :=
  l.Pairwise fun x y => ¬x.2.Clashes separation y.2

variable {separation : Nat}

theorem Compatible.perm {l l' : List (Nat × Station)} (h : Compatible separation l)
    (hperm : l.Perm l') : Compatible separation l' :=
  List.Pairwise.perm h hperm fun hxy hyx => hxy hyx.symm

/-- The overlap of an operator with a later one of a list. -/
def overlapWith? (separation first : Nat) (a : Station) (later : Nat × Station) : Option Overlap :=
  (a.conflict? separation later.2).map fun turn => ⟨turn, first, later.1⟩

theorem firstOverlap?_cons (first : Nat) (a : Station) (rest : List (Nat × Station)) :
    firstOverlap? separation ((first, a) :: rest) =
      (rest.findSome? (overlapWith? separation first a)).or (firstOverlap? separation rest) := by
  rw [firstOverlap?, Option.orElse_eq_orElse, Option.orElse_eq_or]
  rfl

/-- **The check of a list** accepts it exactly if no two of its members clash. Each is compared with
those behind it, so every pair is compared once. -/
theorem firstOverlap?_eq_none_iff {l : List (Nat × Station)} :
    firstOverlap? separation l = none ↔ Compatible separation l := by
  induction l with
  | nil => exact iff_of_true rfl .nil
  | cons x rest ih =>
    obtain ⟨first, a⟩ := x
    have hhead : rest.findSome? (overlapWith? separation first a) = none ↔
        ∀ y ∈ rest, ¬a.Clashes separation y.2 := by
      rw [List.findSome?_eq_none_iff]
      apply forall₂_congr
      intro y hy
      rw [overlapWith?, Option.map_eq_none_iff, Station.conflict?_eq_none_iff]
    unfold Compatible
    rw [List.pairwise_cons, ← hhead, firstOverlap?_cons, Option.or_eq_none_iff, ih]
    rfl

/-- **The order of the list does not matter.** -/
theorem firstOverlap?_eq_none_of_perm {l l' : List (Nat × Station)} (hperm : l.Perm l') :
    firstOverlap? separation l = none ↔ firstOverlap? separation l' = none := by
  rw [firstOverlap?_eq_none_iff, firstOverlap?_eq_none_iff]
  exact ⟨fun h => h.perm hperm, fun h => h.perm hperm.symm⟩

/-- **One operator more** is the second of every conflict that it brings, for the others have been
accepted before. -/
theorem firstOverlap?_concat {l : List (Nat × Station)} (h : Compatible separation l) {n : Nat}
    {s : Station} {o : Overlap} (ho : firstOverlap? separation (l ++ [(n, s)]) = some o) :
    o.second = n ∧ ∃ a, (o.first, a) ∈ l ∧ a.conflict? separation s = some o.turn := by
  induction l with
  | nil => simp [firstOverlap?] at ho
  | cons x rest ih =>
    obtain ⟨first, a⟩ := x
    obtain ⟨hhead, hrest⟩ := List.pairwise_cons.1 h
    have hnone : rest.findSome? (overlapWith? separation first a) = none := by
      apply List.findSome?_eq_none_iff.2
      intro y hy
      rw [overlapWith?, Option.map_eq_none_iff]
      exact Station.conflict?_eq_none_iff.2 (hhead y hy)
    rw [List.cons_append, firstOverlap?_cons, List.findSome?_append, hnone] at ho
    cases hconflict : a.conflict? separation s with
    | some turn =>
      have heq : (⟨turn, first, n⟩ : Overlap) = o := by simpa [overlapWith?, hconflict] using ho
      subst heq
      exact ⟨rfl, a, List.mem_cons_self, hconflict⟩
    | none =>
      have hlater : firstOverlap? separation (rest ++ [(n, s)]) = some o := by
        simpa [overlapWith?, hconflict] using ho
      obtain ⟨hsecond, b, hb, hturn⟩ := ih hrest hlater
      exact ⟨hsecond, b, List.mem_cons_of_mem _ hb, hturn⟩

namespace Grant

/-- Claims that are apart from each other and from those granted so far are all granted, in their
order, and no refusal is added. -/
theorem foldl_settle_of_apart {turn : Nat} {g : Grant} {cs : List Claim}
    (h : (g.granted ++ cs).Pairwise fun c d => c.station.overlaps separation d.station = false) :
    cs.foldl (settle separation turn) g = ⟨g.granted ++ cs, g.refusals⟩ := by
  induction cs generalizing g with
  | nil => simp
  | cons c cs ih =>
    have hfree : (g.granted.find? fun winner => winner.station.overlaps separation c.station) =
        none := by
      apply List.find?_eq_none.2
      intro d hd
      have hapart := (List.pairwise_append.1 h).2.2 d hd c List.mem_cons_self
      simp [hapart]
    have hsettle : g.settle separation turn c = { g with granted := g.granted ++ [c] } := by
      simp [settle, hfree]
    have hnext := ih (g := { g with granted := g.granted ++ [c] }) (by simpa using h)
    rw [List.foldl_cons, hsettle, hnext]
    simp

/-- **Where no two stations clash, nobody is refused.** Those that claim a slot have its turn in
common, so that stations which do not clash have to be apart. -/
theorem ofClaims_of_compatible {claims : List Claim}
    (h : claims.Pairwise fun c d => ¬c.station.Clashes separation d.station) (mode : Mode)
    (slot : Slot) :
    (ofClaims mode slot claims separation).refusals = [] ∧
      ∀ c ∈ claims, c.station.hasTurn mode slot = true →
        (ofClaims mode slot claims separation).allows c.operator = true := by
  have hperm : (candidates mode slot claims).Perm
      (claims.filter fun c => c.station.hasTurn mode slot) := List.mergeSort_perm ..
  -- All candidates have the turn of the slot in common.
  have hturn : ∀ c ∈ candidates mode slot claims,
      c.station.turns.contains (mode.turn slot.cycle) = true := by
    intro c hc
    exact (List.mem_filter.1 (hperm.mem_iff.1 hc)).2
  have hcompatible : (candidates mode slot claims).Pairwise fun c d =>
      ¬c.station.Clashes separation d.station :=
    (h.filter _).perm hperm.symm fun hcd hdc => hcd hdc.symm
  have hapart : (candidates mode slot claims).Pairwise fun c d =>
      c.station.overlaps separation d.station = false := by
    refine hcompatible.imp_of_mem ?_
    intro c d hc hd hcd
    by_contra hnear
    have hoverlaps : c.station.overlaps separation d.station = true := by simpa using hnear
    exact hcd ⟨⟨mode.turn slot.cycle, hturn c hc, hturn d hd⟩, of_decide_eq_true hoverlaps⟩
  have hall : ofClaims mode slot claims separation = ⟨candidates mode slot claims, []⟩ :=
    foldl_settle_of_apart (g := empty) hapart
  rw [hall]
  refine ⟨rfl, ?_⟩
  intro c hc hmine
  apply List.any_eq_true.2
  exact ⟨c, hperm.mem_iff.2 (List.mem_filter.2 ⟨hc, hmine⟩), by simp⟩

end Grant

end SlotRadio
