import Mathlib.Data.List.Nodup
import Mathlib.Data.List.Permutation
import SlotRadio.Proofs.Station.Granting
/-!
# Who goes first

Arbitration takes the claims of a slot's turn in one order: contacts in
progress before others, then lower numbers before higher ones
(`Claim.Precedes`).  Where every operator claims once this is a strict
order, so it does not matter how the claims are listed
(`candidates_eq_of_perm`).

A claim that is refused stands in nobody's way.  What is decided is
therefore said of the claims decided so far (`Settled`): each of them is
granted or refused, once, and a refused one names the first granted claim
that overlaps it.  A decision keeps this (`settled_settle`), because all
claims granted so far precede the next one; so it holds of the whole
grant (`granted_by_precedence`).
-/

namespace SlotRadio

namespace Claim

/-- The claim `a` is decided before `b`: its operator is in contact with
somebody and the other one is not, or has the lower number. -/
def Precedes (a b : Claim) : Prop :=
  a.inProgress = true ∧ b.inProgress = false ∨
    a.inProgress = b.inProgress ∧ a.operator < b.operator

variable {a b c : Claim}

/-- A claim comes before another one if it is in a contact and the other is
not, or else by its number. -/
theorem before_iff : a.before b = true ↔
    a.inProgress = true ∧ b.inProgress = false ∨
      a.inProgress = b.inProgress ∧ a.operator ≤ b.operator := by
  unfold before
  cases a.inProgress <;> cases b.inProgress <;> simp

/-- The precedence of claims is transitive. -/
theorem before_trans (hab : a.before b = true) (hbc : b.before c = true) :
    a.before c = true := by
  rw [before_iff] at hab hbc ⊢
  rcases hab with ⟨ha, hb⟩ | ⟨hab, hle⟩
  · rcases hbc with ⟨hb', -⟩ | ⟨hbc, -⟩
    · rw [hb] at hb'
      cases hb'
    · exact .inl ⟨ha, hbc ▸ hb⟩
  · rcases hbc with ⟨hb, hc⟩ | ⟨hbc, hle'⟩
    · exact .inl ⟨hab ▸ hb, hc⟩
    · exact .inr ⟨hab.trans hbc, Nat.le_trans hle hle'⟩

/-- Of two claims one comes before the other. -/
theorem before_total (a b : Claim) : (a.before b || b.before a) = true := by
  rw [Bool.or_eq_true, before_iff, before_iff]
  have hnumbers := Nat.le_total a.operator b.operator
  cases a.inProgress <;> cases b.inProgress <;> simp [hnumbers]

/-- Between two operators the order is strict. -/
theorem precedes_of_before (h : a.before b = true) (hne : a.operator ≠ b.operator) :
    a.Precedes b := by
  rcases before_iff.1 h with hprogress | ⟨hsame, hle⟩
  · exact .inl hprogress
  · exact .inr ⟨hsame, Nat.lt_of_le_of_ne hle hne⟩

theorem Precedes.asymm (h : a.Precedes b) : ¬b.Precedes a := by
  rcases h with ⟨ha, hb⟩ | ⟨hsame, hlt⟩
  · rintro (⟨hb', -⟩ | ⟨hsame, -⟩)
    · rw [hb] at hb'
      cases hb'
    · rw [ha, hb] at hsame
      cases hsame
  · rintro (⟨hb, ha⟩ | ⟨-, hlt'⟩)
    · rw [ha, hb] at hsame
      cases hsame
    · omega

end Claim

variable {mode : Mode} {slot : Slot} {claims claims' : List Claim} {separation turn : Nat}

/-- Candidates are the claims that have the turn of the slot. -/
theorem mem_candidates {c : Claim} :
    c ∈ candidates mode slot claims ↔ c ∈ claims ∧ c.station.hasTurn mode slot = true := by
  unfold candidates
  rw [List.mem_mergeSort, List.mem_filter]

/-- Every operator is a candidate once. -/
theorem nodup_candidates (hdistinct : (claims.map (·.operator)).Nodup) :
    ((candidates mode slot claims).map (·.operator)).Nodup := by
  have hperm : (candidates mode slot claims).Perm
      (claims.filter fun c => c.station.hasTurn mode slot) := List.mergeSort_perm ..
  rw [(hperm.map (·.operator)).nodup_iff]
  exact hdistinct.sublist (List.filter_sublist.map _)

/-- **The candidates are in order of precedence.** -/
theorem pairwise_candidates (hdistinct : (claims.map (·.operator)).Nodup) :
    (candidates mode slot claims).Pairwise Claim.Precedes := by
  have hsorted : (candidates mode slot claims).Pairwise fun a b => a.before b = true :=
    @List.pairwise_mergeSort _ Claim.before (fun _ _ _ => Claim.before_trans) Claim.before_total _
  have hnodup : ((candidates mode slot claims).map (·.operator)).Nodup :=
    nodup_candidates hdistinct
  have hnumbers := List.pairwise_map.1 hnodup
  exact hsorted.imp₂ (fun _ _ => Claim.precedes_of_before) hnumbers

/-- **The order of the claims does not matter.** -/
theorem candidates_eq_of_perm (hdistinct : (claims.map (·.operator)).Nodup)
    (hperm : claims'.Perm claims) : candidates mode slot claims' = candidates mode slot claims := by
  have hdistinct' : (claims'.map (·.operator)).Nodup := (hperm.map _).nodup_iff.2 hdistinct
  refine List.Perm.eq_of_pairwise ?_ (pairwise_candidates hdistinct')
    (pairwise_candidates hdistinct) ?_
  · intro a b _ _ hab hba
    exact absurd hba hab.asymm
  · calc (candidates mode slot claims').Perm
          (claims'.filter fun c => c.station.hasTurn mode slot) := List.mergeSort_perm ..
      _ |>.Perm (claims.filter fun c => c.station.hasTurn mode slot) := hperm.filter _
      _ |>.Perm (candidates mode slot claims) := (List.mergeSort_perm ..).symm

namespace Grant

/-- The claim `winner` stands in the way of `c`: it is granted, near in
the band and decided before, and the first one to be so. -/
structure Blocks (g : Grant) (separation : Nat) (winner c : Claim) : Prop where
  granted : winner ∈ g.granted
  near : Station.distance winner.station.frequencyHz c.station.frequencyHz < separation
  earlier : winner.Precedes c
  first : ∀ d ∈ g.granted,
    Station.distance d.station.frequencyHz c.station.frequencyHz < separation →
      d = winner ∨ winner.Precedes d

/-- What is known of the claims `done` that have been decided. -/
structure Settled (separation turn : Nat) (done : List Claim) (g : Grant) : Prop where
  once : (g.granted.map (·.operator) ++ g.refusals.map (·.denied)).Perm (done.map (·.operator))
  granted : g.granted.Sublist done
  refused : ∀ r ∈ g.refusals, r.turn = turn ∧ ∃ c ∈ done, c.operator = r.denied ∧
    ∃ winner, winner.operator = r.granted ∧ winner.Precedes c ∧
      (g.granted.find? fun d => d.station.overlaps separation c.station) = some winner

/-- Before any claim is considered all is settled. -/
theorem settled_empty (separation turn : Nat) : empty.Settled separation turn [] where
  once := .nil
  granted := .slnil
  refused := fun _ hr => absurd hr List.not_mem_nil

/-- **One more decision.**  Nothing that is granted later comes before the
claim that a refusal names. -/
theorem settled_settle {done : List Claim} {g : Grant} (h : g.Settled separation turn done)
    {c : Claim} (hlater : ∀ d ∈ done, d.Precedes c) :
    (g.settle separation turn c).Settled separation turn (done ++ [c]) := by
  have hdone : (done ++ [c]).map (·.operator) = done.map (·.operator) ++ [c.operator] :=
    List.map_append
  unfold settle
  split
  · next winner hfound =>
    refine ⟨?_, h.granted.trans (List.sublist_append_left done [c]), ?_⟩
    · rw [hdone, List.map_append, ← List.append_assoc]
      exact h.once.append_right _
    · intro r hr
      rcases List.mem_append.1 hr with hr | hr
      · obtain ⟨hturn, d, hd, hrefused⟩ := h.refused r hr
        exact ⟨hturn, d, List.mem_append_left _ hd, hrefused⟩
      · rw [List.mem_singleton.1 hr]
        have hwinner := h.granted.subset (List.mem_of_find?_eq_some hfound)
        exact ⟨rfl, c, by simp, rfl, winner, rfl, hlater winner hwinner, hfound⟩
  · refine ⟨?_, h.granted.append (.refl [c]), ?_⟩
    · have hswap : ((g.granted ++ [c]).map (·.operator) ++ g.refusals.map (·.denied)).Perm
          (g.granted.map (·.operator) ++ g.refusals.map (·.denied) ++ [c.operator]) := by
        rw [List.map_append, List.append_assoc, List.append_assoc]
        exact List.perm_append_comm.append_left _
      rw [hdone]
      exact hswap.trans (h.once.append_right _)
    · intro r hr
      obtain ⟨hturn, d, hd, hdenied, winner, hnumber, hearlier, hfound⟩ := h.refused r hr
      refine ⟨hturn, d, List.mem_append_left _ hd, hdenied, winner, hnumber, hearlier, ?_⟩
      rw [List.find?_append, hfound]
      rfl

/-- **Claims settled one after the other are settled**, in the order of
precedence. -/
theorem settled_foldl {done cs : List Claim} {g : Grant} (h : g.Settled separation turn done)
    (horder : (done ++ cs).Pairwise Claim.Precedes) :
    (cs.foldl (settle separation turn) g).Settled separation turn (done ++ cs) := by
  induction cs generalizing done g with
  | nil =>
    rw [List.append_nil]
    exact h
  | cons c cs ih =>
    have hlater : ∀ d ∈ done, d.Precedes c := by
      intro d hd
      exact (List.pairwise_append.1 horder).2.2 d hd c List.mem_cons_self
    rw [List.append_cons] at horder ⊢
    exact ih (settled_settle h hlater) horder

/-- The claims of a slot are settled in order of precedence. -/
theorem settled_ofClaims (hdistinct : (claims.map (·.operator)).Nodup) (mode : Mode) (slot : Slot)
    (separation : Nat) :
    (ofClaims mode slot claims separation).Settled separation (mode.turn slot.cycle)
      (candidates mode slot claims) :=
  settled_foldl (settled_empty separation _) (pairwise_candidates hdistinct)

/-- What a refusal names stands in the way, and it is the first that does: those granted are
searched in the order of precedence. -/
theorem Settled.blocks {done : List Claim} {g : Grant} (h : g.Settled separation turn done)
    (horder : done.Pairwise Claim.Precedes) {winner c : Claim} (hearlier : winner.Precedes c)
    (hfound : (g.granted.find? fun d => d.station.overlaps separation c.station) = some winner) :
    g.Blocks separation winner c := by
  obtain ⟨hnear, before, after, hsplit, hfree⟩ := List.find?_eq_some_iff_append.1 hfound
  refine ⟨List.mem_of_find?_eq_some hfound, of_decide_eq_true hnear, hearlier, ?_⟩
  intro d hd hclose
  have hsorted := horder.sublist h.granted
  rw [hsplit] at hd hsorted
  rcases List.mem_append.1 hd with hd | hd
  · have hapart : d.station.overlaps separation c.station = false := by simpa using hfree d hd
    exact absurd hclose (of_decide_eq_false hapart)
  · rcases List.mem_cons.1 hd with rfl | hd
    · exact .inl rfl
    · exact .inr ((List.pairwise_cons.1 (List.pairwise_append.1 hsorted).2.1).1 d hd)

/-- **What arbitration has to do** for the claims of a slot's turn.  Only
claims of the turn are granted, and they are far enough apart.  Every claim of
the turn is granted, or else refused once; and a refusal is of a claim of the
turn, and names the granted claim that stands in its way. -/
structure Fair (g : Grant) (mode : Mode) (slot : Slot) (claims : List Claim) (separation : Nat) :
    Prop where
  granted : ∀ c ∈ g.granted, c ∈ claims ∧ c.station.turns.contains (mode.turn slot.cycle) = true
  apart : g.granted.Pairwise fun c d =>
    separation ≤ Station.distance c.station.frequencyHz d.station.frequencyHz
  settled : ∀ c ∈ claims, c.station.turns.contains (mode.turn slot.cycle) = true →
    g.allows c.operator = true ∧ (g.refusals.map (·.denied)).count c.operator = 0 ∨
      g.allows c.operator = false ∧ (g.refusals.map (·.denied)).count c.operator = 1
  refused : ∀ r ∈ g.refusals, r.turn = mode.turn slot.cycle ∧
    ∃ c ∈ claims, c.station.turns.contains (mode.turn slot.cycle) = true ∧
      c.operator = r.denied ∧ ∃ winner, winner.operator = r.granted ∧ g.Blocks separation winner c

/-- An operator that has been settled is granted or refused, and not both, since the two lists
together name every claim once. -/
theorem Settled.cases {done : List Claim} {g : Grant} (h : g.Settled separation turn done)
    (hdistinct : (done.map (·.operator)).Nodup) {c : Claim} (hc : c ∈ done) :
    g.allows c.operator = true ∧ (g.refusals.map (·.denied)).count c.operator = 0 ∨
      g.allows c.operator = false ∧ (g.refusals.map (·.denied)).count c.operator = 1 := by
  have hallows : g.allows c.operator = true ↔ c.operator ∈ g.granted.map (·.operator) := by
    simp [allows]
  have hcount : (g.granted.map (·.operator)).count c.operator +
      (g.refusals.map (·.denied)).count c.operator = 1 := by
    rw [← List.count_append, h.once.count_eq]
    exact List.count_eq_one_of_mem hdistinct (List.mem_map_of_mem hc)
  by_cases hgranted : c.operator ∈ g.granted.map (·.operator)
  · have hpos := List.count_pos_iff.2 hgranted
    exact .inl ⟨hallows.2 hgranted, by omega⟩
  · have hzero := List.count_eq_zero_of_not_mem hgranted
    exact .inr ⟨by simpa using mt hallows.1 hgranted, by omega⟩

/-- **Arbitration is fair, and the order in which the claims are listed
does not matter.**  Claims are granted by precedence: one that is refused
has a granted one in its way that is decided before. -/
theorem granted_by_precedence (mode : Mode) (slot : Slot) (separation : Nat) {claims : List Claim}
    (hdistinct : (claims.map (·.operator)).Nodup) :
    (ofClaims mode slot claims separation).Fair mode slot claims separation ∧
      ∀ claims', claims'.Perm claims →
        ofClaims mode slot claims' separation = ofClaims mode slot claims separation := by
  have hsettled := settled_ofClaims hdistinct mode slot separation
  have horder : (candidates mode slot claims).Pairwise Claim.Precedes :=
    pairwise_candidates hdistinct
  refine ⟨⟨?_, ?_, ?_, ?_⟩, ?_⟩
  · intro c hc
    exact mem_granted hc
  · refine (apart_ofClaims mode slot claims separation).imp ?_
    intro c d hapart
    exact Nat.le_of_not_lt (of_decide_eq_false hapart)
  · intro c hc hturn
    exact hsettled.cases (nodup_candidates hdistinct) (mem_candidates.2 ⟨hc, hturn⟩)
  · intro r hr
    obtain ⟨hturn, c, hc, hdenied, winner, hnumber, hearlier, hfound⟩ := hsettled.refused r hr
    obtain ⟨hclaimed, hmine⟩ := mem_candidates.1 hc
    exact ⟨hturn, c, hclaimed, hmine, hdenied, winner, hnumber,
      hsettled.blocks horder hearlier hfound⟩
  · intro claims' hperm
    unfold ofClaims
    rw [candidates_eq_of_perm hdistinct hperm]

/-- In a crowded part of the band the contact in progress goes first, and
the two operators beside it are refused.  One of them is also near the
first operator, who is granted all the same. -/
theorem granted_by_precedence_crowded :
    let station : Nat → Nat → Station := fun hz turn =>
      ⟨"K1ABC", "FN42", none, none, hz, .ofList [turn]⟩
    let claims : List Claim := [⟨1, station 1500 0, false⟩, ⟨2, station 1540 0, false⟩,
      ⟨3, station 1580 0, true⟩, ⟨4, station 1620 0, false⟩, ⟨5, station 1580 1, true⟩]
    let slot : Slot := slotOf .ft8 0
    let g := ofClaims .ft8 slot claims 50
    (claims.map (·.operator)).Nodup ∧
      g.granted.map (·.operator) = [3, 1] ∧ g.refusals = [⟨0, 3, 2⟩, ⟨0, 3, 4⟩] ∧
      g.Fair .ft8 slot claims 50 ∧ ofClaims .ft8 slot claims.reverse 50 = g := by
  intro station claims slot g
  have hdistinct : (claims.map (·.operator)).Nodup := by decide
  have hgranted : g.granted.map (·.operator) = [3, 1] := by
    dsimp only [g, slot, claims, station]
    cbv
  have hrefusals : g.refusals = [⟨0, 3, 2⟩, ⟨0, 3, 4⟩] := by
    dsimp only [g, slot, claims, station]
    cbv
  obtain ⟨hfair, hperm⟩ := granted_by_precedence .ft8 slot 50 hdistinct
  exact ⟨hdistinct, hgranted, hrefusals, hfair, hperm _ claims.reverse_perm⟩

end Grant

end SlotRadio
