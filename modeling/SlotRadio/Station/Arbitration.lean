import SlotRadio.Config.Fault
import SlotRadio.Station.Basic
/-!
# Who may transmit

Several operators may share a slot as long as their frequencies are far
enough apart.

* `firstOverlap?` looks at a list of operators before anything is sent
  and names the first two that share a turn at overlapping frequencies;
* `Grant.ofClaims` decides for one slot.  It goes through the operators
  whose turn it is, those with a contact in progress first and lower
  numbers before higher ones, and grants each one that overlaps nobody
  granted so far.  Every refusal is recorded with the operator that
  stands in the way.
-/

namespace SlotRadio

/-- The first two operators in a list that are in conflict. -/
def firstOverlap? (separation : Nat) : List (Nat × Station) → Option Overlap
  | [] => none
  | (first, a) :: rest =>
    (rest.findSome? fun (second, b) =>
      (a.conflict? separation b).map fun turn => ⟨turn, first, second⟩)
    <|> firstOverlap? separation rest

/-- An operator's wish to transmit; `inProgress` while it is in contact with
somebody. -/
structure Claim where
  operator : Nat
  station : Station
  inProgress : Bool
  deriving DecidableEq

/-- A refusal: in a turn that both claimed, one operator stood in the way of
another. -/
structure Refusal where
  turn : Nat
  granted : Nat
  denied : Nat
  deriving DecidableEq, Repr

/-- The outcome for one slot, both lists in the order in which it was
settled. -/
structure Grant where
  granted : List Claim
  refusals : List Refusal

namespace Grant

/-- Nothing decided yet. -/
def empty : Grant := ⟨[], []⟩

/-- True for an operator that may transmit. -/
def allows (g : Grant) (operator : Nat) : Bool :=
  g.granted.any (·.operator == operator)

/-- Decides one more claim. -/
def settle (separation turn : Nat) (g : Grant) (c : Claim) : Grant :=
  match g.granted.find? fun winner => winner.station.overlaps separation c.station with
  | some winner =>
    { g with refusals := g.refusals ++ [⟨turn, winner.operator, c.operator⟩] }
  | none => { g with granted := g.granted ++ [c] }

end Grant

/-- The order of deciding: contacts in progress, then lower numbers. -/
def Claim.before (a b : Claim) : Bool :=
  if a.inProgress = b.inProgress then a.operator ≤ b.operator else a.inProgress

/-- The claims for a slot in the order of deciding. -/
def candidates (mode : Mode) (slot : Slot) (claims : List Claim) : List Claim :=
  (claims.filter fun c => c.station.hasTurn mode slot).mergeSort Claim.before

/-- Decides who may transmit in a slot. -/
def Grant.ofClaims (mode : Mode) (slot : Slot) (claims : List Claim) (separation : Nat) :
    Grant :=
  (candidates mode slot claims).foldl (Grant.settle separation (mode.turn slot.cycle))
    Grant.empty

end SlotRadio
