/-!
# Phases of a contact

A contact goes through phases that alternate between sending and
listening.  `Phase.transmits` tells which phases put a message on the
air when their turn comes, and `Phase.inProgress` in which phases an
operator is served before others.
-/

namespace SlotRadio

/-- What an automatic operator is doing: nothing, calling everybody, listening
for an answer to a call, sending its own grid to the target, sending a report,
listening for the report to be confirmed, sending the closing message, or
sending only what is queued by hand. -/
inductive Phase where
  | idle
  | callingCq
  | awaitingReply
  | replying
  | exchanging
  | awaitingConfirm
  | logging
  | manual
  deriving DecidableEq, Repr

namespace Phase

/-- The phases that send a message of their own. -/
def transmits : Phase → Bool
  | callingCq | replying | exchanging | logging => true
  | idle | awaitingReply | awaitingConfirm | manual => false

/-- The phases of an operator that is busy with a contact. -/
def inProgress : Phase → Bool
  | idle | callingCq => false
  | awaitingReply | replying | exchanging | awaitingConfirm | logging | manual => true

/-- The phases that listen for an answer. -/
def awaits : Phase → Bool
  | awaitingReply | awaitingConfirm => true
  | idle | callingCq | replying | exchanging | logging | manual => false

/-- All phases. -/
def all : List Phase :=
  [idle, callingCq, awaitingReply, replying, exchanging, awaitingConfirm, logging, manual]

/-- A listening phase sends nothing. -/
theorem transmits_of_awaits {p : Phase} (h : p.awaits = true) : p.transmits = false := by
  cases p <;> simp_all [awaits, transmits]

end Phase

/-- The side that an operator takes in a contact: it called everybody, or it
answered a call. -/
inductive Role where
  | caller
  | replier
  deriving DecidableEq, Repr

end SlotRadio
