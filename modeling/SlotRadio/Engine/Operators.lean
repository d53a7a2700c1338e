import SlotRadio.Engine.Playback
/-!
# Registering operators

Operators are registered, given a new set-up, and struck off.  If the
settings ask for it, an operator that would be in conflict with another
one is refused, and nothing changes.  An operator that is struck off
leaves the mixer too; a composite that is being played is mixed again
without it.
-/

namespace SlotRadio.Engine

/-- The first conflict that an operator with a new set-up would bring;
it is itself the last one looked at. -/
def conflict? (e : Engine) (operator : Nat) (station : Station) : Option Overlap :=
  if e.config.loop.rejectOverlaps then
    firstOverlap? e.config.loop.separationHz
      (e.roster.stations.filter (·.1 != operator) ++ [(operator, station)])
  else none

/-- Registers an operator. -/
def register (e : Engine) (operator : Nat) (station : Station) :
    Except EngineFault Engine :=
  if (e.roster.get? operator).isSome then .error (.duplicateOperator operator)
  else
    match e.conflict? operator station with
    | some o => .error (.overlap o)
    | none =>
      .ok { e with
        roster := e.roster.insert operator (.idle operator station e.config.policy) }

/-- Gives an operator a new set-up. -/
def updateStation (e : Engine) (operator : Nat) (station : Station) :
    Except EngineFault Engine :=
  match e.roster.get? operator with
  | none => .error (.unknownOperator operator)
  | some a =>
    match e.conflict? operator station with
    | some o => .error (.overlap o)
    | none => .ok { e with roster := e.roster.insert operator (a.updateStation station) }

/-- Strikes an operator off. -/
def strikeOff (e : Engine) (operator : Nat) (t : Moment) : Except EngineFault Emits :=
  if (e.roster.get? operator).isNone then .error (.unknownOperator operator)
  else
    let wasMixed := e.mixer.stage = .mixed
    let (mixer, removed) := e.mixer.remove operator
    let e := { e with roster := e.roster.erase operator, mixer }
    if removed && wasMixed then .ok (e.mixAgain t) else .ok (e, [])

/-- Gives an operator a command. -/
def command (e : Engine) (operator : Nat) (c : Command) : Except EngineFault Emits :=
  match e.roster.get? operator with
  | none => .error (.unknownOperator operator)
  | some a =>
    let (a, events) := a.obey c
    .ok ({ e with roster := e.roster.insert operator a }, events.map .contact)

/-- Lets every operator hear a frame, and keeps it for the slot's end. -/
def hear (e : Engine) (f : Frame) : Engine :=
  { e with roster := e.roster.map fun _ a => a.receive f, heard := e.heard ++ [f] }

end SlotRadio.Engine
