import SlotRadio.Engine.Operators
import SlotRadio.Engine.Tick
/-!
# Requests

Everything that can be asked of the engine, and what it answers.  A
request is met in one `Moment`.  `Session` adds that an engine can
be shut down, after which every request fails; `Session.run` meets a
list of requests and lists all that was reported.
-/

namespace SlotRadio

/-- What can be asked. -/
inductive Request where
  | register (operator : Nat) (station : Station)
  | strikeOff (operator : Nat)
  | updateStation (operator : Nat) (station : Station)
  | command (operator : Nat) (c : Command)
  | heard (f : Frame)
  | addClip (clip : Clip) (target : Option Nat)
  | scheduleMix (target : Option Nat)
  | dropAudio
  | contact (operator : Nat)
  | slot
  | mixerStatus
  | look
  | shutdown

/-- What is answered. -/
inductive Reply where
  | done
  | accepted (a : Acceptance)
  | contact (c : Option Contact)
  | slot (s : Option Slot)
  | mixerStatus (stage : MixerStage) (counts : MixCounts)

/-- The result of a request: the next engine, what it reports, and the
answer. -/
structure Response where
  engine : Engine
  events : List Event
  reply : Except EngineFault Reply

namespace Engine

/-- A request that changes the engine and may be refused. -/
def respond (e : Engine) : Except EngineFault Emits → Response
  | .ok (next, events) => ⟨next, events, .ok .done⟩
  | .error fault => ⟨e, [], .error fault⟩

/-- Meets a request. -/
def meet (e : Engine) (t : Moment) : Request → Response
  | .register operator station =>
    e.respond ((e.register operator station).map (·, []))
  | .strikeOff operator => e.respond (e.strikeOff operator t)
  | .updateStation operator station =>
    e.respond ((e.updateStation operator station).map (·, []))
  | .command operator c => e.respond (e.command operator c)
  | .heard f => ⟨e.hear f, [], .ok .done⟩
  | .addClip clip target =>
    let ((next, events), result) := e.addClip clip target t
    ⟨next, events, result.map .accepted⟩
  | .scheduleMix target =>
    match e.scheduleMix t target with
    | ((next, events), none) => ⟨next, events, .ok .done⟩
    | ((next, events), some fault) => ⟨next, events, .error (.mix fault)⟩
  | .dropAudio => ⟨{ e with mixer := e.mixer.clear }, [], .ok .done⟩
  | .contact operator => ⟨e, [], .ok (.contact ((e.roster.get? operator).map (·.contact)))⟩
  | .slot => ⟨e, [], .ok (.slot e.tracker.current)⟩
  | .mixerStatus => ⟨e, [], .ok (.mixerStatus e.mixer.stage e.mixer.counts)⟩
  | .look => e.respond (.ok (e.tick t))
  | .shutdown => ⟨{ e with mixer := e.mixer.clear }, [], .ok .done⟩

end Engine

/-- An engine that can be shut down; `isOpen` is false after that. -/
structure Session where
  engine : Engine
  isOpen : Bool

namespace Session

/-- True for the request that ends a session. -/
def ends : Request → Bool
  | .shutdown => true
  | _ => false

/-- Meets a request, unless the session is over. -/
def meet (s : Session) (t : Moment) (r : Request) :
    Session × List Event × Except EngineFault Reply :=
  if s.isOpen then
    let response := s.engine.meet t r
    (⟨response.engine, !ends r⟩, response.events, response.reply)
  else (s, [], .error .closed)

/-- Meets requests, each in its moment, and lists the reports. -/
def run (s : Session) : List (Moment × Request) → Session × List Event
  | [] => (s, [])
  | (t, r) :: rest =>
    let (next, events, _) := s.meet t r
    let (last, later) := run next rest
    (last, events ++ later)

end Session

end SlotRadio
