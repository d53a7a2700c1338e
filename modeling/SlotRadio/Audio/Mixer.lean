import SlotRadio.Audio.MixPlan
import SlotRadio.Config.Basic
/-!
# The mixer

The mixer keeps the clips of one slot and the order in which their
operators came, and decides when they are mixed.

* A clip for another slot empties the cache first.  A second clip of an
  operator takes the place of the first, unless both carry the same
  request.
* Mixing is put off by a short window, so that clips that arrive close
  together are mixed once.  There is at most one time at which a mix is
  due; setting it again replaces it.
* While a composite is being played a change is mixed from where the
  playing has got to; these offsets add up.
* A mix that fails empties the cache.

The functions follow a clip's way: `add`, `schedule`, `takeIfDue`,
`plan`, `record`.
-/

namespace SlotRadio

/-- Where the mixer stands within a slot: nothing is cached, clips are
cached and no mix is due, a mix is due at a known time, or the cached
clips have been mixed. -/
inductive MixerStage where
  | empty
  | gathering
  | waiting
  | mixed
  deriving DecidableEq, Repr

/-- What became of a clip that was offered: it is the operator's first
one, it took the place of an earlier one, it repeats the cached one and
nothing changed, or the clips of another slot made room for it. -/
inductive Acceptance where
  | inserted
  | replaced
  | duplicate
  | purgedStale
  deriving DecidableEq, Repr

/-- What became of a wish to mix: the mix is due at a time, or the wanted
playback time is over by so much and it is for the caller to mix at once,
or there is nothing to mix. -/
inductive Scheduling where
  | armed (dueAtMs : Nat)
  | overdue (lateMs : Nat)
  | nothingCached
  deriving DecidableEq, Repr

/-- What the mixer has counted: mixes that gave a composite, mixes that
found nothing to play, wishes whose playback time was over, and clips
that needed the linear conversion; and the peak of the last composite
before it was scaled. -/
structure MixCounts where
  mixes : Nat := 0
  underruns : Nat := 0
  overruns : Nat := 0
  fallbacks : Nat := 0
  lastPeak : Float32 := 0

/-- A table of clips, each under a number. -/
abbrev ClipTable := Nat → Option Clip

/-- The table with another entry under one of the numbers. -/
def ClipTable.set (table : ClipTable) (number : Nat) (entry : Option Clip) : ClipTable :=
  fun k => if k = number then entry else table k

/-- The clips of one slot and how far mixing them has got.  The clips are
in a table, `entries`, each under the number of its operator; `order`
lists these numbers as the clips came in.  Nothing in the type makes the
two agree: every function here that changes one has to change the other
(`Mixer.Coherent`).  `elapsedMs` of the clips have been played, and
`playbackStart` is when the playing composite began. -/
structure Mixer where
  settings : MixerSettings
  entries : ClipTable
  order : List Nat
  slotStart : Option Nat
  dueAt : Option Nat
  elapsedMs : Nat
  playbackStart : Option Nat
  stage : MixerStage
  counts : MixCounts

namespace Mixer

/-- A mixer without clips. -/
def empty (settings : MixerSettings) : Mixer where
  settings := settings
  entries := fun _ => none
  order := []
  slotStart := none
  dueAt := none
  elapsedMs := 0
  playbackStart := none
  stage := .empty
  counts := {}

/-- The clips as they are mixed, in the order of the list.  A number on
the list that has no entry is passed over, and an entry that is not on
the list is not found. -/
def clips (m : Mixer) : List Clip :=
  m.order.filterMap m.entries

/-- The stage of a mixer in which no mix is due. -/
def restingStage (m : Mixer) : MixerStage :=
  if m.order.isEmpty then .empty else .gathering

/-- Forgets clips, offsets and the time of the next mix. -/
def clear (m : Mixer) : Mixer :=
  { m with
    entries := fun _ => none
    order := []
    slotStart := none
    dueAt := none
    elapsedMs := 0
    playbackStart := none
    stage := .empty }

/-- A mixer that is ready for clips of a slot, and whether clips of
another slot had to go. -/
def turnTo (m : Mixer) (slotStartMs : Nat) : Mixer × Bool :=
  if m.slotStart.any (· != slotStartMs) then
    ({ m.clear with slotStart := some slotStartMs }, true)
  else ({ m with slotStart := some slotStartMs }, false)

/-- Caches a clip: in the place of the operator's former clip, or as the
last one. -/
def store (m : Mixer) (clip : Clip) : Mixer :=
  { m with
    entries := m.entries.set clip.operator (some clip)
    order :=
      if (m.entries clip.operator).isSome then m.order else m.order ++ [clip.operator]
    stage :=
      match m.stage with
      | .empty | .mixed => .gathering
      | .gathering => .gathering
      | .waiting => .waiting }

/-- Offers a clip.  Where it is refused the second component says why. -/
def add (m : Mixer) (clip : Clip) : Mixer × Except MixFault Acceptance :=
  if clip.rate = 0 then (m, .error (.zeroRate clip.operator))
  else
    let (m, purged) := m.turnTo clip.slotStartMs
    match m.entries clip.operator with
    | some cached =>
      if cached.request.isSome ∧ cached.request = clip.request then (m, .ok .duplicate)
      else (m.store clip, .ok (if purged then .purgedStale else .replaced))
    | none =>
      if m.settings.maxOperators ≤ m.order.length then
        (m, .error (.cacheFull m.settings.maxOperators))
      else (m.store clip, .ok (if purged then .purgedStale else .inserted))

/-- Gives up the mix that is due; tells whether there was one. -/
def cancel (m : Mixer) : Mixer × Bool :=
  match m.dueAt with
  | none => (m, false)
  | some _ =>
    ({ m with
        dueAt := none
        stage := if m.stage = .waiting then m.restingStage else m.stage },
      true)

/-- The time at which a mix asked for at `now` is due: at the end of the
window, or, with a far playback time, the lead before it, and never
after the playback time. -/
def dueTime (settings : MixerSettings) (now : Nat) : Option Nat → Nat
  | none => now + settings.windowMs
  | some target =>
    if now + settings.windowMs < target - settings.playbackLeadMs then
      target - settings.playbackLeadMs
    else min (now + settings.windowMs) target

/-- Asks for a mix, with an optional playback time. -/
def schedule (m : Mixer) (now : Nat) (target : Option Nat) : Mixer × Scheduling :=
  let (m, _) := m.cancel
  if m.order.isEmpty then (m, .nothingCached)
  else
    match target.filter (· ≤ now) with
    | some missed =>
      ({ m with counts := { m.counts with overruns := m.counts.overruns + 1 } },
        .overdue (now - missed))
    | none =>
      let at_ := dueTime m.settings now target
      ({ m with dueAt := some at_, stage := .waiting }, .armed at_)

/-- Takes the mix that is due, if its time has come. -/
def takeIfDue (m : Mixer) (now : Nat) : Mixer × Bool :=
  if m.dueAt.any (· ≤ now) then ({ m with dueAt := none }, true) else (m, false)

/-- The plan of mixing what is cached. -/
def plan (m : Mixer) (elapsedMs : Nat) (quality : Quality) : MixPlan where
  clips := m.clips
  elapsedMs := elapsedMs
  quality := quality
  normalizePeak := m.settings.normalizePeak
  slotStartMs := m.slotStart.getD 0

/-- The plan of mixing what is cached from where the playing has got
to. -/
def currentPlan (m : Mixer) (quality : Quality) : MixPlan :=
  m.plan m.elapsedMs quality

/-- Takes the mix that is due, whether or not its time has come. -/
def takeWaiting (m : Mixer) (quality : Quality) : Mixer × Option MixPlan :=
  match m.dueAt with
  | none => (m, none)
  | some _ => ({ m with dueAt := none }, some (m.currentPlan quality))

/-- Takes note of a finished mix. -/
def record (m : Mixer) (result : Except MixFault MixSummary) :
    Mixer × Except MixFault MixResult :=
  match result with
  | .error fault => (m.clear, .error fault)
  | .ok report =>
    let counts := { m.counts with fallbacks := m.counts.fallbacks + report.fallbacks }
    match report.outcome with
    | .composite audio =>
      ({ m with
          counts := { counts with mixes := counts.mixes + 1, lastPeak := report.peakBefore }
          stage := .mixed },
        .ok (.composite audio))
    | .silence =>
      ({ m with
          counts := { counts with underruns := counts.underruns + 1 }
          stage := m.restingStage },
        .ok .silence)

/-- Mixes what is cached. -/
def mixAll (m : Mixer) (elapsedMs : Nat) : Mixer × Except MixFault MixResult :=
  m.record (m.plan elapsedMs .spectral).run

/-- Mixes if a mix is due. -/
def mixIfDue (m : Mixer) (now : Nat) : Mixer × Option (Except MixFault MixResult) :=
  match m.takeIfDue now with
  | (m, true) =>
    let (m, outcome) := m.mixAll m.elapsedMs
    (m, some outcome)
  | (m, false) => (m, none)

/-- Moves the offset on and gives the plan of mixing from there; no mix
is due any more. -/
def planAgain (m : Mixer) (playedMs : Nat) (quality : Quality) : Mixer × MixPlan :=
  let (m, _) := m.cancel
  let m := { m with elapsedMs := m.elapsedMs + playedMs }
  (m, m.currentPlan quality)

/-- Moves the offset on and mixes from there. -/
def mixAgain (m : Mixer) (playedMs : Nat) : Mixer × Except MixFault MixResult :=
  let (m, plan) := m.planAgain playedMs .spectral
  m.record plan.run

/-- The mixer without an operator, in the table as well as on the list. -/
def without (m : Mixer) (operator : Nat) : Mixer :=
  { m with
    entries := m.entries.set operator none
    order := m.order.filter (· != operator) }

/-- Drops the clip of an operator; tells whether there was one. -/
def remove (m : Mixer) (operator : Nat) : Mixer × Bool :=
  if (m.entries operator).isNone then (m, false)
  else
    let m := m.without operator
    if m.order.isEmpty ∧ m.stage ≠ .mixed then
      ({ m with dueAt := none, stage := .empty }, true)
    else (m, true)

/-- Notes that a composite began to play. -/
def beginPlayback (m : Mixer) (now : Nat) : Mixer :=
  { m with playbackStart := some now }

end Mixer

end SlotRadio
