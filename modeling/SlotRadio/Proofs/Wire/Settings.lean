import SlotRadio.Proofs.Json.Records
import SlotRadio.Wire.Config
/-!
# Settings survive their documents

A setting has a name in its group (`Field.name`), a value in the settings
(`Field.figure`), and texts that stand for this value (`Figure.WrittenAs`).
With these it is said, without the records that are read, what a document
lists (`Lists`): any of the settings of `c`, in any order and besides anything
under other names.  What should be read of it is `pick`: the listed settings
of `c`, and the defaults for the others.

* `reads_config` — this is what is read;
* `reads_written` — all settings are read from what they are written as;
* `fault?_pick` — picking from settings in their ranges stays in the ranges;
* `settings_survive` — all of this together, for whole documents.

That a floating-point number is read from its shortest decimal is not shown
here but asked for, of the one that is written.
-/

namespace SlotRadio.Wire

open Json

/-- A group of settings. -/
inductive Group where
  | loop
  | mixer
  | policy
  deriving DecidableEq

/-- The name of a group in a document. -/
def Group.name : Group → String
  | loop => "runtime"
  | mixer => "mixer"
  | policy => "automation"

/-- A setting. -/
inductive Field where
  | pollInterval
  | driftTolerance
  | overrunTolerance
  | deadlineLead
  | rejectOverlaps
  | separation
  | eventCapacity
  | requestCapacity
  | mixingWindow
  | playbackLead
  | normalizePeak
  | maxOperators
  | patience
  | resumeAfterTimeout
  | resumeAfterContact
  | answersTarget
  deriving DecidableEq

/-- A value of a setting. -/
inductive Figure where
  | count (n : Nat)
  | flag (b : Bool)
  | level (x : Float32)

/-- The texts that stand for a value.  A level may be written in any way
that is read as it. -/
def Figure.WrittenAs : Figure → List Char → Prop
  | count n, text => text = Decimal.natural n
  | flag b, text => text = Codec.truthText b
  | level x, text => Codec.single.decode (String.ofList text) = .ok x

namespace Field

/-- The group of a setting. -/
def group : Field → Group
  | pollInterval | driftTolerance | overrunTolerance | deadlineLead | rejectOverlaps
  | separation | eventCapacity | requestCapacity => .loop
  | mixingWindow | playbackLead | normalizePeak | maxOperators => .mixer
  | patience | resumeAfterTimeout | resumeAfterContact | answersTarget => .policy

/-- The name of a setting in its group. -/
def name : Field → String
  | pollInterval => "poll_interval_ms"
  | driftTolerance => "drift_tolerance_ms"
  | overrunTolerance => "overrun_tolerance_ms"
  | deadlineLead => "tx_deadline_lead_ms"
  | rejectOverlaps => "reject_cycle_collisions"
  | separation => "min_frequency_separation_hz"
  | eventCapacity => "event_capacity"
  | requestCapacity => "command_capacity"
  | mixingWindow => "mixing_window_ms"
  | playbackLead => "playback_lead_ms"
  | normalizePeak => "normalize_peak"
  | maxOperators => "max_operators"
  | patience => "max_cycles_without_reply"
  | resumeAfterTimeout => "auto_resume_cq_after_fail"
  | resumeAfterContact => "auto_resume_cq_after_success"
  | answersTarget => "auto_reply_to_target_cq"

/-- The value of a setting. -/
def figure (c : Config) : Field → Figure
  | pollInterval => .count c.loop.pollIntervalMs
  | driftTolerance => .count c.loop.driftToleranceMs
  | overrunTolerance => .count c.loop.overrunToleranceMs
  | deadlineLead => .count c.loop.deadlineLeadMs
  | rejectOverlaps => .flag c.loop.rejectOverlaps
  | separation => .count c.loop.separationHz
  | eventCapacity => .count c.loop.eventCapacity
  | requestCapacity => .count c.loop.requestCapacity
  | mixingWindow => .count c.mixer.windowMs
  | playbackLead => .count c.mixer.playbackLeadMs
  | normalizePeak => .level c.mixer.normalizePeak
  | maxOperators => .count c.mixer.maxOperators
  | patience => .count c.policy.patience
  | resumeAfterTimeout => .flag c.policy.resumeAfterTimeout
  | resumeAfterContact => .flag c.policy.resumeAfterContact
  | answersTarget => .flag c.policy.answersTarget

/-- The counts that a setting has room for. -/
def limit : Field → Nat
  | separation | patience => Word.halfCount
  | _ => Word.count

end Field

/-- Every count has room in its setting. -/
def Fits (c : Config) : Prop :=
  ∀ (f : Field) (n : Nat), f.figure c = .count n → n < f.limit

/-- A value of `c` if it is listed, and otherwise its default. -/
def choose {α : Type} (listed : Field → Bool) (c : Config) (f : Field) (value : Config → α) : α :=
  if listed f then value c else value {}

/-- The settings of which those listed are as in `c`, and the others have
their defaults. -/
def pick (listed : Field → Bool) (c : Config) : Config where
  loop :=
    { pollIntervalMs := choose listed c .pollInterval (·.loop.pollIntervalMs)
      driftToleranceMs := choose listed c .driftTolerance (·.loop.driftToleranceMs)
      overrunToleranceMs := choose listed c .overrunTolerance (·.loop.overrunToleranceMs)
      deadlineLeadMs := choose listed c .deadlineLead (·.loop.deadlineLeadMs)
      rejectOverlaps := choose listed c .rejectOverlaps (·.loop.rejectOverlaps)
      separationHz := choose listed c .separation (·.loop.separationHz)
      eventCapacity := choose listed c .eventCapacity (·.loop.eventCapacity)
      requestCapacity := choose listed c .requestCapacity (·.loop.requestCapacity) }
  mixer :=
    { windowMs := choose listed c .mixingWindow (·.mixer.windowMs)
      playbackLeadMs := choose listed c .playbackLead (·.mixer.playbackLeadMs)
      normalizePeak := choose listed c .normalizePeak (·.mixer.normalizePeak)
      maxOperators := choose listed c .maxOperators (·.mixer.maxOperators) }
  policy :=
    { patience := choose listed c .patience (·.policy.patience)
      resumeAfterTimeout := choose listed c .resumeAfterTimeout (·.policy.resumeAfterTimeout)
      resumeAfterContact := choose listed c .resumeAfterContact (·.policy.resumeAfterContact)
      answersTarget := choose listed c .answersTarget (·.policy.answersTarget) }

theorem ite_some_eq_none_iff {α : Type} {p : Prop} [Decidable p] {a : α} {rest : Option α} :
    (if p then some a else rest) = none ↔ ¬p ∧ rest = none := by
  split <;> simp [*]

/-- Settings have no fault exactly if each of those that are checked is in its
range. -/
theorem fault?_eq_none_iff (c : Config) :
    c.fault? = none ↔
      c.loop.pollIntervalMs ≠ 0 ∧ ¬(c.loop.eventCapacity = 0 ∨ c.loop.requestCapacity = 0) ∧
        c.mixer.windowMs ≠ 0 ∧ c.mixer.maxOperators ≠ 0 ∧
        Config.peakAllowed c.mixer.normalizePeak = true ∧ c.policy.patience ≠ 0 := by
  simp [Config.fault?, ite_some_eq_none_iff]

/-- The defaults are in their ranges, so picking from settings in their
ranges does not leave these. -/
theorem fault?_pick {c : Config} (h : c.fault? = none) (listed : Field → Bool) :
    (pick listed c).fault? = none := by
  rw [fault?_eq_none_iff, not_or] at h ⊢
  obtain ⟨hpoll, ⟨hevents, hrequests⟩, hwindow, hoperators, hpeak, hpatience⟩ := h
  refine ⟨?_, ⟨?_, ?_⟩, ?_, ?_, ?_, ?_⟩ <;> simp only [pick, choose] <;> split <;>
    first | assumption | decide +kernel

/-! ## Documents -/

/-- The entries of a group's object list these settings as they are in `c`,
each of them once, and none of the other settings. -/
structure ListsGroup (c : Config) (listed : Field → Bool) (g : Group) (entries : List Entry) :
    Prop where
  present : ∀ f : Field, f.group = g → listed f = true →
    ∃ text, textsUnder entries f.name = [text] ∧ (f.figure c).WrittenAs text
  absent : ∀ f : Field, f.group = g → listed f = false → textsUnder entries f.name = []
  others : ∀ e ∈ entries, (∀ f : Field, f.group = g → f.name ≠ e.name) → Phrase .value e.text

/-- The entries of an object list these settings in their groups as they are
in `c`, and none of the other settings.  A group without settings may be
left out. -/
structure ListsAll (c : Config) (listed : Field → Bool) (entries : List Entry) : Prop where
  groups : ∀ g : Group,
    (textsUnder entries g.name = [] ∧ ∀ f : Field, f.group = g → listed f = false) ∨
      ∃ text inner, textsUnder entries g.name = [text] ∧ ObjectText inner text ∧
        ListsGroup c listed g inner
  others : ∀ e ∈ entries, (∀ g : Group, g.name ≠ e.name) → Phrase .value e.text

/-- A document that lists these settings as they are in `c`. -/
def Lists (c : Config) (listed : Field → Bool) (document : String) : Prop :=
  ∃ before text after entries, Blank before ∧ Blank after ∧
    document = String.ofList (before ++ (text ++ after)) ∧ ObjectText entries text ∧
    ListsAll c listed entries

/-! ## Reading single settings -/

section

variable {c : Config} {f : Field}

/-- A count of sixty-four bits is read from what its setting is written as. -/
theorem reads_word (hfits : Fits c) {n : Nat} (hcount : f.figure c = .count n)
    (hlimit : f.limit = Word.count) (text : List Char) (h : (f.figure c).WrittenAs text) :
    word.Reads text n := by
  rw [hcount] at h
  obtain rfl := h
  exact Codec.reads_below (Nat.le_refl _) (hlimit ▸ hfits f n hcount)

/-- A count of thirty-two bits is read from what its setting is written as. -/
theorem reads_small (hfits : Fits c) {n : Nat} (hcount : f.figure c = .count n)
    (hlimit : f.limit = Word.halfCount) (text : List Char) (h : (f.figure c).WrittenAs text) :
    small.Reads text n := by
  rw [hcount] at h
  obtain rfl := h
  exact Codec.reads_below (by decide) (hlimit ▸ hfits f n hcount)

/-- A switch is read from what its setting is written as. -/
theorem reads_flag {b : Bool} (hflag : f.figure c = .flag b) (text : List Char)
    (h : (f.figure c).WrittenAs text) : Codec.bool.Reads text b := by
  rw [hflag] at h
  obtain rfl := h
  exact Codec.reads_bool b

/-- A level is read from what its setting is written as. -/
theorem reads_level {x : Float32} (hlevel : f.figure c = .level x) (text : List Char)
    (h : (f.figure c).WrittenAs text) : Codec.single.Reads text x := by
  rw [hlevel] at h
  exact Codec.reads_single h

end

/-! ## Reading the groups -/

section

variable {c : Config} {listed : Field → Bool} {entries : List Entry} {text : List Char}

/-- What is read of a setting. -/
def taken {α : Type} (listed : Field → Bool) (c : Config) (f : Field) (value : Config → α) :
    Option α :=
  if listed f then some (value c) else none

/-- Where a setting was not listed its default takes its place. -/
theorem taken_or {α : Type} (f : Field) (value : Config → α) :
    (taken listed c f value).or (some (value {})) = some (choose listed c f value) := by
  unfold taken choose
  split <;> rfl

/-- A setting that is listed is read, and one that is not stays out. -/
theorem ListsGroup.taken_read {g : Group} (h : ListsGroup c listed g entries) (f : Field)
    (hgroup : f.group = g) {α : Type} {codec : Codec α} {value : Config → α}
    (hreads : ∀ text, (f.figure c).WrittenAs text → codec.Reads text (value c)) :
    codec.Fills f.name entries none (taken listed c f value) := by
  unfold taken
  cases hlisted : listed f with
  | false => exact .inl ⟨h.absent f hgroup hlisted, rfl⟩
  | true =>
    obtain ⟨text, htexts, hwritten⟩ := h.present f hgroup hlisted
    exact .inr ⟨rfl, text, value c, htexts, hreads text hwritten, rfl⟩

/-- A group is read from its object, if its record has a member for each of
its settings. -/
theorem ListsGroup.reads {g : Group} {G : Type} {r : Record G}
    (h : ListsGroup c listed g entries) (htext : ObjectText entries text)
    (hdistinct : DistinctNames r.members)
    (hnames : ∀ f : Field, f.group = g → f.name ∈ r.members.map (·.name))
    {slots : Slots r.members} {values : Values r.members}
    (hgrow : (Slots.empty r.members).Grow r.members entries slots)
    (hvalues : slots.finish r.members = .ok values) : r.codec.Reads text (r.build values) := by
  refine r.reads_object hdistinct htext hgrow ?_ hvalues
  intro e he hother
  refine h.others e he fun f hf heq => ?_
  obtain ⟨m, hm, hname⟩ := List.mem_map.1 (hnames f hf)
  exact hother m hm (hname.trans heq)

/-- What is read of the settings of the loop. -/
def loopTaken (listed : Field → Bool) (c : Config) : Slots loopSettings.members :=
  (taken listed c .pollInterval (·.loop.pollIntervalMs),
    taken listed c .driftTolerance (·.loop.driftToleranceMs),
    taken listed c .overrunTolerance (·.loop.overrunToleranceMs),
    taken listed c .deadlineLead (·.loop.deadlineLeadMs),
    taken listed c .rejectOverlaps (·.loop.rejectOverlaps),
    taken listed c .separation (·.loop.separationHz),
    taken listed c .eventCapacity (·.loop.eventCapacity),
    taken listed c .requestCapacity (·.loop.requestCapacity), ())

/-- The settings of the loop that were listed, completed by defaults, are
those that should be picked. -/
theorem finish_loopTaken : (loopTaken listed c).finish loopSettings.members =
    .ok (loopSettings.parts (pick listed c).loop) := by
  simp only [loopTaken, loopSettings, Member.withDefault, Slots.finish, taken_or]
  rfl

/-- The settings of the loop are read from every object that lists them. -/
theorem reads_loop (hfits : Fits c) (htext : ObjectText entries text)
    (h : ListsGroup c listed .loop entries) :
    loopSettings.codec.Reads text (pick listed c).loop := by
  have hnames : ∀ f : Field, f.group = .loop → f.name ∈ loopSettings.members.map (·.name) := by
    intro f
    cases f <;> decide
  have hgrow : (Slots.empty loopSettings.members).Grow loopSettings.members entries
      (loopTaken listed c) :=
    ⟨h.taken_read .pollInterval rfl (reads_word hfits rfl rfl),
      h.taken_read .driftTolerance rfl (reads_word hfits rfl rfl),
      h.taken_read .overrunTolerance rfl (reads_word hfits rfl rfl),
      h.taken_read .deadlineLead rfl (reads_word hfits rfl rfl),
      h.taken_read .rejectOverlaps rfl (reads_flag rfl),
      h.taken_read .separation rfl (reads_small hfits rfl rfl),
      h.taken_read .eventCapacity rfl (reads_word hfits rfl rfl),
      h.taken_read .requestCapacity rfl (reads_word hfits rfl rfl), trivial⟩
  exact h.reads htext (by decide) hnames hgrow finish_loopTaken

/-- What is read of the settings of the mixer. -/
def mixerTaken (listed : Field → Bool) (c : Config) : Slots mixerSettings.members :=
  (taken listed c .mixingWindow (·.mixer.windowMs),
    taken listed c .playbackLead (·.mixer.playbackLeadMs),
    taken listed c .normalizePeak (·.mixer.normalizePeak),
    taken listed c .maxOperators (·.mixer.maxOperators), ())

/-- The settings of the mixer that were listed, completed by defaults, are
those that should be picked. -/
theorem finish_mixerTaken : (mixerTaken listed c).finish mixerSettings.members =
    .ok (mixerSettings.parts (pick listed c).mixer) := by
  simp only [mixerTaken, mixerSettings, Member.withDefault, Slots.finish, taken_or]
  rfl

/-- The settings of the mixer are read from every object that lists them. -/
theorem reads_mixer (hfits : Fits c) (htext : ObjectText entries text)
    (h : ListsGroup c listed .mixer entries) :
    mixerSettings.codec.Reads text (pick listed c).mixer := by
  have hnames : ∀ f : Field, f.group = .mixer → f.name ∈ mixerSettings.members.map (·.name) := by
    intro f
    cases f <;> decide
  have hgrow : (Slots.empty mixerSettings.members).Grow mixerSettings.members entries
      (mixerTaken listed c) :=
    ⟨h.taken_read .mixingWindow rfl (reads_word hfits rfl rfl),
      h.taken_read .playbackLead rfl (reads_word hfits rfl rfl),
      h.taken_read .normalizePeak rfl (reads_level rfl),
      h.taken_read .maxOperators rfl (reads_word hfits rfl rfl), trivial⟩
  exact h.reads htext (by decide) hnames hgrow finish_mixerTaken

/-- What is read of the policy. -/
def policyTaken (listed : Field → Bool) (c : Config) : Slots policy.members :=
  (taken listed c .patience (·.policy.patience),
    taken listed c .resumeAfterTimeout (·.policy.resumeAfterTimeout),
    taken listed c .resumeAfterContact (·.policy.resumeAfterContact),
    taken listed c .answersTarget (·.policy.answersTarget), ())

/-- The settings of the operators that were listed, completed by defaults, are
those that should be picked. -/
theorem finish_policyTaken : (policyTaken listed c).finish policy.members =
    .ok (policy.parts (pick listed c).policy) := by
  simp only [policyTaken, policy, Member.withDefault, Slots.finish, taken_or]
  rfl

/-- The settings of the operators are read from every object that lists
them. -/
theorem reads_policy (hfits : Fits c) (htext : ObjectText entries text)
    (h : ListsGroup c listed .policy entries) :
    policy.codec.Reads text (pick listed c).policy := by
  have hnames : ∀ f : Field, f.group = .policy → f.name ∈ policy.members.map (·.name) := by
    intro f
    cases f <;> decide
  have hgrow : (Slots.empty policy.members).Grow policy.members entries
      (policyTaken listed c) :=
    ⟨h.taken_read .patience rfl (reads_small hfits rfl rfl),
      h.taken_read .resumeAfterTimeout rfl (reads_flag rfl),
      h.taken_read .resumeAfterContact rfl (reads_flag rfl),
      h.taken_read .answersTarget rfl (reads_flag rfl), trivial⟩
  exact h.reads htext (by decide) hnames hgrow finish_policyTaken

/-! ## Reading a document -/

/-- Where nothing of the loop is listed all of its settings have their
defaults. -/
theorem pick_loop (h : ∀ f : Field, f.group = .loop → listed f = false) :
    (pick listed c).loop = {} := by
  simp [pick, choose, h .pollInterval rfl, h .driftTolerance rfl, h .overrunTolerance rfl,
    h .deadlineLead rfl, h .rejectOverlaps rfl, h .separation rfl, h .eventCapacity rfl,
    h .requestCapacity rfl]

/-- Where nothing of the mixer is listed all of its settings have their
defaults. -/
theorem pick_mixer (h : ∀ f : Field, f.group = .mixer → listed f = false) :
    (pick listed c).mixer = {} := by
  simp [pick, choose, h .mixingWindow rfl, h .playbackLead rfl, h .normalizePeak rfl,
    h .maxOperators rfl]

/-- Where nothing of the policy is listed all of its settings have their
defaults. -/
theorem pick_policy (h : ∀ f : Field, f.group = .policy → listed f = false) :
    (pick listed c).policy = {} := by
  simp [pick, choose, h .patience rfl, h .resumeAfterTimeout rfl, h .resumeAfterContact rfl,
    h .answersTarget rfl]

/-- A group that is listed is read as picked, and one that is not has its
defaults, which is what is picked then. -/
theorem ListsAll.group_read (h : ListsAll c listed entries) (g : Group) {G : Type} {r : Record G}
    {value default : G}
    (hreads : ∀ {inner text}, ObjectText inner text → ListsGroup c listed g inner →
      r.codec.Reads text value)
    (hdefault : (∀ f : Field, f.group = g → listed f = false) → value = default) :
    ∃ slot, r.codec.Fills g.name entries none slot ∧ slot.or (some default) = some value := by
  obtain ⟨hnone, hunlisted⟩ | ⟨text, inner, htexts, htext, hinner⟩ := h.groups g
  · exact ⟨none, .inl ⟨hnone, rfl⟩, by rw [hdefault hunlisted]; rfl⟩
  · exact ⟨some value, .inr ⟨rfl, text, value, htexts, hreads htext hinner, rfl⟩, rfl⟩

/-- **All settings are read from every object that lists them**, group by
group, and a group that is left out has its defaults. -/
theorem reads_config (hfits : Fits c) (htext : ObjectText entries text)
    (h : ListsAll c listed entries) : config.codec.Reads text (pick listed c) := by
  obtain ⟨loop, hloop, hloopOr⟩ := h.group_read .loop (reads_loop hfits) pick_loop
  obtain ⟨mixer, hmixer, hmixerOr⟩ := h.group_read .mixer (reads_mixer hfits) pick_mixer
  obtain ⟨policy, hpolicy, hpolicyOr⟩ := h.group_read .policy (reads_policy hfits) pick_policy
  have hnames : ∀ g : Group, g.name ∈ config.members.map (·.name) := by
    intro g
    cases g <;> decide
  have hgrow : (Slots.empty config.members).Grow config.members entries
      (loop, mixer, policy, ()) := ⟨hloop, hmixer, hpolicy, trivial⟩
  have hvalues : Slots.finish config.members (loop, mixer, policy, ()) =
      .ok (config.parts (pick listed c)) := by
    simp only [config, Member.withDefault, Slots.finish, hloopOr, hmixerOr, hpolicyOr]
    rfl
  refine config.reads_object (by decide) htext hgrow ?_ hvalues
  intro e he hother
  refine h.others e he fun g heq => ?_
  obtain ⟨m, hm, hname⟩ := List.mem_map.1 (hnames g)
  exact hother m hm (hname.trans heq)

end

/-! ## Writing the settings -/

/-- A level has the same text in every layout. -/
theorem render_single (l l' : Layout) (depth depth' : Nat) (x : Float32) :
    render l depth (.single x) = render l' depth' (.single x) := by
  unfold Document.single
  split <;> rfl

/-- A level that is read from its shortest decimal is read from it in every
layout. -/
theorem reads_render_single {x : Float32}
    (h : Codec.single.decode (Codec.single.encode x) = .ok x) (l : Layout) (depth : Nat) :
    Codec.single.Reads (render l depth (.single x)) x := by
  rw [render_single l .compact depth 0]
  exact Codec.reads_single h

/-- **All settings are read from what they are written as**, if that holds of
the peak alone. -/
theorem reads_written {c : Config} (hfits : Fits c)
    (hpeak : Codec.single.decode (Codec.single.encode c.mixer.normalizePeak) =
      .ok c.mixer.normalizePeak) {l : Layout} (hl : l.Blank) (depth : Nat) :
    config.codec.Reads (render l depth (config.codec.write c)) c := by
  have hword {f : Field} {n : Nat} (hcount : f.figure c = .count n)
      (hlimit : f.limit = Word.count) : word.Reads (Decimal.natural n) n :=
    reads_word hfits hcount hlimit _ (by rw [hcount]; rfl)
  have hsmall {f : Field} {n : Nat} (hcount : f.figure c = .count n)
      (hlimit : f.limit = Word.halfCount) : small.Reads (Decimal.natural n) n :=
    reads_small hfits hcount hlimit _ (by rw [hcount]; rfl)
  have hbool (b : Bool) (depth : Nat) : Codec.bool.Reads (render l depth (.bool b)) b := by
    cases b with
    | false => exact Codec.reads_bool false
    | true => exact Codec.reads_bool true
  have hloop : loopSettings.codec.Reads
      (render l (depth + 1) (loopSettings.codec.write c.loop)) c.loop :=
    loopSettings.reads_written (by decide) hl (depth + 1) c.loop
      ⟨hword (f := .pollInterval) rfl rfl, hword (f := .driftTolerance) rfl rfl,
        hword (f := .overrunTolerance) rfl rfl, hword (f := .deadlineLead) rfl rfl,
        hbool _ _, hsmall (f := .separation) rfl rfl, hword (f := .eventCapacity) rfl rfl,
        hword (f := .requestCapacity) rfl rfl, trivial⟩
  have hmixer : mixerSettings.codec.Reads
      (render l (depth + 1) (mixerSettings.codec.write c.mixer)) c.mixer :=
    mixerSettings.reads_written (by decide) hl (depth + 1) c.mixer
      ⟨hword (f := .mixingWindow) rfl rfl, hword (f := .playbackLead) rfl rfl,
        reads_render_single hpeak _ _, hword (f := .maxOperators) rfl rfl, trivial⟩
  have hpolicy : policy.codec.Reads
      (render l (depth + 1) (policy.codec.write c.policy)) c.policy :=
    policy.reads_written (by decide) hl (depth + 1) c.policy
      ⟨hsmall (f := .patience) rfl rfl, hbool _ _, hbool _ _, hbool _ _, trivial⟩
  exact config.reads_written (by decide) hl depth c ⟨hloop, hmixer, hpolicy, trivial⟩

/-! ## Settings and their documents -/

/-- **Settings survive their documents.**  What is written for settings in
their ranges is read as these settings, if this holds of the peak alone.  And
of a document that lists any of the settings, in any order and besides
anything under other names, these are read, and for the others their
defaults; there is a fault exactly if one of the settings so picked is out of
its range, which it is not if all settings are in theirs. -/
theorem settings_survive {c : Config} (hfits : Fits c) :
    (c.fault? = none →
      Codec.single.decode (Codec.single.encode c.mixer.normalizePeak) =
        .ok c.mixer.normalizePeak →
      readConfig (writeConfig c) = .ok c) ∧
    ∀ listed document, Lists c listed document →
      (c.fault? = none → readConfig document = .ok (pick listed c)) ∧
      readConfig document = match (pick listed c).fault? with
        | some s => .error (.setting s)
        | none => .ok (pick listed c) := by
  constructor
  · intro hvalid hpeak
    have hdecode : config.codec.decode (writeConfig c) = .ok c := by
      have hreads := reads_written hfits hpeak Layout.blank_indented 0
      have hdecode := hreads.decode_eq blank_nil blank_nil
      rwa [List.append_nil] at hdecode
    rw [readConfig, hdecode]
    simp only [hvalid]
  · rintro listed _ ⟨before, text, after, entries, hbefore, hafter, rfl, htext, hentries⟩
    have hread : readConfig (String.ofList (before ++ (text ++ after))) =
        match (pick listed c).fault? with
        | some s => .error (.setting s)
        | none => .ok (pick listed c) := by
      have hdecode := (reads_config hfits htext hentries).decode_eq hbefore hafter
      cases hfault : (pick listed c).fault? with
      | none => simp only [readConfig, hdecode, hfault]
      | some s => simp only [readConfig, hdecode, hfault]
    refine ⟨fun hvalid => ?_, hread⟩
    rw [hread, fault?_pick hvalid]

/-- Settings two of which are not the defaults. -/
def hasty : Config where
  loop := { pollIntervalMs := 10 }
  mixer := { windowMs := 80 }

/-- A document with one of its settings, behind something that is none. -/
theorem lists_hasty : Lists hasty (· == .mixingWindow)
    "\x7b\"note\": [null], \"mixer\": \x7b\"mixing_window_ms\": 80\x7d\x7d" := by
  have hspace : Blank [' '] := by
    simp [Blank, isSpace]
  have hinner : ObjectText [⟨"mixing_window_ms", ['8', '0']⟩]
      "\x7b\"mixing_window_ms\": 80\x7d".toList := by
    have hobject := ObjectText.mk <| EntriesText.entry (e := ⟨"mixing_window_ms", ['8', '0']⟩)
      (.first blank_nil) (spelling_escaped _) blank_nil hspace (.close blank_nil)
    exact cast (congrArg _ (by decide +kernel)) hobject
  let entries : List Entry :=
    [⟨"note", "[null]".toList⟩, ⟨"mixer", "\x7b\"mixing_window_ms\": 80\x7d".toList⟩]
  have htext : ObjectText entries
      "\x7b\"note\": [null], \"mixer\": \x7b\"mixing_window_ms\": 80\x7d\x7d".toList := by
    have hobject : ObjectText entries _ :=
      .mk (.entry (.first blank_nil) (spelling_escaped _) blank_nil hspace
        (.entry (.comma blank_nil hspace) (spelling_escaped _) blank_nil hspace
          (.close blank_nil)))
    exact cast (congrArg _ (by decide +kernel)) hobject
  have hnote : Phrase .value "[null]".toList :=
    .filled .list (.list blank_nil) .null (.close .list blank_nil)
  refine ⟨[], _, [], entries, blank_nil, blank_nil, ?_, htext, ⟨?_, ?_⟩⟩
  · simp
  · intro g
    cases g with
    | loop | policy =>
      refine .inl ⟨by decide, fun f hf => ?_⟩
      cases f <;> first | rfl | cases hf
    | mixer =>
      refine .inr ⟨_, _, rfl, hinner, ⟨?_, ?_, ?_⟩⟩
      · intro f _ hlisted
        obtain rfl : f = .mixingWindow := by simpa using hlisted
        refine ⟨_, rfl, ?_⟩
        show ['8', '0'] = Decimal.natural 80
        decide +kernel
      · intro f _ hlisted
        cases f <;> first | rfl | cases hlisted
      · intro e he hother
        obtain rfl := List.mem_singleton.1 he
        exact (hother .mixingWindow rfl rfl).elim
  · intro e he hother
    obtain rfl | he := List.mem_cons.1 he
    · exact hnote
    · obtain rfl := List.mem_singleton.1 he
      exact (hother .mixer rfl).elim

/-- Settings other than the defaults survive, and a document with one setting
and a member that nobody knows is read as this setting and the defaults. -/
theorem settings_survive_hasty :
    readConfig (writeConfig hasty) = .ok hasty ∧
      readConfig "\x7b\"note\": [null], \"mixer\": \x7b\"mixing_window_ms\": 80\x7d\x7d" =
        .ok { mixer := { windowMs := 80 } } := by
  have hfits : Fits hasty := by
    intro f n h
    cases f <;> cases h <;> decide
  have hvalid : hasty.fault? = none := by
    decide +kernel
  have hpeak : Codec.single.decode (Codec.single.encode hasty.mixer.normalizePeak) =
      .ok hasty.mixer.normalizePeak := by
    have hread : (Codec.single.decode (Codec.single.encode hasty.mixer.normalizePeak)).toOption =
        some hasty.mixer.normalizePeak := by
      decide +kernel
    cases hdecode : Codec.single.decode (Codec.single.encode hasty.mixer.normalizePeak) with
    | error f =>
      rw [hdecode] at hread
      cases hread
    | ok x =>
      rw [hdecode] at hread
      rw [Option.some.inj hread]
  obtain ⟨hround, hlist⟩ := settings_survive hfits
  exact ⟨hround hvalid hpeak, (hlist _ _ lists_hasty).1 hvalid⟩

end SlotRadio.Wire
