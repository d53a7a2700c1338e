import SlotRadio.Proofs.Engine.Freshness
import SlotRadio.Proofs.Engine.Handling
import SlotRadio.Proofs.Engine.Working
/-!
# Playing on

A composite that replaces another one begins where the mixer thinks the
playing has got to: `elapsedMs`.  This offset goes on when a request
changes what is played (`changesPlaying`), by the time since the mix of
the last composite was begun, and stands still otherwise.

So a composite that is mixed later than what it plays has changed comes
too early in the audio, by the time that has passed in between.  `lag`
adds up these times.  The clock goes on while a mix is made, too: what
the second mix takes is not counted, and what the first one has taken is
counted twice.  `plays_on` says that this is all: the new composite begins
where the old one is exactly if the lag and the second mix together have
taken as long as the first mix.  `begins_again` shows a composite that is
mixed again because it was asked for, and starts over.
-/

namespace SlotRadio

theorem played_outcomes (events : List Event) : played (outcomes events) = played events := by
  induction events with
  | nil => rfl
  | cons x events ih =>
    cases x
    case mixReady start audio => exact congrArg ((start, audio) :: ·) ih
    all_goals exact ih

namespace Engine

/-- Up to when the offset counts the time, having counted up to
`reached`, when `r` is met. -/
def counts (e : Engine) (reached : Nat) (t : Moment) (r : Request) : Nat :=
  if e.changesPlaying t r then t.now else reached

/-- The offset never counts time that is still to come. -/
theorem counts_le {e : Engine} {reached : Nat} {t : Moment} (hle : reached ≤ t.now) (r : Request) :
    e.counts reached t r ≤ t.now := by
  unfold counts
  split
  · exact Nat.le_refl t.now
  · exact hle

/-- Only where a composite is played does a request change it. -/
theorem stage_of_changesPlaying {e : Engine} {t : Moment} {r : Request}
    (h : e.changesPlaying t r = true) : e.mixer.stage = .mixed := by
  cases r <;> simp_all [changesPlaying, replays, strikes]

/-- What is known while a composite is played: its mix was begun when the
offset was counted last. -/
def PlayedSince (e : Engine) (reached : Nat) : Prop :=
  e.mixer.stage = .mixed → e.mixer.playbackStart = some reached

/-- A mix that does not fail keeps the offset; what is played afterwards
has been reported now. -/
theorem Ends.keeps {f g : Engine} {now : Nat} {reports : List Event} (h : Ends f now (g, reports))
    (hfailure : ∀ x ∈ reports, x.isFailure = false) :
    g.mixer.elapsedMs = f.mixer.elapsedMs ∧
      (g.mixer.stage = .mixed → played reports ≠ [] ∧ g.mixer.playbackStart = some now) := by
  cases h with
  | composite hrun houtcome => exact ⟨rfl, fun _ => ⟨by simp [played], rfl⟩⟩
  | silence hrun houtcome =>
    refine ⟨rfl, ?_⟩
    intro hstage
    dsimp only [Mixer.restingStage] at hstage
    split at hstage <;> cases hstage
  | failure =>
    have hfailed := hfailure _ List.mem_cons_self
    cases hfailed

/-- **What a request does to the offset**: it counts the time for which a
composite has been played, if it changes what is played. -/
theorem elapsedMs_meet {e : Engine} (hcoherent : e.mixer.Coherent) {reached : Nat} {t : Moment}
    {r : Request} (hplayed : e.PlayedSince reached) (hle : reached ≤ t.now)
    (hkept : e.breaksOff t r = false) :
    (e.meet t r).engine.mixer.elapsedMs + reached =
        e.mixer.elapsedMs + e.counts reached t r ∧
      (e.meet t r).engine.PlayedSince
        (if played (e.meet t r).events = [] then e.counts reached t r else t.now) := by
  have hfailure : ∀ x ∈ outcomes (e.meet t r).events, x.isFailure = false := by
    intro x hx
    by_contra hfailed
    have hbroken : e.breaksOff t r = true := by
      unfold breaksOff
      simp only [Bool.or_eq_true, List.any_eq_true]
      exact .inl ⟨x, (List.mem_filter.1 hx).1, .inr (by simpa using hfailed)⟩
    rw [hkept] at hbroken
    cases hbroken
  have hreported := played_outcomes (e.meet t r).events
  have hmoved : ∀ m, e.Carries t r m →
      e.mixer.Moved (if e.changesPlaying t r then e.playedMs t.now else 0) m := by
    intro m hm
    exact hm.resolve_left (by simp [hkept])
  cases handled_meet hcoherent t r with
  | unmixed hplaying hm hlast hcarries hnone =>
    have hmove := hmoved _ hcarries
    have hcounts : e.counts reached t r = reached := by simp [counts, hplaying]
    rw [hnone, played_nil] at hreported
    rw [if_pos hreported.symm, hcounts, hmove.elapsed, hplaying]
    refine ⟨by simp, ?_⟩
    intro hmixed
    obtain ⟨hbefore, hstart⟩ := hm.mixed hmixed
    exact hstart.trans (hplayed hbefore)
  | mixed hdue hcarries hmade =>
    have hmove := hmoved _ hcarries
    obtain ⟨helapsed, hstarts⟩ := hmade.ends.keeps hfailure
    constructor
    · rw [helapsed, hmove.elapsed]
      cases hplaying : e.changesPlaying t r with
      | false => simp [counts, hplaying]
      | true =>
        have hstart := hplayed (stage_of_changesPlaying hplaying)
        simp only [counts, hplaying, if_true, playedMs, hstart]
        omega
    · intro hmixed
      obtain ⟨hne, hstart⟩ := hstarts hmixed
      rw [hreported] at hne
      rw [if_neg hne]
      exact hstart

/-- A composite that is reported is taken to be played since its mix was
begun. -/
theorem playedSince_of_played {e : Engine} (hcoherent : e.mixer.Coherent) {t : Moment} {r : Request}
    (h : played (e.meet t r).events ≠ []) : (e.meet t r).engine.PlayedSince t.now := by
  rw [← played_outcomes] at h
  cases handled_meet hcoherent t r with
  | unmixed hplaying hm hlast hcarries hnone => exact absurd (by rw [hnone, played_nil]) h
  | mixed hdue hcarries hmade => exact fun hmixed => (hmade.ends.playing hmixed).2

end Engine

namespace Session

/-- No request empties the cache. -/
def goesOn (s : Session) : List (Moment × Request) → Bool
  | [] => true
  | (t, r) :: rest => !s.engine.breaksOff t r && (s.meet t r).1.goesOn rest

/-- The time that passes between a change of what is played and the mix
in which it is heard, added up over all composites that are reported; the
offset has been counted up to `reached`. -/
def lag (s : Session) (reached : Nat) : List (Moment × Request) → Nat
  | [] => 0
  | (t, r) :: rest =>
    let counted := s.engine.counts reached t r
    let (next, events, _) := s.meet t r
    if played events = [] then next.lag counted rest else (t.now - counted) + next.lag t.now rest

theorem lag_cons (s : Session) (reached : Nat) (t : Moment) (r : Request)
    (rest : List (Moment × Request)) :
    s.lag reached ((t, r) :: rest) =
      if played (s.meet t r).2.1 = [] then
        (s.meet t r).1.lag (s.engine.counts reached t r) rest
      else (t.now - s.engine.counts reached t r) + (s.meet t r).1.lag t.now rest := rfl

/-- All that the clock shows while requests are met, in order. -/
def readings (requests : List (Moment × Request)) : List Nat :=
  requests.flatMap fun (t, _) => [t.look, t.now, t.done]

/-- The readings that everything goes by are some of them. -/
theorem nows_sublist_readings (requests : List (Moment × Request)) :
    (requests.map (·.1.now)).Sublist (readings requests) := by
  induction requests with
  | nil => exact .slnil
  | cons request rest ih => exact ((ih.cons request.1.done).cons_cons request.1.now).cons _

/-- The readings at the reports are some of them. -/
theorem dones_sublist_readings (requests : List (Moment × Request)) :
    (requests.map (·.1.done)).Sublist (readings requests) := by
  induction requests with
  | nil => exact .slnil
  | cons request rest ih => exact ((ih.cons_cons request.1.done).cons _).cons _

/-- While the clock does not go back, no request is reported before it is met: its two readings
follow each other in the list of all. -/
theorem now_le_done {requests : List (Moment × Request)}
    (hclock : (readings requests).Pairwise (· ≤ ·)) {t : Moment} {r : Request}
    (h : (t, r) ∈ requests) : t.now ≤ t.done := by
  obtain ⟨before, after, rfl⟩ := List.append_of_mem h
  have hpair : List.Sublist [t.now, t.done] (readings (before ++ (t, r) :: after)) := by
    unfold readings
    rw [List.flatMap_append]
    exact ((List.sublist_append_left [t.now, t.done] _).cons t.look).trans
      (List.sublist_append_right _ _)
  exact (List.pairwise_cons.1 (hclock.sublist hpair)).1 t.done (by simp)

/-- A session is not ended by a request that keeps the cache. -/
theorem isOpen_of_goesOn {s : Session} (hopen : s.isOpen = true) {t : Moment} {r : Request}
    (h : s.engine.breaksOff t r = false) : (s.meet t r).1.isOpen = true := by
  rw [meet_of_isOpen hopen]
  cases r with
  | shutdown => simp [Engine.breaksOff] at h
  | _ => rfl

/-- The offset after one request, and since when the composite is played, in a session that is open;
while it goes on, each of its requests is met by the engine. -/
theorem elapsedMs_session {s : Session} (hopen : s.isOpen = true)
    (hregular : s.engine.mixer.Regular) {reached : Nat} {t : Moment} {r : Request}
    (hplayed : s.engine.PlayedSince reached) (hle : reached ≤ t.now)
    (hkept : s.engine.breaksOff t r = false) :
    (s.meet t r).1.engine.mixer.elapsedMs + reached =
        s.engine.mixer.elapsedMs + s.engine.counts reached t r ∧
      (s.meet t r).1.engine.PlayedSince
        (if played (s.meet t r).2.1 = [] then s.engine.counts reached t r else t.now) := by
  rw [meet_of_isOpen hopen]
  exact Engine.elapsedMs_meet hregular.toCoherent hplayed hle hkept

/-- **The offset and the lag together go on as the clock does**, until the
mix of a composite is begun. -/
theorem elapsedMs_run {s : Session} (hopen : s.isOpen = true) (hregular : s.engine.mixer.Regular)
    {reached : Nat} (hplayed : s.engine.PlayedSince reached) {between : List (Moment × Request)}
    {u : Moment} {q : Request}
    (hclock : (reached :: (between ++ [(u, q)]).map (·.1.now)).Pairwise (· ≤ ·))
    (hkept : s.goesOn (between ++ [(u, q)]) = true)
    (hreported : played ((s.run between).1.meet u q).2.1 ≠ []) :
    (s.run (between ++ [(u, q)])).1.engine.mixer.elapsedMs + s.lag reached (between ++ [(u, q)]) +
      reached = s.engine.mixer.elapsedMs + u.now := by
  induction between generalizing s reached with
  | nil =>
    obtain ⟨hfirst, -⟩ := List.pairwise_cons.1 hclock
    have hle : reached ≤ u.now := hfirst u.now (by simp)
    have hbreak : s.engine.breaksOff u q = false := by
      simpa [goesOn] using hkept
    obtain ⟨helapsed, -⟩ := elapsedMs_session hopen hregular hplayed hle hbreak
    have hcounts := s.engine.counts_le hle q
    have hreported : played (s.meet u q).2.1 ≠ [] := hreported
    rw [List.nil_append, lag_cons, if_neg hreported]
    show (s.meet u q).1.engine.mixer.elapsedMs + (u.now - s.engine.counts reached u q + 0) +
      reached = _
    omega
  | cons request rest ih =>
    obtain ⟨t, r⟩ := request
    obtain ⟨hfirst, hrest⟩ := List.pairwise_cons.1 hclock
    have hle : reached ≤ t.now := hfirst t.now (by simp)
    obtain ⟨hbreak, hkept⟩ : s.engine.breaksOff t r = false ∧
        (s.meet t r).1.goesOn (rest ++ [(u, q)]) = true := by
      simpa [goesOn] using hkept
    have hopen' := isOpen_of_goesOn hopen hbreak
    have hregular' := regular_session hregular t r
    obtain ⟨helapsed, hplayed⟩ := elapsedMs_session hopen hregular hplayed hle hbreak
    have hcounts := s.engine.counts_le hle r
    rw [List.cons_append, lag_cons, run_cons]
    dsimp only
    by_cases hsilent : played (s.meet t r).2.1 = []
    · rw [if_pos hsilent] at hplayed ⊢
      have hclock : (s.engine.counts reached t r ::
          (rest ++ [(u, q)]).map (·.1.now)).Pairwise (· ≤ ·) := by
        obtain ⟨hnow, hlater⟩ := List.pairwise_cons.1 hrest
        refine List.pairwise_cons.2 ⟨?_, hlater⟩
        intro now hmem
        exact Nat.le_trans hcounts (hnow now hmem)
      have hfinal := ih hopen' hregular' hplayed hclock hkept hreported
      omega
    · rw [if_neg hsilent] at hplayed ⊢
      have hfinal := ih hopen' hregular' hplayed hrest hkept hreported
      omega

/-- What a request reports as played is the mix of everything cached after it. A session that is
over reports nothing; the others ask their engine, whose clips belong to the slot of the mixer. -/
theorem plays_session {s : Session} (hfollows : s.engine.tracker.Follows)
    (hempty : s.engine.mixer.clips = []) {requests : List (Moment × Request)} {t : Moment}
    {r : Request} {start : Nat} {audio : Composite}
    (h : (start, audio) ∈ played ((s.run requests).1.meet t r).2.1) :
    (s.run requests).1.isOpen = true ∧
      (s.run (requests ++ [(t, r)])).1.engine.Plays start audio := by
  have htagged := (accounted_run hfollows hempty requests).tagged
  rw [run_concat]
  cases hopen : (s.run requests).1.isOpen with
  | false =>
    rw [meet_of_closed hopen] at h
    exact absurd h List.not_mem_nil
  | true =>
    rw [meet_of_isOpen hopen] at h ⊢
    exact ⟨rfl, Engine.plays_meet htagged h⟩

/-- **What is lost while a composite is replaced.**  Of two composites
that are reported, with the clock never going back and the cache not
emptied in between, each is the mix of everything cached from the offset
on.  The second offset is later than the first by the time between the
reports, less the lag and what the second mix takes, and with what the
first mix took.  So the second composite begins where the first one is
exactly if these cancel out. -/
theorem plays_on (mode : Mode) (config : Config) {requests between : List (Moment × Request)}
    {t u : Moment} {r q : Request} {start₁ start₂ : Nat} {audio₁ audio₂ : Composite}
    (h₁ : (start₁, audio₁) ∈
      played ((run ⟨.initial mode config, true⟩ requests).1.meet t r).2.1)
    (h₂ : (start₂, audio₂) ∈
      played ((run ⟨.initial mode config, true⟩ (requests ++ (t, r) :: between)).1.meet u q).2.1)
    (hclock : (readings ((t, r) :: (between ++ [(u, q)]))).Pairwise (· ≤ ·))
    (hkept : (run ⟨.initial mode config, true⟩ (requests ++ [(t, r)])).1.goesOn
      (between ++ [(u, q)]) = true) :
    let first : Session := ⟨.initial mode config, true⟩
    let next := (first.run (requests ++ [(t, r)])).1
    let last := (next.run (between ++ [(u, q)])).1
    let lag := next.lag t.now (between ++ [(u, q)])
    next.engine.Plays start₁ audio₁ ∧ last.engine.Plays start₂ audio₂ ∧
      last.engine.mixer.elapsedMs + lag + (u.done - u.now) =
        next.engine.mixer.elapsedMs + (u.done - t.done) + (t.done - t.now) ∧
      (last.engine.mixer.elapsedMs = next.engine.mixer.elapsedMs + (u.done - t.done) ↔
        lag + (u.done - u.now) = t.done - t.now) := by
  intro first next last lag
  have hfollows : first.engine.tracker.Follows := Tracker.follows_start _ _
  have hstart : first.engine.mixer.Regular := Mixer.regular_of_nothing (fun _ => rfl) rfl
  have hnext : next = ((first.run requests).1.meet t r).1 := run_concat first requests t r
  have hmid : (first.run (requests ++ (t, r) :: between)).1 = (next.run between).1 := by
    rw [hnext, run_append]
    rfl
  have hlast : last = (first.run (requests ++ (t, r) :: between ++ [(u, q)])).1 := by
    show (next.run (between ++ [(u, q)])).1 = _
    rw [run_concat, run_concat, hmid]
  obtain ⟨hopen, hplays₁⟩ := plays_session hfollows rfl h₁
  obtain ⟨-, hplays₂⟩ := plays_session hfollows rfl h₂
  have hreported := List.ne_nil_of_mem h₁
  rw [meet_of_isOpen hopen] at hreported
  have hregular := regular_run hstart requests
  have hplayed : next.engine.PlayedSince t.now := by
    rw [hnext, meet_of_isOpen hopen]
    exact Engine.playedSince_of_played hregular.toCoherent hreported
  have hopen' : next.isOpen = true := by
    rw [hnext, meet_of_isOpen hopen]
    cases r with
    | shutdown => exact absurd rfl hreported
    | _ => rfl
  have hregular' : next.engine.mixer.Regular := regular_run hstart _
  have hnows := hclock.sublist (nows_sublist_readings _)
  have hdones := hclock.sublist (dones_sublist_readings _)
  have hbegun : t.now ≤ u.now := (List.pairwise_cons.1 hnows).1 u.now (by simp)
  have hended : t.done ≤ u.done := (List.pairwise_cons.1 hdones).1 u.done (by simp)
  have htook₁ : t.now ≤ t.done := now_le_done hclock List.mem_cons_self
  have htook₂ : u.now ≤ u.done := now_le_done (r := q) hclock (by simp)
  rw [hmid] at h₂
  have hsum : last.engine.mixer.elapsedMs + lag + t.now = next.engine.mixer.elapsedMs + u.now :=
    elapsedMs_run hopen' hregular' hplayed hnows hkept (List.ne_nil_of_mem h₂)
  refine ⟨hplays₁, hlast ▸ hplays₂, ?_, ?_⟩ <;> omega

/-- An operator that joins in while a composite is played is heard from
where the playing has got to, if both mixes take as long. -/
theorem plays_on_joined :
    let first : Session := ⟨.initial .ft8 {}, true⟩
    let clip : Nat → Clip := fun n => ⟨n, #[0.25, 0.25, 0.25, 0.25], 4, 0, 0, none⟩
    let requests : List (Moment × Request) := [(0, .look), (0, .addClip (clip 1) none)]
    let t : Moment := ⟨150, 150, 30, 180⟩
    let u : Moment := ⟨400, 400, 30, 430⟩
    let next := (first.run (requests ++ [(t, .look)])).1
    let last := (next.run [(u, .addClip (clip 2) none)]).1
    ∃ audio₁ audio₂, (0, audio₁) ∈ played ((first.run requests).1.meet t .look).2.1 ∧
      (0, audio₂) ∈ played (next.meet u (.addClip (clip 2) none)).2.1 ∧
      next.goesOn [(u, .addClip (clip 2) none)] = true ∧
      next.engine.Plays 0 audio₁ ∧ last.engine.Plays 0 audio₂ ∧
      last.engine.mixer.elapsedMs = next.engine.mixer.elapsedMs + (430 - 180) := by
  intro first clip requests t u next last
  have h₁ : (played ((first.run requests).1.meet t .look).2.1).map (·.1) = [0] := by
    decide +kernel
  have h₂ : (played ((first.run (requests ++ [(t, .look)])).1.meet u
      (.addClip (clip 2) none)).2.1).map (·.1) = [0] := by
    decide +kernel
  have hclock : (readings [(t, .look), (u, .addClip (clip 2) none)]).Pairwise (· ≤ ·) := by
    decide
  have hkept : (first.run (requests ++ [(t, .look)])).1.goesOn
      [(u, .addClip (clip 2) none)] = true := by
    decide +kernel
  have hlag : (first.run (requests ++ [(t, .look)])).1.lag t.now
      [(u, .addClip (clip 2) none)] + (u.done - u.now) = t.done - t.now := by
    decide +kernel
  -- From here on the run is not to be evaluated.
  clear_value requests clip
  obtain ⟨⟨start₁, audio₁⟩, hmem₁, rfl⟩ :=
    List.mem_map.1 (h₁.symm ▸ List.mem_singleton.2 rfl : 0 ∈ (played _).map (·.1))
  obtain ⟨⟨start₂, audio₂⟩, hmem₂, rfl⟩ :=
    List.mem_map.1 (h₂.symm ▸ List.mem_singleton.2 rfl : 0 ∈ (played _).map (·.1))
  obtain ⟨hplays₁, hplays₂, -, hgoes⟩ := plays_on .ft8 {} hmem₁ hmem₂ hclock hkept
  exact ⟨audio₁, audio₂, hmem₁, hmem₂, hkept, hplays₁, hplays₂, hgoes.2 hlag⟩

/-- A mix that is asked for while a composite is played begins where that
composite began, not where it has got to. -/
theorem begins_again :
    let first : Session := ⟨.initial .ft8 {}, true⟩
    let clip : Clip := ⟨1, #[0.25, 0.25, 0.25, 0.25], 4, 0, 0, none⟩
    let requests : List (Moment × Request) := [(0, .look), (0, .addClip clip none)]
    let between : List (Moment × Request) := [(200, .scheduleMix none)]
    let next := (first.run (requests ++ [(150, .look)])).1
    let last := (next.run (between ++ [(400, .look)])).1
    (played ((first.run requests).1.meet 150 .look).2.1).map (·.2.samples.size) = [4] ∧
      next.goesOn (between ++ [(400, .look)]) = true ∧
      (played ((next.run between).1.meet 400 .look).2.1).map (·.2.samples.size) = [4] ∧
      last.engine.mixer.elapsedMs ≠ next.engine.mixer.elapsedMs + (400 - 150) := by
  decide +kernel

end Session

end SlotRadio
