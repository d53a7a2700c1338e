import SlotRadio.Proofs.Engine.Course
import SlotRadio.Proofs.Station.Setup
/-!
# Operators that never clash

An engine that refuses operators in conflict never has two that clash.
Only registering an operator and giving it a new set-up change a station,
and both are checked against all the other operators; whatever else
happens, every operator keeps its station (`Keeps`).

* `checked_meet` — what a request does to the stations;
* `Harmony` — so no two operators clash, and nobody has been refused the
  air;
* `conflict?_names` — who is turned away is the second of two in
  conflict, and the first is another operator;
* `setup_prevents_refusals` — what a session can rely on.
-/

namespace SlotRadio

/-- The refusal that an event reports. -/
def Event.refusal? : Event → Option Refusal
  | refusal c => some c
  | _ => none

/-- The refusals that were reported, in order. -/
def refusalsIn (events : List Event) : List Refusal :=
  events.filterMap Event.refusal?

@[simp] theorem refusalsIn_append (xs ys : List Event) :
    refusalsIn (xs ++ ys) = refusalsIn xs ++ refusalsIn ys :=
  List.filterMap_append

/-- Nobody is refused between two slots. -/
theorem refusalsIn_of_isInterim {events : List Event} (h : ∀ x ∈ events, x.IsInterim) :
    refusalsIn events = [] := by
  apply List.filterMap_eq_nil_iff.2
  intro x hx
  rcases h x hx with hroutine | ⟨c, rfl, -⟩
  · cases x <;> simp_all [Event.isRoutine, Event.refusal?]
  · rfl

/-- The refusals that arbitration makes are reported, all of them and in their
order. -/
theorem refusalsIn_refusals (refusals : List Refusal) :
    refusalsIn (refusals.map .refusal) = refusals := by
  induction refusals with
  | nil => rfl
  | cons c refusals ih => exact congrArg (c :: ·) ih

/-- What operators report of their contacts refuses nobody. -/
theorem refusalsIn_contacts (events : List ContactEvent) :
    refusalsIn (events.map .contact) = [] := by
  induction events with
  | nil => rfl
  | cons x events ih => exact ih

namespace Roster

/-- No two operators clash. -/
def Peaceful (separation : Nat) (r : Roster) : Prop :=
  ∀ x ∈ r.toList, ∀ y ∈ r.toList, x.1 ≠ y.1 → ¬x.2.station.Clashes separation y.2.station

variable {separation : Nat} {r : Roster}

/-- The check of the stations is about every two operators: it compares those that stand in order,
and a clash has no order. -/
theorem compatible_stations_iff : Compatible separation r.stations ↔ r.Peaceful separation := by
  unfold Compatible stations
  rw [List.pairwise_map]
  constructor
  · intro h x hx y hy hne hclash
    have hsymm : Std.Symm fun x y : Nat × Automaton =>
        ¬x.2.station.Clashes separation y.2.station := ⟨fun _ _ hxy hyx => hxy hyx.symm⟩
    exact h.forall hx hy (fun heq => hne (congrArg Prod.fst heq)) hclash
  · intro h
    refine r.ascending.imp_of_mem ?_
    intro x y hx hy hlt
    exact h x hx y hy (Nat.ne_of_lt hlt)

/-- An operator that clashes with none of the others can be put in. -/
theorem Peaceful.insert (h : r.Peaceful separation) {n : Nat} {a : Automaton}
    (hnew : ∀ x ∈ r.toList, x.1 ≠ n → ¬x.2.station.Clashes separation a.station) :
    (r.insert n a).Peaceful separation := by
  intro x hx y hy hne hclash
  rcases mem_place hx with rfl | hx
  · rcases mem_place hy with rfl | hy
    · exact hne rfl
    · exact hnew y hy hne.symm hclash.symm
  · rcases mem_place hy with rfl | hy
    · exact hnew x hx hne hclash
    · exact h x hx y hy hne hclash

end Roster

namespace Engine

/-- Every operator of `f` is one of `e` and has its station. -/
structure Keeps (e f : Engine) : Prop where
  config : f.config = e.config
  stations : ∀ x ∈ f.roster.toList, ∃ a, (x.1, a) ∈ e.roster.toList ∧ x.2.station = a.station

theorem Keeps.refl (e : Engine) : Keeps e e :=
  ⟨rfl, fun x hx => ⟨x.2, hx, rfl⟩⟩

/-- A step that leaves the radio alone keeps who is registered with which
set-up. -/
theorem Keeps.of_sameRadio {e f g : Engine} (h : Keeps e f) (hsame : SameRadio f g) :
    Keeps e g where
  config := hsame.config.trans h.config
  stations := by
    rw [hsame.roster]
    exact h.stations

/-- Nobody's set-up changes by what is played. -/
theorem OnlyPlays.keeps {e : Engine} {after : Emits} (h : OnlyPlays e after) : Keeps e after.1 :=
  (Keeps.refl e).of_sameRadio h.1

/-- Every operator takes a step that leaves its station alone, so the stations are those from
before. -/
theorem keeps_map {e f : Engine} {step : Nat → Automaton → Automaton}
    (hconfig : f.config = e.config) (hroster : f.roster = e.roster.map step)
    (h : ∀ n a, (step n a).station = a.station) : Keeps e f where
  config := hconfig
  stations := by
    intro x hx
    rw [hroster] at hx
    obtain ⟨⟨n, a⟩, hmem, rfl⟩ := List.mem_map.1 hx
    exact ⟨a, hmem, h n a⟩

/-- What a request does to the stations: it leaves them alone, or one
operator has a station that has been checked. -/
def Checked (e f : Engine) : Prop :=
  Keeps e f ∨
    ∃ n a, e.conflict? n a.station = none ∧ f = { e with roster := e.roster.insert n a }

theorem checked_refl (e : Engine) : Checked e e := .inl (.refl e)

/-- A request that is refused leaves everything alone. -/
theorem checked_respond {e : Engine} {outcome : Except EngineFault Emits}
    (h : ∀ after, outcome = .ok after → Checked e after.1) :
    Checked e (e.respond outcome).engine := by
  cases outcome with
  | ok after => exact h after rfl
  | error fault => exact checked_refl e

/-- An operator is registered only after the check for conflicts with those
who are there. -/
theorem checked_register {e f : Engine} {n : Nat} {station : Station}
    (h : e.register n station = .ok f) : Checked e f := by
  unfold register at h
  split at h
  · simp at h
  · split at h
    · simp at h
    · next hnone => exact .inr ⟨n, _, hnone, (Except.ok.inj h).symm⟩

/-- A set-up is replaced only after the check for conflicts with the others. -/
theorem checked_updateStation {e f : Engine} {n : Nat} {station : Station}
    (h : e.updateStation n station = .ok f) : Checked e f := by
  unfold updateStation at h
  split at h
  · simp at h
  · split at h
    · simp at h
    · next hnone => exact .inr ⟨n, _, hnone, (Except.ok.inj h).symm⟩

/-- A command leaves all set-ups alone. -/
theorem keeps_command {e : Engine} {n : Nat} {c : Command} {after : Emits}
    (h : e.command n c = .ok after) : Keeps e after.1 := by
  unfold command at h
  split at h
  · simp at h
  · next a ha =>
    obtain rfl := Except.ok.inj h
    refine ⟨rfl, ?_⟩
    intro x hx
    rcases Roster.mem_place hx with rfl | hx
    · exact ⟨a, Roster.get?_eq_some_iff.1 ha, a.station_obey c⟩
    · exact ⟨x.2, hx, rfl⟩

/-- A removal leaves the set-ups of the others alone. -/
theorem keeps_strikeOff {e : Engine} {n : Nat} {t : Moment} {after : Emits}
    (h : e.strikeOff n t = .ok after) : Keeps e after.1 := by
  have hgone : Keeps e (e.without n) := by
    refine ⟨rfl, ?_⟩
    intro x hx
    exact ⟨x.2, (List.mem_filter.1 hx).1, rfl⟩
  obtain ⟨-, ⟨-, -, rfl⟩ | ⟨-, rfl⟩⟩ := strikeOff_cases h
  · exact hgone.of_sameRadio (onlyPlays_mixAgain _ t).1
  · exact hgone

/-- What is heard changes nobody's set-up. -/
theorem keeps_hear (e : Engine) (f : Frame) : Keeps e (e.hear f) := by
  have hroster : (e.hear f).roster = e.roster.map fun _ a => a.receive f := rfl
  exact keeps_map rfl hroster fun n a => a.station_receive f

/-- A reading that begins a slot changes nobody's set-up. -/
theorem keeps_follow (e : Engine) (now : Nat) : Keeps e (e.follow now).1 := by
  by_cases hslot : ∃ slot previous, (e.tracker.observe now).2 = some (.slotStart slot previous)
  · obtain ⟨slot, previous, h⟩ := hslot
    rw [follow_slotStart h]
    exact keeps_map rfl (roster_beginSlot _ slot previous) fun n a => a.station_beginSlot slot _
  · have hslot : ∀ slot previous,
        (e.tracker.observe now).2 ≠ some (.slotStart slot previous) :=
      fun slot previous h => hslot ⟨slot, previous, h⟩
    rw [(follow_otherwise hslot).1]
    exact ⟨rfl, (Keeps.refl e).stations⟩

/-- A look at the clock changes nobody's set-up, whatever it begins, releases
and mixes. -/
theorem keeps_tick (e : Engine) (t : Moment) : Keeps e (e.tick t).1 := by
  obtain ⟨rest, hrest, hplays⟩ := onlyPlays_tick e t
  rw [hrest]
  exact (keeps_follow e t.look).of_sameRadio hplays.1

/-- **Every request leaves the stations alone or has them checked.** Only registering and changing a
station write one, and both ask for a conflict first. -/
theorem checked_meet (e : Engine) (t : Moment) (r : Request) :
    Checked e (e.meet t r).engine := by
  cases r with
  | register n station =>
    apply checked_respond
    intro after h
    obtain ⟨f, hf, rfl⟩ := exists_of_map_ok h
    exact checked_register hf
  | strikeOff n => exact checked_respond fun after h => .inl (keeps_strikeOff h)
  | updateStation n station =>
    apply checked_respond
    intro after h
    obtain ⟨f, hf, rfl⟩ := exists_of_map_ok h
    exact checked_updateStation hf
  | command n c => exact checked_respond fun after h => .inl (keeps_command h)
  | heard f => exact .inl (keeps_hear e f)
  | addClip clip target =>
    have h := (onlyPlays_addClip e clip target t).keeps
    exact .inl h
  | scheduleMix target =>
    rw [(meet_scheduleMix e t target).1]
    exact .inl (onlyPlays_scheduleMix e t target).keeps
  | dropAudio | shutdown => exact .inl (onlyPlays_mixer e _).keeps
  | contact | slot | mixerStatus => exact checked_refl e
  | look => exact .inl (keeps_tick e t)

/-! ## Nobody clashes -/

variable {config : Config} {e : Engine}

/-- What has been checked clashes with none of the others. -/
theorem apart_of_conflict?_eq_none (hreject : e.config.loop.rejectOverlaps = true) {n : Nat}
    {station : Station} (h : e.conflict? n station = none) :
    ∀ x ∈ e.roster.toList, x.1 ≠ n →
      ¬x.2.station.Clashes e.config.loop.separationHz station := by
  unfold conflict? at h
  rw [if_pos hreject, firstOverlap?_eq_none_iff] at h
  intro x hx hne
  refine (List.pairwise_append.1 h).2.2 (x.1, x.2.station) ?_ (n, station) List.mem_cons_self
  exact List.mem_filter.2 ⟨List.mem_map.2 ⟨x, hx, rfl⟩, by simpa using hne⟩

/-- Where conflicts are refused, a checked step leaves all operators
compatible with each other. -/
theorem peaceful_of_checked {f : Engine} (hreject : e.config.loop.rejectOverlaps = true)
    (h : e.roster.Peaceful e.config.loop.separationHz) (hchecked : Checked e f) :
    f.config = e.config ∧ f.roster.Peaceful e.config.loop.separationHz := by
  rcases hchecked with hkeeps | ⟨n, a, hnone, rfl⟩
  · refine ⟨hkeeps.config, ?_⟩
    intro x hx y hy hne
    obtain ⟨a, ha, hxa⟩ := hkeeps.stations x hx
    obtain ⟨b, hb, hyb⟩ := hkeeps.stations y hy
    rw [hxa, hyb]
    exact h (x.1, a) ha (y.1, b) hb hne
  · exact ⟨rfl, h.insert (apart_of_conflict?_eq_none hreject hnone)⟩

/-- **Where no two operators clash, a slot refuses nobody**: its claims are made for the stations of
the operators, one each. -/
theorem refusals_grant_eq_nil (h : e.roster.Peaceful e.config.loop.separationHz) (slot : Slot) :
    (e.grant slot).refusals = [] := by
  have hclaims : e.claims.Pairwise fun c d =>
      ¬c.station.Clashes e.config.loop.separationHz d.station := by
    have hstations := Roster.compatible_stations_iff.2 h
    unfold Compatible Roster.stations at hstations
    unfold claims
    rw [List.pairwise_map] at hstations ⊢
    exact hstations
  exact (Grant.ofClaims_of_compatible hclaims e.mode slot).1

/-- What a slot's beginning reports of refusals is what was decided. -/
theorem refusalsIn_beginSlot (e : Engine) (slot : Slot) (previous : Option Slot) :
    refusalsIn (e.beginSlot slot previous).2 = (e.grant slot).refusals := by
  have hlate : refusalsIn ((e.schedule.beginSlot slot).2.map reportOf) = [] :=
    refusalsIn_of_isInterim (by simp [Event.IsInterim, isRoutine_reportOf])
  calc refusalsIn (e.beginSlot slot previous).2
      = refusalsIn ((e.schedule.beginSlot slot).2.map reportOf ++
          .slotStart slot previous e.lastMix e.heard :: e.opening slot) := by
        rw [events_beginSlot]
    _ = refusalsIn (e.opening slot) := by
        rw [refusalsIn_append, hlate]
        rfl
    _ = (e.grant slot).refusals := by
        rw [opening, refusalsIn_append, refusalsIn_refusals, refusalsIn_contacts, List.append_nil]

/-- Nor does following the clock report one: if it begins a slot, the grant of stations that are at
peace refuses nobody. -/
theorem refusalsIn_follow (h : e.roster.Peaceful e.config.loop.separationHz) (now : Nat) :
    refusalsIn (e.follow now).2 = [] := by
  cases hseen : (e.tracker.observe now).2 with
  | none =>
    rw [follow_none hseen]
    rfl
  | some tick =>
    cases tick with
    | slotStart slot previous =>
      have hgrant :
          (({ e with tracker := (e.tracker.observe now).1 } : Engine).grant slot).refusals = [] :=
        refusals_grant_eq_nil h slot
      rw [follow_slotStart hseen, refusalsIn_beginSlot, hgrant]
    | anomaly jumpMs slot =>
      rw [follow_anomaly hseen]
      rfl

/-- **Where no two operators clash, no request reports a refusal.** -/
theorem refusalsIn_meet (h : e.roster.Peaceful e.config.loop.separationHz) (t : Moment)
    (r : Request) : refusalsIn (e.meet t r).events = [] := by
  by_cases hr : r = .look
  · subst hr
    obtain ⟨rest, hrest, hplays⟩ := onlyPlays_tick e t
    show refusalsIn (e.tick t).2 = []
    rw [hrest, refusalsIn_append, refusalsIn_follow h t.look,
      refusalsIn_of_isInterim hplays.quiet.interim]
    rfl
  · exact refusalsIn_of_isInterim (quiet_meet hr e t).interim

/-- The state of an engine that refuses operators in conflict: no two of
its operators clash, and nobody has been refused the air. -/
structure Harmony (config : Config) (e : Engine) (past : List Event) : Prop where
  sameConfig : e.config = config
  peaceful : e.roster.Peaceful config.loop.separationHz
  unrefused : refusalsIn past = []

/-- Nobody is in conflict while nobody is registered. -/
theorem harmony_initial (mode : Mode) (config : Config) :
    Harmony config (initial mode config) [] where
  sameConfig := rfl
  peaceful := by
    intro x hx
    exact absurd hx List.not_mem_nil
  unrefused := rfl

/-- **One request keeps the harmony**: the operators stay compatible, and no
slot refuses any of them. -/
theorem harmony_meet (hreject : config.loop.rejectOverlaps = true) {past : List Event}
    (h : Harmony config e past) (t : Moment) (r : Request) :
    Harmony config (e.meet t r).engine (past ++ (e.meet t r).events) := by
  obtain ⟨rfl, hpeaceful, hpast⟩ := h
  obtain ⟨hsame, hlater⟩ := peaceful_of_checked hreject hpeaceful (checked_meet e t r)
  refine ⟨hsame, hlater, ?_⟩
  rw [refusalsIn_append, hpast, refusalsIn_meet hpeaceful t r]
  rfl

/-- **Along a whole run** of a session that refuses conflicts at set-up, the
operators are compatible and nobody is ever refused a slot. -/
theorem harmony_run (mode : Mode) (hreject : config.loop.rejectOverlaps = true)
    (requests : List (Moment × Request)) :
    Harmony config (Session.run ⟨initial mode config, true⟩ requests).1.engine
      (Session.run ⟨initial mode config, true⟩ requests).2 := by
  have h := Session.run_invariant (P := Harmony config) (s := ⟨initial mode config, true⟩)
    (fun e past t r hharmony => harmony_meet hreject hharmony t r)
    (harmony_initial mode config) requests
  rwa [List.nil_append] at h

/-! ## Who is turned away -/

/-- **The conflict that a new station would bring** is with another
operator, which is named first. -/
theorem conflict?_names (hreject : e.config.loop.rejectOverlaps = true)
    (h : e.roster.Peaceful e.config.loop.separationHz) {n : Nat} {station : Station} {o : Overlap}
    (ho : e.conflict? n station = some o) :
    o.second = n ∧ o.first ≠ n ∧ ∃ a, e.roster.get? o.first = some a ∧
      a.station.conflict? e.config.loop.separationHz station = some o.turn := by
  unfold conflict? at ho
  rw [if_pos hreject] at ho
  have hothers : Compatible e.config.loop.separationHz (e.roster.stations.filter (·.1 != n)) :=
    (Roster.compatible_stations_iff.2 h).filter _
  obtain ⟨hsecond, s, hmem, hturn⟩ := firstOverlap?_concat hothers ho
  obtain ⟨hstation, hne⟩ := List.mem_filter.1 hmem
  obtain ⟨⟨m, a⟩, ha, heq⟩ := List.mem_map.1 hstation
  obtain ⟨hm, rfl⟩ := Prod.mk.inj heq
  obtain rfl : m = o.first := hm
  exact ⟨hsecond, by simpa using hne, a, Roster.get?_eq_some_iff.2 ha, hturn⟩

/-- A request that offers a station for an operator. -/
def offer? : Request → Option (Nat × Station)
  | .register n station | .updateStation n station => some (n, station)
  | _ => none

/-- The fault in the reply is the one with which the request failed. -/
theorem eq_error_of_respond {outcome : Except EngineFault Emits} {fault : EngineFault}
    (h : (e.respond outcome).reply = .error fault) : outcome = .error fault := by
  cases outcome with
  | ok after => simp [respond] at h
  | error f => simpa [respond] using h

/-- A request without reports fails with the fault of its step. -/
theorem eq_error_of_map {outcome : Except EngineFault Engine} {fault : EngineFault}
    (h : outcome.map (fun f => (f, ([] : List Event))) = .error fault) :
    outcome = .error fault := by
  cases outcome with
  | ok f => cases h
  | error f => exact congrArg Except.error (Except.error.inj h)

/-- What is offered is turned away for a conflict only if it brings one. -/
theorem conflict?_of_overlap {n : Nat} {t : Moment} {station : Station} {r : Request}
    (hr : offer? r = some (n, station)) {o : Overlap}
    (h : (e.meet t r).reply = .error (.overlap o)) : e.conflict? n station = some o := by
  cases r with
  | register m offered =>
    obtain ⟨rfl, rfl⟩ := Prod.mk.inj (Option.some.inj hr)
    have hfault := eq_error_of_map (eq_error_of_respond h)
    unfold register at hfault
    split at hfault
    · simp at hfault
    · split at hfault
      · next hconflict => simpa [hconflict] using hfault
      · simp at hfault
  | updateStation m offered =>
    obtain ⟨rfl, rfl⟩ := Prod.mk.inj (Option.some.inj hr)
    have hfault := eq_error_of_map (eq_error_of_respond h)
    unfold updateStation at hfault
    split at hfault
    · simp at hfault
    · split at hfault
      · next hconflict => simpa [hconflict] using hfault
      · simp at hfault
  | _ => simp [offer?] at hr

/-- A registration in conflict with an operator who is there is answered with
the conflict. -/
theorem reply_register_of_conflict {n : Nat} {station : Station} {o : Overlap}
    (hnew : (e.roster.get? n).isSome = false) (h : e.conflict? n station = some o) (t : Moment) :
    (e.meet t (.register n station)).reply = .error (.overlap o) := by
  simp [meet, register, respond, Except.map, hnew, h]

/-- **A station that is turned away changes nothing**, neither in the engine nor among the
reports. -/
theorem meet_of_fault {n : Nat} {t : Moment} {station : Station} {r : Request}
    (hr : offer? r = some (n, station)) {fault : EngineFault}
    (h : (e.meet t r).reply = .error fault) : e.meet t r = ⟨e, [], .error fault⟩ := by
  cases r with
  | register m offered =>
    have hfault := eq_error_of_respond h
    rw [meet, hfault]
    rfl
  | updateStation m offered =>
    have hfault := eq_error_of_respond h
    rw [meet, hfault]
    rfl
  | _ => simp [offer?] at hr

end Engine

namespace Session

open Engine (offer?)

/-- **A checked set-up prevents refusals.**  A list of operators is
accepted exactly if no two of them clash, in whatever order they stand.
In every session of an engine that refuses operators in conflict:

* the registered operators pass the check, so arbitration, in any mode,
  for any slot and whoever is in contact, refuses nobody and allows every
  operator whose turn it is; and no refusal is ever reported;
* an operator that is turned away when it is registered or moved leaves
  the session as it was; and if it is for a conflict, it is named second,
  and another operator, with which it does clash, first. -/
theorem setup_prevents_refusals :
    (∀ (separation : Nat) (l l' : List (Nat × Station)),
      (firstOverlap? separation l = none ↔
        l.Pairwise fun x y => ¬x.2.Clashes separation y.2) ∧
      (l.Perm l' → (firstOverlap? separation l = none ↔ firstOverlap? separation l' = none))) ∧
    ∀ (mode : Mode) (config : Config) (requests : List (Moment × Request)),
      config.loop.rejectOverlaps = true →
      let s := (run ⟨.initial mode config, true⟩ requests).1
      let separation := config.loop.separationHz
      firstOverlap? separation s.engine.roster.stations = none ∧
      (∀ mode' slot claims,
        (claims.map fun c : Claim => (c.operator, c.station)).Perm s.engine.roster.stations →
        (Grant.ofClaims mode' slot claims separation).refusals = [] ∧
        ∀ c ∈ claims, c.station.hasTurn mode' slot = true →
          (Grant.ofClaims mode' slot claims separation).allows c.operator = true) ∧
      (∀ c, .refusal c ∉ (run ⟨.initial mode config, true⟩ requests).2) ∧
      ∀ r n station t fault, offer? r = some (n, station) →
        (s.meet t r).2.2 = .error fault →
        (s.meet t r).1 = s ∧ (s.meet t r).2.1 = [] ∧
        ∀ o, fault = .overlap o → o.second = n ∧ o.first ≠ n ∧
          ∃ a, s.engine.roster.get? o.first = some a ∧
            a.station.conflict? separation station = some o.turn := by
  refine ⟨?_, ?_⟩
  · intro separation l l'
    exact ⟨firstOverlap?_eq_none_iff, fun hperm => firstOverlap?_eq_none_of_perm hperm⟩
  · intro mode config requests hreject
    have hharmony := Engine.harmony_run mode hreject requests
    generalize run ⟨.initial mode config, true⟩ requests = outcome at hharmony ⊢
    obtain ⟨s, events⟩ := outcome
    intro last separation
    obtain ⟨rfl, hpeaceful, hunrefused⟩ := hharmony
    have hstations := Roster.compatible_stations_iff.2 hpeaceful
    refine ⟨firstOverlap?_eq_none_iff.2 hstations, ?_, ?_, ?_⟩
    · intro mode' slot claims hperm
      have hclaims := hstations.perm hperm.symm
      unfold Compatible at hclaims
      rw [List.pairwise_map] at hclaims
      exact Grant.ofClaims_of_compatible hclaims mode' slot
    · intro c hc
      have hmem : c ∈ refusalsIn events := List.mem_filterMap.2 ⟨_, hc, rfl⟩
      rw [hunrefused] at hmem
      exact absurd hmem List.not_mem_nil
    · intro r n station t fault hr hfault
      cases hopen : s.isOpen with
      | false =>
        rw [meet_of_closed hopen] at hfault ⊢
        refine ⟨rfl, rfl, ?_⟩
        intro o ho
        rw [ho] at hfault
        simp at hfault
      | true =>
        rw [meet_of_isOpen hopen] at hfault ⊢
        have hsame := Engine.meet_of_fault hr hfault
        have hends : ends r = false := by
          cases r <;> first | rfl | simp [offer?] at hr
        refine ⟨?_, ?_, ?_⟩
        · rw [hsame, hends]
          show (⟨s.engine, true⟩ : Session) = s
          rw [← hopen]
        · rw [hsame]
        · rintro o rfl
          exact Engine.conflict?_names hreject hpeaceful (Engine.conflict?_of_overlap hr hfault)

/-- A third operator is turned away because it comes too near to the
first, which may itself move there. -/
theorem setup_prevents_refusals_third :
    let station hz := Station.ofCall "K1ABC" "FN42" hz [0]
    let s := (run ⟨.initial .ft8 {}, true⟩
      [(0, .register 1 (station 700)), (0, .register 2 (station 1500))]).1
    let turned := s.meet 0 (.register 3 (station 720))
    firstOverlap? 50 s.engine.roster.stations = none ∧
      s.engine.roster.stations.map (·.1) = [1, 2] ∧
      s.engine.conflict? 1 (station 720) = none ∧
      turned.2.2 = .error (.overlap ⟨0, 1, 3⟩) ∧ turned.1 = s ∧ turned.2.1 = [] := by
  intro station s turned
  have hopen : s.isOpen = true := by decide +kernel
  have hnew : (s.engine.roster.get? 3).isSome = false := by decide +kernel
  have hconflict : s.engine.conflict? 3 (station 720) = some ⟨0, 1, 3⟩ := by decide +kernel
  have hfault : (s.meet 0 (.register 3 (station 720))).2.2 = .error (.overlap ⟨0, 1, 3⟩) := by
    rw [meet_of_isOpen hopen]
    dsimp only
    rw [Engine.reply_register_of_conflict hnew hconflict]
  have hsession := setup_prevents_refusals.2 .ft8 {}
    [(0, .register 1 (station 700)), (0, .register 2 (station 1500))] rfl
  have hturned := hsession.2.2.2 (.register 3 (station 720)) 3 (station 720) 0 _ rfl hfault
  exact ⟨hsession.1, by decide +kernel, by decide +kernel, hfault, hturned.1, hturned.2.1⟩

end Session

end SlotRadio
