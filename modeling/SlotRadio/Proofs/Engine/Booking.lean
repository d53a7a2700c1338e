import SlotRadio.Proofs.Engine.Course
import SlotRadio.Proofs.Station.Granting
import SlotRadio.Proofs.Timing.Following
/-!
# No slot is booked twice

Several operators send in one slot, each once, in its turn, and far
enough from the others.  Three facts meet here:

* a slot is announced once and only after all earlier ones, so what is
  sent now and what was sent before are in different slots
  (`slotStartMs_lt_of_announced`);
* in one slot every operator sends at most once, and only if arbitration
  has granted it (`clear_sendings`);
* operators are listed under their own numbers (`Booked.owners`), so
  different operators sign differently.

`Booked` is kept by every request (`booked_meet`), and
`no_double_booking` is what it says about a whole session.
-/

namespace SlotRadio

/-- Two messages of one slot are from two operators, on frequencies far
enough apart. -/
def Transmission.Clear (separation : Nat) (t u : Transmission) : Prop :=
  t.slotStartMs = u.slotStartMs →
    t.operator ≠ u.operator ∧ separation ≤ Station.distance t.frequencyHz u.frequencyHz

namespace Engine

/-- Every operator is listed under its own number. -/
def Owned (e : Engine) : Prop :=
  ∀ x ∈ e.roster.toList, x.2.contact.operator = x.1

/-- What an operator sends at the beginning of a slot is in its own name and on its frequency, and
it has been granted that slot. -/
theorem mem_sendings {e : Engine} (howned : e.Owned) {slot : Slot} {n : Nat} {a : Automaton}
    (ha : (n, a) ∈ e.roster.toList) {t : Transmission}
    (ht : t ∈ (a.beginSlot slot ((e.grant slot).allows n)).2.transmission.toList) :
    (e.grant slot).allows n = true ∧ t.operator = n ∧ t.frequencyHz = a.station.frequencyHz ∧
      t.slotStartMs = slot.startMs := by
  obtain ⟨hgrant, hoperator, hrest⟩ := Automaton.beginSlot_carries (Option.mem_toList.1 ht)
  refine ⟨hgrant, ?_, hrest⟩
  rw [hoperator]
  exact howned _ ha

/-- A claim is that of a registered operator, with its set-up. -/
theorem claim_of_operator {e : Engine} {n : Nat} {c : Claim} (hc : c ∈ e.claims)
    (hn : c.operator = n) : ∃ a, e.roster.get? n = some a ∧ c.station = a.station := by
  obtain ⟨⟨m, a⟩, hmem, rfl⟩ := List.mem_map.1 hc
  obtain rfl : m = n := hn
  exact ⟨a, Roster.get?_eq_some_iff.2 hmem, rfl⟩

/-- **Who sends may do so**: it is a registered operator in its turn, for it has been granted the
slot and only those in turn make a claim. -/
theorem inTurn_of_mem_sendings {e : Engine} (howned : e.Owned) {slot : Slot} {t : Transmission}
    (h : t ∈ e.sendings slot) :
    t.slotStartMs = slot.startMs ∧
      ∃ a, e.roster.get? t.operator = some a ∧ t.frequencyHz = a.station.frequencyHz ∧
        a.station.hasTurn e.mode slot = true := by
  obtain ⟨⟨n, a⟩, hmem, ht⟩ := List.mem_flatMap.1 h
  obtain ⟨hallows, hoperator, hfrequency, hstart⟩ := mem_sendings howned hmem ht
  have ha : e.roster.get? n = some a := Roster.get?_eq_some_iff.2 hmem
  refine ⟨hstart, a, hoperator ▸ ha, hfrequency, ?_⟩
  obtain ⟨c, hc, hcn⟩ := List.any_eq_true.1 hallows
  obtain ⟨hclaim, hturn⟩ := Grant.mem_granted hc
  obtain ⟨b, hb, hstation⟩ := claim_of_operator hclaim (by simpa using hcn)
  obtain rfl : a = b := Option.some.inj (ha.symm.trans hb)
  rw [← hstation]
  exact hturn

/-- **In one slot no two messages overlap**, and nobody sends twice. The stations are listed by
number, so two messages come from two of them, and both have been granted the slot. -/
theorem clear_sendings {e : Engine} (howned : e.Owned) (slot : Slot) :
    (e.sendings slot).Pairwise (Transmission.Clear e.config.loop.separationHz) := by
  refine List.pairwise_flatMap.2 ⟨?_, ?_⟩
  · rintro ⟨n, a⟩ -
    dsimp only
    cases (a.beginSlot slot ((e.grant slot).allows n)).2.transmission with
    | none => exact .nil
    | some t => exact List.pairwise_singleton _ t
  · refine e.roster.ascending.imp_of_mem ?_
    rintro ⟨m, a⟩ ⟨n, b⟩ hma hnb hlt t ht u hu -
    obtain ⟨hm, htm, htf, -⟩ := mem_sendings howned hma ht
    obtain ⟨hn, hun, huf, -⟩ := mem_sendings howned hnb hu
    have hne : m ≠ n := Nat.ne_of_lt hlt
    obtain ⟨c, hc, d, hd, hcm, hdn, hapart⟩ := Grant.separated_of_allows hne hm hn
    obtain ⟨a', ha', hca⟩ := claim_of_operator hc hcm
    obtain ⟨b', hb', hdb⟩ := claim_of_operator hd hdn
    obtain rfl : a = a' := Option.some.inj ((Roster.get?_eq_some_iff.2 hma).symm.trans ha')
    obtain rfl : b = b' := Option.some.inj ((Roster.get?_eq_some_iff.2 hnb).symm.trans hb')
    refine ⟨by rw [htm, hun]; exact hne, ?_⟩
    rw [htf, huf, ← hca, ← hdb]
    simpa [Station.overlaps] using hapart

/-- The state of an engine that has put the messages `past` on the air:
the settings are those it was given, and everything sent so far belongs
to a slot that has been announced. -/
structure Booked (mode : Mode) (config : Config) (e : Engine) (past : List Event) : Prop where
  sameMode : e.mode = mode
  sameConfig : e.config = config
  grid : e.tracker.mode = mode
  owners : e.Owned
  announced : ∀ t ∈ onAir past, ∃ c last, t.slotStartMs = (mode.slot c).startMs ∧
    e.tracker.highest = some last ∧ c ≤ last
  clear : (onAir past).Pairwise (Transmission.Clear config.loop.separationHz)

variable {mode : Mode} {config : Config}

/-- A session that begins has nothing on its books: no operator is listed and nothing was sent. -/
theorem booked_initial (mode : Mode) (config : Config) : Booked mode config (initial mode config) []
    where
  sameMode := rfl
  sameConfig := rfl
  grid := rfl
  owners := by
    intro x hx
    exact absurd hx List.not_mem_nil
  announced := by
    intro t ht
    exact absurd ht List.not_mem_nil
  clear := .nil

/-- A quiet step leaves every operator listed under its own number: those it leaves alone are, a new
one begins so, and no occasion makes an operator another one. -/
theorem owned_of_quiet {e f : Engine} {events : List Event} (howned : e.Owned)
    (h : Quiet e f events) : f.Owned := by
  intro x hx
  rcases h.operators x hx with hold | ⟨station, policy, hnew⟩ | ⟨a, o, ha, -, hchanged⟩
  · exact howned x hold
  · rw [hnew]
    rfl
  · have howner : a.contact.operator = x.1 := howned _ ha
    rw [hchanged, Automaton.operator_meet]
    exact howner

/-- A quiet step leaves the books as they are, as it sends nothing and moves no clock. -/
theorem booked_quiet {e f : Engine} {past events : List Event} (hbooked : Booked mode config e past)
    (h : Quiet e f events) : Booked mode config f (past ++ events) := by
  have hpast : onAir (past ++ events) = onAir past := by
    rw [onAir_append, h.onAir, List.append_nil]
  refine ⟨h.mode.trans hbooked.sameMode, h.config.trans hbooked.sameConfig, ?_,
    owned_of_quiet hbooked.owners h, ?_, ?_⟩
  · rw [h.tracker]
    exact hbooked.grid
  · rw [hpast, h.tracker]
    exact hbooked.announced
  · rw [hpast]
    exact hbooked.clear

/-- **What is sent in a slot that is announced now** is later than
everything sent before. -/
theorem slotStartMs_lt_of_announced {e : Engine} {past : List Event}
    (hbooked : Booked mode config e past) {now : Nat} {slot : Slot} {previous : Option Slot}
    (h : (e.tracker.observe now).2 = some (.slotStart slot previous)) {t : Transmission}
    (ht : t ∈ onAir past) : t.slotStartMs < slot.startMs := by
  obtain ⟨rfl, hlater, -, -⟩ := Tracker.observe_slotStart h
  obtain ⟨c, last, hstart, hlast, hle⟩ := hbooked.announced t ht
  have hlt : c < (slotOf e.tracker.mode now).cycle := Nat.lt_of_le_of_lt hle (hlater last hlast)
  rw [hbooked.grid] at hlt ⊢
  rw [hstart]
  exact startMs_lt_of_cycle_lt mode hlt

/-- A slot that begins leaves every operator listed under its own number. -/
theorem owned_beginSlot {e : Engine} (howned : e.Owned) (slot : Slot) (previous : Option Slot) :
    (e.beginSlot slot previous).1.Owned := by
  intro x hx
  rw [roster_beginSlot] at hx
  obtain ⟨⟨n, a⟩, hmem, rfl⟩ := List.mem_map.1 hx
  exact (a.operator_beginSlot _ _).trans (howned _ hmem)

/-- **A reading keeps the books**: the slot that it begins is later than all
before, and who sends in it has been granted the turn. -/
theorem booked_follow {e : Engine} {past : List Event} (hbooked : Booked mode config e past)
    (now : Nat) : Booked mode config (e.follow now).1 (past ++ (e.follow now).2) := by
  have hgrid : (e.tracker.observe now).1.mode = mode :=
    (Tracker.mode_observe e.tracker now).trans hbooked.grid
  by_cases hslot : ∃ slot previous, (e.tracker.observe now).2 = some (.slotStart slot previous)
  · obtain ⟨slot, previous, h⟩ := hslot
    have hearlier := fun t => slotStartMs_lt_of_announced hbooked h (t := t)
    obtain ⟨hnow, hlater, hhighest, -⟩ := Tracker.observe_slotStart h
    rw [hbooked.grid] at hnow
    have howned : Owned { e with tracker := (e.tracker.observe now).1 } := hbooked.owners
    rw [follow_slotStart h]
    refine ⟨hbooked.sameMode, hbooked.sameConfig, hgrid, owned_beginSlot howned slot previous, ?_,
      ?_⟩
    · intro t ht
      rw [onAir_append, onAir_beginSlot] at ht
      rcases List.mem_append.1 ht with ht | ht
      · obtain ⟨c, last, hstart, hlast, hle⟩ := hbooked.announced t ht
        exact ⟨c, slot.cycle, hstart, hhighest,
          Nat.le_of_lt (Nat.lt_of_le_of_lt hle (hlater last hlast))⟩
      · refine ⟨slot.cycle, slot.cycle, ?_, hhighest, Nat.le_refl _⟩
        rw [(inTurn_of_mem_sendings howned ht).1, hnow]
        rfl
    · rw [onAir_append, onAir_beginSlot, List.pairwise_append]
      refine ⟨hbooked.clear, hbooked.sameConfig ▸ clear_sendings howned slot, ?_⟩
      intro t ht u hu hsame
      have hlt := hearlier t ht
      have hstart := (inTurn_of_mem_sendings howned hu).1
      omega
  · have hslot : ∀ slot previous,
        (e.tracker.observe now).2 ≠ some (.slotStart slot previous) :=
      fun slot previous h => hslot ⟨slot, previous, h⟩
    obtain ⟨hfst, hsilent⟩ := follow_otherwise hslot
    have hquiet : onAir (e.follow now).2 = [] := onAir_eq_nil fun x hx => (hsilent x hx).2
    have hhighest : (e.tracker.observe now).1.highest = e.tracker.highest :=
      Tracker.highest_observe hslot
    rw [hfst]
    refine ⟨hbooked.sameMode, hbooked.sameConfig, hgrid, hbooked.owners, ?_, ?_⟩
    · rw [onAir_append, hquiet, List.append_nil]
      show ∀ t ∈ onAir past, ∃ c last, t.slotStartMs = (mode.slot c).startMs ∧
        (e.tracker.observe now).1.highest = some last ∧ c ≤ last
      rw [hhighest]
      exact hbooked.announced
    · rw [onAir_append, hquiet, List.append_nil]
      exact hbooked.clear

/-- **Every request leaves the book in order.** A look at the clock follows it first, which may
begin a slot, and is quiet from then on; all other requests are quiet. -/
theorem booked_meet {e : Engine} {past : List Event} (hbooked : Booked mode config e past)
    (t : Moment) (r : Request) :
    Booked mode config (e.meet t r).engine (past ++ (e.meet t r).events) := by
  by_cases hr : r = .look
  · subst hr
    obtain ⟨rest, hrest, hplays⟩ := onlyPlays_tick e t
    show Booked mode config (e.tick t).1 (past ++ (e.tick t).2)
    rw [hrest, ← List.append_assoc]
    exact booked_quiet (booked_follow hbooked t.look) hplays.quiet
  · exact booked_quiet hbooked (quiet_meet hr e t)

/-- **Along a whole run the books are right.** -/
theorem booked_run (mode : Mode) (config : Config) (requests : List (Moment × Request)) :
    Booked mode config (Session.run ⟨initial mode config, true⟩ requests).1.engine
      (Session.run ⟨initial mode config, true⟩ requests).2 := by
  have h := Session.run_invariant (P := Booked mode config) (s := ⟨initial mode config, true⟩)
    (fun e past t r hbooked => booked_meet hbooked t r) (booked_initial mode config) requests
  rwa [List.nil_append] at h

/-- A look at the clock that puts a message on the air has begun the slot
that the message is for, in its operator's turn. -/
theorem inTurn_of_mem_tick {e : Engine} {past : List Event} (hbooked : Booked mode config e past)
    {t : Moment} {sent : Transmission} (ht : sent ∈ onAir (e.tick t).2) :
    (∃ previous mix frames,
        .slotStart (slotOf mode t.look) previous mix frames ∈ (e.tick t).2) ∧
      sent.slotStartMs = (slotOf mode t.look).startMs ∧
      ∃ a, e.roster.get? sent.operator = some a ∧ sent.frequencyHz = a.station.frequencyHz ∧
        a.station.hasTurn mode (slotOf mode t.look) = true := by
  obtain ⟨rest, hrest, hplays⟩ := onlyPlays_tick e t
  rw [hrest, onAir_append, hplays.quiet.onAir, List.append_nil] at ht
  rw [hrest]
  by_cases hslot : ∃ slot previous, (e.tracker.observe t.look).2 = some (.slotStart slot previous)
  · obtain ⟨slot, previous, h⟩ := hslot
    obtain ⟨rfl, -⟩ := Tracker.observe_slotStart h
    rw [hbooked.grid] at h
    have howned : Owned { e with tracker := (e.tracker.observe t.look).1 } := hbooked.owners
    rw [follow_slotStart h] at ht ⊢
    rw [onAir_beginSlot] at ht
    obtain ⟨hstart, a, ha, hfrequency, hturn⟩ := inTurn_of_mem_sendings howned ht
    refine ⟨⟨previous, e.lastMix, e.heard, ?_⟩, hstart, a, ha, hfrequency, ?_⟩
    · exact List.mem_append_left _ (slotStart_mem_beginSlot _ _ previous)
    · exact hbooked.sameMode ▸ hturn
  · have hslot : ∀ slot previous,
        (e.tracker.observe t.look).2 ≠ some (.slotStart slot previous) :=
      fun slot previous h => hslot ⟨slot, previous, h⟩
    have hquiet : onAir (e.follow t.look).2 = [] :=
      onAir_eq_nil fun x hx => ((follow_otherwise hslot).2 x hx).2
    rw [hquiet] at ht
    exact absurd ht List.not_mem_nil

end Engine

namespace Session

/-- **No slot is booked twice.**  Whatever is asked of an engine in
whatever order, and whatever the clock shows: two messages sent for one
slot are from two operators and at least the separation apart, and every
message is sent when its slot begins, by an operator that was registered
with this slot among its turns. -/
theorem no_double_booking (mode : Mode) (config : Config) (requests : List (Moment × Request)) :
    let start : Session := ⟨.initial mode config, true⟩
    (onAir (start.run requests).2).Pairwise (Transmission.Clear config.loop.separationHz) ∧
      ∀ sent ∈ onAir (start.run requests).2, ∃ before t after,
        requests = before ++ (t, .look) :: after ∧
        sent ∈ onAir ((start.run before).1.meet t .look).2.1 ∧
        (∃ previous mix frames, .slotStart (slotOf mode t.look) previous mix frames ∈
          ((start.run before).1.meet t .look).2.1) ∧
        sent.slotStartMs = (slotOf mode t.look).startMs ∧
        ∃ a, (start.run before).1.engine.roster.get? sent.operator = some a ∧
          sent.frequencyHz = a.station.frequencyHz ∧
          a.station.hasTurn mode (slotOf mode t.look) = true := by
  intro start
  refine ⟨(Engine.booked_run mode config requests).clear, ?_⟩
  intro sent ht
  obtain ⟨before, t, r, after, hsplit, hx⟩ := exists_step_of_mem_run (mem_onAir.1 ht)
  obtain ⟨hopen, hsent⟩ := meet_of_mem hx
  have hbooked : Engine.Booked mode config (start.run before).1.engine (start.run before).2 :=
    Engine.booked_run mode config before
  by_cases hr : r = .look
  · subst hr
    have hmeet : ((start.run before).1.meet t .look).2.1 =
        ((start.run before).1.engine.tick t).2 := by
      rw [meet_of_isOpen hopen]
      rfl
    have htick : sent ∈ onAir ((start.run before).1.engine.tick t).2 := mem_onAir.2 hsent
    refine ⟨before, t, after, hsplit, ?_⟩
    rw [hmeet]
    exact ⟨htick, Engine.inTurn_of_mem_tick hbooked htick⟩
  · have hquiet := (Engine.quiet_meet hr (start.run before).1.engine t).onAir
    have hmem : sent ∈ onAir ((start.run before).1.engine.meet t r).events := mem_onAir.2 hsent
    rw [hquiet] at hmem
    exact absurd hmem List.not_mem_nil

end Session

end SlotRadio
