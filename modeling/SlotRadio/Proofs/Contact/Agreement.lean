import Mathlib.Data.List.Induction
import SlotRadio.Contact.Band
import SlotRadio.Proofs.Contact.Accord
/-!
# Two logs agree

Two operators share a band on which, slot after slot, anything may be
granted, lost, or heard at any level.  One calls everybody, the other
answers it.  Then the one that answers never logs a contact that the
other has not logged before, and the two entries tell the same reports.

* `inAccord_slot` — a slot keeps the two operators in accord;
* `inAccord_run` — so does every run;
* `replier_log_matched` — the statement about the logs.
-/

namespace SlotRadio

namespace Band

/-- What the outside decides about one slot: who may transmit, whose message
is lost, and the level at which each operator is heard. -/
structure Round where
  slot : Slot
  granted : Nat → Bool
  lost : Nat → Bool
  level : Nat → Int

/-- One slot under given grants, losses and levels. -/
def play (r : Round) (parties : List Party) : List Party × List PartyReport :=
  let reports := begin r.slot r.granted (parties.map fun p => { p with snr := r.level p.operator })
  (deliver r.lost reports, reports)

/-- Where a run leads to. -/
def run (parties : List Party) (rounds : List Round) : List Party :=
  rounds.foldl (fun ps r => (play r ps).1) parties

/-- What an operator logs in a slot. -/
def logIn (operator : Nat) (reports : List PartyReport) : List LogEntry :=
  (reports.filter (·.party.operator = operator)).flatMap fun r => loggedIn r.outcome.events

/-- What an operator logs in a run. -/
def logOf (operator : Nat) : List Party → List Round → List LogEntry
  | _, [] => []
  | parties, r :: rounds =>
    logIn operator (play r parties).2 ++ logOf operator (play r parties).1 rounds

theorem run_append_singleton (parties : List Party) (rounds : List Round) (r : Round) :
    run parties (rounds ++ [r]) = (play r (run parties rounds)).1 := by
  simp [run]

theorem logOf_append_singleton (operator : Nat) (parties : List Party) (rounds : List Round)
    (r : Round) :
    logOf operator parties (rounds ++ [r]) =
      logOf operator parties rounds ++ logIn operator (play r (run parties rounds)).2 := by
  induction rounds generalizing parties with
  | nil => simp [logOf, run]
  | cons q rounds ih =>
    rw [List.cons_append, logOf, logOf, ih, List.append_assoc]
    rfl

end Band

/-! ## Two operators -/

open Stance Message

/-- An operator that overhears another one's message, unless it is lost. -/
def Automaton.overhear (a : Automaton) (lost : Bool) (snr : Int) (t : Option Transmission) :
    Automaton :=
  match t with
  | some t => if lost then a else a.receive (Band.frameOf snr t)
  | none => a

/-- **Between two operators a slot is two steps,** each followed by what
it overhears of the other. -/
theorem Band.play_pair {i j : Nat} (hij : i ≠ j) (r : Round) (m n : Int) (x y : Automaton) :
    (play r [⟨i, m, x⟩, ⟨j, n, y⟩]).1 =
        [⟨i, r.level i, (x.beginSlot r.slot (r.granted i)).1.overhear (r.lost j) (r.level j)
            (y.beginSlot r.slot (r.granted j)).2.transmission⟩,
          ⟨j, r.level j, (y.beginSlot r.slot (r.granted j)).1.overhear (r.lost i) (r.level i)
            (x.beginSlot r.slot (r.granted i)).2.transmission⟩] ∧
      logIn i (play r [⟨i, m, x⟩, ⟨j, n, y⟩]).2 =
        loggedIn (x.beginSlot r.slot (r.granted i)).2.events ∧
      logIn j (play r [⟨i, m, x⟩, ⟨j, n, y⟩]).2 =
        loggedIn (y.beginSlot r.slot (r.granted j)).2.events := by
  refine ⟨?_, ?_, ?_⟩
  · simp only [play, begin, deliver, List.map_cons, List.map_nil, List.foldl_cons, List.foldl_nil]
    rcases x.beginSlot r.slot (r.granted i) with ⟨x', _ | t, events⟩ <;>
      rcases y.beginSlot r.slot (r.granted j) with ⟨y', _ | u, events'⟩ <;>
        cases r.lost i <;> cases r.lost j <;>
          simp [Automaton.overhear, hearFrom, hij, hij.symm]
  · simp [logIn, play, begin, hij.symm]
  · simp [logIn, play, begin, hij]

/-- At most one frame waits, and it is read as something of a kind. -/
def Automaton.Waits (a : Automaton) (kind : Message → Prop) : Prop :=
  ∃ f : Option Frame, a.inbox = f.toList ∧ ∀ m ∈ f.map fun f => parse f.text, kind m

/-- What is overheard waits if it concerns the operator; a message that is lost, or that the
operator does not care about, leaves the empty inbox empty. -/
theorem Automaton.waits_overhear {a : Automaton} {kind : Message → Prop} {t : Option Transmission}
    (hin : a.inbox = []) (lost : Bool) (snr : Int)
    (h : ∀ x, t = some x → a.concerns (Band.frameOf snr x) = true → kind (parse x.message)) :
    (a.overhear lost snr t).Waits kind := by
  have hnone : a.Waits kind := ⟨none, hin, by simp⟩
  unfold overhear
  cases t with
  | none => exact hnone
  | some x =>
    dsimp only
    split
    · exact hnone
    · unfold receive
      split
      · next hconcerns =>
        refine ⟨some (Band.frameOf snr x), ?_, ?_⟩
        · dsimp only
          rw [hin]
          rfl
        · rintro m hm
          obtain rfl := Option.some.inj hm
          exact h x rfl hconcerns
      · exact hnone

/-- Overhearing fills the inbox and nothing else, so the stance is what it was. -/
theorem Automaton.stands_overhear {a : Automaton} {onAir : Bool} {s : Stance}
    (h : a.Stands onAir s) (lost : Bool) (snr : Int) (t : Option Transmission) :
    (a.overhear lost snr t).Stands onAir s ∧ (a.overhear lost snr t).station = a.station := by
  unfold overhear
  cases t with
  | none => exact ⟨h, rfl⟩
  | some x =>
    dsimp only
    split
    · exact ⟨h, rfl⟩
    · unfold receive
      split
      · exact ⟨⟨h.contact, h.sentLast⟩, rfl⟩
      · exact ⟨h, rfl⟩

/-- The caller `x` and the replier `y` are in accord, and what waits for
each of them was on the air on the other side. -/
structure InAccord (a b : String) (la lb : List LogEntry) (x y : Automaton) : Prop where
  call : x.station.call = a
  target : x.station.target = none
  call' : y.station.call = b
  grid' : isGridSquare y.station.grid = true
  accord : ∃ s t onAir onAir', x.Stands onAir s ∧ y.Stands onAir' t ∧ Accord a b la lb s t ∧
    x.Waits (fun m => onAir' = true ∧ Hearable a b t m) ∧ y.Waits fun m => onAir = true ∧ Says a s m

section

variable {a b : String} {la lb : List LogEntry} {x y : Automaton} {s t : Stance}

/-- What a caller in accord says. It is free or in a contact with the replier, so the only other
call that its message can carry is the replier's. -/
theorem Accord.says_left (ha : IsToken a) (hb : IsToken b) (hcq : b ≠ "CQ")
    (h : Accord a b la lb s t) (grid : String) :
    Says a s.sent (parse (s.sent.message a grid).text) := by
  have hs : s = free ∨ ∃ stage x got, s = contact stage .caller b x got := by
    cases h with
    | seeking hs =>
      cases hs with
      | free => exact .inl rfl
      | contact => exact .inr ⟨_, _, _, rfl⟩
    | alone => exact .inr ⟨_, _, _, rfl⟩
    | dropped => exact .inl rfl
    | reported => exact .inr ⟨_, _, _, rfl⟩
    | closing => exact .inr ⟨_, _, _, rfl⟩
    | awaited => exact .inl rfl
  rcases hs with rfl | ⟨stage, x, got, rfl⟩
  · refine says_message ha ?_ ?_ ?_ <;> simp [partner?]
  · refine says_message ha ?_ ?_ ?_
    · rintro p hp
      obtain rfl := Option.some.inj hp
      exact hb
    · simp
    · rintro _ _ p _ _ hp
      simp only [Stance.contact.injEq] at hp
      exact hp.2.2.1 ▸ hcq

/-- What a replier in accord says. Besides the caller it may still be calling a station that has
been asked for, whose call is a token as well. -/
theorem Accord.says_right (ha : IsToken a) (hb : IsToken b) (hcq : a ≠ "CQ")
    (h : Accord a b la lb s t) {grid : String} (hgrid : isGridSquare grid = true) :
    Says b t.sent (parse (t.sent.message b grid).text) := by
  have ht : t = free ∨ (∃ p, t = calling p ∧ IsToken p) ∨
      ∃ stage role x got, t = contact stage role a x got := by
    cases h with
    | seeking _ ht =>
      cases ht with
      | asks ht =>
        cases ht with
        | free => exact .inl rfl
        | contact => exact .inr (.inr ⟨_, _, _, _, rfl⟩)
      | calling hp => exact .inr (.inl ⟨_, rfl, hp⟩)
    | alone => exact .inl rfl
    | dropped => exact .inr (.inr ⟨_, _, _, _, rfl⟩)
    | reported => exact .inr (.inr ⟨_, _, _, _, rfl⟩)
    | closing => exact .inr (.inr ⟨_, _, _, _, rfl⟩)
    | awaited => exact .inr (.inr ⟨_, _, _, _, rfl⟩)
  rcases ht with rfl | ⟨p, rfl, hp⟩ | ⟨stage, role, x, got, rfl⟩
  · refine says_message hb ?_ ?_ ?_ <;> simp [partner?]
  · refine says_message hb ?_ (fun _ _ => hgrid) ?_
    · rintro q hq
      obtain rfl := Option.some.inj hq
      exact hp
    · simp
  · refine says_message hb ?_ (fun _ _ => hgrid) ?_
    · rintro q hq
      obtain rfl := Option.some.inj hq
      exact ha
    · rintro _ _ q _ _ hq
      simp only [Stance.contact.injEq] at hq
      exact hq.2.2.1 ▸ hcq

/-- The replier logs what the caller has logged before. Only a replier that was awaited in its
closing phase logs at all, and what it logs is the twin of the caller's last entry. -/
theorem Accord.matched_log {onAir : Bool} {xs : List LogEntry} (h : Accord a b la lb s t)
    (hxs : t.Logs b onAir xs) : Matched a b la (lb ++ xs) := by
  cases h with
  | seeking _ ht h =>
    obtain rfl := seeks_logs ht hxs
    simpa using h
  | alone h =>
    obtain rfl := free_logs hxs
    simpa using h
  | dropped hstage h =>
    obtain rfl := logs_of_ne_closing hstage hxs
    simpa using h
  | reported hstage h =>
    obtain rfl := logs_of_ne_closing hstage hxs
    simpa using h
  | closing h =>
    obtain rfl := logs_of_ne_closing Stage.noConfusion hxs
    simpa using h
  | awaited h =>
    cases onAir with
    | false =>
      obtain rfl : xs = [] := hxs
      simpa using h.matched
    | true =>
      obtain ⟨e, rfl, hmine, htheirs, hsent, hgot⟩ := hxs
      exact h.log hmine htheirs hsent hgot

/-- What a slot leaves behind: a stance, and what it says on the air, if anything. Either nothing
has been sent and the stance is the old one, or its message has. -/
theorem exists_stance {z : Automaton} {tx : Option Transmission} {me grid : String}
    (h : tx = none ∧ z.Stands false s ∨
      ∃ w, tx = some w ∧ w.message = (s.sent.message me grid).text ∧ z.Stands true s.sent)
    (hspoken : Says me s.sent (parse (s.sent.message me grid).text)) :
    ∃ s' onAir, (s' = s ∨ s' = s.sent) ∧ z.Stands onAir s' ∧
      ∀ w, tx = some w → onAir = true ∧ Says me s' (parse w.message) := by
  rcases h with ⟨rfl, hstands⟩ | ⟨w, rfl, hmessage, hstands⟩
  · exact ⟨s, false, .inl rfl, hstands, by simp⟩
  · refine ⟨s.sent, true, .inr rfl, hstands, ?_⟩
    intro v hv
    obtain rfl := Option.some.inj hv
    exact ⟨rfl, hmessage ▸ hspoken⟩

/-- **A slot keeps two operators in accord.** Each settles into its next stance by what it has
heard, which `Accord.settles` covers for both at once; then the caller sends and the replier sends,
and each overhears the other or does not. -/
theorem inAccord_slot (ha : IsToken a) (hacq : a ≠ "CQ") (hb : IsToken b) (hbcq : b ≠ "CQ")
    (h : InAccord a b la lb x y) (slot : Slot) (granted granted' lost lost' : Bool)
    (level level' : Int) :
    InAccord a b (la ++ loggedIn (x.beginSlot slot granted).2.events)
        (lb ++ loggedIn (y.beginSlot slot granted').2.events)
        ((x.beginSlot slot granted).1.overhear lost' level'
          (y.beginSlot slot granted').2.transmission)
        ((y.beginSlot slot granted').1.overhear lost level
          (x.beginSlot slot granted).2.transmission) ∧
      Matched a b la (lb ++ loggedIn (y.beginSlot slot granted').2.events) := by
  obtain ⟨hcall, htarget, hcall', hgrid', s, t, onAir, onAir', hx, hy, haccord, ⟨f, hf, hheard⟩,
    ⟨g, hg, hheard'⟩⟩ := h
  obtain ⟨hlogs, hempty, hstation, s₁, hsettles, hsend⟩ :=
    Automaton.stands_beginSlot hx hf slot granted
  obtain ⟨hlogs', hempty', hstation', t₁, hsettles', hsend'⟩ :=
    Automaton.stands_beginSlot hy hg slot granted'
  rw [hcall] at hlogs hsettles hsend
  rw [hcall'] at hlogs' hsettles' hsend'
  refine ⟨?_, haccord.matched_log hlogs'⟩
  have hsettled := haccord.settles ha hheard' hheard hlogs hlogs' hsettles hsettles'
  generalize la ++ loggedIn (x.beginSlot slot granted).2.events = la' at hsettled ⊢
  generalize lb ++ loggedIn (y.beginSlot slot granted').2.events = lb' at hsettled ⊢
  obtain ⟨s₂, air, hs₂, hstands, hspoken⟩ :=
    exists_stance hsend (hsettled.says_left ha hb hbcq x.station.grid)
  obtain ⟨t₂, air', ht₂, hstands', hspoken'⟩ :=
    exists_stance hsend' (hsettled.says_right ha hb hacq hgrid')
  have hsent : Accord a b la' lb' s₂ t₁ := by
    rcases hs₂ with rfl | rfl
    · exact hsettled
    · exact hsettled.sent_left
  have hnext : Accord a b la' lb' s₂ t₂ := by
    rcases ht₂ with rfl | rfl
    · exact hsent
    · exact hsent.sent_right
  obtain ⟨hx', hsame⟩ := Automaton.stands_overhear hstands lost' level'
    (y.beginSlot slot granted').2.transmission
  obtain ⟨hy', hsame'⟩ := Automaton.stands_overhear hstands' lost level
    (x.beginSlot slot granted).2.transmission
  rw [hstation] at hsame
  rw [hstation'] at hsame'
  refine ⟨by rw [hsame, hcall], by rw [hsame, htarget], by rw [hsame', hcall'],
    by rw [hsame', hgrid'], s₂, t₂, air, air', hx', hy', hnext, ?_, ?_⟩
  · refine Automaton.waits_overhear hempty lost' level' ?_
    intro w hw hconcerns
    refine ⟨(hspoken' w hw).1, (hspoken' w hw).2, ?_⟩
    -- A call would need a station to follow.
    simpa [Automaton.concerns, hstation, htarget, hcall, Band.frameOf] using hconcerns
  · refine Automaton.waits_overhear hempty' lost level ?_
    intro w hw _
    exact hspoken w hw

end

/-! ## Runs -/

namespace Automaton

/-- A fresh operator that follows a station, or is told to call it. -/
inductive Answers (operator : Nat) (station : Station) (policy : Policy) (call : String) :
    Automaton → Prop where
  | follows (h : station.target = some call) :
      Answers operator station policy call (idle operator station policy)
  | told (grid : Option String) :
      Answers operator station policy call
        ((idle operator station policy).obey (.callStation call grid)).1

theorem stands_idle (operator : Nat) (station : Station) (policy : Policy) :
    (idle operator station policy).Stands false free :=
  ⟨⟨.idle, rfl, rfl, rfl⟩, rfl⟩

theorem stands_callCq (operator : Nat) (station : Station) (policy : Policy) :
    ((idle operator station policy).obey .callCq).1.Stands false free :=
  ⟨⟨.toCall, rfl, rfl, rfl⟩, rfl⟩

theorem stands_callStation (operator : Nat) (station : Station) (policy : Policy) {call : String}
    (hcall : IsToken call) (grid : Option String) :
    ((idle operator station policy).obey (.callStation call grid)).1.Stands false (calling call) :=
  ⟨⟨.toReply, congrArg some hcall.capital, rfl, rfl⟩, rfl⟩

end Automaton

/-- A caller and its replier begin in accord: nothing is logged, nothing waits, and the replier has
been left to follow calls or has been told to work the caller. -/
theorem inAccord_initial {i j : Nat} {caller replier : Station} (policy policy' : Policy)
    {y : Automaton} (hcall : IsToken caller.call) (htarget : caller.target = none)
    (hgrid : isGridSquare replier.grid = true)
    (hy : Automaton.Answers j replier policy' caller.call y) :
    InAccord caller.call replier.call [] []
      ((Automaton.idle i caller policy).obey .callCq).1 y := by
  have hlogs : Matched caller.call replier.call [] [] := ⟨[], List.Sublist.slnil, .nil⟩
  have hempty : ∀ {z : Automaton} {kind : Message → Prop}, z.inbox = [] → z.Waits kind := by
    intro z kind hz
    exact ⟨none, hz, by simp⟩
  cases hy with
  | follows h =>
    exact ⟨rfl, htarget, rfl, hgrid, free, free, false, false, Automaton.stands_callCq ..,
      Automaton.stands_idle .., .seeking .free (.asks .free) hlogs, hempty rfl, hempty rfl⟩
  | told grid =>
    exact ⟨rfl, htarget, rfl, hgrid, free, calling caller.call, false, false,
      Automaton.stands_callCq .., Automaton.stands_callStation _ _ _ hcall grid,
      .seeking .free (.calling hcall) hlogs, hempty rfl, hempty rfl⟩

namespace Band

variable {a b : String} {i j : Nat}

/-- **Every run keeps two operators in accord**, whatever is granted, lost and measured. By
induction on the rounds, the last one at the end, since the log grows there. -/
theorem inAccord_run (hij : i ≠ j) (ha : IsToken a) (hacq : a ≠ "CQ") (hb : IsToken b)
    (hbcq : b ≠ "CQ") {x y : Automaton} (h : InAccord a b [] [] x y) (m n : Int)
    (rounds : List Round) :
    ∃ m' n' x' y', run [⟨i, m, x⟩, ⟨j, n, y⟩] rounds = [⟨i, m', x'⟩, ⟨j, n', y'⟩] ∧
      InAccord a b (logOf i [⟨i, m, x⟩, ⟨j, n, y⟩] rounds)
        (logOf j [⟨i, m, x⟩, ⟨j, n, y⟩] rounds) x' y' := by
  induction rounds using List.reverseRecOn with
  | nil => exact ⟨m, n, x, y, rfl, h⟩
  | append_singleton rounds r ih =>
    obtain ⟨m', n', x', y', hrun, hin⟩ := ih
    obtain ⟨hplay, hlog, hlog'⟩ := play_pair hij r m' n' x' y'
    rw [run_append_singleton, logOf_append_singleton, logOf_append_singleton, hrun, hplay, hlog,
      hlog']
    exact ⟨_, _, _, _, rfl, (inAccord_slot ha hacq hb hbcq hin ..).1⟩

/-- **Two logs agree.**  One operator calls everybody, the other answers
it.  Whatever is granted, lost, or heard at whatever level, for how many
slots ever: what the answering operator has logged when a slot has begun,
the caller had logged before that slot, each contact in an entry of its
own, with the calls crossed and each report the one that the other side
gave, within thirty dB of zero. -/
theorem replier_log_matched (hij : i ≠ j) {caller replier : Station} (policy policy' : Policy)
    {y : Automaton} (hcaller : IsToken caller.call) (hcallerCq : caller.call ≠ "CQ")
    (hreplier : IsToken replier.call) (hreplierCq : replier.call ≠ "CQ")
    (htarget : caller.target = none) (hgrid : isGridSquare replier.grid = true)
    (hy : Automaton.Answers j replier policy' caller.call y) (m n : Int) (rounds : List Round)
    (last : Round) :
    let x := ((Automaton.idle i caller policy).obey .callCq).1
    let parties : List Party := [⟨i, m, x⟩, ⟨j, n, y⟩]
    ∃ used : List LogEntry, used.Sublist (logOf i parties rounds) ∧
      List.Forall₂ (Twin caller.call replier.call) used (logOf j parties (rounds ++ [last])) := by
  intro x parties
  have hinitial := inAccord_initial (i := i) policy policy' hcaller htarget hgrid hy
  obtain ⟨m', n', x', y', hrun, hin⟩ :=
    inAccord_run hij hcaller hcallerCq hreplier hreplierCq hinitial m n rounds
  obtain ⟨-, -, hlog⟩ := play_pair hij last m' n' x' y'
  rw [logOf_append_singleton, hrun, hlog]
  exact (inAccord_slot hcaller hcallerCq hreplier hreplierCq hin last.slot (last.granted i)
    (last.granted j) false false 0 0).2

/-- The two operators take turns and nothing is lost. -/
def relay (cycle : Nat) : Round where
  slot := Mode.ft8.slot cycle
  granted operator := decide (cycle % 2 = operator)
  lost _ := false
  level operator := if operator = 0 then -5 else 40

/-- In seven slots a contact is logged on both sides. -/
theorem replier_log_matched_relay :
    let caller := Station.ofCall "K1ABC" "FN42" 700 [0]
    let replier : Station := { Station.ofCall "W9XYZ" "EN37" 1500 [1] with target := some "K1ABC" }
    let x := ((Automaton.idle 0 caller {}).obey .callCq).1
    let parties : List Party := [⟨0, 0, x⟩, ⟨1, 0, Automaton.idle 1 replier {}⟩]
    (logOf 1 parties ((List.range 6).map relay ++ [relay 6])).map (·.reportReceived) = [some 30] ∧
      ∃ used : List LogEntry, used.Sublist (logOf 0 parties ((List.range 6).map relay)) ∧
        List.Forall₂ (Twin "K1ABC" "W9XYZ") used
          (logOf 1 parties ((List.range 6).map relay ++ [relay 6])) := by
  intro caller replier x parties
  have hcaller : IsToken caller.call := by decide +kernel
  have hreplier : IsToken replier.call := by decide +kernel
  refine ⟨by decide +kernel, ?_⟩
  exact replier_log_matched (by decide) {} {} hcaller (by decide) hreplier (by decide) rfl
    (by decide) (.follows rfl) 0 0 ((List.range 6).map relay) (relay 6)

end Band

end SlotRadio
