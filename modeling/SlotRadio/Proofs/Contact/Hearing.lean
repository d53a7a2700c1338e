import SlotRadio.Proofs.Contact.Discipline
import SlotRadio.Proofs.Message.Reading
/-!
# What is sent is heard

A sending phase means to say something (`Automaton.Means`): who calls,
who answers whom, which report is given and how the contact is closed.
A partner knows only the text that is on the air.

* `Means.sendable` — what a phase means can be sent, if the calls are
  tokens and the grid is one.  The one exception is an answer to a call
  by a station that has no grid;
* `parse_bare_answer` — such an answer is two calls and nothing else, and
  nobody can tell who sent it;
* `sent_is_heard` — what is read of any message that was not queued by
  hand.
-/

namespace SlotRadio

open Message

namespace Message

theorem sender?_clamped (m : Message) : m.clamped.sender? = m.sender? := by
  cases m <;> rfl

theorem isFor_clamped (m : Message) (call : String) : m.clamped.isFor call = m.isFor call := by
  cases m <;> rfl

/-- An answer that lacks its grid is cut into two calls. -/
theorem read_bare_answer {addressee sender : String} (haddressee : IsToken addressee)
    (hsender : IsToken sender) : read (grid addressee sender "").text = [addressee, sender] := by
  have htext : (grid addressee sender "").text.toList =
      addressee.toList ++ ' ' :: (sender.toList ++ ' ' :: []) := by
    simp [text, tokens, List.intercalate]
  have hblank : Text.isBlank ' ' = true := by decide
  unfold read
  rw [htext, Text.words_append_blank hblank, Text.words_append_blank hblank, haddressee.words,
    hsender.words]
  simp [haddressee.capital, hsender.capital]

/-- **An answer that lacks its grid is free text,** from nobody and for
nobody. -/
theorem parse_bare_answer {addressee sender : String} (h : IsPair addressee sender) :
    parse (grid addressee sender "").text =
      freeText (normalText (grid addressee sender "").text) := by
  have htokens : ofTokens? [addressee, sender] = none := by
    simp [ofTokens?, h.notCall]
  rw [parse_eq, read_bare_answer h.isTo h.isFrom, htokens]
  rfl

end Message

namespace Automaton

/-- What the phase on the air means to say. -/
inductive Means (a : Automaton) : Message → Prop where
  | call (hphase : a.contact.phase = .callingCq) (hgrid : a.station.grid = "") :
      Means a (.cq none a.station.call none)
  | callFrom (hphase : a.contact.phase = .callingCq) (hgrid : a.station.grid ≠ "") :
      Means a (.cq none a.station.call (some a.station.grid))
  | answer {p : String} (hphase : a.contact.phase = .replying)
      (htarget : a.contact.target = some p) : Means a (.grid p a.station.call a.station.grid)
  | report {p : String} {level : Int} (hphase : a.contact.phase = .exchanging)
      (hrole : a.contact.role = .caller) (htarget : a.contact.target = some p)
      (hlevel : a.contact.reportSent = some level) : Means a (.report p a.station.call level)
  | rogerReport {p : String} {level : Int} (hphase : a.contact.phase = .exchanging)
      (hrole : a.contact.role = .replier) (htarget : a.contact.target = some p)
      (hlevel : a.contact.reportSent = some level) : Means a (.rogerReport p a.station.call level)
  | roger {p : String} (hphase : a.contact.phase = .logging) (hrole : a.contact.role = .caller)
      (htarget : a.contact.target = some p) : Means a (.roger p a.station.call true)
  | seventyThree {p : String} (hphase : a.contact.phase = .logging)
      (hrole : a.contact.role = .replier) (htarget : a.contact.target = some p) :
      Means a (.seventyThree p a.station.call)

variable {a : Automaton} {m : Message}

/-- **A phase composes what it means,** once a report has been measured. Without one the message
would give a level of zero that nobody has heard. -/
theorem means_of_message? (h : a.message? = some m)
    (hmeasured : a.contact.phase = .exchanging → a.contact.reportSent.isSome = true) :
    a.Means m := by
  cases hphase : a.contact.phase with
  | callingCq =>
    simp only [message?, hphase, Option.some.injEq] at h
    by_cases hgrid : a.station.grid = ""
    · rw [if_pos hgrid] at h
      exact h ▸ .call hphase hgrid
    · rw [if_neg hgrid] at h
      exact h ▸ .callFrom hphase hgrid
  | replying =>
    simp only [message?, hphase] at h
    obtain ⟨p, htarget, rfl⟩ := Option.map_eq_some_iff.1 h
    exact .answer hphase htarget
  | exchanging =>
    simp only [message?, hphase] at h
    obtain ⟨p, htarget, rfl⟩ := Option.map_eq_some_iff.1 h
    obtain ⟨level, hlevel⟩ := Option.isSome_iff_exists.1 (hmeasured hphase)
    rw [hlevel, Option.getD_some]
    cases hrole : a.contact.role with
    | caller => exact .report hphase hrole htarget hlevel
    | replier => exact .rogerReport hphase hrole htarget hlevel
  | logging =>
    simp only [message?, hphase] at h
    obtain ⟨p, htarget, rfl⟩ := Option.map_eq_some_iff.1 h
    cases hrole : a.contact.role with
    | caller => exact .roger hphase hrole htarget
    | replier => exact .seventyThree hphase hrole htarget
  | idle | awaitingReply | awaitingConfirm | manual => simp [message?, hphase] at h

theorem Means.sender (h : a.Means m) : m.sender? = some a.station.call := by
  cases h <;> rfl

/-- All but a call to everybody is directed at the partner. -/
theorem Means.isFor (h : a.Means m) (hcall : a.contact.phase ≠ .callingCq) :
    ∃ p, a.contact.target = some p ∧ m.isFor p = true := by
  cases h with
  | call hphase | callFrom hphase => exact absurd hphase hcall
  | answer _ htarget | report _ _ htarget | rogerReport _ _ htarget | roger _ _ htarget
  | seventyThree _ _ htarget => exact ⟨_, htarget, Text.sameCall_refl _⟩

/-- **What a phase means can be sent,** but for an answer without a grid: a call leaves an empty
grid out, the answer does not. -/
theorem Means.sendable (h : a.Means m) (hme : IsToken a.station.call)
    (hpartner : ∀ p, a.contact.target = some p → IsToken p ∧ p ≠ "CQ")
    (hgrid : a.station.grid = "" ∨ isGridSquare a.station.grid = true)
    (hanswer : ¬(a.contact.phase = .replying ∧ a.station.grid = "")) : m.Sendable := by
  have pair : ∀ {p}, a.contact.target = some p → IsPair p a.station.call := by
    intro p hp
    exact ⟨(hpartner p hp).1, (hpartner p hp).2, hme⟩
  cases h with
  | call hphase hnone => exact ⟨by simp, hme, by simp, by simp⟩
  | callFrom hphase hsome =>
    have hsquare := hgrid.resolve_left hsome
    exact ⟨by simp, hme, by simpa using hsquare, by simp⟩
  | answer hphase htarget =>
    have hsquare := hgrid.resolve_left fun hnone => hanswer ⟨hphase, hnone⟩
    exact ⟨pair htarget, hsquare⟩
  | report _ _ htarget | rogerReport _ _ htarget | roger _ _ htarget
  | seventyThree _ _ htarget => exact pair htarget

/-- **What is sent is heard.**  Wherever a course has led an automatic
operator, and whatever a slot then sends that was not queued by hand:
what is read of it is what the phase means, from this operator and, but
for a call to everybody, for its partner.  Only an answer without a grid
is read as free text. -/
theorem sent_is_heard {operator : Nat} {station : Station} {policy : Policy}
    {course : List Occasion} {slot : Slot} {granted : Bool} {b : Automaton} {outcome : SlotOutcome}
    {t : Transmission}
    (hslot : ((idle operator station policy).live course).beginSlot slot granted = (b, outcome))
    (ht : outcome.transmission = some t) (hmanual : b.contact.phase ≠ .manual)
    (hme : IsToken b.station.call)
    (hpartner : ∀ p, b.contact.target = some p → IsToken p ∧ p ≠ "CQ")
    (hgrid : b.station.grid = "" ∨ isGridSquare b.station.grid = true) :
    (¬(b.contact.phase = .replying ∧ b.station.grid = "") →
      (∃ m, b.Means m ∧ parse t.message = m.clamped) ∧
      (parse t.message).sender? = some b.station.call ∧
      (b.contact.phase ≠ .callingCq →
        ∃ p, b.contact.target = some p ∧ (parse t.message).isFor p = true)) ∧
    (b.contact.phase = .replying → b.station.grid = "" →
      parse t.message = .freeText (normalText t.message)) := by
  have hair : b.OnAirIn slot t :=
    onAirIn_of_transmission (disciplined_live operator station policy course) hslot ht hmanual
  obtain ⟨m, hm, rfl⟩ := hair.message
  have hmeans : b.Means m := means_of_message? hm hair.measured
  constructor
  · intro hbare
    have hread : parse m.text = m.clamped :=
      parse_text (hmeans.sendable hme hpartner hgrid hbare)
    refine ⟨⟨m, hmeans, hread⟩, ?_, ?_⟩
    · rw [hread, sender?_clamped]
      exact hmeans.sender
    · intro hcall
      obtain ⟨p, htarget, hfor⟩ := hmeans.isFor hcall
      refine ⟨p, htarget, ?_⟩
      rw [hread, isFor_clamped]
      exact hfor
  · intro hphase hnone
    cases hmeans with
    | answer _ htarget =>
      obtain ⟨htoken, hcq⟩ := hpartner _ htarget
      rw [hnone]
      exact parse_bare_answer ⟨htoken, hcq, hme⟩
    | call h | callFrom h | report h | rogerReport h | roger h | seventyThree h =>
      rw [hphase] at h
      simp at h

/-- A caller without a grid gives the lowest report there is to a station
that it hardly hears. -/
theorem sent_is_heard_faint :
    let station := Station.ofCall "K1ABC" "" 700 [0]
    let answer : Frame := ⟨"K1ABC W9XYZ EN37", -33, 0, 0, 0⟩
    let course : List Occasion := [.told .callCq, .slot (Mode.ft8.slot 0) true, .heard answer]
    let next := ((idle 0 station {}).live course).beginSlot (Mode.ft8.slot 2) true
    let t : Transmission := ⟨0, "W9XYZ K1ABC -30", 700, 30000⟩
    next.2.transmission = some t ∧ next.1.contact.reportSent = some (-33) ∧
      parse t.message = .report "W9XYZ" "K1ABC" (-30) ∧
      (∃ m, next.1.Means m ∧ parse t.message = m.clamped) ∧
      (parse t.message).sender? = some next.1.station.call ∧
      ∃ p, next.1.contact.target = some p ∧ (parse t.message).isFor p = true := by
  intro station answer course next t
  have hslot : ((idle 0 station {}).live course).beginSlot (Mode.ft8.slot 2) true =
      (next.1, next.2) := (Prod.eta next).symm
  have ht : next.2.transmission = some t := by decide +kernel
  have htarget : next.1.contact.target = some "W9XYZ" := by decide +kernel
  have hpartner : ∀ p, next.1.contact.target = some p → IsToken p ∧ p ≠ "CQ" := by
    intro p hp
    have hsame : p = "W9XYZ" := Option.some.inj (hp.symm.trans htarget)
    rw [hsame]
    exact ⟨by decide +kernel, by decide⟩
  have hbare : ¬(next.1.contact.phase = .replying ∧ next.1.station.grid = "") := by
    decide +kernel
  have hheard := (sent_is_heard hslot ht (by decide +kernel) (by decide +kernel) hpartner
    (.inl (by decide +kernel))).1 hbare
  exact ⟨ht, by decide +kernel, by decide +kernel, hheard.1, hheard.2.1,
    hheard.2.2 (by decide +kernel)⟩

/-- **An operator without a grid cannot answer a call.**  Its partner, who
has just called, reads two calls that are meant for nobody. -/
theorem bare_answer_unheard :
    let station := Station.ofCall "K1ABC" "" 1500 [0]
    let caller := ((idle 1 (Station.ofCall "W9XYZ" "EN37" 700 [1]) {}).obey .callCq).1
    let outcome :=
      ((idle 0 station {}).live [.told (.callStation "W9XYZ" none)]).beginSlot
        (Mode.ft8.slot 0) true
    let t : Transmission := ⟨0, "W9XYZ K1ABC ", 1500, 0⟩
    IsToken outcome.1.station.call ∧ IsToken "W9XYZ" ∧ outcome.1.station.grid = "" ∧
      outcome.1.contact.phase = .replying ∧ outcome.1.contact.target = some "W9XYZ" ∧
      outcome.2.transmission = some t ∧ parse t.message = .freeText "W9XYZ K1ABC" ∧
      (parse t.message).sender? = none ∧ (parse t.message).isFor "W9XYZ" = false ∧
      caller.concerns ⟨t.message, 0, 0, 0, 0⟩ = false := by
  decide +kernel

end Automaton

end SlotRadio
