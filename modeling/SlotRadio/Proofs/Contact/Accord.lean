import Mathlib.Data.List.Forall2
import SlotRadio.Proofs.Contact.Stance
import SlotRadio.Proofs.Message.Reading
/-!
# Two stations in accord

A caller and a replier share a channel that may lose anything.  Neither
knows what the other has heard, but their stances never contradict each
other: `Accord` lists the pairs that can occur, together with what the
two logs have in common.

* A contact that the caller is closing is one in which the replier has
  sent its report, with both reports known on both sides.
* A contact that the replier is closing is one that the caller has
  logged already, and that entry has not been used.
* While the replier, having started over, takes itself for the caller,
  no contact is closed at all.

`Accord.meeting` and `Accord.settles` — what a slot does keeps the accord.
-/

namespace SlotRadio

open Stance Message

/-- What can be read of a message that is on the air in a stance. -/
inductive Stance.Says (me : String) : Stance → Message → Prop where
  | call {modifier : Option String} {sender : String} {square : Option String}
      (hsender : IsToken sender) : Says me free (.cq modifier sender square)
  | garbledCall {text : String} : Says me free (.freeText text)
  | answer {p square : String} : Says me (calling p) (.grid p me square)
  | garbledAnswer {p : String} {square : Option String} : Says me (calling p) (.cq none me square)
  | report {p : String} {given : Int} {got : Option Int} :
      Says me (contact .reported .caller p given got) (.report p me (clampReport given))
  | rogerReport {p : String} {given : Int} {got : Option Int} :
      Says me (contact .reported .replier p given got) (.rogerReport p me (clampReport given))
  | roger {p : String} {given : Int} {got : Option Int} :
      Says me (contact .closing .caller p given got) (.roger p me true)
  | seventyThree {p : String} {given : Int} {got : Option Int} :
      Says me (contact .closing .replier p given got) (.seventyThree p me)

/-- **What is on the air can be read,** or is a call that nobody takes
for anything else. -/
theorem says_message {me grid : String} {s : Stance} (hme : IsToken me)
    (hpartner : ∀ p, s.partner? = some p → IsToken p)
    (hcalling : ∀ p, s = calling p → isGridSquare grid = true)
    (hcontact : ∀ stage role p given got, s = contact stage role p given got → p ≠ "CQ") :
    Says me s.sent (parse (s.sent.message me grid).text) := by
  cases s with
  | free =>
    rcases parse_call me (if grid = "" then none else some grid) with
      ⟨modifier, sender, square, h, hsender⟩ | ⟨text, h⟩
    · exact h ▸ .call hsender
    · exact h ▸ .garbledCall
  | calling p =>
    have hgrid := hcalling p rfl
    by_cases hcq : p = "CQ"
    · -- An answer to a station of that name looks like a call.
      have hread : read (Message.grid p me grid).text = ["CQ", me, grid] := by
        refine (read_text ?_).trans (by rw [hcq]; rfl)
        intro t ht
        simp only [tokens, List.mem_cons, List.not_mem_nil, or_false] at ht
        rcases ht with rfl | rfl | rfl
        · exact hpartner t rfl
        · exact hme
        · exact isToken_grid hgrid
      have hparse : parse (Message.grid p me grid).text = .cq none me (some grid) := by
        rw [parse_eq, hread]
        simp [ofTokens?, ofCall?, hgrid]
      show Says me (calling p) (parse (Message.grid p me grid).text)
      rw [hparse]
      exact .garbledAnswer
    · have hsend : (Message.grid p me grid).Sendable := ⟨⟨hpartner p rfl, hcq, hme⟩, hgrid⟩
      exact (parse_text hsend) ▸ .answer
  | contact stage role p given got =>
    have hpair : IsPair p me := ⟨hpartner p rfl, hcontact _ _ _ _ _ rfl, hme⟩
    cases role with
    | caller =>
      cases stage with
      | opened =>
        have hsend : (Message.report p me given).Sendable := hpair
        exact (parse_text hsend) ▸ .report
      | reported =>
        have hsend : (Message.report p me given).Sendable := hpair
        exact (parse_text hsend) ▸ .report
      | closing =>
        have hsend : (Message.roger p me true).Sendable := hpair
        exact (parse_text hsend) ▸ .roger
    | replier =>
      cases stage with
      | opened =>
        have hsend : (Message.rogerReport p me given).Sendable := hpair
        exact (parse_text hsend) ▸ .rogerReport
      | reported =>
        have hsend : (Message.rogerReport p me given).Sendable := hpair
        exact (parse_text hsend) ▸ .rogerReport
      | closing =>
        have hsend : (Message.seventyThree p me).Sendable := hpair
        exact (parse_text hsend) ▸ .seventyThree

/-! ## Logs that agree -/

/-- Two entries of one contact, seen from its two ends: the calls are
crossed, and each side got the report that the other gave. -/
structure Twin (a b : String) (x y : LogEntry) : Prop where
  mine : x.myCall = a ∧ y.theirCall = a
  theirs : x.theirCall = b ∧ y.myCall = b
  forth : ∃ given, x.reportSent = some given ∧ y.reportReceived = some (clampReport given)
  back : ∃ given, y.reportSent = some given ∧ x.reportReceived = some (clampReport given)

/-- Every entry of the second log has a twin of its own in the first. -/
def Matched (a b : String) (first second : List LogEntry) : Prop :=
  ∃ used : List LogEntry, used.Sublist first ∧ List.Forall₂ (Twin a b) used second

/-- Besides, the first log has an entry whose twin is still to come. -/
def Awaited (a b : String) (given : Int) (got : Option Int) (first second : List LogEntry) : Prop :=
  ∃ (used : List LogEntry) (x : LogEntry), (used ++ [x]).Sublist first ∧
    List.Forall₂ (Twin a b) used second ∧ x.myCall = a ∧ x.theirCall = b ∧
    x.reportReceived = some (clampReport given) ∧
    ∃ level, x.reportSent = some level ∧ got = some (clampReport level)

section

variable {a b : String} {la lb : List LogEntry}

/-- What the first operator logs besides needs no twin. -/
theorem Matched.append_left (h : Matched a b la lb) (xs : List LogEntry) :
    Matched a b (la ++ xs) lb := by
  obtain ⟨used, hsub, htwins⟩ := h
  exact ⟨used, hsub.trans (List.sublist_append_left la xs), htwins⟩

/-- The twin that was to come has come. -/
theorem Awaited.log {given : Int} {got : Option Int} {y : LogEntry}
    (h : Awaited a b given got la lb) (hmine : y.myCall = b) (htheirs : y.theirCall = a)
    (hsent : y.reportSent = some given) (hgot : y.reportReceived = got) :
    Matched a b la (lb ++ [y]) := by
  obtain ⟨used, x, hsub, htwins, hmine', htheirs', hgot', level, hsent', rfl⟩ := h
  have htwin : Twin a b x y :=
    ⟨⟨hmine', htheirs⟩, ⟨htheirs', hmine⟩, ⟨level, hsent', hgot⟩, ⟨given, hsent, hgot'⟩⟩
  exact ⟨used ++ [x], hsub, List.rel_append htwins (.cons htwin .nil)⟩

/-- The entry whose twin is still to come takes none away from the others. -/
theorem Awaited.matched {given : Int} {got : Option Int} (h : Awaited a b given got la lb) :
    Matched a b la lb := by
  obtain ⟨used, x, hsub, htwins, -⟩ := h
  exact ⟨used, (List.sublist_append_left used [x]).trans hsub, htwins⟩

/-! ## Stances that can occur together -/

/-- The stances of a caller that is not closing its contact with `b`. -/
inductive Stance.Asks (b : String) : Stance → Prop where
  | free : Asks b free
  | contact {stage : Stage} {given : Int} {got : Option Int} (hstage : stage ≠ .closing) :
      Asks b (contact stage .caller b given got)

/-- The stances of a replier that is not in a contact as such: it answers
a call, or it takes itself for a caller. -/
inductive Stance.Seeks (a : String) : Stance → Prop where
  | asks {t : Stance} (ht : t.Asks a) : Seeks a t
  | calling {p : String} (hp : IsToken p) : Seeks a (calling p)

/-- The stances of a caller and a replier that can occur together, with
what their logs have in common. -/
inductive Accord (a b : String) (la lb : List LogEntry) : Stance → Stance → Prop where
  | seeking {s t : Stance} (hs : s.Asks b) (ht : t.Seeks a) (h : Matched a b la lb) :
      Accord a b la lb s t
  | alone {given : Int} {got : Option Int} (h : Matched a b la lb) :
      Accord a b la lb (contact .closing .caller b given got) free
  | dropped {stage : Stage} {given : Int} {got : Option Int} (hstage : stage ≠ .closing)
      (h : Matched a b la lb) :
      Accord a b la lb free (contact stage .replier a given got)
  | reported {stage : Stage} {x y : Int} {got : Option Int} (hstage : stage ≠ .closing)
      (h : Matched a b la lb) :
      Accord a b la lb (contact .reported .caller b y got)
        (contact stage .replier a x (some (clampReport y)))
  | closing {x y : Int} (h : Matched a b la lb) :
      Accord a b la lb (contact .closing .caller b y (some (clampReport x)))
        (contact .reported .replier a x (some (clampReport y)))
  | awaited {x : Int} {got : Option Int} (h : Awaited a b x got la lb) :
      Accord a b la lb free (contact .closing .replier a x got)

variable {s t s' t' : Stance}

/-- The caller may start over at any time. -/
theorem Accord.free_left (h : Accord a b la lb s t) : Accord a b la lb free t := by
  cases h with
  | seeking _ ht h => exact .seeking .free ht h
  | alone h => exact .seeking .free (.asks .free) h
  | dropped hstage h => exact .dropped hstage h
  | reported hstage h => exact .dropped hstage h
  | closing h => exact .dropped Stage.noConfusion h
  | awaited h => exact .awaited h

/-- The replier may start over at any time. -/
theorem Accord.free_right (h : Accord a b la lb s t) : Accord a b la lb s free := by
  cases h with
  | seeking hs _ h => exact .seeking hs (.asks .free) h
  | alone h => exact .alone h
  | dropped _ h => exact .seeking .free (.asks .free) h
  | reported _ h => exact .seeking (.contact Stage.noConfusion) (.asks .free) h
  | closing h => exact .alone h
  | awaited h => exact .seeking .free (.asks .free) h.matched

/-- A caller that is not closing its contact is not closing it after it has
sent either. -/
theorem asks_sent (h : s.Asks b) : s.sent.Asks b := by
  cases h with
  | free => exact .free
  | contact hstage => exact .contact (Stage.sent_ne_closing hstage)

/-- A replier that is not in a contact as such is not in one after it has sent
either. -/
theorem seeks_sent (h : t.Seeks a) : t.sent.Seeks a := by
  cases h with
  | asks ht => exact .asks (asks_sent ht)
  | calling hp => exact .calling hp

/-- **Sending keeps the accord,** on either side. -/
theorem Accord.sent_left (h : Accord a b la lb s t) : Accord a b la lb s.sent t := by
  cases h with
  | seeking hs ht h => exact .seeking (asks_sent hs) ht h
  | alone h => exact .alone h
  | dropped hstage h => exact .dropped hstage h
  | reported hstage h => exact .reported hstage h
  | closing h => exact .closing h
  | awaited h => exact .awaited h

/-- Sending keeps the accord on the replier's side as well. -/
theorem Accord.sent_right (h : Accord a b la lb s t) : Accord a b la lb s t.sent := by
  cases h with
  | seeking hs ht h => exact .seeking hs (seeks_sent ht) h
  | alone h => exact .alone h
  | dropped hstage h => exact .dropped (Stage.sent_ne_closing hstage) h
  | reported hstage h => exact .reported (Stage.sent_ne_closing hstage) h
  | closing h => exact .closing h
  | awaited h => exact .awaited h

/-! ## What the caller hears

Calls do not reach it, since it follows no station. -/

/-- What the caller may hear of a replier in a stance. -/
def Hearable (a b : String) (t : Stance) (m : Message) : Prop :=
  Says b t m ∧ m.isFor a = true

variable {m : Message} {snr x y : Int} {got : Option Int} {stage : Stage} {p : String}

/-- A caller that hears no confirmed report does not close: it opens a
contact, or sends its report again. -/
theorem asks_of_seeks (hs : s.Asks b) (ht : t.Seeks a) (hm : Hearable a b t m)
    (h : Advances a snr m s s') :
    (∃ x got, s = free ∧ s' = contact .opened .caller b x got) ∨
      ∃ stage x got, s = contact stage .caller b x got ∧
        s' = contact .reported .caller b x got := by
  obtain ⟨hspoken, hfor⟩ := hm
  cases ht with
  | asks ht =>
    cases ht with
    | free => cases hspoken <;> simp [isFor, addressee?] at hfor
    | contact hstage =>
      cases hspoken with
      | roger => exact absurd rfl hstage
      | report =>
        cases hs with
        | free =>
          cases h
          exact .inl ⟨_, _, rfl, rfl⟩
        | contact => cases h
  | calling =>
    cases hspoken with
    | garbledAnswer => simp [isFor, addressee?] at hfor
    | answer =>
      cases hs with
      | free =>
        cases h
        exact .inl ⟨_, _, rfl, rfl⟩
      | contact =>
        cases h
        exact .inr ⟨_, _, _, rfl, rfl⟩

/-- A caller without a contact takes nothing from a replier that is in
one. -/
theorem not_advances_of_replier (hm : Hearable a b (contact stage .replier p x got) m) :
    ¬ Advances a snr m free s' := by
  intro h
  obtain ⟨hspoken, -⟩ := hm
  cases hspoken <;> cases h

/-- A caller that has sent its report closes with the report of the replier, within the limits that
a message can carry; nothing else the replier says moves a caller on. -/
theorem closes_of_rogerReport {stage' : Stage} {q : String} {got' : Option Int}
    (hm : Hearable a b (contact stage .replier p x got) m) (hstage : stage ≠ .closing)
    (h : Advances a snr m (contact stage' .caller q y got') s') :
    stage = .reported ∧ s' = contact .closing .caller q y (some (clampReport x)) := by
  obtain ⟨hspoken, -⟩ := hm
  cases hspoken with
  | rogerReport =>
    cases h
    exact ⟨rfl, rfl⟩
  | seventyThree => exact absurd rfl hstage

/-! ## What the replier hears -/

/-- Who is in a contact takes no call. -/
theorem not_advances_of_call {role : Role} (hm : Says a free m) :
    ¬ Advances b snr m (contact stage role p x got) t' := by
  intro h
  cases hm <;> cases h

/-- A replier that takes itself for a caller takes nothing from a caller
that is not closing. -/
theorem not_advances_of_asks (hs : s.Asks b) (hm : Says a s m) :
    ¬ Advances b snr m (contact stage .caller p x got) t' := by
  intro h
  cases hs with
  | free => exact not_advances_of_call hm h
  | contact hstage =>
    cases hm with
    | roger => exact absurd rfl hstage
    | report => cases h

/-- A replier without a contact answers a call, or takes a report for the
answer to one of its own calls. -/
theorem seeks_of_free (hs : s.Asks b) (hm : Says a s m) (h : Advances b snr m free t') :
    t'.Seeks a := by
  cases hs with
  | free =>
    cases hm with
    | call hsender =>
      cases h
      exact .calling hsender
    | garbledCall => cases h
  | contact hstage =>
    cases hm with
    | roger => exact absurd rfl hstage
    | report =>
      cases h
      exact .asks (.contact Stage.noConfusion)

/-- Without a contact the closing message means nothing. -/
theorem not_advances_of_closing (hm : Says a (contact .closing .caller p x got) m) :
    ¬ Advances b snr m free t' := by
  intro h
  cases hm
  cases h

/-- A replier that answers a call gets a report from its caller. Only a report opens its contact,
and a caller sends one only to the station whose answer it has heard. -/
theorem opened_of_calling (ha : IsToken a) (hp : IsToken p) (hs : s.Asks b) (hm : Says a s m)
    (h : Advances b snr m (calling p) t') :
    ∃ y got, s = contact .reported .caller b y got ∧
      t' = contact .opened .replier a snr (some (clampReport y)) := by
  cases hs with
  | free => cases hm <;> cases h
  | contact hstage =>
    cases hm with
    | roger => exact absurd rfl hstage
    | report =>
      cases h with
      | firstReport hsame =>
        obtain rfl := hp.eq_of_sameCall ha hsame
        exact ⟨_, _, rfl, rfl⟩

/-- A report that is repeated is the same report.  The replier's own one
changes only before it has been sent. -/
theorem repeats_of_report {got' : Option Int} (hm : Says a (contact .reported .caller b y got') m)
    (h : Advances b snr m (contact stage .replier a x (some (clampReport y))) t') :
    t' = contact .opened .replier a snr (some (clampReport y)) ∧ stage = .opened ∨
      t' = contact .reported .replier a x (some (clampReport y)) ∧ stage ≠ .opened := by
  cases hm
  cases h with
  | newReport => exact .inl ⟨rfl, rfl⟩
  | reportAgain _ hstage => exact .inr ⟨rfl, hstage⟩

/-- The closing message closes the contact on the other side. -/
theorem closes_of_roger {got' : Option Int} {role : Role} {q : String}
    (hm : Says a (contact .closing .caller b y got') m)
    (h : Advances b snr m (contact stage role q x got) t') :
    t' = contact .closing role q x got := by
  cases hm
  cases h
  rfl

/-! ## What a slot does to the accord -/

/-- A contact that is not closing outlasts the end of a transmission. -/
theorem ended_of_ne_closing {onAir : Bool} {role : Role} (hstage : stage ≠ .closing) :
    (contact stage role p x got).ended onAir = contact stage role p x got := by
  cases onAir <;> cases stage <;> first | rfl | exact absurd rfl hstage

/-- Only a contact that is closing is logged. -/
theorem logs_of_ne_closing {onAir : Bool} {role : Role} {me : String} {entries : List LogEntry}
    (hstage : stage ≠ .closing) (h : (contact stage role p x got).Logs me onAir entries) :
    entries = [] := by
  cases onAir <;> cases stage <;> first | exact h | exact absurd rfl hstage

/-- Who has no partner loses none at the end of a transmission. -/
theorem free_ended (onAir : Bool) : free.ended onAir = free := by
  cases onAir <;> rfl

/-- Who has no partner has nothing to log. -/
theorem free_logs {onAir : Bool} {me : String} {entries : List LogEntry}
    (h : free.Logs me onAir entries) : entries = [] := by
  cases onAir <;> exact h

/-- A caller that is not closing keeps its stance at the end of a
transmission. -/
theorem asks_ended {onAir : Bool} (hs : s.Asks b) : s.ended onAir = s := by
  cases hs with
  | free => exact free_ended onAir
  | contact hstage => exact ended_of_ne_closing hstage

/-- A caller that is not closing logs nothing. -/
theorem asks_logs {onAir : Bool} {me : String} {entries : List LogEntry} (hs : s.Asks b)
    (h : s.Logs me onAir entries) : entries = [] := by
  cases hs with
  | free => exact free_logs h
  | contact hstage => exact logs_of_ne_closing hstage h

/-- A replier that is not in a contact as such keeps its stance at the end of
a transmission. -/
theorem seeks_ended {onAir : Bool} (ht : t.Seeks a) : t.ended onAir = t := by
  cases ht with
  | asks ht => exact asks_ended ht
  | calling => cases onAir <;> rfl

/-- A replier that is not in a contact as such logs nothing. -/
theorem seeks_logs {onAir : Bool} {me : String} {entries : List LogEntry} (ht : t.Seeks a)
    (h : t.Logs me onAir entries) : entries = [] := by
  cases ht with
  | asks ht => exact asks_logs ht h
  | calling => cases onAir <;> exact h

/-- What a slot does to a caller and a replier: what was on the air ends
and is logged, and each may hear what was on the air on the other side. -/
structure Meeting (a b : String) (onAir onAir' : Bool) (s t s' t' : Stance)
    (xa xb : List LogEntry) : Prop where
  caller : s' = s.ended onAir ∨
    ∃ snr m, onAir' = true ∧ Hearable a b t m ∧ Advances a snr m (s.ended onAir) s'
  replier : t' = t.ended onAir' ∨
    ∃ snr m, onAir = true ∧ Says a s m ∧ Advances b snr m (t.ended onAir') t'
  callerLogs : s.Logs a onAir xa
  replierLogs : t.Logs b onAir' xb

variable {onAir onAir' : Bool} {xa xb : List LogEntry}

/-- Where the caller is not closing, and the replier is not in a contact as
such, a slot leads at most to a contact in which the replier answers a report.
Nobody logs. -/
theorem accord_of_seeking (ha : IsToken a) (h : Meeting a b onAir onAir' s t s' t' xa xb)
    (hs : s.Asks b) (ht : t.Seeks a) (hlogs : Matched a b la lb) :
    Accord a b (la ++ xa) (lb ++ xb) s' t' := by
  obtain ⟨hcaller, hreplier, hxa, hxb⟩ := h
  rw [asks_ended hs] at hcaller
  rw [seeks_ended ht] at hreplier
  obtain rfl := asks_logs hs hxa
  obtain rfl := seeks_logs ht hxb
  rw [List.append_nil, List.append_nil]
  have hasks : s'.Asks b := by
    rcases hcaller with rfl | ⟨snr, m, -, hm, hadvances⟩
    · exact hs
    · rcases asks_of_seeks hs ht hm hadvances with ⟨x, got, -, rfl⟩ | ⟨stage, x, got, -, rfl⟩
      · exact .contact Stage.noConfusion
      · exact .contact Stage.noConfusion
  rcases hreplier with rfl | ⟨snr, n, -, hn, hadvances⟩
  · exact .seeking hasks ht hlogs
  · cases ht with
    | asks ht =>
      cases ht with
      | free => exact .seeking hasks (seeks_of_free hs hn hadvances) hlogs
      | contact => exact absurd hadvances (not_advances_of_asks hs hn)
    | calling hp =>
      obtain ⟨y, got, rfl, rfl⟩ := opened_of_calling ha hp hs hn hadvances
      rcases hcaller with rfl | ⟨snr, m, -, hm, hadvances⟩
      · exact .reported Stage.noConfusion hlogs
      · rcases asks_of_seeks hs (.calling hp) hm hadvances with
          ⟨_, _, hfree, -⟩ | ⟨_, _, _, heq, rfl⟩
        · simp at hfree
        · simp only [Stance.contact.injEq] at heq
          obtain ⟨-, -, -, rfl, -⟩ := heq
          exact .reported Stage.noConfusion hlogs

/-- A caller that is closing logs its contact, whether or not anybody is there
to hear it; the second log is as before. -/
theorem accord_of_alone {given : Int}
    (h : Meeting a b onAir onAir' (contact .closing .caller b given got) free s' t' xa xb)
    (hlogs : Matched a b la lb) : Accord a b (la ++ xa) (lb ++ xb) s' t' := by
  obtain ⟨hcaller, hreplier, -, hxb⟩ := h
  rw [free_ended] at hreplier
  obtain rfl := free_logs hxb
  rw [List.append_nil]
  have hs : s' = (contact .closing .caller b given got).ended onAir := by
    rcases hcaller with rfl | ⟨snr, m, -, ⟨hspoken, hfor⟩, -⟩
    · rfl
    · cases hspoken <;> simp [isFor, addressee?] at hfor
  have ht : t' = free := by
    rcases hreplier with rfl | ⟨snr, n, -, hn, hadvances⟩
    · rfl
    · exact absurd hadvances (not_advances_of_closing hn)
  rw [hs, ht]
  cases onAir with
  | true => exact .seeking .free (.asks .free) (hlogs.append_left xa)
  | false => exact .alone (hlogs.append_left xa)

/-- A replier that the caller has dropped goes on without it, or gives up;
nobody logs before it is closing. -/
theorem accord_of_dropped
    (h : Meeting a b onAir onAir' free (contact stage .replier a x got) s' t' xa xb)
    (hstage : stage ≠ .closing) (hlogs : Matched a b la lb) :
    Accord a b (la ++ xa) (lb ++ xb) s' t' := by
  obtain ⟨hcaller, hreplier, hxa, hxb⟩ := h
  rw [free_ended] at hcaller
  rw [ended_of_ne_closing hstage] at hreplier
  obtain rfl := free_logs hxa
  obtain rfl := logs_of_ne_closing hstage hxb
  rw [List.append_nil, List.append_nil]
  rcases hcaller with rfl | ⟨snr, m, -, hm, hadvances⟩
  · rcases hreplier with rfl | ⟨snr, n, -, hn, hadvances⟩
    · exact .dropped hstage hlogs
    · exact absurd hadvances (not_advances_of_call hn)
  · exact absurd hadvances (not_advances_of_replier hm)

/-- While both exchange reports, the replier can only have got the report that
the caller has given. -/
theorem accord_of_reported {y : Int}
    (h : Meeting a b onAir onAir' (contact .reported .caller b y got)
      (contact stage .replier a x (some (clampReport y))) s' t' xa xb)
    (hstage : stage ≠ .closing) (hlogs : Matched a b la lb) :
    Accord a b (la ++ xa) (lb ++ xb) s' t' := by
  obtain ⟨hcaller, hreplier, hxa, hxb⟩ := h
  rw [ended_of_ne_closing Stage.noConfusion] at hcaller
  rw [ended_of_ne_closing hstage] at hreplier
  obtain rfl := logs_of_ne_closing Stage.noConfusion hxa
  obtain rfl := logs_of_ne_closing hstage hxb
  rw [List.append_nil, List.append_nil]
  have ht : (∃ x', t' = contact .opened .replier a x' (some (clampReport y)) ∧ stage = .opened) ∨
      ∃ stage', t' = contact stage' .replier a x (some (clampReport y)) ∧ stage' ≠ .closing ∧
        (stage = .reported → stage' = .reported) := by
    rcases hreplier with rfl | ⟨snr, n, -, hn, hadvances⟩
    · exact .inr ⟨stage, rfl, hstage, id⟩
    · rcases repeats_of_report hn hadvances with ⟨rfl, rfl⟩ | ⟨rfl, -⟩
      · exact .inl ⟨snr, rfl, rfl⟩
      · exact .inr ⟨.reported, rfl, Stage.noConfusion, fun _ => rfl⟩
  rcases hcaller with rfl | ⟨snr, m, -, hm, hadvances⟩
  · rcases ht with ⟨x', rfl, -⟩ | ⟨stage', rfl, hstage', -⟩
    · exact .reported Stage.noConfusion hlogs
    · exact .reported hstage' hlogs
  · obtain ⟨rfl, rfl⟩ := closes_of_rogerReport hm hstage hadvances
    rcases ht with ⟨x', -, hopened⟩ | ⟨stage', rfl, -, hreported⟩
    · exact Stage.noConfusion hopened
    · rw [hreported rfl]
      exact .closing hlogs

/-- Where the caller is closing, it logs at the end of its message; a replier
that has heard the message still has the twin to log. -/
theorem accord_of_closing {y : Int}
    (h : Meeting a b onAir onAir' (contact .closing .caller b y (some (clampReport x)))
      (contact .reported .replier a x (some (clampReport y))) s' t' xa xb)
    (hlogs : Matched a b la lb) : Accord a b (la ++ xa) (lb ++ xb) s' t' := by
  obtain ⟨hcaller, hreplier, hxa, hxb⟩ := h
  rw [ended_of_ne_closing Stage.noConfusion] at hreplier
  obtain rfl := logs_of_ne_closing Stage.noConfusion hxb
  rw [List.append_nil]
  cases onAir with
  | false =>
    obtain rfl : xa = [] := hxa
    rw [List.append_nil]
    have ht : t' = contact .reported .replier a x (some (clampReport y)) := by
      rcases hreplier with rfl | ⟨_, _, hair, -⟩
      · rfl
      · simp at hair
    rw [ht]
    rcases hcaller with rfl | ⟨snr, m, -, hm, hadvances⟩
    · exact .closing hlogs
    · obtain ⟨-, rfl⟩ := closes_of_rogerReport hm Stage.noConfusion hadvances
      exact .closing hlogs
  | true =>
    obtain ⟨e, rfl, hmine, htheirs, hsent, hgot⟩ := hxa
    have hs : s' = free := by
      rcases hcaller with rfl | ⟨snr, m, -, hm, hadvances⟩
      · rfl
      · exact absurd hadvances (not_advances_of_replier hm)
    rw [hs]
    rcases hreplier with rfl | ⟨snr, n, -, hn, hadvances⟩
    · exact .dropped Stage.noConfusion (hlogs.append_left [e])
    · rw [closes_of_roger hn hadvances]
      obtain ⟨used, hsub, htwins⟩ := hlogs
      exact .awaited ⟨used, e, hsub.append_right [e], htwins, hmine, htheirs, hgot, y, hsent, rfl⟩

/-- A replier that is closing logs the twin that the first log was waiting for, once it has been on
the air; the caller is free again and says nothing that would advance the replier. -/
theorem accord_of_awaited
    (h : Meeting a b onAir onAir' free (contact .closing .replier a x got) s' t' xa xb)
    (hlogs : Awaited a b x got la lb) : Accord a b (la ++ xa) (lb ++ xb) s' t' := by
  obtain ⟨hcaller, hreplier, hxa, hxb⟩ := h
  rw [free_ended] at hcaller
  obtain rfl := free_logs hxa
  rw [List.append_nil]
  have hs : s' = free := by
    rcases hcaller with rfl | ⟨snr, m, -, hm, hadvances⟩
    · rfl
    · exact absurd hadvances (not_advances_of_replier hm)
  rw [hs]
  cases onAir' with
  | false =>
    obtain rfl : xb = [] := hxb
    rw [List.append_nil]
    rcases hreplier with rfl | ⟨snr, n, -, hn, hadvances⟩
    · exact .awaited hlogs
    · exact absurd hadvances (not_advances_of_call hn)
  | true =>
    obtain ⟨e, rfl, hmine, htheirs, hsent, hgot⟩ := hxb
    have hmatched := hlogs.log hmine htheirs hsent hgot
    rcases hreplier with rfl | ⟨snr, n, -, hn, hadvances⟩
    · exact .seeking .free (.asks .free) hmatched
    · exact .seeking .free (seeks_of_free .free hn hadvances) hmatched

/-- **A slot keeps the accord** of what is ended, logged and heard. -/
theorem Accord.meeting (ha : IsToken a) (h : Accord a b la lb s t)
    (hmeeting : Meeting a b onAir onAir' s t s' t' xa xb) :
    Accord a b (la ++ xa) (lb ++ xb) s' t' := by
  cases h with
  | seeking hs ht h => exact accord_of_seeking ha hmeeting hs ht h
  | alone h => exact accord_of_alone hmeeting h
  | dropped hstage h => exact accord_of_dropped hmeeting hstage h
  | reported hstage h => exact accord_of_reported hmeeting hstage h
  | closing h => exact accord_of_closing hmeeting h
  | awaited h => exact accord_of_awaited hmeeting h

/-- **A slot keeps the accord** of what both sides settle into. What they hear is met first, and
going free afterwards, on either side, is allowed from wherever that has led. -/
theorem Accord.settles {fromA fromB : Option Message} (ha : IsToken a) (h : Accord a b la lb s t)
    (hA : ∀ n ∈ fromA, onAir = true ∧ Says a s n)
    (hB : ∀ m ∈ fromB, onAir' = true ∧ Hearable a b t m)
    (hxa : s.Logs a onAir xa) (hxb : t.Logs b onAir' xb) (hs : Settles a fromB onAir s s')
    (ht : Settles b fromA onAir' t t') : Accord a b (la ++ xa) (lb ++ xb) s' t' := by
  obtain ⟨s₁, hs₁, hs'⟩ := hs
  obtain ⟨t₁, ht₁, ht'⟩ := ht
  have hmeeting : Meeting a b onAir onAir' s t s₁ t₁ xa xb := by
    refine ⟨?_, ?_, hxa, hxb⟩
    · rcases hs₁ with heq | ⟨snr, m, hm, hadvances⟩
      · exact .inl heq
      · exact .inr ⟨snr, m, (hB m hm).1, (hB m hm).2, hadvances⟩
    · rcases ht₁ with heq | ⟨snr, n, hn, hadvances⟩
      · exact .inl heq
      · exact .inr ⟨snr, n, (hA n hn).1, (hA n hn).2, hadvances⟩
  have hmet := h.meeting ha hmeeting
  have hleft : Accord a b (la ++ xa) (lb ++ xb) s' t₁ := by
    rcases hs' with rfl | rfl
    · exact hmet
    · exact hmet.free_left
  rcases ht' with rfl | rfl
  · exact hleft
  · exact hleft.free_right

end

end SlotRadio
