import SlotRadio.Proofs.Contact.Poise
/-!
# Texts queued by hand

In manual operation an operator sends the texts that it is given, one in
each granted slot.  A **session** begins when it is told to operate by hand
and lasts until it is told something else.

* `slot_by_hand` — a slot sends the first text of the queue, or nothing;
* `phase_manual_beginSlot` — no slot enters or leaves manual operation;
* `queue_of_not_manual` — who is not in manual operation after a step has
  an empty queue or the one it had, and a step that leaves manual operation
  with texts in the queue is a call;
* `serves_meet`, `Serves.append` — what is queued in a session is sent in
  order or is queued still;
* `queue_by_session` — what a session sends, and what it leaves behind.
-/

namespace SlotRadio

/-- True for a command to call somebody. -/
def Command.isCall : Command → Bool
  | callCq | callStation .. => true
  | abort | setManual _ | queueMessage _ => false

/-- True for a command that ends a session. -/
def Command.endsSession : Command → Bool
  | callCq | callStation .. | abort | setManual false => true
  | setManual true | queueMessage _ => false

/-- True for an occasion that ends a session. -/
def Occasion.endsSession : Occasion → Bool
  | told c => c.endsSession
  | heard _ | moved _ | slot .. => false

/-- The text that an occasion queues in a session. -/
def Occasion.queues : Occasion → List String
  | told (.queueMessage text) => [Message.normalText text]
  | told _ | heard _ | moved _ | slot .. => []

/-- The cycle that an occasion grants. -/
def Occasion.grants : Occasion → List Nat
  | slot s true => [s.cycle]
  | slot _ false | told _ | heard _ | moved _ => []

namespace Automaton

variable {a : Automaton} {slot : Slot} {granted : Bool} {o : Occasion}

/-! ## Entering and leaving manual operation -/

theorem phase_manual_finish (a : Automaton) (slot : Slot) :
    (a.finish slot).1.contact.phase = .manual ↔ a.contact.phase = .manual := by
  rcases finish_cases a slot with ⟨_, -, heq⟩ | ⟨next, -, hnext, heq⟩ |
    ⟨_, _, -, hphase, -, heq⟩ <;> rw [heq]
  · rcases hnext with ⟨hphase | hphase, rfl⟩ | ⟨hphase, rfl⟩ <;> simp [hphase]
  · simp [hphase]

/-- Who gives up was waiting for an answer, and so was not in manual operation; who counts on keeps
the phase. -/
theorem phase_manual_countSilence (a : Automaton) (slot : Slot) (granted progressed : Bool) :
    (a.countSilence slot granted progressed).1.contact.phase = .manual ↔
      a.contact.phase = .manual := by
  rcases countSilence_cases a slot granted progressed with heq |
    ⟨hawaits, -, ⟨-, heq | heq⟩ | ⟨-, _, -, heq⟩⟩ <;> rw [heq]
  · rfl
  · have hmanual : a.contact.phase ≠ .manual := by
      intro hmanual
      simp [hmanual, Phase.awaits] at hawaits
    simp [hmanual]

theorem phase_manual_settle (a : Automaton) (slot : Slot) (granted : Bool) :
    (a.settle slot granted).1.contact.phase = .manual ↔ a.contact.phase = .manual := by
  rw [settle_eq, phase_manual_countSilence, phase_listen, phase_manual_finish]

/-- **No slot** enters or leaves manual operation: what it enters is staged, and neither is manual
operation ever staged nor is anything staged while it lasts. -/
theorem phase_manual_beginSlot (h : a.Steady) (slot : Slot) (granted : Bool) :
    (a.beginSlot slot granted).1.contact.phase = .manual ↔ a.contact.phase = .manual := by
  rw [← phase_manual_settle a slot granted]
  cases granted with
  | false => rfl
  | true =>
    have hsettle := listening_settle h.toDisciplined slot true
    have hpoised := poised_settle h slot true
    obtain ⟨sent, hcontact⟩ := contact_send (a.settle slot true).1 slot
    rw [beginSlot_granted_fst, hcontact]
    cases hstaged : (a.settle slot true).1.staged with
    | none => rfl
    | some p =>
      -- What is staged is a sending phase, and nothing is staged by hand.
      have hready := hsettle.staged p hstaged
      constructor
      · intro hp
        obtain rfl : p = .manual := hp
        exact hready.elim
      · intro hmanual
        rw [hpoised.byHand hmanual] at hstaged
        cases hstaged

/-- A command enters manual operation, ends it, or leaves it alone; being told to turn it on is the
one that enters. -/
theorem phase_manual_obey (a : Automaton) (c : Command) :
    (a.obey c).1.contact.phase = .manual ↔
      c = .setManual true ∨ c.endsSession = false ∧ a.contact.phase = .manual := by
  cases c with
  | callCq =>
    simp only [obey]
    split
    · next hphase => simp [hphase, Command.endsSession]
    · simp [Command.endsSession]
  | callStation call grid => simp [obey, Command.endsSession]
  | abort => simp [obey, Command.endsSession]
  | setManual on =>
    cases on with
    | true => simp [obey]
    | false =>
      simp only [obey]
      split
      · simp [Command.endsSession]
      · next hphase => simpa [Command.endsSession] using hphase
  | queueMessage text =>
    simp only [obey]
    split <;> simp [Command.endsSession]

/-- **Only a command** enters or leaves manual operation. -/
theorem phase_manual_meet (h : a.Steady) (o : Occasion) :
    (a.meet o).contact.phase = .manual ↔
      o = .told (.setManual true) ∨ o.endsSession = false ∧ a.contact.phase = .manual := by
  cases o with
  | told c => simpa [meet, Occasion.endsSession] using phase_manual_obey a c
  | heard f =>
    simp only [meet, receive]
    split <;> simp [Occasion.endsSession]
  | moved s => simp [meet, updateStation, Occasion.endsSession]
  | slot slot granted =>
    simpa [meet, Occasion.endsSession] using phase_manual_beginSlot h slot granted

/-! ## The queue -/

/-- Outside manual operation no slot touches the queue, as the next text is taken from it in manual
operation only. -/
theorem queue_beginSlot (hmanual : (a.beginSlot slot granted).1.contact.phase ≠ .manual) :
    (a.beginSlot slot granted).1.queue = a.queue := by
  rw [← (sameSetUp_settle a slot granted).queue]
  cases granted with
  | false => rfl
  | true =>
    obtain ⟨sent, hcontact⟩ := contact_transmit (a.settle slot true).1.enterStaged.1 slot
    rw [beginSlot_granted_fst, send] at hmanual ⊢
    rw [hcontact] at hmanual
    rw [transmit, nextText_of_not_manual hmanual]
    cases (a.settle slot true).1.enterStaged.1.message? <;>
      simp [enterStaged_fst]

/-- **A slot in manual operation** sends the first text of the queue, if it
is granted and there is one. -/
theorem slot_by_hand (h : a.Steady) (hmanual : a.contact.phase = .manual) (slot : Slot)
    (granted : Bool) :
    (a.beginSlot slot granted).2.transmission.toList.map (·.message) ++
      (a.beginSlot slot granted).1.queue = a.queue := by
  rw [← (sameSetUp_settle a slot granted).queue]
  cases granted with
  | false => rfl
  | true =>
    have hphase := (phase_manual_settle a slot true).2 hmanual
    have hnone := (poised_settle h slot true).byHand hphase
    have henter : (a.settle slot true).1.enterStaged.1 = (a.settle slot true).1 := by
      rw [enterStaged_of_none hnone]
    rw [beginSlot_granted_transmission, beginSlot_granted_fst, send, henter]
    rcases transmit_of_listening (by rw [hphase]; rfl) slot with heq | ⟨text, rest, -, hq, heq⟩
    · rw [heq]
      rfl
    · rw [heq, hq]
      rfl

/-- **Who is not in manual operation** has nothing queued, or what it had.
If it has left manual operation with texts in the queue, a call made it
leave. -/
theorem queue_of_not_manual (h : a.Steady) (hafter : (a.meet o).contact.phase ≠ .manual) :
    (a.meet o).queue = [] ∨ (a.meet o).queue = a.queue ∧
      (a.contact.phase = .manual → ∃ c, o = .told c ∧ c.isCall = true) := by
  rw [Ne, phase_manual_meet h] at hafter
  cases o with
  | told c =>
    simp only [meet]
    cases c with
    | callCq =>
      refine .inr ⟨?_, fun _ => ⟨_, rfl, rfl⟩⟩
      simp only [obey]
      split <;> simp [restart]
    | callStation call grid =>
      refine .inr ⟨?_, fun _ => ⟨_, rfl, rfl⟩⟩
      simp [obey, restart]
    | abort => exact .inl (by simp [obey])
    | setManual on =>
      cases on with
      | true => exact absurd (.inl rfl) hafter
      | false =>
        left
        simp only [obey]
        split <;> simp
    | queueMessage text =>
      have hnot : a.contact.phase ≠ .manual := fun hmanual => hafter (.inr ⟨rfl, hmanual⟩)
      rw [obey, if_neg hnot]
      exact .inr ⟨rfl, fun hmanual => absurd hmanual hnot⟩
  | heard f =>
    refine .inr ⟨?_, fun hmanual => absurd (.inr ⟨rfl, hmanual⟩) hafter⟩
    simp only [meet, receive]
    split <;> rfl
  | moved s => exact .inr ⟨rfl, fun hmanual => absurd (.inr ⟨rfl, hmanual⟩) hafter⟩
  | slot slot granted =>
    have hnot : a.contact.phase ≠ .manual := fun hmanual => hafter (.inr ⟨rfl, hmanual⟩)
    refine .inr ⟨queue_beginSlot ?_, fun hmanual => absurd hmanual hnot⟩
    rwa [Ne, phase_manual_beginSlot h]

/-- Along a course a call has ended manual operation and left these texts in
the queue. -/
def LeftByCall (a : Automaton) (course : List Occasion) (texts : List String) : Prop :=
  ∃ before c after, course = before ++ .told c :: after ∧ c.isCall = true ∧
    (a.live before).contact.phase = .manual ∧ (a.live before).queue = texts

/-- **Outside manual operation** nothing is queued, but for what a call has left. By induction along
the course: every other end of a session clears the queue, and outside it grows by nothing. -/
theorem queue_empty_or_left (hsteady : a.Steady) (hempty : a.queue = [])
    {course : List Occasion} (h : (a.live course).contact.phase ≠ .manual) :
    (a.live course).queue = [] ∨ a.LeftByCall course (a.live course).queue := by
  induction course using List.reverseRecOn with
  | nil => exact .inl hempty
  | append_singleton course o ih =>
    have hlive := hsteady.live course
    rw [live_concat] at h ⊢
    rcases queue_of_not_manual hlive h with hnone | ⟨hsame, hleft⟩
    · exact .inl hnone
    rw [hsame]
    by_cases hmanual : (a.live course).contact.phase = .manual
    · obtain ⟨c, rfl, hcall⟩ := hleft hmanual
      exact .inr ⟨course, c, [], rfl, hcall, hmanual, rfl⟩
    · refine (ih hmanual).imp_right ?_
      rintro ⟨before, c, after, rfl, hcall, hbefore, hkept⟩
      exact ⟨before, c, after ++ [o], by simp, hcall, hbefore, hkept⟩

/-! ## Sessions -/

/-- What happens in a session of manual operation: the texts are sent in the
order in which they were queued, each once, and at most one in each granted
slot. -/
structure Serves (a : Automaton) (session : List Occasion) : Prop where
  lasts : ∀ o ∈ session, o.endsSession = false
  inOrder : (a.sentAlong session).map (·.2.message) ++ (a.live session).queue =
    a.queue ++ session.flatMap Occasion.queues
  granted : ((a.sentAlong session).map Prod.fst).Sublist (session.flatMap Occasion.grants)

theorem Serves.nil (a : Automaton) : a.Serves [] :=
  ⟨by simp, (List.append_nil _).symm, .slnil⟩

theorem Serves.append {first second : List Occasion} (h : a.Serves first)
    (k : (a.live first).Serves second) : a.Serves (first ++ second) where
  lasts := List.forall_mem_append.2 ⟨h.lasts, k.lasts⟩
  inOrder := by
    rw [sentAlong_append, live_append, List.map_append, List.flatMap_append, List.append_assoc,
      k.inOrder, ← List.append_assoc, h.inOrder, List.append_assoc]
  granted := by
    rw [sentAlong_append, List.map_append, List.flatMap_append]
    exact h.granted.append k.granted

/-- A command that does not end the session queues what it says, and only a text that is to be sent
says anything. -/
theorem queue_obey {c : Command} (hmanual : a.contact.phase = .manual)
    (hlasts : c.endsSession = false) :
    (a.obey c).1.queue = a.queue ++ (Occasion.told c).queues := by
  cases c with
  | setManual on =>
    cases on with
    | true =>
      rw [obey, goTo_fst]
      exact (List.append_nil _).symm
    | false => cases hlasts
  | queueMessage text =>
    rw [obey, if_pos hmanual]
    rfl
  | callCq | callStation _ _ | abort => cases hlasts

/-- What is queued is sent or stays in the queue, and what else is queued
comes last. -/
theorem queue_meet (h : a.Steady) (hmanual : a.contact.phase = .manual)
    (hlasts : o.endsSession = false) :
    (a.sends o).map (·.2.message) ++ (a.meet o).queue = a.queue ++ o.queues := by
  cases o with
  | told c => exact queue_obey hmanual hlasts
  | heard f =>
    rw [Occasion.queues, List.append_nil, meet, receive]
    split <;> rfl
  | moved s => exact (List.append_nil _).symm
  | slot slot granted =>
    rw [Occasion.queues, List.append_nil, sends, List.map_map]
    exact slot_by_hand h hmanual slot granted

/-- **Only a granted slot** sends, and one text only. -/
theorem sends_granted (a : Automaton) (o : Occasion) :
    ((a.sends o).map Prod.fst).Sublist o.grants := by
  cases o with
  | told _ | heard _ | moved _ => exact .slnil
  | slot slot granted =>
    cases ht : (a.beginSlot slot granted).2.transmission with
    | none => simp [sends, ht]
    | some t =>
      obtain ⟨rfl, -⟩ := beginSlot_carries ht
      simp [sends, ht, Occasion.grants]

/-- **Who stays in manual operation** goes on with the session: one more occasion queues and sends
as a session does. -/
theorem serves_meet (h : a.Steady) (hmanual : a.contact.phase = .manual)
    (hafter : (a.meet o).contact.phase = .manual) : a.Serves [o] := by
  have hlasts : o.endsSession = false := by
    rcases (phase_manual_meet h o).1 hafter with rfl | ⟨hlasts, -⟩
    · rfl
    · exact hlasts
  refine ⟨by simpa using hlasts, ?_, ?_⟩
  · rw [sentAlong_singleton, List.flatMap_singleton]
    exact queue_meet h hmanual hlasts
  · rw [sentAlong_singleton, List.flatMap_singleton]
    exact sends_granted a o

/-- **Who is in manual operation** is in a session: the course can be cut at the command that began
it, and since then the phase has been served without a break. -/
theorem exists_session (hsteady : a.Steady) (hout : a.contact.phase ≠ .manual)
    {course : List Occasion} (h : (a.live course).contact.phase = .manual) :
    ∃ before session, course = before ++ .told (.setManual true) :: session ∧
      (a.live before).contact.phase ≠ .manual ∧
      ((a.live before).obey (.setManual true)).1.Serves session := by
  induction course using List.reverseRecOn with
  | nil => exact absurd h hout
  | append_singleton course o ih =>
    have hlive := hsteady.live course
    rw [live_concat] at h
    by_cases hmanual : (a.live course).contact.phase = .manual
    · obtain ⟨before, session, rfl, hbefore, hserves⟩ := ih hmanual
      have hsession : a.live (before ++ .told (.setManual true) :: session) =
          ((a.live before).obey (.setManual true)).1.live session := live_append ..
      have hnext := serves_meet hlive hmanual h
      rw [hsession] at hnext
      exact ⟨before, session ++ [o], by simp, hbefore, hserves.append hnext⟩
    · rcases (phase_manual_meet hlive o).1 h with rfl | ⟨-, hstill⟩
      · exact ⟨course, [], rfl, hmanual, .nil _⟩
      · exact absurd hstill hmanual

/-- **Texts and their session.**  Wherever a course has led an operator:

* outside manual operation nothing is queued, but for what a call has left
  when it ended manual operation;
* in manual operation it is in a session, which began with an empty queue
  or with what a call had left, and has sent its texts in the order in which
  they were queued, each once and at most one in each granted slot. -/
theorem queue_by_session (operator : Nat) (station : Station) (policy : Policy)
    (course : List Occasion) :
    let start := idle operator station policy
    let a := start.live course
    (a.contact.phase ≠ .manual → a.queue = [] ∨ start.LeftByCall course a.queue) ∧
    (a.contact.phase = .manual →
      ∃ before session, course = before ++ .told (.setManual true) :: session ∧
        (start.live before).contact.phase ≠ .manual ∧
        let b := ((start.live before).obey (.setManual true)).1
        (b.queue = [] ∨ start.LeftByCall before b.queue) ∧ b.Serves session) := by
  intro start a
  have hsteady : start.Steady := steady_idle operator station policy
  have hqueue : ∀ course, (start.live course).contact.phase ≠ .manual →
      (start.live course).queue = [] ∨ start.LeftByCall course (start.live course).queue :=
    fun _ h => queue_empty_or_left hsteady rfl h
  refine ⟨hqueue course, ?_⟩
  intro hmanual
  obtain ⟨before, session, hcourse, hbefore, hserves⟩ :=
    exists_session hsteady Phase.noConfusion hmanual
  refine ⟨before, session, hcourse, hbefore, ?_, hserves⟩
  have hsame :
      ((start.live before).obey (.setManual true)).1.queue = (start.live before).queue := by
    rw [obey, goTo_fst]
  rw [hsame]
  exact hqueue before hbefore

/-- **A call leaves a session's texts in the queue,** and the next session
sends them. -/
theorem queue_by_session_stale :
    let start := idle 1 (Station.ofCall "K1ABC" "FN42" 1500 [0]) {}
    let course : List Occasion :=
      [.told (.setManual true), .told (.queueMessage "TEST DE K1ABC"), .told .callCq]
    let later := course ++ [.told (.setManual true)]
    (start.live course).contact.phase = .idle ∧
      (start.live course).queue = ["TEST DE K1ABC"] ∧
      ((start.live later).beginSlot (Mode.ft8.slot 0) true).2.transmission =
        some ⟨1, "TEST DE K1ABC", 1500, 0⟩ := by
  decide +kernel

end Automaton

end SlotRadio
