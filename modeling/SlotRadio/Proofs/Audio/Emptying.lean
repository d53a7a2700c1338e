import Mathlib.Tactic.ByContra
import SlotRadio.Proofs.Audio.Minding
/-!
# When the last clip goes

A mix that is due should find something to mix (`Supplied`).  Whatever
gives up the clips gives up the mix as well, with one exception: when the
last clip is dropped after a composite has been made, nothing is touched
but the clips, so that the dropping can be mixed.  A mix that was due all
the same stays due, with nothing to mix (`strands`).

* `supplied_meet_iff` — this is the only request by which a mix that is
  due comes to be without clips;
* `due_mix_has_clips` — so a course of requests never has one exactly if
  none of them strands a mix;
* `due_mix_without_clips` — a mixer that is asked for a composite while
  another mix is due, and then loses its clip.
-/

namespace SlotRadio.Mixer

variable {m : Mixer}

/-- A mix that is due has clips. -/
def Supplied (m : Mixer) : Prop :=
  m.dueAt.isSome = true → m.clips ≠ []

/-- Where no mix is due nothing is missing. -/
theorem supplied_of_none (h : m.dueAt = none) : m.Supplied := by
  intro hdue
  rw [h] at hdue
  cases hdue

/-- Where someone is listed there is something to mix. -/
theorem Coherent.supplied (h : m.Coherent) (hlisted : m.order ≠ []) : m.Supplied :=
  fun _ hnil => hlisted (h.clips_eq_nil_iff.1 hnil)

/-- The last clip goes when a composite has been made of it, and another
mix is due. -/
def strands (m : Mixer) : MixerRequest → Bool
  | .remove operator =>
    decide (m.stage = .mixed) && m.dueAt.isSome && m.order == [operator]
  | .add _ | .clear | .schedule .. | .cancel | .takeIfDue _ | .takeWaiting _ | .plan ..
  | .planAgain .. | .record _ | .mixAll _ | .mixIfDue _ | .mixAgain _ | .beginPlayback _ => false

/-! ## One request -/

/-- A clip that is offered takes no other away, except with the mix that is due: the one way to lose
them is to belong to another slot, and that calls the mix off. -/
theorem Supplied.add (h : m.Supplied) (hcoherent : m.Coherent) (clip : Clip) :
    (m.add clip).1.Supplied := by
  rcases add_outcome m clip with ⟨-, hadd⟩ | ⟨-, hturned, -⟩ | ⟨accepted, -, -, hadd⟩
  · rw [hadd]
    exact h
  · rw [hturned]
    cases helse : m.isElsewhere clip.slotStartMs with
    | true =>
      rw [turnTo_of_elsewhere helse]
      exact supplied_of_none rfl
    | false =>
      rw [turnTo_of_here helse]
      exact h
  · rw [hadd]
    have hturned := hcoherent.turnTo clip.slotStartMs
    exact (hturned.store clip).supplied (hturned.order_store_ne_nil clip)

/-- A mix is asked for only where something is cached. -/
theorem Coherent.supplied_schedule (h : m.Coherent) (now : Nat) (target : Option Nat) :
    (m.schedule now target).1.Supplied := by
  have hsame := sameCache_schedule m now target
  rcases schedule_cases m now target with ⟨-, heq⟩ | ⟨counts, late, -, -, heq⟩ |
    ⟨at_, hne, -, heq⟩
  · rw [heq]
    exact supplied_of_none (dueAt_cancel m)
  · rw [heq]
    exact supplied_of_none (dueAt_cancel m)
  · refine (h.congr hsame.entries hsame.order).supplied ?_
    rw [hsame.order]
    exact hne

/-- Taking the mix that is due leaves none due. -/
theorem Supplied.takeIfDue (h : m.Supplied) (now : Nat) : (m.takeIfDue now).1.Supplied := by
  unfold Mixer.takeIfDue
  split
  · exact supplied_of_none rfl
  · exact h

/-- Taking the mix that is waited for leaves none due. -/
theorem Supplied.takeWaiting (h : m.Supplied) (quality : Quality) :
    (m.takeWaiting quality).1.Supplied := by
  unfold Mixer.takeWaiting
  split
  · exact h
  · exact supplied_of_none rfl

/-- A mix that has been made leaves what is due and its clips alone, or
empties the mixer. -/
theorem Supplied.record (h : m.Supplied) (result : Except MixFault MixSummary) :
    (m.record result).1.Supplied := by
  rcases record_cases m result with ⟨hsame, -⟩ | ⟨hclear, -⟩
  · cases hdue : m.dueAt with
    | none => exact supplied_of_none (dueAt_record hdue result)
    | some due =>
      intro _
      rw [hsame.clips]
      exact h (by rw [hdue]; rfl)
  · rw [hclear]
    exact supplied_of_none rfl

/-- So does making it. -/
theorem Supplied.mixIfDue (h : m.Supplied) (now : Nat) : (m.mixIfDue now).1.Supplied := by
  have htaken := h.takeIfDue now
  unfold Mixer.mixIfDue
  split
  · next taken heq =>
    rw [heq] at htaken
    exact htaken.record _
  · next taken heq =>
    rw [heq] at htaken
    exact htaken

/-- **Only the last clip can leave a mix without clips**, and it does so
if the mixer has a composite and another mix is due. -/
theorem supplied_remove_iff (hcoherent : m.Coherent) (h : m.Supplied) (operator : Nat) :
    (m.remove operator).1.Supplied ↔ m.strands (.remove operator) = false := by
  rcases remove_cases m operator with ⟨hnone, heq⟩ | ⟨hsome, ⟨-, hstage, heq⟩ | ⟨hleft, heq⟩⟩
  · have habsent := (hcoherent.entries_eq_none_iff operator).1 hnone
    have hother : m.order ≠ [operator] := fun hlast => habsent (by simp [hlast])
    rw [heq]
    simp [h, strands, hother]
  · rw [heq]
    simp [supplied_of_none, strands, hstage]
  · have hlast : m.order = [operator] ↔ (m.without operator).clips = [] := by
      rw [(hcoherent.without operator).clips_eq_nil_iff]
      constructor
      · intro hlast
        simp [without, hlast]
      · intro hnil
        exact order_eq_singleton hcoherent hsome (by rw [heq]; exact hnil)
    have hmixed : (m.without operator).clips = [] → m.stage = .mixed := fun hnil => by
      by_contra hstage
      exact hleft ⟨(hcoherent.without operator).clips_eq_nil_iff.1 hnil, hstage⟩
    have hdue : (m.without operator).dueAt = m.dueAt := rfl
    rw [heq]
    by_cases hnil : (m.without operator).clips = []
    · simp [Supplied, strands, hlast, hnil, hmixed, hdue]
    · simp [Supplied, strands, hlast, hnil]

/-- **How a mix that is due comes to be without clips.** Of the fourteen operations only a removal
can strand one, as `strands` says. -/
theorem supplied_meet_iff (hcoherent : m.Coherent) (h : m.Supplied) (r : MixerRequest) :
    (m.meet r).1.Supplied ↔ m.strands r = false := by
  cases r with
  | remove operator => exact supplied_remove_iff hcoherent h operator
  | add clip => exact iff_of_true (h.add hcoherent clip) rfl
  | clear => exact iff_of_true (supplied_of_none rfl) rfl
  | schedule now target => exact iff_of_true (hcoherent.supplied_schedule now target) rfl
  | cancel => exact iff_of_true (supplied_of_none (dueAt_cancel m)) rfl
  | takeIfDue now => exact iff_of_true (h.takeIfDue now) rfl
  | takeWaiting quality => exact iff_of_true (h.takeWaiting quality) rfl
  | plan elapsedMs quality => exact iff_of_true h rfl
  | planAgain playedMs quality => exact iff_of_true (supplied_of_none (dueAt_cancel m)) rfl
  | record result => exact iff_of_true (h.record result) rfl
  | mixAll elapsedMs => exact iff_of_true (h.record _) rfl
  | mixIfDue now => exact iff_of_true (h.mixIfDue now) rfl
  | mixAgain playedMs =>
    have hplanned : (m.planAgain playedMs .spectral).1.dueAt = none := dueAt_cancel m
    exact iff_of_true (supplied_of_none (dueAt_record hplanned _)) rfl
  | beginPlayback now => exact iff_of_true h rfl

/-! ## Courses of requests -/

/-- One of the requests strands a mix. -/
def strandsIn (m : Mixer) : List MixerRequest → Bool
  | [] => false
  | r :: rest => m.strands r || (m.meet r).1.strandsIn rest

/-- **A mix that is due always has clips**, if and only if none of the
requests strands one. -/
theorem supplied_run_iff (hregular : m.Regular) (h : m.Supplied) (requests : List MixerRequest) :
    (∀ first, first <+: requests → (m.run first).1.Supplied) ↔ m.strandsIn requests = false := by
  induction requests generalizing m with
  | nil =>
    refine iff_of_true ?_ rfl
    intro first hfirst
    rw [List.prefix_nil.1 hfirst]
    exact h
  | cons r rest ih =>
    have hnext : (m.meet r).1.Regular := hregular.meet r
    have hstep := supplied_meet_iff hregular.toCoherent h r
    rw [strandsIn, Bool.or_eq_false_iff]
    constructor
    · intro hall
      have hmet : (m.meet r).1.Supplied := hall [r] (by simp)
      refine ⟨hstep.1 hmet, (ih hnext hmet).1 ?_⟩
      intro first hfirst
      exact hall (r :: first) (List.cons_prefix_cons.2 ⟨rfl, hfirst⟩)
    · rintro ⟨hfirst, hrest⟩ first hprefix
      rcases List.prefix_cons_iff.1 hprefix with rfl | ⟨later, rfl, hlater⟩
      · exact h
      · exact (ih hnext (hstep.2 hfirst)).2 hrest later hlater

/-- Who takes the mix that is due has something to mix, and so has the mixer itself, since taking it
needs one that is due. -/
theorem Supplied.finds (h : m.Supplied) :
    (∀ now, (m.takeIfDue now).2 = true → m.clips ≠ []) ∧
      (∀ now, (m.mixIfDue now).2.isSome = true → m.clips ≠ []) ∧
      ∀ quality plan, (m.takeWaiting quality).2 = some plan → plan.clips ≠ [] := by
  have htaken : ∀ now, (m.takeIfDue now).2 = true → m.clips ≠ [] := by
    intro now htrue
    apply h
    unfold Mixer.takeIfDue at htrue
    split at htrue
    · next hdue =>
      obtain ⟨due, hsome, -⟩ := (Option.any_eq_true ..).1 hdue
      rw [hsome]
      rfl
    · cases htrue
  refine ⟨htaken, ?_, ?_⟩
  · intro now hmade
    apply htaken now
    unfold Mixer.mixIfDue at hmade
    split at hmade
    · next heq => rw [heq]
    · cases hmade
  · intro quality plan hplan
    unfold Mixer.takeWaiting at hplan
    split at hplan
    · cases hplan
    · next due hdue =>
      obtain rfl := Option.some.inj hplan
      exact h (by rw [hdue]; rfl)

/-- **No mix is due when nothing is cached**, as long as no request
strands one, and not otherwise: whatever a mixer is asked, a mix that is
due has clips at every time if and only if the last clip never goes while
there is a composite and another mix is due.  Then nobody makes a mix of
nothing because it is due. -/
theorem due_mix_has_clips (settings : MixerSettings) (requests : List MixerRequest) :
    let start := empty settings
    ((∀ first, first <+: requests →
        (start.run first).1.dueAt.isSome = true → (start.run first).1.clips ≠ []) ↔
      start.strandsIn requests = false) ∧
    (start.strandsIn requests = false → ∀ first, first <+: requests →
      let m := (start.run first).1
      (∀ now, (m.takeIfDue now).2 = true → m.clips ≠ []) ∧
        (∀ now, (m.mixIfDue now).2.isSome = true → m.clips ≠ []) ∧
        ∀ quality plan, (m.takeWaiting quality).2 = some plan → plan.clips ≠ []) := by
  intro start
  have hregular : start.Regular := regular_of_nothing (fun _ => rfl) rfl
  have hiff := supplied_run_iff hregular (supplied_of_none rfl) requests
  refine ⟨hiff, ?_⟩
  intro hnever first hfirst
  exact (hiff.2 hnever first hfirst).finds

/-- A composite is made while another mix is due, and its only clip is
dropped.  The other mix stays due, is made in the end, and finds
nothing. -/
theorem due_mix_without_clips :
    let requests : List MixerRequest := [.add ⟨1, #[0.25, 0.25, 0.25, 0.25], 12000, 0, 0, none⟩,
      .schedule 1000 none, .mixAll 0, .remove 1]
    let m := ((empty {}).run requests).1
    m.clips.length = 0 ∧ m.dueAt = some 1100 ∧ (m.takeIfDue 1100).2 = true ∧
      m.counts.underruns = 0 ∧ (m.mixIfDue 1100).1.counts.underruns = 1 ∧
      (empty {}).strandsIn requests = true := by
  decide +kernel

end SlotRadio.Mixer
