import Mathlib.Data.List.DropRight
import SlotRadio.Proofs.Message.Reading
/-!
# The normal form of a text

A text is read as a message, and the message has a text of its own: the
**normal form** of the first.  The two need not agree, because blanks are
dropped, letters put in capitals and reports held within thirty dB.  But
both are read alike, so the normal form of the normal form is itself.

What is read is either made of tokens and can be sent (`sendable_ofTokens?`),
or it is free text that is stripped and in capitals already
(`normalText_normalText`) and cut into the same tokens (`read_normalText`).

* `round_trip` — what was sent is what is read, and what was read and sent
  again is read alike.
-/

namespace SlotRadio

namespace Text

/-! ## Stripping twice -/

/-- After its leading blanks a text begins with a visible character, and
dropping characters at the end does not change that. -/
theorem dropWhile_trim (cs : List Char) : (trim cs).dropWhile isBlank = trim cs := by
  have hkept : trim cs = (cs.dropWhile isBlank).rdropWhile isBlank := rfl
  have hfront : (cs.dropWhile isBlank).dropWhile isBlank = cs.dropWhile isBlank :=
    List.dropWhile_idempotent _ _
  rw [List.dropWhile_eq_self_iff] at hfront ⊢
  intro hlength
  have hpart : trim cs <+: cs.dropWhile isBlank := hkept ▸ List.rdropWhile_prefix _ _
  have hlonger : 0 < (cs.dropWhile isBlank).length := Nat.lt_of_lt_of_le hlength hpart.length_le
  rw [hpart.getElem hlength]
  exact hfront hlonger

/-- **Stripping twice is stripping once.** -/
theorem trim_trim (cs : List Char) : trim (trim cs) = trim cs := by
  calc trim (trim cs)
      = ((trim cs).dropWhile isBlank).rdropWhile isBlank := rfl
    _ = (trim cs).rdropWhile isBlank := by rw [dropWhile_trim]
    _ = trim cs := List.rdropWhile_idempotent _ _

theorem trim_map_toUpper (cs : List Char) :
    trim (cs.map Char.toUpper) = (trim cs).map Char.toUpper := by
  have hsame : isBlank ∘ Char.toUpper = isBlank := funext isBlank_toUpper
  have hdrop : ∀ l : List Char,
      (l.map Char.toUpper).dropWhile isBlank = (l.dropWhile isBlank).map Char.toUpper := by
    intro l
    rw [List.dropWhile_map, hsame]
  simp only [trim, hdrop, ← List.map_reverse]

end Text

namespace Message

/-! ## Reports -/

theorem clampReport_clampReport (snr : Int) : clampReport (clampReport snr) = clampReport snr := by
  unfold clampReport
  omega

/-- A report is written as its partner will read it. -/
theorem reportText_clampReport (snr : Int) : reportText (clampReport snr) = reportText snr := by
  unfold reportText
  rw [clampReport_clampReport]

/-- **Holding the report back does not change the text.** -/
theorem text_clamped (m : Message) : m.clamped.text = m.text := by
  cases m <;> simp [clamped, text, tokens, reportText_clampReport]

/-! ## Free text -/

theorem text_freeText (line : String) : (freeText line).text = line := by
  unfold text tokens
  rw [List.map_singleton, List.intercalate_singleton, String.ofList_toList]

/-- **A text in normal form stays as it is.** -/
theorem normalText_normalText (s : String) : normalText (normalText s) = normalText s := by
  unfold normalText Text.capitals
  simp only [String.toList_ofList, Text.trim_map_toUpper, Text.trim_trim, List.map_map]
  congr 1
  exact List.map_congr_left fun c _ => Text.toUpper_toUpper c

/-- Bringing a text into its normal form changes no token of it. -/
theorem read_normalText (s : String) : read (normalText s) = read s := by
  unfold read normalText
  have hcut : Text.words (Text.capitals (String.ofList (Text.trim s.toList))).toList =
      (Text.words s.toList).map (·.map Char.toUpper) := by
    unfold Text.capitals
    simp only [String.toList_ofList, Text.words_map_toUpper, Text.words_trim]
  rw [hcut, List.map_map]
  apply List.map_congr_left
  intro w _
  have hword : String.ofList (w.map Char.toUpper) = Text.capitals (String.ofList w) := by
    simp [Text.capitals]
  show Text.capitals (String.ofList (w.map Char.toUpper)) = _
  rw [hword, Text.capitals_capitals]

/-! ## What is read can be sent -/

/-- What is read after `CQ` can be sent: every part of it is a token, and what stands where only a
grid may stand has been checked to be one. -/
theorem sendable_ofCall? {ts : List String} (hts : ∀ t ∈ ts, IsToken t) {m : Message}
    (h : ofCall? ts = some m) : m.Sendable := by
  unfold ofCall? at h
  split at h
  · next sender =>
    obtain rfl := Option.some.inj h
    exact ⟨by simp, hts sender (by simp), by simp, by simp⟩
  · next a b =>
    have ha : IsToken a := hts a (by simp)
    have hb : IsToken b := hts b (by simp)
    obtain rfl := Option.some.inj h
    by_cases hgrid : isGridSquare b = true
    · rw [if_pos hgrid]
      exact ⟨by simp, ha, by simpa using hgrid, by simp⟩
    · rw [if_neg hgrid]
      exact ⟨by simpa using ha, hb, by simp, by simpa using hgrid⟩
  · next modifier sender square =>
    have hmodifier : IsToken modifier := hts modifier (by simp)
    have hsender : IsToken sender := hts sender (by simp)
    by_cases hgrid : isGridSquare square = true
    · rw [if_pos hgrid] at h
      obtain rfl := Option.some.inj h
      exact ⟨by simpa using hmodifier, hsender, by simpa using hgrid, by simp⟩
    · rw [if_neg hgrid] at h
      simp at h
  · simp at h

/-- What is read between two calls can be sent. -/
theorem sendable_ofContent? {addressee sender content : String} (hpair : IsPair addressee sender)
    {m : Message} (h : ofContent? addressee sender content = some m) : m.Sendable := by
  unfold ofContent? at h
  split at h
  · obtain rfl := Option.some.inj h
    exact hpair
  · split at h
    · obtain rfl := Option.some.inj h
      exact hpair
    · split at h
      · obtain rfl := Option.some.inj h
        exact hpair
      · split at h
        · next hgrid =>
          obtain rfl := Option.some.inj h
          exact ⟨hpair, hgrid⟩
        · split at h
          · obtain ⟨level, -, rfl⟩ := Option.map_eq_some_iff.1 h
            exact hpair
          · obtain ⟨level, -, rfl⟩ := Option.map_eq_some_iff.1 h
            exact hpair

/-- **What tokens are read as can be sent.** -/
theorem sendable_ofTokens? {ts : List String} (hts : ∀ t ∈ ts, IsToken t) {m : Message}
    (h : ofTokens? ts = some m) : m.Sendable := by
  cases ts with
  | nil => simp [ofTokens?] at h
  | cons first rest =>
    have hrest : ∀ t ∈ rest, IsToken t := fun t ht => hts t (List.mem_cons_of_mem first ht)
    by_cases hcall : first = "CQ"
    · simp only [ofTokens?, if_pos hcall] at h
      exact sendable_ofCall? hrest h
    · simp only [ofTokens?, if_neg hcall] at h
      split at h
      · next sender content =>
        exact sendable_ofContent? ⟨hts first (by simp), hcall, hrest sender (by simp)⟩ h
      · simp at h

/-- A text is read as a message that can be sent, or as free text that is
its own normal form and is cut into no message. -/
theorem parse_cases (s : String) :
    (∃ m, parse s = m ∧ m.Sendable) ∨
      parse s = freeText (normalText s) ∧ ofTokens? (read s) = none := by
  rw [parse_eq]
  cases htokens : ofTokens? (read s) with
  | some m => exact .inl ⟨m, rfl, sendable_ofTokens? (fun _ ht => isToken_of_mem_read ht) htokens⟩
  | none => exact .inr ⟨rfl, rfl⟩

/-- **What was read and sent again is read alike**, up to the limits of a
report. -/
theorem parse_text_parse (s : String) : parse (parse s).text = (parse s).clamped := by
  rcases parse_cases s with ⟨m, hread, hsendable⟩ | ⟨hfree, hnone⟩
  · rw [hread]
    exact parse_text hsendable
  · rw [hfree, text_freeText, parse_eq, read_normalText, hnone, normalText_normalText]
    rfl

/-- **Round trip.**  A message that can be sent is read as it was meant,
with its report held within the limits.  Any text whatever is read as a
message whose own text is read alike, and that text is a normal form:
reading and writing it once more leaves it as it is. -/
theorem round_trip :
    (∀ m : Message, m.Sendable → parse m.text = m.clamped) ∧
      (∀ s, parse (parse s).text = (parse s).clamped) ∧
      ∀ s, (parse (parse s).text).text = (parse s).text := by
  refine ⟨fun m h => parse_text h, parse_text_parse, ?_⟩
  intro s
  rw [parse_text_parse, text_clamped]

/-- A call of a station whose call looks like a grid comes through when a
grid follows it; a report beyond the limits is read as the limit. -/
theorem round_trip_limits :
    let m : Message := .cq (some "DX") "FN42" (some "AA00")
    let r : Message := .rogerReport "K1ABC" "W9XYZ" (-31)
    m.Sendable ∧ r.Sendable ∧ parse m.text = m ∧
      parse r.text = .rogerReport "K1ABC" "W9XYZ" (-30) := by
  intro m r
  have hm : m.Sendable := by
    refine ⟨?_, by decide +kernel, ?_, by simp⟩
    · intro t ht
      obtain rfl := Option.some.inj ht
      decide +kernel
    · intro t ht
      obtain rfl := Option.some.inj ht
      decide
  have hr : r.Sendable := ⟨by decide +kernel, by decide, by decide +kernel⟩
  exact ⟨hm, hr, round_trip.1 m hm, round_trip.1 r hr⟩

end Message

end SlotRadio
