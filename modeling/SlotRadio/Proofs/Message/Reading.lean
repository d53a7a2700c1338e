import SlotRadio.Proofs.Message.Words
/-!
# What a partner reads

A message that is made of tokens is read as it was meant, up to the
limits of a report.

* `parse_eq` — reading is cutting, capitalising, and looking at the
  tokens;
* `parse_text` — **what was sent is what is read**, for every message
  that can be sent at all (`Sendable`);
* `isToken_of_mem_read` — whatever was sent, what is read are tokens;
* `parse_call` — a call to everybody is never taken for a directed
  message, even when the caller's grid is nonsense.
-/

namespace SlotRadio

namespace Message

/-- A word that is sent as it stands. -/
structure IsToken (s : String) : Prop where
  ne : s ≠ ""
  solid : ∀ c ∈ s.toList, Text.isBlank c = false
  capital : Text.capitals s = s

instance : DecidablePred IsToken := fun s =>
  decidable_of_iff
    (s ≠ "" ∧ s.toList.all (fun c => !Text.isBlank c) = true ∧ Text.capitals s = s)
    ⟨fun h => ⟨h.1, by simpa using h.2.1, h.2.2⟩,
      fun h => ⟨h.ne, by simpa using h.solid, h.capital⟩⟩

/-- A token is not empty. -/
theorem IsToken.toList_ne {s : String} (h : IsToken s) : s.toList ≠ [] := by
  intro hs
  exact h.ne (String.toList_eq_nil_iff.1 hs)

/-- A token is one word. -/
theorem IsToken.words {s : String} (h : IsToken s) : Text.words s.toList = [s.toList] :=
  Text.words_of_no_blank h.toList_ne h.solid

/-- Tokens that name one station are one token. -/
theorem IsToken.eq_of_sameCall {s t : String} (hs : IsToken s) (ht : IsToken t)
    (h : Text.sameCall s t = true) : s = t := by
  have heq : Text.capitals s = Text.capitals t := by simpa [Text.sameCall] using h
  rw [← hs.capital, ← ht.capital, heq]

/-- A text of visible characters that have no other capital is a token. -/
theorem isToken_ofList {cs : List Char} (hne : cs ≠ [])
    (h : ∀ c ∈ cs, Text.isBlank c = false ∧ c.toUpper = c) : IsToken (String.ofList cs) where
  ne hs := hne (String.ofList_eq_empty_iff.1 hs)
  solid c hc := (h c (by simpa using hc)).1
  capital := by
    unfold Text.capitals
    rw [String.toList_ofList]
    congr 1
    calc cs.map Char.toUpper = cs.map id := List.map_congr_left fun c hc => (h c hc).2
      _ = cs := List.map_id cs

/-! ## Joining and cutting -/

/-- **Tokens that are joined by spaces are cut where they were joined**, since no token has a blank
in it or is empty. -/
theorem words_join {ts : List String} (h : ∀ t ∈ ts, IsToken t) :
    Text.words ([' '].intercalate (ts.map String.toList)) = ts.map String.toList := by
  induction ts with
  | nil => rfl
  | cons t ts ih =>
    have ht : IsToken t := h t List.mem_cons_self
    have hrest := ih fun u hu => h u (List.mem_cons_of_mem t hu)
    cases ts with
    | nil =>
      show Text.words ([' '].intercalate [t.toList]) = [t.toList]
      rw [List.intercalate_singleton, ht.words]
    | cons u us =>
      rw [List.map_cons] at hrest
      rw [List.map_cons, List.map_cons, List.intercalate_cons_cons, List.append_assoc,
        List.singleton_append, Text.words_append_blank (by decide), ht.words, hrest]
      rfl

/-- The tokens that a reader sees in a text. -/
def read (s : String) : List String :=
  (Text.words s.toList).map fun w => Text.capitals (String.ofList w)

/-- **Reading is cutting, capitalising, and looking at the tokens.** -/
theorem parse_eq (s : String) : parse s = (ofTokens? (read s)).getD (freeText (normalText s)) := by
  have hwords : (Text.words (normalText s).toList).map String.ofList = read s := by
    unfold normalText Text.capitals read
    simp only [String.toList_ofList, Text.words_map_toUpper, Text.words_trim, List.map_map]
    exact List.map_congr_left fun w _ => by simp [Text.capitals]
  simp only [parse, hwords]

/-- What a text is read as are tokens. -/
theorem isToken_of_mem_read {s t : String} (h : t ∈ read s) : IsToken t := by
  obtain ⟨w, hw, rfl⟩ := List.mem_map.1 h
  unfold Text.capitals
  rw [String.toList_ofList]
  refine isToken_ofList (by simpa using Text.ne_nil_of_mem_words hw) ?_
  intro c hc
  obtain ⟨d, hd, rfl⟩ := List.mem_map.1 hc
  refine ⟨?_, Text.toUpper_toUpper d⟩
  rw [Text.isBlank_toUpper]
  exact (Text.mem_of_mem_words hw hd).2

/-- **A message made of tokens is read token by token.** -/
theorem read_text {m : Message} (h : ∀ t ∈ m.tokens, IsToken t) : read m.text = m.tokens := by
  unfold read text
  rw [String.toList_ofList, words_join h, List.map_map]
  calc m.tokens.map ((fun w => Text.capitals (String.ofList w)) ∘ String.toList)
      = m.tokens.map id := List.map_congr_left fun t ht => by simpa using (h t ht).capital
    _ = m.tokens := List.map_id _

/-! ## Grids and reports as tokens -/

/-- A digit is visible and has no capital. -/
theorem solid_digitChar {d : Nat} (h : d < 10) :
    Text.isBlank (Decimal.digitChar d) = false ∧
      (Decimal.digitChar d).toUpper = Decimal.digitChar d := by
  revert d
  decide

/-- A report is sent as a sign and two digits. -/
theorem exists_reportText (snr : Int) :
    ∃ sign x y, reportText snr = [sign, Decimal.digitChar x, Decimal.digitChar y] ∧
      (sign = '+' ∨ sign = '-') ∧ x < 10 ∧ y < 10 := by
  have hb := clampReport_le snr
  refine ⟨_, (clampReport snr).natAbs / 10, (clampReport snr).natAbs % 10, rfl, ?_, ?_, ?_⟩
  · split
    · exact .inr rfl
    · exact .inl rfl
  · omega
  · omega

/-- A report is written without blanks and small letters. -/
theorem solid_of_mem_reportText {snr : Int} {c : Char} (h : c ∈ reportText snr) :
    Text.isBlank c = false ∧ c.toUpper = c := by
  obtain ⟨sign, x, y, heq, hsign, hx, hy⟩ := exists_reportText snr
  rw [heq] at h
  simp only [List.mem_cons, List.not_mem_nil, or_false] at h
  rcases h with rfl | rfl | rfl
  · rcases hsign with rfl | rfl <;> decide
  · exact solid_digitChar hx
  · exact solid_digitChar hy

/-- A report is a token. -/
theorem isToken_report (snr : Int) : IsToken (String.ofList (reportText snr)) :=
  isToken_ofList (by simp [reportText]) fun _ hc => solid_of_mem_reportText hc

/-- A report behind its `R` is a token. -/
theorem isToken_rogerReport (snr : Int) : IsToken (String.ofList ('R' :: reportText snr)) := by
  refine isToken_ofList (by simp) ?_
  intro c hc
  rcases List.mem_cons.1 hc with rfl | hc
  · decide
  · exact solid_of_mem_reportText hc

/-- A character of a grid is a capital letter or a digit. -/
theorem solid_of_grid {c : Char} (h : isField c = true ∨ c.isDigit = true) :
    Text.isBlank c = false ∧ c.toUpper = c := by
  have hrange : 48 ≤ c.toNat ∧ c.toNat ≤ 82 := by
    rcases h with h | h
    · simp only [isField, Bool.and_eq_true, decide_eq_true_eq] at h
      have hlow : 65 ≤ c.toNat := h.1
      have hhigh : c.toNat ≤ 82 := h.2
      omega
    · simp only [Char.isDigit, Bool.and_eq_true, decide_eq_true_eq] at h
      have hlow : 48 ≤ c.toNat := h.1
      have hhigh : c.toNat ≤ 57 := h.2
      omega
  refine ⟨Text.isBlank_of_visible (by omega) (by omega), ?_⟩
  rcases Text.toUpper_cases c with hsame | ⟨hlow, -, -⟩
  · exact hsame
  · omega

/-- A grid square is a token. -/
theorem isToken_grid {s : String} (h : isGridSquare s = true) : IsToken s := by
  simp only [isGridSquare, Bool.and_eq_true] at h
  obtain ⟨-, h⟩ := h
  split at h
  · next a b c d hs =>
    simp only [Bool.and_eq_true] at h
    rw [← String.ofList_toList (s := s), hs]
    refine isToken_ofList (by simp) ?_
    intro x hx
    simp only [List.mem_cons, List.not_mem_nil, or_false] at hx
    rcases hx with rfl | rfl | rfl | rfl
    · exact solid_of_grid (.inl h.1.1.1)
    · exact solid_of_grid (.inl h.1.1.2)
    · exact solid_of_grid (.inr h.1.2)
    · exact solid_of_grid (.inr h.2)
  · simp at h

/-! ## Content tokens -/

/-- A grid square is read as one, and not as anything that is looked for
before it. -/
theorem ofContent?_grid {addressee sender square : String} (h : isGridSquare square = true) :
    ofContent? addressee sender square = some (grid addressee sender square) := by
  have hword : ∀ w, isGridSquare w = false → square ≠ w := by
    rintro w hw rfl
    rw [h] at hw
    simp at hw
  unfold ofContent?
  rw [if_neg (hword _ (by decide)), if_neg (hword _ (by decide)), if_neg (hword _ (by decide)),
    if_pos h]

/-- A report is none of the fixed words and no grid: it begins with its sign, which none of these
does. -/
theorem ofContent?_report (addressee sender : String) (snr : Int) :
    ofContent? addressee sender (String.ofList (reportText snr)) =
      some (report addressee sender (clampReport snr)) := by
  obtain ⟨sign, x, y, heq, hsign, -, -⟩ := exists_reportText snr
  have hread := readReport_reportText snr
  have hR : sign ≠ 'R' := by
    rcases hsign with rfl | rfl <;> decide
  have hlist : ∀ w : String, w.toList.head? ≠ some sign → String.ofList (reportText snr) ≠ w := by
    rintro w hw rfl
    rw [String.toList_ofList, heq] at hw
    exact hw rfl
  have hgrid : isGridSquare (String.ofList (reportText snr)) = false := by
    simp [isGridSquare, heq]
  unfold ofContent?
  rw [if_neg (hlist _ ?_), if_neg (hlist _ ?_), if_neg (hlist _ ?_), hgrid]
  · rw [String.toList_ofList]
    simp only [Bool.false_eq_true, if_false]
    split
    · next level h =>
      rw [heq] at h
      exact absurd (List.cons.inj h).1 hR
    · next level h => rw [hread, Option.map_some]
  all_goals rcases hsign with rfl | rfl <;> decide

/-- A report behind its `R` is read as a confirmation with a report, held
within its bounds. -/
theorem ofContent?_rogerReport (addressee sender : String) (snr : Int) :
    ofContent? addressee sender (String.ofList ('R' :: reportText snr)) =
      some (rogerReport addressee sender (clampReport snr)) := by
  obtain ⟨sign, x, y, heq, hsign, -, -⟩ := exists_reportText snr
  have hread := readReport_reportText snr
  have hlist : ∀ w : String, w.toList[1]? ≠ some sign →
      String.ofList ('R' :: reportText snr) ≠ w := by
    rintro w hw rfl
    rw [String.toList_ofList, heq] at hw
    exact hw rfl
  have hgrid : isGridSquare (String.ofList ('R' :: reportText snr)) = false := by
    have hfield : isField sign = false := by
      rcases hsign with rfl | rfl <;> decide
    simp [isGridSquare, heq, hfield]
  unfold ofContent?
  rw [if_neg (hlist _ ?_), if_neg (hlist _ ?_), if_neg (hlist _ ?_), hgrid]
  · rw [String.toList_ofList]
    simp only [Bool.false_eq_true, if_false]
    rw [hread, Option.map_some]
  all_goals rcases hsign with rfl | rfl <;> decide

/-! ## Messages that can be sent -/

/-- Two calls between which a message can be directed: `CQ` would not be
taken for an addressee. -/
structure IsPair (addressee sender : String) : Prop where
  isTo : IsToken addressee
  notCall : addressee ≠ "CQ"
  isFrom : IsToken sender

/-- A message that survives being sent.  Its calls and its modifier are
tokens and its grids are grids; a caller that might be taken for a grid
follows a modifier only in front of one. -/
def Sendable : Message → Prop
  | cq modifier sender square =>
    (∀ t ∈ modifier, IsToken t) ∧ IsToken sender ∧ (∀ s ∈ square, isGridSquare s = true) ∧
      (modifier.isSome = true → square = none → isGridSquare sender = false)
  | grid addressee sender square => IsPair addressee sender ∧ isGridSquare square = true
  | report addressee sender _ | rogerReport addressee sender _ | roger addressee sender _
  | seventyThree addressee sender => IsPair addressee sender
  | freeText _ => False

/-- The message that is sent consists of tokens: calls and grids are by assumption, and the reports
and fixed words are. -/
theorem isToken_of_mem_tokens {m : Message} (h : m.Sendable) {t : String} (ht : t ∈ m.tokens) :
    IsToken t := by
  have pair : ∀ {addressee sender content : String}, IsPair addressee sender → IsToken content →
      t ∈ [addressee, sender, content] → IsToken t := by
    intro addressee sender content hp hc ht
    simp only [List.mem_cons, List.not_mem_nil, or_false] at ht
    rcases ht with rfl | rfl | rfl
    · exact hp.isTo
    · exact hp.isFrom
    · exact hc
  cases m with
  | cq modifier sender square =>
    obtain ⟨hmodifier, hsender, hsquare, -⟩ := h
    simp only [tokens, List.mem_append, List.mem_singleton, Option.mem_toList] at ht
    rcases ht with ((rfl | ht) | rfl) | ht
    · decide +kernel
    · exact hmodifier t ht
    · exact hsender
    · exact isToken_grid (hsquare t ht)
  | grid addressee sender square => exact pair h.1 (isToken_grid h.2) ht
  | report addressee sender snr => exact pair h (isToken_report snr) ht
  | rogerReport addressee sender snr => exact pair h (isToken_rogerReport snr) ht
  | roger addressee sender with73 =>
    refine pair h ?_ ht
    cases with73 <;> decide +kernel
  | seventyThree addressee sender => exact pair h (by decide +kernel) ht
  | freeText text => exact h.elim

/-- Three tokens whose first is not `CQ` are a directed message. -/
theorem ofTokens?_pair {addressee sender : String} (h : IsPair addressee sender)
    (content : String) :
    ofTokens? [addressee, sender, content] = ofContent? addressee sender content := by
  simp [ofTokens?, h.notCall]

/-- **The tokens of a message are read as the message**, with its report held
within the bounds. -/
theorem ofTokens?_tokens {m : Message} (h : m.Sendable) : ofTokens? m.tokens = some m.clamped := by
  cases m with
  | cq modifier sender square =>
    obtain ⟨-, -, hsquare, hcaller⟩ := h
    cases square with
    | none =>
      cases modifier with
      | none => rfl
      | some modifier => simp [tokens, ofTokens?, ofCall?, hcaller rfl rfl, clamped]
    | some square =>
      have hgrid := hsquare square rfl
      cases modifier <;> simp [tokens, ofTokens?, ofCall?, hgrid, clamped]
  | grid addressee sender square =>
    rw [tokens, ofTokens?_pair h.1, ofContent?_grid h.2]
    rfl
  | report addressee sender snr =>
    rw [tokens, ofTokens?_pair h, ofContent?_report]
    rfl
  | rogerReport addressee sender snr =>
    rw [tokens, ofTokens?_pair h, ofContent?_rogerReport]
    rfl
  | roger addressee sender with73 =>
    rw [tokens, ofTokens?_pair h]
    cases with73 <;> simp [ofContent?, clamped]
  | seventyThree addressee sender =>
    rw [tokens, ofTokens?_pair h]
    simp [ofContent?, clamped]
  | freeText text => exact h.elim

/-- **What was sent is what is read.** -/
theorem parse_text {m : Message} (h : m.Sendable) : parse m.text = m.clamped := by
  rw [parse_eq, read_text fun _ ht => isToken_of_mem_tokens h ht, ofTokens?_tokens h,
    Option.getD_some]

/-! ## Calls to everybody -/

/-- Whatever follows `CQ`, its sender is one of the tokens. -/
theorem ofCall?_cases {ts : List String} {m : Message} (h : ofCall? ts = some m) :
    ∃ modifier sender square, m = cq modifier sender square ∧ sender ∈ ts := by
  unfold ofCall? at h
  split at h
  · next sender =>
    obtain rfl := Option.some.inj h
    exact ⟨_, _, _, rfl, by simp⟩
  · next a b =>
    obtain rfl := Option.some.inj h
    split
    · exact ⟨_, _, _, rfl, by simp⟩
    · exact ⟨_, _, _, rfl, by simp⟩
  · next modifier sender square =>
    split at h
    · obtain rfl := Option.some.inj h
      exact ⟨_, _, _, rfl, by simp⟩
    · simp at h
  · simp at h

/-- A text that begins with `CQ` is a call to everybody or free text. -/
theorem parse_of_read_cq {s : String} {rest : List String} (h : read s = "CQ" :: rest) :
    (∃ modifier sender square, parse s = cq modifier sender square ∧ IsToken sender) ∨
      ∃ text, parse s = freeText text := by
  rw [parse_eq, h]
  have hcall : ofTokens? ("CQ" :: rest) = ofCall? rest := rfl
  rw [hcall]
  cases hcases : ofCall? rest with
  | none => exact .inr ⟨_, rfl⟩
  | some m =>
    obtain ⟨modifier, sender, square, rfl, hmem⟩ := ofCall?_cases hcases
    refine .inl ⟨modifier, sender, square, rfl, isToken_of_mem_read (s := s) ?_⟩
    rw [h]
    exact List.mem_cons_of_mem _ hmem

/-- **A call to everybody is never taken for a directed message,** even
when the caller's grid is nonsense. -/
theorem parse_call (me : String) (square : Option String) :
    (∃ modifier sender grid, parse (cq none me square).text = cq modifier sender grid ∧
        IsToken sender) ∨
      ∃ text, parse (cq none me square).text = freeText text := by
  have hread : ∃ rest, read (cq none me square).text = "CQ" :: rest := by
    unfold read text
    rw [String.toList_ofList,
      show (cq none me square).tokens = "CQ" :: me :: square.toList from rfl, List.map_cons,
      List.map_cons, List.intercalate_cons_cons, List.append_assoc, List.singleton_append,
      Text.words_append_blank (by decide)]
    exact ⟨_, rfl⟩
  obtain ⟨rest, hrest⟩ := hread
  exact parse_of_read_cq hrest

end Message

end SlotRadio
