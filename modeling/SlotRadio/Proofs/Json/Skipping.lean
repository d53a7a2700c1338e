import SlotRadio.Proofs.Json.Grammar
/-!
# Going over what nobody wants

`skipValue` goes over any value of the grammar, however deep it is nested,
and stops right behind it (`skipValue_of_phrase`).  The induction is on the
phrase, with one lemma for each way of making one: wherever a phrase stands,
whatever is open around it, it takes a fixed number of parts (`PassedIn`), at
most two for each of its characters.
-/

namespace SlotRadio.Json

/-! ## Blanks -/

/-- Blanks before anything are skipped, as if they were not there. -/
theorem Blank.skipSpace_append {s : List Char} (h : Blank s) (rest : Input) :
    skipSpace (s ++ rest) = skipSpace rest :=
  List.dropWhile_append_of_pos h

/-- Where only blanks are left nothing is left. -/
theorem Blank.skipSpace_eq {s : List Char} (h : Blank s) : skipSpace s = [] := by
  simpa [skipSpace] using h.skipSpace_append []

/-- A text is blanks, and then what is left of it without them. -/
theorem exists_blank_append (text : Input) :
    ∃ s, Blank s ∧ text = s ++ skipSpace text :=
  ⟨_, List.all_eq_true.1 List.all_takeWhile, List.takeWhile_append_dropWhile.symm⟩

/-- What can be skipped to the end is blank. -/
theorem blank_of_skipSpace_eq {s : List Char} (h : skipSpace s = []) : Blank s := by
  obtain ⟨t, ht, hs⟩ := exists_blank_append s
  rw [h, List.append_nil] at hs
  rwa [hs]

/-- What is no blank is not skipped. -/
theorem skipSpace_cons {c : Char} (h : isSpace c = false) (rest : Input) :
    skipSpace (c :: rest) = c :: rest := by
  simp [skipSpace, h]

/-- Skipping stops at the first character that is no blank. -/
theorem skipSpace_append_cons {s : List Char} (hs : Blank s) {c : Char} (hc : isSpace c = false)
    (rest : Input) : skipSpace (s ++ c :: rest) = c :: rest := by
  rw [hs.skipSpace_append, skipSpace_cons hc]

/-- A colon may have blanks before it. -/
theorem takeColon_append {s : List Char} (hs : Blank s) (rest : Input) :
    takeColon (s ++ ':' :: rest) = .ok rest := by
  rw [takeColon, skipSpace_append_cons hs (by decide)]
  rfl

/-! ## Strings -/

/-- A character takes an octet at least, so that a bound by octets is one by
characters. -/
theorem le_octets (input : Input) : input.length ≤ octets input := by
  have hfold : ∀ n, n + input.length ≤ input.foldl (fun n c => n + c.utf8Size) n := by
    induction input with
    | nil => simp
    | cons c input ih =>
      intro n
      have hc := c.utf8Size_pos
      have := ih (n + c.utf8Size)
      simp only [List.length_cons, List.foldl_cons]
      omega
  simpa [octets] using hfold 0

/-- Four hexadecimal digits are taken as their number, whatever follows
them. -/
theorem HexDigits.takeHex_append {hex : List Char} {n : Nat} (h : HexDigits hex n)
    (rest : Input) : takeHex (hex ++ rest) = .ok (n, rest) := by
  cases h with
  | @mk a b c d _ _ _ _ ha hb hc hd =>
    have hlength : 4 ≤ octets [a, b, c, d] := le_octets [a, b, c, d]
    show takeHex (a :: b :: c :: d :: rest) = _
    rw [takeHex, if_neg (by simpa using hlength)]
    simp only [ha, hb, hc, hd]

/-- Inside a string an escape is gone over as a whole. -/
theorem skipBody_escape {input left : Input} (h : skipEscape input = .ok left) :
    skipBody ('\\' :: input) = skipBody left := by
  rw [skipBody, if_neg (by decide), if_pos rfl]
  split
  · next heq =>
    rw [h] at heq
    cases heq
  · next heq =>
    rw [h] at heq
    cases heq
    rfl

/-- The escape of one letter is gone over. -/
theorem skipEscape_letter {c : Char} (h : (simpleEscape? c).isSome = true) (rest : Input) :
    skipEscape (c :: rest) = .ok rest := by
  have hc : c ≠ 'u' := by
    rintro rfl
    revert h
    decide
  rw [skipEscape, if_neg hc, if_pos h]

/-- The inside of a string is gone over up to the quote that ends it. -/
theorem StringShape.skipBody_append {text : List Char} (h : StringShape text) (rest : Input) :
    skipBody (text ++ '"' :: rest) = .ok rest := by
  induction h with
  | nil => simp [skipBody]
  | plain hquote hescape hcontrol _ ih =>
    rw [List.cons_append, skipBody, if_neg hquote, if_neg hescape, if_neg (by omega), ih]
  | letter hletter _ ih => rw [List.cons_append, List.cons_append,
      skipBody_escape (skipEscape_letter hletter _), ih]
  | unit hhex _ ih =>
    rw [List.cons_append, List.cons_append, List.append_assoc, skipBody_escape, ih]
    rw [skipEscape, if_pos rfl, hhex.takeHex_append]
    rfl

/-! ## Numbers -/

/-- Nothing that belongs to a number comes next. -/
structure EndsNumber (input : Input) : Prop where
  noDigit : ∀ c ∈ input.head?, Decimal.digitOf? c = none
  noPoint : input.head? ≠ some '.'
  noExponent : startsExponent input = false

/-- What may follow a value may follow a number. -/
theorem Delimited.endsNumber {input : Input} (h : Delimited input) : EndsNumber input := by
  cases input with
  | nil => exact ⟨by simp, by simp, rfl⟩
  | cons c rest =>
    have hc := h c rfl
    simp only [isSpace, Bool.or_eq_true, beq_iff_eq, or_assoc] at hc
    rcases hc with rfl | rfl | rfl | rfl | rfl | rfl | rfl <;>
      exact ⟨by simp [Decimal.digitOf?], by simp, rfl⟩

/-- The digits at the front of a text are all that there are if the text
that follows starts with none. -/
theorem takeDigits_append (text : Input) {rest : Input}
    (hrest : ∀ c ∈ rest.head?, Decimal.digitOf? c = none) :
    takeDigits (text ++ rest) = ((takeDigits text).1, (takeDigits text).2 ++ rest) := by
  induction text with
  | nil =>
    cases rest with
    | nil => rfl
    | cons c rest => simp [takeDigits, hrest c rfl]
  | cons c text ih =>
    rw [List.cons_append, takeDigits, takeDigits]
    cases Decimal.digitOf? c with
    | none => rfl
    | some d => simp [ih]

/-- Only the digit zero has the value zero. -/
theorem digitOf?_eq_zero {c : Char} (h : Decimal.digitOf? c = some 0) : c = '0' := by
  unfold Decimal.digitOf? at h
  split at h
  · next hdigit =>
    have hle : 0x30 ≤ c.toNat := hdigit.1
    have hzero : c.toNat - 0x30 = 0 := Option.some.inj h
    exact Char.toNat_inj.1 (show c.toNat = 0x30 by omega)
  · cases h

/-- Digits are taken to the last one. -/
theorem takeDigits_of_all {digits : List Char}
    (h : ∀ c ∈ digits, (Decimal.digitOf? c).isSome = true) :
    takeDigits digits = (digits.filterMap Decimal.digitOf?, []) := by
  induction digits with
  | nil => rfl
  | cons c digits ih =>
    obtain ⟨d, hd⟩ := Option.isSome_iff_exists.1 (h c (by simp))
    rw [takeDigits, ih fun c hc => h c (by simp [hc])]
    simp [hd]

/-- Digits are taken together, and the first one says whether there is a
needless zero. -/
theorem Digits.takeDigits_append {digits : List Char} (h : Digits digits) {rest : Input}
    (hrest : ∀ c ∈ rest.head?, Decimal.digitOf? c = none) :
    ∃ c cs d, digits = c :: cs ∧ Decimal.digitOf? c = some d ∧
      takeDigits (digits ++ rest) = (d :: cs.filterMap Decimal.digitOf?, rest) := by
  obtain ⟨c, cs, rfl⟩ := List.exists_cons_of_ne_nil h.nonempty
  obtain ⟨d, hd⟩ := Option.isSome_iff_exists.1 (h.all c (by simp))
  refine ⟨c, cs, d, rfl, hd, ?_⟩
  rw [Json.takeDigits_append _ hrest, takeDigits_of_all h.all]
  simp [hd]

/-- The whole part of a number is taken up to the first character that is no
digit; it has a digit, and a zero only if this is the only one. -/
theorem Whole.takeDigits_append {digits : List Char} (h : Whole digits) {rest : Input}
    (hrest : ∀ c ∈ rest.head?, Decimal.digitOf? c = none) :
    ∃ d ds, takeDigits (digits ++ rest) = (d :: ds, rest) ∧ (d = 0 → ds = []) := by
  obtain ⟨c, cs, d, rfl, hd, htake⟩ := h.toDigits.takeDigits_append hrest
  refine ⟨d, _, htake, ?_⟩
  rintro rfl
  have hsingle := h.reduced (by rw [digitOf?_eq_zero hd]; rfl)
  obtain ⟨-, rfl⟩ := List.cons.inj hsingle
  rfl

/-- An exponent is gone over, with a sign or without. -/
theorem skipExponent_append {sign digits : List Char}
    (hsign : sign = [] ∨ sign = ['+'] ∨ sign = ['-']) (hdigits : Digits digits) {rest : Input}
    (hrest : EndsNumber rest) : skipExponent (sign ++ (digits ++ rest)) = .ok rest := by
  obtain ⟨c, cs, d, rfl, hd, htake⟩ := hdigits.takeDigits_append hrest.noDigit
  rw [List.cons_append] at htake ⊢
  rcases hsign with rfl | rfl | rfl
  · have hc : ¬(c = '+' ∨ c = '-') := by
      rintro (rfl | rfl) <;> simp [Decimal.digitOf?] at hd
    simp [skipExponent, hc, htake]
  · simp [skipExponent, htake]
  · simp [skipExponent, htake]

/-- What may stand behind the digits of a number, an exponent or nothing, is
gone over. -/
theorem Exponent.skipScaled_append {exponent : List Char} (h : Exponent exponent) {rest : Input}
    (hrest : EndsNumber rest) : skipScaled (exponent ++ rest) = .ok rest := by
  cases h with
  | absent => simp [skipScaled, hrest.noExponent]
  | given hletter hsign hdigits =>
    have hstarts : ∀ text, startsExponent (_ :: text) = true := fun text => by
      simpa [startsExponent] using hletter
    rw [List.cons_append, skipScaled, if_pos (hstarts _), List.append_assoc]
    exact skipExponent_append hsign hdigits hrest

/-- What follows the digits before an exponent is no digit and no point. -/
theorem Exponent.head_append {exponent : List Char} (h : Exponent exponent) {rest : Input}
    (hrest : EndsNumber rest) :
    (∀ c ∈ (exponent ++ rest).head?, Decimal.digitOf? c = none) ∧
      (exponent ++ rest).head? ≠ some '.' := by
  cases h with
  | absent => exact ⟨hrest.noDigit, hrest.noPoint⟩
  | given hletter => rcases hletter with rfl | rfl <;> simp [Decimal.digitOf?]

/-- Behind a whole part without a point comes the exponent, if there is one. -/
theorem skipUnsigned_whole {input rest : Input} {d : Nat} {ds : List Nat}
    (h : takeDigits input = (d :: ds, rest)) (hreduced : d = 0 → ds = [])
    (hpoint : rest.head? ≠ some '.') : skipUnsigned input = skipScaled rest := by
  unfold skipUnsigned
  rw [h]
  split
  · next heq => cases heq
  · next heq =>
    cases heq
    cases hreduced rfl
  · next heq =>
    cases heq
    cases hpoint rfl
  · next heq =>
    cases heq
    rfl

/-- Behind a whole part, a point and decimals comes the exponent, if there is
one. -/
theorem skipUnsigned_fraction {input rest left : Input} {d e : Nat} {ds es : List Nat}
    (h : takeDigits input = (d :: ds, '.' :: rest)) (hreduced : d = 0 → ds = [])
    (hdecimals : takeDigits rest = (e :: es, left)) : skipUnsigned input = skipScaled left := by
  unfold skipUnsigned
  rw [h]
  split
  · next heq => cases heq
  · next heq =>
    cases heq
    cases hreduced rfl
  · next heq =>
    cases heq
    rw [hdecimals]
  · next hpoint heq =>
    cases heq
    exact (hpoint _ rfl).elim

/-- **A number without its sign is gone over**, to the character that ends
it. -/
theorem Magnitude.skipUnsigned_append {text : List Char} (h : Magnitude text) {rest : Input}
    (hrest : EndsNumber rest) : skipUnsigned (text ++ rest) = .ok rest := by
  cases h with
  | whole hdigits hexponent =>
    obtain ⟨hhead, hpoint⟩ := hexponent.head_append hrest
    obtain ⟨d, ds, htake, hreduced⟩ := hdigits.takeDigits_append hhead
    rw [List.append_assoc, skipUnsigned_whole htake hreduced hpoint]
    exact hexponent.skipScaled_append hrest
  | @fraction digits decimals exponent hdigits hdecimals hexponent =>
    obtain ⟨hhead, -⟩ := hexponent.head_append hrest
    obtain ⟨_, _, e, -, -, hdecimals⟩ := hdecimals.takeDigits_append hhead
    have hpoint : ∀ c ∈ ('.' :: (decimals ++ (exponent ++ rest))).head?,
        Decimal.digitOf? c = none := by
      simp [Decimal.digitOf?]
    obtain ⟨d, ds, htake, hreduced⟩ := hdigits.takeDigits_append hpoint
    rw [List.append_assoc, List.cons_append, List.append_assoc,
      skipUnsigned_fraction htake hreduced hdecimals]
    exact hexponent.skipScaled_append hrest

/-- A number without its sign begins with a digit. -/
theorem Magnitude.exists_cons {text : List Char} (h : Magnitude text) :
    ∃ c rest, text = c :: rest ∧ (Decimal.digitOf? c).isSome = true := by
  cases h with
  | whole hdigits | fraction hdigits =>
    obtain ⟨c, cs, rfl⟩ := List.exists_cons_of_ne_nil hdigits.nonempty
    exact ⟨c, _, rfl, hdigits.all c (by simp)⟩

/-- A number is seen to be one by its first character. -/
theorem Numeral.exists_cons {text : List Char} (h : Numeral text) :
    ∃ c rest, text = c :: rest ∧ startsNumber c = true := by
  cases h with
  | positive h =>
    obtain ⟨c, rest, rfl, hc⟩ := h.exists_cons
    exact ⟨c, rest, rfl, by simp [startsNumber, hc]⟩
  | negative => exact ⟨'-', _, rfl, by decide⟩

/-- **A number is gone over** to the character that ends it. -/
theorem Numeral.skipNumber_append {text : List Char} (h : Numeral text) {rest : Input}
    (hrest : EndsNumber rest) : skipNumber (text ++ rest) = .ok rest := by
  cases h with
  | positive h =>
    have hskip := h.skipUnsigned_append hrest
    obtain ⟨c, _, rfl, hc⟩ := h.exists_cons
    unfold skipNumber
    split
    · next heq =>
      cases heq
      simp [Decimal.digitOf?] at hc
    · exact hskip
  | negative h => exact h.skipUnsigned_append hrest

/-! ## Values -/

/-- A character that starts a number starts nothing else. -/
theorem ne_of_startsNumber {c d : Char} (h : startsNumber c = true)
    (hd : startsNumber d = false) : c ≠ d := by
  rintro rfl
  rw [h] at hd
  cases hd

/-- No number begins with a blank. -/
theorem isSpace_of_startsNumber {c : Char} (h : startsNumber c = true) : isSpace c = false := by
  cases hspace : isSpace c with
  | false => rfl
  | true =>
    simp only [isSpace, Bool.or_eq_true, beq_iff_eq, or_assoc] at hspace
    rcases hspace with rfl | rfl | rfl | rfl <;> exact absurd h (by decide)

/-- What begins like a number is gone over as one. -/
theorem skipScalar_number {c : Char} (h : startsNumber c = true) (rest : Input) :
    skipScalar c rest = skipNumber (c :: rest) := by
  rw [skipScalar, if_neg (ne_of_startsNumber h (by decide)),
    if_neg (ne_of_startsNumber h (by decide)), if_neg (ne_of_startsNumber h (by decide)),
    if_neg (ne_of_startsNumber h (by decide)), if_pos h]

/-- A value without brackets takes one part. -/
theorem skipPart_scalar {s : List Char} (hs : Blank s) {c : Char} (hspace : isSpace c = false)
    (hlist : c ≠ '[') (hobject : c ≠ '{') {rest left : Input} (h : skipScalar c rest = .ok left)
    (opened : List Bracket) :
    skipPart opened .value (s ++ c :: rest) = .ok (some (opened, .after, left)) := by
  rw [skipPart, skipSpace_append_cons hs hspace]
  simp only [if_neg hlist, if_neg hobject, h]
  rfl

/-- A step over an opening bracket puts it on top of those that are open. -/
theorem skipPart_opening {s : List Char} (hs : Blank s) (b : Bracket) (rest : Input)
    (opened : List Bracket) :
    skipPart opened .value (s ++ b.opening :: rest) = .ok (some (b :: opened, .opened, rest)) := by
  cases b <;> rw [skipPart, skipSpace_append_cons hs (by decide)] <;> rfl

/-- A step over a closing bracket takes its partner off those that are open; a
value is over then. -/
theorem skipPart_closing {s : List Char} (hs : Blank s) (b : Bracket) (rest : Input)
    (opened : List Bracket) {place : Place} (hplace : place ≠ .value) :
    skipPart (b :: opened) place (s ++ b.closing :: rest) =
      .ok (some (opened, .after, rest)) := by
  cases place with
  | value => cases hplace rfl
  | opened | after => cases b <;> rw [skipPart, skipSpace_append_cons hs (by decide)] <;> rfl

/-- What stands before an item is gone over, up to blanks. -/
theorem Lead.skipLead_append {b : Bracket} {lead : List Char} (h : Lead b lead) (rest : Input) :
    ∃ s, Blank s ∧ skipLead b (lead ++ rest) = .ok (s ++ rest) := by
  cases h with
  | list hs => exact ⟨_, hs, rfl⟩
  | object hs hname hs' hs'' =>
    refine ⟨_, hs'', ?_⟩
    simp only [List.append_assoc, List.cons_append]
    rw [skipLead, skipName, skipSpace_append_cons hs (by decide)]
    simp only [if_pos, hname.skipBody_append, takeColon_append hs']

/-- A step over a comma, and over the next member's name where the bracket is
that of an object, leads to the next value. -/
theorem skipPart_comma {s lead : List Char} (hs : Blank s) {b : Bracket} (hlead : Lead b lead)
    (rest : Input) (opened : List Bracket) :
    ∃ s', Blank s' ∧ skipPart (b :: opened) .after (s ++ ',' :: (lead ++ rest)) =
      .ok (some (b :: opened, .value, s' ++ rest)) := by
  obtain ⟨s', hs', hskip⟩ := hlead.skipLead_append rest
  refine ⟨s', hs', ?_⟩
  rw [skipPart, skipSpace_append_cons hs (by decide)]
  simp only [if_pos, hskip]
  rfl

/-- A value starts with a character that is neither a blank nor closes a
list. -/
theorem Phrase.exists_cons {text : List Char} (h : Phrase .value text) :
    ∃ c rest, text = c :: rest ∧ isSpace c = false ∧ c ≠ ']' := by
  cases h with
  | null | yes | no | string => exact ⟨_, _, rfl, by decide, by decide⟩
  | number h =>
    obtain ⟨c, rest, rfl, hc⟩ := h.exists_cons
    exact ⟨c, rest, rfl, isSpace_of_startsNumber hc, ne_of_startsNumber hc (by decide)⟩
  | empty b | filled b => cases b <;> exact ⟨_, _, rfl, by decide, by decide⟩

/-- In a bracket that has just been opened, an item does not look like the
closing bracket. -/
theorem skipPart_first {lead item : List Char} {b : Bracket} (hlead : Lead b lead)
    (hitem : Phrase .value item) (rest : Input) (opened : List Bracket) :
    ∃ s', Blank s' ∧ skipPart (b :: opened) .opened (lead ++ (item ++ rest)) =
      .ok (some (b :: opened, .value, s' ++ (item ++ rest))) := by
  cases hlead with
  | list hs =>
    obtain ⟨c, item, rfl, hspace, hc⟩ := hitem.exists_cons
    refine ⟨[], blank_nil, ?_⟩
    have hopen : Bracket.closedBy .list c = false := by simpa [Bracket.closedBy] using hc
    rw [skipPart, hs.skipSpace_append, List.cons_append, skipSpace_cons hspace]
    simp only [hopen]
    rfl
  | @object s name s' s'' hs hname hs' hs'' =>
    have hlead : Lead .object ('"' :: (name ++ '"' :: (s' ++ ':' :: s''))) :=
      .object blank_nil hname hs' hs''
    obtain ⟨s', hs', hskip⟩ := hlead.skipLead_append (item ++ rest)
    refine ⟨s', hs', ?_⟩
    rw [List.append_assoc, skipPart, List.cons_append, skipSpace_append_cons hs (by decide)]
    rw [List.cons_append] at hskip
    simp only [hskip]
    rfl

/-- Where one stands at the front of a phrase. -/
def Part.place : Part → Place
  | value => .value
  | rest _ => .after

/-- The bracket that a phrase closes. -/
def Part.closes : Part → List Bracket
  | value => []
  | rest b => [b]

/-- Wherever a phrase stands, it is gone over in this many parts. -/
def PassedIn (n : Nat) (part : Part) (text : List Char) : Prop :=
  ∀ (fuel : Nat) (opened : List Bracket) (s rest : List Char), Blank s → Delimited rest →
    skipParts (fuel + n) (part.closes ++ opened) part.place (s ++ (text ++ rest)) =
      skipParts fuel opened .after rest

/-- One step may be taken off the budget of many. -/
theorem skipParts_of_part {opened opened' : List Bracket} {place place' : Place}
    {input left : Input} (h : skipPart opened place input = .ok (some (opened', place', left)))
    (fuel : Nat) :
    skipParts (fuel + 1) opened place input = skipParts fuel opened' place' left := by
  rw [skipParts, h]

/-- A value without brackets is one part. -/
theorem passedIn_scalar {c : Char} {text : List Char} (hspace : isSpace c = false)
    (hlist : c ≠ '[') (hobject : c ≠ '{')
    (h : ∀ rest, Delimited rest → skipScalar c (text ++ rest) = .ok rest) :
    PassedIn 1 .value (c :: text) :=
  fun fuel opened _ rest hs hrest =>
    skipParts_of_part (skipPart_scalar hs hspace hlist hobject (h rest hrest) opened) fuel

/-- A pair of brackets with nothing between them takes two steps. -/
theorem passedIn_empty {t : List Char} (b : Bracket) (ht : Blank t) :
    PassedIn 2 .value (b.opening :: (t ++ [b.closing])) := by
  intro fuel opened s rest hs _
  rw [List.cons_append, List.append_assoc]
  calc skipParts (fuel + 1 + 1) opened .value (s ++ b.opening :: (t ++ b.closing :: rest))
      = skipParts (fuel + 1) (b :: opened) .opened (t ++ b.closing :: rest) :=
        skipParts_of_part (skipPart_opening hs b _ opened) _
    _ = skipParts fuel opened .after rest :=
        skipParts_of_part (skipPart_closing ht b rest opened (by decide)) _

/-- A pair of brackets takes one step for the opening one and one for the
first name, besides those for the first item and the rest. -/
theorem passedIn_filled {lead item more : List Char} {b : Bracket} {m n : Nat}
    (hlead : Lead b lead) (hitem : Phrase .value item) (hmore : Phrase (.rest b) more)
    (hn : PassedIn n .value item) (hm : PassedIn m (.rest b) more) :
    PassedIn (m + n + 2) .value (b.opening :: (lead ++ (item ++ more))) := by
  intro fuel opened s rest hs hrest
  obtain ⟨s', hs', hfirst⟩ := skipPart_first hlead hitem (more ++ rest) opened
  simp only [List.cons_append, List.append_assoc, ← Nat.add_assoc]
  calc skipParts (fuel + m + n + 1 + 1) opened .value
        (s ++ b.opening :: (lead ++ (item ++ (more ++ rest))))
      = skipParts (fuel + m + n + 1) (b :: opened) .opened (lead ++ (item ++ (more ++ rest))) :=
        skipParts_of_part (skipPart_opening hs b _ opened) _
    _ = skipParts (fuel + m + n) (b :: opened) .value (s' ++ (item ++ (more ++ rest))) :=
        skipParts_of_part hfirst _
    _ = skipParts (fuel + m) (b :: opened) .after (more ++ rest) :=
        hn _ _ _ _ hs' hmore.delimited
    _ = skipParts fuel opened .after rest := hm _ _ _ _ blank_nil hrest

/-- The closing bracket takes one step. -/
theorem passedIn_close {t : List Char} (b : Bracket) (ht : Blank t) :
    PassedIn 1 (.rest b) (t ++ [b.closing]) := by
  intro fuel opened s rest hs _
  have hclose : skipPart (b :: opened) .after (s ++ t ++ b.closing :: rest) =
      .ok (some (opened, .after, rest)) :=
    skipPart_closing (hs.append ht) b rest opened (by decide)
  rw [List.append_assoc, ← List.append_assoc]
  exact skipParts_of_part hclose fuel

/-- A further item takes one step for the comma, besides its own steps and
those for the rest. -/
theorem passedIn_next {t lead item more : List Char} {b : Bracket} {m n : Nat} (ht : Blank t)
    (hlead : Lead b lead) (hmore : Phrase (.rest b) more)
    (hn : PassedIn n .value item) (hm : PassedIn m (.rest b) more) :
    PassedIn (m + n + 1) (.rest b) (t ++ ',' :: (lead ++ (item ++ more))) := by
  intro fuel opened s rest hs hrest
  obtain ⟨s', hs', hcomma⟩ := skipPart_comma (hs.append ht) hlead (item ++ (more ++ rest)) opened
  simp only [List.cons_append, List.append_assoc, ← Nat.add_assoc] at hcomma ⊢
  calc skipParts (fuel + m + n + 1) (b :: opened) .after
        (s ++ (t ++ ',' :: (lead ++ (item ++ (more ++ rest)))))
      = skipParts (fuel + m + n) (b :: opened) .value (s' ++ (item ++ (more ++ rest))) :=
        skipParts_of_part hcomma _
    _ = skipParts (fuel + m) (b :: opened) .after (more ++ rest) :=
        hn _ _ _ _ hs' hmore.delimited
    _ = skipParts fuel opened .after rest := hm _ _ _ _ blank_nil hrest

/-- **A phrase is gone over** in at most two parts for each of its characters. By induction on the
phrase; a bracket takes one part to open and one to close. -/
theorem passedIn_of_phrase {part : Part} {text : List Char} (h : Phrase part text) :
    ∃ n ≤ 2 * text.length, PassedIn n part text := by
  have one_le {c : Char} {text : List Char} : 1 ≤ 2 * (c :: text).length := by
    simp only [List.length_cons]
    omega
  induction h with
  | null | yes | no =>
    exact ⟨1, one_le, passedIn_scalar (by decide) (by decide) (by decide)
      fun rest _ => by simp [skipScalar, takeWord]⟩
  | number h =>
    obtain ⟨c, text, rfl, hc⟩ := h.exists_cons
    refine ⟨1, one_le, passedIn_scalar (isSpace_of_startsNumber hc)
      (ne_of_startsNumber hc (by decide)) (ne_of_startsNumber hc (by decide)) fun rest hrest => ?_⟩
    rw [skipScalar_number hc]
    exact h.skipNumber_append hrest.endsNumber
  | string h =>
    refine ⟨1, one_le, passedIn_scalar (by decide) (by decide) (by decide) fun rest _ => ?_⟩
    rw [List.append_assoc]
    simp [skipScalar, h.skipBody_append]
  | empty b hs =>
    refine ⟨2, ?_, passedIn_empty b hs⟩
    simp only [List.length_cons]
    omega
  | filled b hlead hitem hrest ihitem ihrest =>
    obtain ⟨n, hn, hitems⟩ := ihitem
    obtain ⟨m, hm, hrests⟩ := ihrest
    refine ⟨m + n + 2, ?_, passedIn_filled hlead hitem hrest hitems hrests⟩
    simp only [List.length_cons, List.length_append]
    omega
  | close b hs =>
    refine ⟨1, ?_, passedIn_close b hs⟩
    simp only [List.length_append, List.length_cons]
    omega
  | next b hs hlead hitem hrest ihitem ihrest =>
    obtain ⟨n, hn, hitems⟩ := ihitem
    obtain ⟨m, hm, hrests⟩ := ihrest
    refine ⟨m + n + 1, ?_, passedIn_next hs hlead hrest hitems hrests⟩
    simp only [List.length_cons, List.length_append]
    omega

/-- **A value that nobody wants is gone over.** -/
theorem skipValue_of_phrase {s text rest : List Char} (hs : Blank s) (h : Phrase .value text)
    (hrest : Delimited rest) : skipValue (s ++ (text ++ rest)) = .ok rest := by
  obtain ⟨n, hn, hpassed⟩ := passedIn_of_phrase h
  have hlength : n ≤ 2 * (s ++ (text ++ rest)).length := by
    simp only [List.length_append]
    omega
  obtain ⟨fuel, hfuel⟩ := Nat.exists_eq_add_of_le hlength
  rw [skipValue, hfuel, show n + fuel + 2 = fuel + 2 + n by omega]
  exact hpassed (fuel + 2) [] s rest hs hrest

end SlotRadio.Json
