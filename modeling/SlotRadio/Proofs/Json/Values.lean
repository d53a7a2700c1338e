import SlotRadio.Json.Single
import SlotRadio.Proofs.Json.Numbers
/-!
# Reading single values

`Codec.Reads c text a` says that the codec `c` reads the value `a` from a
text wherever this stands in a document: behind any blanks, and in front of
anything that may follow a value.  Here are the strings (`Spelling` gives
the content that is read, and what is written is a spelling) and the values
without parts.
-/

namespace SlotRadio.Json

/-! ## Strings -/

/-- Inside a string an escape stands for its character, and the rest is read
behind it. -/
theorem readBody_escape {input left : Input} {x : Char} (h : takeEscape input = .ok (x, left)) :
    readBody ('\\' :: input) =
      match readBody left with
      | .error f => .error f
      | .ok (text, last) => .ok (x :: text, last) := by
  rw [readBody, if_neg (by decide), if_pos rfl]
  split
  · next heq =>
    rw [h] at heq
    cases heq
  · next heq =>
    rw [h] at heq
    cases heq
    rfl

/-- The escape of one letter stands for its character. -/
theorem takeEscape_letter {c x : Char} (h : simpleEscape? c = some x) (rest : Input) :
    takeEscape (c :: rest) = .ok (x, rest) := by
  have hc : c ≠ 'u' := by
    rintro rfl
    revert h
    simp [simpleEscape?]
  rw [takeEscape, if_neg hc, h]

/-- Four hexadecimal digits stand for their character, unless they are half of
a pair. -/
theorem takeEscape_unit {hex : List Char} {n : Nat} (h : HexDigits hex n)
    (hsingle : n < 0xD800 ∨ 0xDFFF < n) (rest : Input) :
    takeEscape ('u' :: (hex ++ rest)) = .ok (Char.ofNat n, rest) := by
  rw [takeEscape, if_pos rfl, h.takeHex_append]
  simp only
  rw [if_neg (by omega), if_neg (by omega)]

/-- A pair of surrogates stands for one character beyond the first plane. -/
theorem takeEscape_pair {high low : List Char} {m n : Nat} (hhigh : HexDigits high m)
    (hm : 0xD800 ≤ m ∧ m ≤ 0xDBFF) (hlow : HexDigits low n) (hn : 0xDC00 ≤ n ∧ n ≤ 0xDFFF)
    (rest : Input) :
    takeEscape ('u' :: (high ++ '\\' :: 'u' :: (low ++ rest))) =
      .ok (Char.ofNat ((m - 0xD800) * 0x400 + (n - 0xDC00) + 0x10000), rest) := by
  rw [takeEscape, if_pos rfl, hhigh.takeHex_append]
  simp only
  rw [if_neg (by omega), if_pos hm, takeLowSurrogate, if_pos rfl]
  simp only [if_pos, hlow.takeHex_append, if_pos hn]

/-- **A string is read as its content.** -/
theorem Spelling.readBody_append {content text : List Char} (h : Spelling content text)
    (rest : Input) : readBody (text ++ '"' :: rest) = .ok (content, rest) := by
  induction h with
  | nil => simp [readBody]
  | plain hquote hescape hcontrol _ ih =>
    rw [List.cons_append, readBody, if_neg hquote, if_neg hescape, if_neg (by omega), ih]
  | letter hletter _ ih =>
    rw [List.cons_append, List.cons_append, readBody_escape (takeEscape_letter hletter _), ih]
  | unit hhex hsingle _ ih =>
    rw [List.cons_append, List.cons_append, List.append_assoc,
      readBody_escape (takeEscape_unit hhex hsingle _), ih]
  | pair hhigh hm hlow hn _ ih =>
    simp only [List.cons_append, List.append_assoc]
    rw [readBody_escape (takeEscape_pair hhigh hm hlow hn _), ih]

/-- A hexadecimal digit is read as it is written. -/
theorem hexValue?_hexDigit {n : Nat} (h : n < 16) : hexValue? (hexDigit n) = some n := by
  revert n
  decide

/-- A written character stands for itself. -/
theorem Spelling.escapeChar_append (c : Char) {content text : List Char}
    (h : Spelling content text) : Spelling (c :: content) (escapeChar c ++ text) := by
  unfold escapeChar
  -- Seven characters have an escape of one letter.
  iterate 7
    split
    · next hc => exact .letter (by rw [hc]; decide) h
  split
  · next hcontrol =>
    have hhex : HexDigits ['0', '0', hexDigit (c.toNat / 16), hexDigit (c.toNat % 16)]
        (((0 * 16 + 0) * 16 + c.toNat / 16) * 16 + c.toNat % 16) :=
      .mk (by decide) (by decide) (hexValue?_hexDigit (by omega)) (hexValue?_hexDigit (by omega))
    have hvalue : ((0 * 16 + 0) * 16 + c.toNat / 16) * 16 + c.toNat % 16 = c.toNat := by omega
    rw [hvalue] at hhex
    have hunit := Spelling.unit hhex (.inl (by omega)) h
    rwa [Char.ofNat_toNat] at hunit
  · next hquote hescape _ _ _ _ _ hcontrol => exact .plain hquote hescape (by omega) h

/-- **What is written for a text spells it**: nothing is escaped that would be
read as anything else. -/
theorem spelling_escaped (content : List Char) : Spelling content (content.flatMap escapeChar) := by
  induction content with
  | nil => exact .nil
  | cons c content ih => exact ih.escapeChar_append c

/-! ## Values without parts -/

/-- The number of thirty-two bits that stands for a number. -/
def Number.toSingle : Number → Float32
  | integer n => .ofInt n
  | real x => narrow x

/-- The integers of thirty-two bits. -/
def IsInt32 (n : Int) : Prop :=
  -0x80000000 ≤ n ∧ n ≤ 0x7fffffff

namespace Codec

variable {α : Type}

/-- A value is read from a text wherever this stands, and nothing but
blanks is left of it. -/
def Reads (c : Codec α) (text : List Char) (a : α) : Prop :=
  ∀ s rest, Blank s → Delimited rest →
    ∃ s', Blank s' ∧ c.read (s ++ (text ++ rest)) = .ok (a, s' ++ rest)

/-- A text from which a value is read may stand alone. -/
theorem Reads.decode_eq {c : Codec α} {text : List Char} {a : α} (h : c.Reads text a)
    {s s' : List Char} (hs : Blank s) (hs' : Blank s') :
    c.decode (String.ofList (s ++ (text ++ s'))) = .ok a := by
  obtain ⟨t, ht, hread⟩ := h s s' hs hs'.delimited
  rw [decode, String.toList_ofList, hread]
  simp only [(ht.append hs').skipSpace_eq]
  rfl

/-- The text of a truth value. -/
def truthText : Bool → List Char
  | true => ['t', 'r', 'u', 'e']
  | false => ['f', 'a', 'l', 's', 'e']

/-- A truth value is read from its word. -/
theorem reads_bool (b : Bool) : bool.Reads (truthText b) b := by
  intro s rest hs _
  refine ⟨[], blank_nil, ?_⟩
  show readBool (s ++ (truthText b ++ rest)) = .ok (b, rest)
  cases b <;> rw [readBool, truthText, List.cons_append, skipSpace_append_cons hs (by decide)] <;>
    rfl

/-- A number that can be read alone can be read anywhere. -/
theorem readAnyNumber_append {text left : Input} {n : Number}
    (h : readAnyNumber text = .ok (n, left)) {s rest : List Char} (hs : Blank s)
    (hrest : Delimited rest) : readAnyNumber (s ++ (text ++ rest)) = .ok (n, left ++ rest) := by
  obtain ⟨t, ht, hsplit⟩ := exists_blank_append text
  unfold readAnyNumber at h
  cases hskip : skipSpace text with
  | nil =>
    rw [hskip] at h
    cases h
  | cons c more =>
    rw [hskip] at h hsplit
    dsimp only at h
    split at h
    · next hstarts =>
      rw [hsplit, List.append_assoc, ← List.append_assoc, readAnyNumber, List.cons_append,
        skipSpace_append_cons (hs.append ht) (isSpace_of_startsNumber hstarts)]
      simp only [if_pos hstarts]
      exact readNumber_append h hrest.endsNumber
    · cases h

/-- A whole number is read as such as long as it fits into sixty-four bits,
with a sign or without. -/
theorem readAnyNumber_integer {n : Int} (hlow : -0x8000000000000000 ≤ n)
    (hhigh : n < Word.count) : readAnyNumber (Decimal.integer n) = .ok (.integer n, []) := by
  obtain ⟨c, rest, heq, hc⟩ := (numeral_integer n).exists_cons
  have hread := readNumber_integer hlow hhigh
  rw [heq] at hread ⊢
  rw [readAnyNumber, skipSpace_cons (isSpace_of_startsNumber hc)]
  simp only [if_pos hc, hread]

/-- An integer between two bounds is read where it fits into sixty-four
bits. -/
theorem readInt_integer {low high n : Int} (hlow : low ≤ n) (hhigh : n ≤ high)
    (hleast : -0x8000000000000000 ≤ low) (hgreatest : high < Word.count) {s rest : List Char}
    (hs : Blank s) (hrest : Delimited rest) :
    readInt low high (s ++ (Decimal.integer n ++ rest)) = .ok (n, rest) := by
  have hread := readAnyNumber_append
    (readAnyNumber_integer (Int.le_trans hleast hlow) (Int.lt_of_le_of_lt hhigh hgreatest))
    hs hrest
  rw [readInt, hread]
  exact if_pos ⟨hlow, hhigh⟩

/-- A count is read from its decimal if it is below the limit of its type. -/
theorem reads_below {limit n : Nat} (hlimit : limit ≤ Word.count) (h : n < limit) :
    (below limit).Reads (Decimal.natural n) n := by
  intro s rest hs hrest
  refine ⟨[], blank_nil, ?_⟩
  have hhigh : (n : Int) ≤ Int.ofNat limit - 1 := by
    show (n : Int) ≤ (limit : Int) - 1
    omega
  have hgreatest : Int.ofNat limit - 1 < (Word.count : Int) := by
    show (limit : Int) - 1 < Word.count
    omega
  have hread := readInt_integer (n := n) (Int.natCast_nonneg n) hhigh (by decide) hgreatest hs hrest
  show (readInt 0 (Int.ofNat limit - 1) _).map _ = _
  rw [show Decimal.natural n = Decimal.integer n from rfl, hread]
  rfl

/-- An integer of thirty-two bits is read from its decimal. -/
theorem reads_int32 {n : Int} (h : IsInt32 n) : int32.Reads (Decimal.integer n) n :=
  fun _ _ hs hrest =>
    ⟨[], blank_nil, readInt_integer h.1 h.2 (by decide) (by decide) hs hrest⟩

/-- Every string is read from what it is quoted as. -/
theorem reads_string (content : String) : string.Reads (quote content) content := by
  intro s rest hs _
  refine ⟨[], blank_nil, ?_⟩
  show readString (s ++ (quote content ++ rest)) = .ok (content, rest)
  rw [readString, quote, List.cons_append, skipSpace_append_cons hs (by decide), List.append_assoc]
  simp only [if_pos, List.singleton_append, (spelling_escaped content.toList).readBody_append,
    String.ofList_toList]

/-- A floating-point number is read as any number and then rounded to
thirty-two bits. -/
theorem single_read_eq (input : Input) :
    single.read input = (readAnyNumber input).map fun (n, rest) => (n.toSingle, rest) := by
  cases hread : readAnyNumber input with
  | error f => simp only [single, hread, Except.map]
  | ok taken =>
    obtain ⟨n, rest⟩ := taken
    cases n <;> simp only [single, hread, Except.map, Number.toSingle]

/-- A text that is read as a floating-point number by itself is read so
wherever a value may stand. -/
theorem reads_single {text : List Char} {x : Float32}
    (h : single.decode (String.ofList text) = .ok x) : single.Reads text x := by
  rw [decode, String.toList_ofList, single_read_eq] at h
  cases hread : readAnyNumber text with
  | error f =>
    rw [hread] at h
    cases h
  | ok taken =>
    obtain ⟨n, left⟩ := taken
    rw [hread] at h
    simp only [Except.map] at h
    split at h
    · next hleft =>
      cases h
      intro s rest hs hrest
      refine ⟨left, blank_of_skipSpace_eq (List.isEmpty_iff.1 hleft), ?_⟩
      rw [single_read_eq, readAnyNumber_append hread hs hrest]
      rfl
    · cases h

end Codec

end SlotRadio.Json
