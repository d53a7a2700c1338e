import Mathlib.Data.List.TakeWhile
import SlotRadio.Message.Parser
import SlotRadio.Message.Printer
/-!
# Cutting a text

A text is cut into words at its blanks.  What is done to a text before it
is cut does not change where it is cut:

* `words_append_blank` — a blank is where two texts can be cut apart;
* `words_trim`, `words_map_toUpper` — neither stripping nor capitalising
  moves a cut;
* `mem_of_mem_words` — a word is made of characters of the text, and none
  of them is a blank.
-/

namespace SlotRadio

namespace Text

/-! ## Where a text is cut -/

/-- A text that does not begin with a blank has a word. -/
theorem words_ne_nil {c : Char} (h : isBlank c = false) (cs : List Char) :
    words (c :: cs) ≠ [] := by
  rw [words, h]
  cases hends : wordEnds cs with
  | true => simp
  | false =>
    cases words cs <;> simp [extendFirst]

/-- The first word of two lists of words is that of the first list. -/
theorem extendFirst_append {c : Char} {ws : List (List Char)} (h : ws ≠ [])
    (vs : List (List Char)) : extendFirst c (ws ++ vs) = extendFirst c ws ++ vs := by
  cases ws with
  | nil => exact absurd rfl h
  | cons w ws => rfl

/-- A text is cut wherever a word ends: if what follows begins with a blank, or is empty, the words
before it are not affected. -/
theorem words_append {bs : List Char} (h : wordEnds bs = true) (cs : List Char) :
    words (cs ++ bs) = words cs ++ words bs := by
  induction cs with
  | nil => rfl
  | cons c cs ih =>
    cases hc : isBlank c with
    | true => rw [List.cons_append, words_blank hc, words_blank hc, ih]
    | false =>
      cases cs with
      | nil =>
        show words (c :: bs) = words [c] ++ words bs
        rw [words, words, hc, h]
        rfl
      | cons d ds =>
        have hends : wordEnds (d :: ds ++ bs) = wordEnds (d :: ds) := rfl
        rw [List.cons_append, words, words, hc, hends, ih]
        cases hd : wordEnds (d :: ds) with
        | true => rfl
        | false => exact extendFirst_append (words_ne_nil hd ds) (words bs)

/-- **A blank is where two texts can be cut apart.** -/
theorem words_append_blank {c : Char} (hc : isBlank c = true) (as bs : List Char) :
    words (as ++ c :: bs) = words as ++ words bs := by
  rw [words_append (show wordEnds (c :: bs) = true from hc), words_blank hc]

/-- Blanks are no words. -/
theorem words_of_all_blank {cs : List Char} (h : ∀ c ∈ cs, isBlank c = true) : words cs = [] := by
  induction cs with
  | nil => rfl
  | cons c cs ih =>
    rw [words_blank (h c (by simp))]
    exact ih fun d hd => h d (by simp [hd])

/-- Before blanks a word ends. -/
theorem wordEnds_of_all_blank {cs : List Char} (h : ∀ c ∈ cs, isBlank c = true) :
    wordEnds cs = true := by
  cases cs with
  | nil => rfl
  | cons c cs => exact h c (by simp)

/-- Blanks in front make no word. -/
theorem words_dropWhile (cs : List Char) : words (cs.dropWhile isBlank) = words cs := by
  induction cs with
  | nil => rfl
  | cons c cs ih =>
    cases hc : isBlank c with
    | true => rw [List.dropWhile_cons_of_pos hc, ih, words_blank hc]
    | false => rw [List.dropWhile_cons_of_neg (by simp [hc])]

/-- **Stripping moves no cut**, because the blanks that it takes away at either end belong to no
word. -/
theorem words_trim (cs : List Char) : words (trim cs) = words cs := by
  rw [← words_dropWhile cs]
  unfold trim
  generalize cs.dropWhile isBlank = ds
  generalize hkept : (ds.reverse.dropWhile isBlank).reverse = kept
  have hsplit : ds = kept ++ (ds.reverse.takeWhile isBlank).reverse := by
    rw [← hkept, ← List.reverse_append, List.takeWhile_append_dropWhile, List.reverse_reverse]
  have hblank : ∀ c ∈ (ds.reverse.takeWhile isBlank).reverse, isBlank c = true := by
    intro c hc
    exact List.mem_takeWhile_imp (List.mem_reverse.1 hc)
  calc words kept
      = words kept ++ words (ds.reverse.takeWhile isBlank).reverse := by
        rw [words_of_all_blank hblank, List.append_nil]
    _ = words (kept ++ (ds.reverse.takeWhile isBlank).reverse) := by
        rw [words_append (wordEnds_of_all_blank hblank)]
    _ = words ds := by rw [← hsplit]

/-! ## Capitals -/

/-- The twenty-six letters are moved by thirty-two, all else stays. -/
theorem toUpper_cases (c : Char) :
    c.toUpper = c ∨ 97 ≤ c.toNat ∧ c.toNat ≤ 122 ∧ c.toUpper.toNat = c.toNat - 32 := by
  by_cases h : c.val ≥ 'a'.val ∧ c.val ≤ 'z'.val
  · right
    have hlow : 97 ≤ c.val.toNat := h.1
    have hhigh : c.val.toNat ≤ 122 := h.2
    refine ⟨hlow, hhigh, ?_⟩
    have hval : c.toUpper.val = c.val + ('A'.val - 'a'.val) := by
      unfold Char.toUpper
      rw [dif_pos h]
    have hshift : ('A'.val - 'a'.val).toNat = 2 ^ 32 - 32 := rfl
    show c.toUpper.val.toNat = c.val.toNat - 32
    rw [hval, UInt32.toNat_add, hshift]
    omega
  · left
    unfold Char.toUpper
    rw [dif_neg h]

/-- No visible ASCII character is a blank. -/
theorem isBlank_of_visible {c : Char} (hlow : 33 ≤ c.toNat) (hhigh : c.toNat ≤ 126) :
    isBlank c = false := by
  unfold isBlank
  simp only [Bool.or_eq_false_iff, Bool.and_eq_false_iff, decide_eq_false_iff_not,
    beq_eq_false_iff_ne]
  omega

/-- No letter becomes a blank, and no blank a letter, by being raised. -/
theorem isBlank_toUpper (c : Char) : isBlank c.toUpper = isBlank c := by
  rcases toUpper_cases c with h | ⟨hlow, hhigh, hupper⟩
  · rw [h]
  · rw [isBlank_of_visible (c := c) (by omega) (by omega)]
    exact isBlank_of_visible (by omega) (by omega)

/-- A letter that is raised stays so when raised again. -/
theorem toUpper_toUpper (c : Char) : c.toUpper.toUpper = c.toUpper := by
  rcases toUpper_cases c with h | ⟨hlow, hhigh, hupper⟩
  · rw [h, h]
  · rcases toUpper_cases c.toUpper with h | ⟨hlow', -, -⟩
    · exact h
    · omega

/-- Words end where they did when their letters are raised. -/
theorem wordEnds_map_toUpper (cs : List Char) :
    wordEnds (cs.map Char.toUpper) = wordEnds cs := by
  cases cs with
  | nil => rfl
  | cons c cs => exact isBlank_toUpper c

/-- **Capitalising moves no cut.** -/
theorem words_map_toUpper (cs : List Char) :
    words (cs.map Char.toUpper) = (words cs).map (·.map Char.toUpper) := by
  induction cs with
  | nil => rfl
  | cons c cs ih =>
    rw [List.map_cons, words, words, isBlank_toUpper, wordEnds_map_toUpper, ih]
    split
    · rfl
    · split
      · rfl
      · cases words cs <;> rfl

/-- A text in capitals stays as it is. -/
theorem capitals_capitals (s : String) : capitals (capitals s) = capitals s := by
  unfold capitals
  rw [String.toList_ofList, List.map_map]
  congr 1
  exact List.map_congr_left fun c _ => toUpper_toUpper c

/-! ## What a word is made of -/

/-- The characters of a word stand in the text, and none is a blank: a word is begun and continued
by characters that are none. -/
theorem mem_of_mem_words {c : Char} {w cs : List Char} (hw : w ∈ words cs) (hc : c ∈ w) :
    c ∈ cs ∧ isBlank c = false := by
  induction cs generalizing w with
  | nil => simp at hw
  | cons d ds ih =>
    have later : ∀ {v}, v ∈ words ds → c ∈ v → c ∈ d :: ds ∧ isBlank c = false := by
      intro v hv hcv
      exact ⟨List.mem_cons_of_mem d (ih hv hcv).1, (ih hv hcv).2⟩
    cases hd : isBlank d with
    | true =>
      rw [words_blank hd] at hw
      exact later hw hc
    | false =>
      have here : c = d → c ∈ d :: ds ∧ isBlank c = false := by
        rintro rfl
        exact ⟨List.mem_cons_self, hd⟩
      rw [words, hd] at hw
      cases hends : wordEnds ds with
      | true =>
        simp only [hends, Bool.false_eq_true, if_false, if_true] at hw
        rcases List.mem_cons.1 hw with rfl | hw
        · exact here (List.mem_singleton.1 hc)
        · exact later hw hc
      | false =>
        simp only [hends, Bool.false_eq_true, if_false] at hw
        cases hws : words ds with
        | nil =>
          rw [hws, extendFirst, List.mem_singleton] at hw
          rw [hw] at hc
          exact here (List.mem_singleton.1 hc)
        | cons v vs =>
          rw [hws, extendFirst] at hw
          rcases List.mem_cons.1 hw with rfl | hw
          · rcases List.mem_cons.1 hc with hc | hc
            · exact here hc
            · exact later (hws ▸ List.mem_cons_self) hc
          · exact later (hws ▸ List.mem_cons_of_mem v hw) hc

end Text

end SlotRadio
