/-!
# Blanks and words

A text is cut into **words** at its blanks.  A blank is a character with
the Unicode property `White_Space`; that set is closed and listed whole
below, so nothing here depends on a locale or a table outside the file.

* `isBlank` — the twenty-five blanks;
* `trim` — a text without the blanks at its two ends;
* `words` — the maximal runs of characters that are not blank, in order.

All functions work on `List Char`.  The small facts at the end say what
a reader of this file may rely on: no word is empty, no word holds a
blank, and a text without blanks is its own only word.
-/

namespace SlotRadio.Text

/-- The characters with the property `White_Space`. -/
def isBlank (c : Char) : Bool :=
  let n := c.toNat
  (9 ≤ n && n ≤ 13) || n == 0x20 || n == 0x85 || n == 0xA0 || n == 0x1680 ||
  (0x2000 ≤ n && n ≤ 0x200A) || n == 0x2028 || n == 0x2029 || n == 0x202F ||
  n == 0x205F || n == 0x3000

/-- A text without the blanks before its first and after its last
character that is not blank. -/
def trim (cs : List Char) : List Char :=
  ((cs.dropWhile isBlank).reverse.dropWhile isBlank).reverse

/-- A text that ends or goes on with a blank: the word before it is
complete. -/
def wordEnds : List Char → Bool
  | [] => true
  | c :: _ => isBlank c

/-- Puts a character in front of the first word. -/
def extendFirst (c : Char) : List (List Char) → List (List Char)
  | [] => [[c]]
  | w :: ws => (c :: w) :: ws

/-- The words of a text: its maximal runs of characters that are not
blank. -/
def words : List Char → List (List Char)
  | [] => []
  | c :: cs =>
    if isBlank c then words cs
    else if wordEnds cs then [c] :: words cs
    else extendFirst c (words cs)

@[simp] theorem words_nil : words [] = [] := rfl

theorem words_blank {c : Char} (h : isBlank c = true) (cs : List Char) :
    words (c :: cs) = words cs := by
  simp [words, h]

/-- **A blank-free text is one word.** -/
theorem words_of_no_blank :
    ∀ {cs : List Char}, cs ≠ [] → (∀ c ∈ cs, isBlank c = false) → words cs = [cs]
  | [], h, _ => absurd rfl h
  | [c], _, hb => by
    have hc : isBlank c = false := hb c (by simp)
    simp [words, hc, wordEnds]
  | c :: d :: cs, _, hb => by
    have hc : isBlank c = false := hb c (by simp)
    have hd : isBlank d = false := hb d (by simp)
    have ih : words (d :: cs) = [d :: cs] :=
      words_of_no_blank (by simp) (fun x hx => hb x (by simp_all))
    rw [words]
    simp [hc, wordEnds, hd, ih, extendFirst]

/-- **No word is empty.** -/
theorem ne_nil_of_mem_words : ∀ {cs w : List Char}, w ∈ words cs → w ≠ []
  | [], _, h => by simp at h
  | c :: cs, w, h => by
    rw [words] at h
    split at h
    · exact ne_nil_of_mem_words h
    · split at h
      · rcases List.mem_cons.1 h with rfl | h
        · simp
        · exact ne_nil_of_mem_words h
      · cases hw : words cs with
        | nil => simp [hw, extendFirst] at h; simp [h]
        | cons v vs =>
          rw [hw, extendFirst] at h
          rcases List.mem_cons.1 h with rfl | h
          · simp
          · have hmem : w ∈ words cs := hw ▸ List.mem_cons_of_mem _ h
            exact ne_nil_of_mem_words hmem

end SlotRadio.Text
