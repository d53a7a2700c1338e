/-!
# Words

Clock readings, counts of samples and the whole numbers of a
configuration are kept in words of sixty-four bits, operators and
frequencies in half words.  Where a computation may leave a word, the
definition says so in terms of `Word.count`.
-/

namespace SlotRadio.Word

/-- The number of words: two to the power of sixty-four. -/
def count : Nat := 0x10000000000000000

/-- The number of half words: two to the power of thirty-two. -/
def halfCount : Nat := 0x100000000

end SlotRadio.Word
