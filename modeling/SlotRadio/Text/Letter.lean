/-!
# Letters on the air

Calls, grids and messages are sent in capitals.  Only the twenty-six
letters `a`–`z` have a capital here; every other character, accented
letters included, stays as it is.

* `capitals` — a text with its ASCII letters in capitals;
* `sameCall` — two calls are the same station when they agree up to
  that change.
-/

namespace SlotRadio.Text

/-- Writes the letters `a`–`z` as capitals and keeps all else. -/
def capitals (s : String) : String :=
  String.ofList (s.toList.map Char.toUpper)

/-- Two calls name one station when they agree up to ASCII case. -/
def sameCall (a b : String) : Bool :=
  capitals a == capitals b

theorem sameCall_refl (a : String) : sameCall a a = true := by
  simp [sameCall]

end SlotRadio.Text
