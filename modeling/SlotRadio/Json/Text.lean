import SlotRadio.Json.Reader
/-!
# Reading JSON strings

A string is read character by character up to its closing quotation
mark.  Control characters must be escaped.  The escape `\u` takes four
hexadecimal digits, which stand for a code unit of sixteen bits; two
units that form a surrogate pair are one character, and a surrogate
without its partner is refused.

A string that nobody wants (`skipBody`) is only looked at for its shape:
there a lone surrogate goes through.
-/

namespace SlotRadio.Json

/-- The value of a hexadecimal digit. -/
def hexValue? (c : Char) : Option Nat :=
  if '0' ≤ c ∧ c ≤ '9' then some (c.toNat - 0x30)
  else if 'a' ≤ c ∧ c ≤ 'f' then some (c.toNat - 0x57)
  else if 'A' ≤ c ∧ c ≤ 'F' then some (c.toNat - 0x37)
  else none

/-- The number of octets that a text takes. -/
def octets (input : Input) : Nat :=
  input.foldl (fun n c => n + c.utf8Size) 0

/-- Takes four hexadecimal digits.  A text with fewer than four octets
left ends too early. -/
def takeHex (input : Input) : Except Fault (Nat × Input) :=
  if octets (input.take 4) < 4 then .error .truncated
  else
    match input with
    | a :: b :: c :: d :: rest =>
      match hexValue? a, hexValue? b, hexValue? c, hexValue? d with
      | some w, some x, some y, some z => .ok (((w * 16 + x) * 16 + y) * 16 + z, rest)
      | _, _, _, _ => .error .malformed
    | _ => .error .malformed

/-- The character of an escape of one letter. -/
def simpleEscape? (c : Char) : Option Char :=
  if c = '"' then some '"'
  else if c = '\\' then some '\\'
  else if c = '/' then some '/'
  else if c = 'b' then some '\x08'
  else if c = 'f' then some '\x0c'
  else if c = 'n' then some '\n'
  else if c = 'r' then some '\r'
  else if c = 't' then some '\t'
  else none

/-- The second half of a surrogate pair. -/
def takeLowSurrogate (high : Nat) : Input → Except Fault (Char × Input)
  | [] => .error .truncated
  | c :: rest =>
    if c = '\\' then
      match rest with
      | [] => .error .truncated
      | d :: more =>
        if d = 'u' then
          match takeHex more with
          | .error f => .error f
          | .ok (low, left) =>
            if 0xDC00 ≤ low ∧ low ≤ 0xDFFF then
              .ok (Char.ofNat ((high - 0xD800) * 0x400 + (low - 0xDC00) + 0x10000), left)
            else .error .malformed
        else .error .malformed
    else .error .malformed

/-- The character of an escape, behind its reverse solidus. -/
def takeEscape : Input → Except Fault (Char × Input)
  | [] => .error .truncated
  | c :: rest =>
    if c = 'u' then
      match takeHex rest with
      | .error f => .error f
      | .ok (unit, left) =>
        if 0xDC00 ≤ unit ∧ unit ≤ 0xDFFF then .error .malformed
        else if 0xD800 ≤ unit ∧ unit ≤ 0xDBFF then takeLowSurrogate unit left
        else .ok (Char.ofNat unit, left)
    else
      match simpleEscape? c with
      | some x => .ok (x, rest)
      | none => .error .malformed

/-- Goes over an escape, behind its reverse solidus. -/
def skipEscape : Input → Except Fault Input
  | [] => .error .truncated
  | c :: rest =>
    if c = 'u' then (takeHex rest).map (·.2)
    else if (simpleEscape? c).isSome then .ok rest
    else .error .malformed

theorem length_of_takeHex {input rest : Input} {n : Nat}
    (h : takeHex input = .ok (n, rest)) : rest.length < input.length := by
  unfold takeHex at h
  split at h
  · simp at h
  · split at h
    · split at h
      · simp only [Except.ok.injEq, Prod.mk.injEq] at h
        simp [← h.2]
        omega
      · simp at h
    · simp at h

theorem length_of_takeLowSurrogate {high : Nat} {input rest : Input} {c : Char}
    (h : takeLowSurrogate high input = .ok (c, rest)) : rest.length < input.length := by
  unfold takeLowSurrogate at h
  split at h
  · simp at h
  · split at h
    · split at h
      · simp at h
      · split at h
        · split at h
          · simp at h
          · next hhex =>
            split at h
            · simp only [Except.ok.injEq, Prod.mk.injEq] at h
              have hlen := length_of_takeHex hhex
              simp only [List.length_cons, ← h.2]
              omega
            · simp at h
        · simp at h
    · simp at h

/-- **An escape takes something.** -/
theorem length_of_takeEscape {input rest : Input} {c : Char}
    (h : takeEscape input = .ok (c, rest)) : rest.length < input.length := by
  unfold takeEscape at h
  split at h
  · simp at h
  · split at h
    · split at h
      · simp at h
      · next hhex =>
        have hlen := length_of_takeHex hhex
        split at h
        · simp at h
        · split at h
          · have hlow := length_of_takeLowSurrogate h
            simp only [List.length_cons]
            omega
          · simp only [Except.ok.injEq, Prod.mk.injEq] at h
            simp only [List.length_cons, ← h.2]
            omega
    · split at h
      · simp only [Except.ok.injEq, Prod.mk.injEq] at h
        simp [← h.2]
      · simp at h

theorem length_of_skipEscape {input rest : Input}
    (h : skipEscape input = .ok rest) : rest.length < input.length := by
  unfold skipEscape at h
  split at h
  · simp at h
  · next c more =>
    split at h
    · cases hhex : takeHex more with
      | error f => simp [hhex, Except.map] at h
      | ok v =>
        have hpair : takeHex more = .ok (v.1, v.2) := hhex
        have hlen := length_of_takeHex hpair
        simp only [hhex, Except.map, Except.ok.injEq] at h
        simp only [List.length_cons, ← h]
        omega
    · split at h
      · simp only [Except.ok.injEq] at h
        simp [← h]
      · simp at h

/-- Reads a string, behind its opening quotation mark. -/
def readBody (input : Input) : Except Fault (List Char × Input) :=
  match input with
  | [] => .error .truncated
  | c :: rest =>
    if c = '"' then .ok ([], rest)
    else if c = '\\' then
      match h : takeEscape rest with
      | .error f => .error f
      | .ok (x, left) =>
        have := length_of_takeEscape h
        match readBody left with
        | .error f => .error f
        | .ok (text, last) => .ok (x :: text, last)
    else if c.toNat < 0x20 then .error .malformed
    else
      match readBody rest with
      | .error f => .error f
      | .ok (text, last) => .ok (c :: text, last)
termination_by input.length

/-- Goes over a string, behind its opening quotation mark. -/
def skipBody (input : Input) : Except Fault Input :=
  match input with
  | [] => .error .truncated
  | c :: rest =>
    if c = '"' then .ok rest
    else if c = '\\' then
      match h : skipEscape rest with
      | .error f => .error f
      | .ok left =>
        have := length_of_skipEscape h
        skipBody left
    else if c.toNat < 0x20 then .error .malformed
    else skipBody rest
termination_by input.length

end SlotRadio.Json
