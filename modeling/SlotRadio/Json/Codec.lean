import SlotRadio.Json.Document
import SlotRadio.Json.Skip
/-!
# Codecs

A `Codec` reads and writes the values of one type.  Here are those of
the basic types; lists and optional values are built from the codec of
what they hold.

A reader that finds a value of another kind still looks whether that
value is well formed (`mismatchAt`), so that the first fault from the
left is the one that is reported.
-/

namespace SlotRadio.Json

/-- Reads and writes the values of a type. -/
structure Codec (α : Type) where
  read : Reader α
  write : α → Document

/-- The fault of a value that is not of the wanted kind. -/
def mismatchAt (input : Input) : Fault :=
  let verdict {α : Type} : Except Fault α → Fault
    | .ok _ => .mismatch
    | .error f => f
  match input with
  | [] => .truncated
  | c :: rest =>
    if c = 'n' then verdict (takeWord ['u', 'l', 'l'] rest)
    else if c = 't' then verdict (takeWord ['r', 'u', 'e'] rest)
    else if c = 'f' then verdict (takeWord ['a', 'l', 's', 'e'] rest)
    else if c = '"' then verdict (readBody rest)
    else if c = '[' ∨ c = '{' then .mismatch
    else if startsNumber c then verdict (readNumber input)
    else .malformed

namespace Codec

/-- Reads a string, its quotation marks included. -/
def readString (input : Input) : Except Fault (String × Input) :=
  match skipSpace input with
  | [] => .error .truncated
  | c :: rest =>
    if c = '"' then
      match readBody rest with
      | .ok (text, left) => .ok (String.ofList text, left)
      | .error f => .error f
    else .error (mismatchAt (c :: rest))

/-- Strings. -/
def string : Codec String where
  read := readString
  write := .string

/-- Reads a truth value. -/
def readBool (input : Input) : Except Fault (Bool × Input) :=
  match skipSpace input with
  | [] => .error .truncated
  | c :: rest =>
    if c = 't' then (takeWord ['r', 'u', 'e'] rest).map (true, ·)
    else if c = 'f' then (takeWord ['a', 'l', 's', 'e'] rest).map (false, ·)
    else .error (mismatchAt (c :: rest))

/-- Truth values. -/
def bool : Codec Bool where
  read := readBool
  write := .bool

/-- Reads a number of any kind. -/
def readAnyNumber (input : Input) : Except Fault (Number × Input) :=
  match skipSpace input with
  | [] => .error .truncated
  | c :: rest =>
    if startsNumber c then readNumber (c :: rest) else .error (mismatchAt (c :: rest))

/-- Reads an integer between two bounds. -/
def readInt (low high : Int) (input : Input) : Except Fault (Int × Input) :=
  match readAnyNumber input with
  | .error f => .error f
  | .ok (.integer n, rest) =>
    if low ≤ n ∧ n ≤ high then .ok (n, rest) else .error .mismatch
  | .ok (.real _, _) => .error .mismatch

/-- Natural numbers below a limit. -/
def below (limit : Nat) : Codec Nat where
  read input := (readInt 0 (Int.ofNat limit - 1) input).map fun (n, rest) => (n.toNat, rest)
  write := .nat

/-- Integers of thirty-two bits. -/
def int32 : Codec Int where
  read := readInt (-0x80000000) 0x7fffffff
  write := .int

/-- Absent values. -/
def unit : Codec Unit where
  read input :=
    match skipSpace input with
    | [] => .error .truncated
    | c :: rest =>
      if c = 'n' then (takeWord ['u', 'l', 'l'] rest).map ((), ·)
      else .error (mismatchAt (c :: rest))
  write _ := .null

/-- Reads a value that may be absent. -/
def readOption {α : Type} (c : Codec α) (input : Input) : Except Fault (Option α × Input) :=
  match skipSpace input with
  | 'n' :: rest => (takeWord ['u', 'l', 'l'] rest).map (none, ·)
  | other => (c.read other).map fun (a, rest) => (some a, rest)

/-- Values that may be absent. -/
def option {α : Type} (c : Codec α) : Codec (Option α) where
  read := readOption c
  write := .option c.write

/-- Reads the items of a list up to its closing bracket, at most `fuel`
of them. -/
def readItems {α : Type} (c : Codec α) :
    Nat → Bool → Input → Except Fault (List α × Input)
  | 0, _, _ => .error .malformed
  | fuel + 1, first, input =>
    match nextItem first input with
    | .error f => .error f
    | .ok none => (takeClosing ']' input).map ([], ·)
    | .ok (some item) =>
      match c.read item with
      | .error f => .error f
      | .ok (a, rest) =>
        (readItems c fuel false rest).map fun (items, left) => (a :: items, left)

/-- Reads a list. -/
def readList {α : Type} (c : Codec α) (input : Input) : Except Fault (List α × Input) :=
  match skipSpace input with
  | [] => .error .truncated
  | x :: rest =>
    if x = '[' then readItems c (rest.length + 1) true rest
    else .error (mismatchAt (x :: rest))

/-- Lists. -/
def list {α : Type} (c : Codec α) : Codec (List α) where
  read := readList c
  write := .list c.write

/-- Values that are written as those of another type. -/
def via {α β : Type} (c : Codec α) (there : α → β) (back : β → α) : Codec β where
  read input := (c.read input).map fun (a, rest) => (there a, rest)
  write b := c.write (back b)

/-- Reads a whole text. -/
def decode {α : Type} (c : Codec α) (text : String) : Except Fault α :=
  match c.read text.toList with
  | .error f => .error f
  | .ok (a, rest) => if (skipSpace rest).isEmpty then .ok a else .error .malformed

/-- The text of a value, without blanks. -/
def encode {α : Type} (c : Codec α) (a : α) : String :=
  (c.write a).text .compact

/-- The text of a value, a line for each member. -/
def encodeIndented {α : Type} (c : Codec α) (a : α) : String :=
  (c.write a).text .indented

end Codec

end SlotRadio.Json
