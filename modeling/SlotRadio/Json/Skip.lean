import SlotRadio.Json.Number
import SlotRadio.Json.Text
/-!
# Values that nobody wants

A value under a name that is not known is gone over.  It may be nested
to any depth, so the brackets that are still open are kept in a list,
the innermost first, instead of in the recursion.
-/

namespace SlotRadio.Json

/-- A bracket that is still open. -/
inductive Bracket where
  | list
  | object
  deriving DecidableEq, Repr

/-- Where one stands inside a value: a value is to come, the innermost bracket
has just been opened, or a value is over. -/
inductive Place where
  | value
  | opened
  | after
  deriving DecidableEq, Repr

/-- True for the character that closes a bracket. -/
def Bracket.closedBy : Bracket → Char → Bool
  | list, c => c == ']'
  | object, c => c == '}'

/-- Goes over a name and its colon. -/
def skipName (input : Input) : Except Fault Input :=
  match skipSpace input with
  | [] => .error .truncated
  | c :: rest =>
    if c = '"' then
      match skipBody rest with
      | .ok left => takeColon left
      | .error f => .error f
    else .error .malformed

/-- Goes over what precedes the next value of a bracket. -/
def skipLead : Bracket → Input → Except Fault Input
  | .list, input => .ok input
  | .object, input => skipName input

/-- Goes over a value without brackets, which starts with `c`. -/
def skipScalar (c : Char) (rest : Input) : Except Fault Input :=
  if c = 'n' then takeWord ['u', 'l', 'l'] rest
  else if c = 't' then takeWord ['r', 'u', 'e'] rest
  else if c = 'f' then takeWord ['a', 'l', 's', 'e'] rest
  else if c = '"' then skipBody rest
  else if startsNumber c then skipNumber (c :: rest)
  else .error .malformed

/-- One part of a value: what is open after it, where one stands, and
what is left; nothing when the value is over. -/
def skipPart (opened : List Bracket) (place : Place) (input : Input) :
    Except Fault (Option (List Bracket × Place × Input)) :=
  match place, opened with
  | .after, [] => .ok none
  | .after, b :: outer =>
    match skipSpace input with
    | [] => .error .truncated
    | c :: rest =>
      if c = ',' then (skipLead b rest).map fun left => some (opened, .value, left)
      else if b.closedBy c then .ok (some (outer, .after, rest))
      else .error .malformed
  | .opened, [] => .ok none
  | .opened, b :: outer =>
    match skipSpace input with
    | [] => .error .truncated
    | c :: rest =>
      if b.closedBy c then .ok (some (outer, .after, rest))
      else (skipLead b (c :: rest)).map fun left => some (opened, .value, left)
  | .value, _ =>
    match skipSpace input with
    | [] => .error .truncated
    | c :: rest =>
      if c = '[' then .ok (some (.list :: opened, .opened, rest))
      else if c = '{' then .ok (some (.object :: opened, .opened, rest))
      else (skipScalar c rest).map fun left => some (opened, .after, left)

/-- Goes over the parts of a value, at most `fuel` of them. -/
def skipParts : Nat → List Bracket → Place → Input → Except Fault Input
  | 0, _, _, _ => .error .malformed
  | fuel + 1, opened, place, input =>
    match skipPart opened place input with
    | .error f => .error f
    | .ok none => .ok input
    | .ok (some (opened, place, left)) => skipParts fuel opened place left

/-- Goes over a value.  A text of `n` characters has at most `2 n`
parts. -/
def skipValue (input : Input) : Except Fault Input :=
  skipParts (2 * input.length + 2) [] .value input

end SlotRadio.Json
