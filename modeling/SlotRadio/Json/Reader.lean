/-!
# Reading JSON: the basics

A reader takes characters from the front of a text and gives a value and
what is left, or a fault.  There are three faults, and the first one
from the left is the one that is reported:

* `malformed` — what stands here is not JSON;
* `truncated` — the text ends where something is still missing;
* `mismatch` — it is JSON so far, but not of the kind that is wanted.
-/

namespace SlotRadio.Json

/-- Why a text cannot be read. -/
inductive Fault where
  | malformed
  | truncated
  | mismatch
  deriving DecidableEq, Repr

/-- What is still to be read. -/
abbrev Input := List Char

/-- Takes a value from the front of a text. -/
abbrev Reader (α : Type) := Input → Except Fault (α × Input)

/-- The characters that may stand between the parts of a value. -/
def isSpace (c : Char) : Bool :=
  c == ' ' || c == '\n' || c == '\t' || c == '\r'

/-- A text without the blanks at its front. -/
def skipSpace (input : Input) : Input :=
  input.dropWhile isSpace

/-- Takes the given characters. -/
def takeWord : List Char → Input → Except Fault Input
  | [], input => .ok input
  | _ :: _, [] => .error .truncated
  | w :: word, c :: rest => if c = w then takeWord word rest else .error .malformed

/-- Takes the colon after a name. -/
def takeColon (input : Input) : Except Fault Input :=
  match skipSpace input with
  | [] => .error .truncated
  | c :: rest => if c = ':' then .ok rest else .error .malformed

/-- Takes the bracket that ends a value whose last part has been read. -/
def takeClosing (bracket : Char) (input : Input) : Except Fault Input :=
  match skipSpace input with
  | [] => .error .truncated
  | c :: rest => if c = bracket then .ok rest else .error .malformed

/-- Goes to the next item of a list, or to its closing bracket, which is
not taken. -/
def nextItem (first : Bool) (input : Input) : Except Fault (Option Input) :=
  match skipSpace input with
  | [] => .error .truncated
  | c :: rest =>
    if c = ']' then .ok none
    else if first then .ok (some (c :: rest))
    else if c = ',' then
      match skipSpace rest with
      | [] => .error .truncated
      | d :: more => if d = ']' then .error .malformed else .ok (some (d :: more))
    else .error .malformed

/-- Goes behind the quotation mark of the next name of an object, or
behind the object's closing bracket. -/
def nextName (first : Bool) (input : Input) : Except Fault (Input ⊕ Input) :=
  match skipSpace input with
  | [] => .error .truncated
  | c :: rest =>
    if c = '}' then .ok (.inr rest)
    else if first then if c = '"' then .ok (.inl rest) else .error .malformed
    else if c = ',' then
      match skipSpace rest with
      | [] => .error .truncated
      | d :: more => if d = '"' then .ok (.inl more) else .error .malformed
    else .error .malformed

end SlotRadio.Json
