import SlotRadio.Decimal.Digits
/-!
# JSON documents and their text

A `Document` is a JSON value whose numbers are already in their written
form.  Its text depends on a `Layout`, which says what stands where the
format allows blanks: nothing (`Layout.compact`) or one member a line,
indented by two spaces a level (`Layout.indented`).

In strings a quotation mark, a reverse solidus and the control
characters are escaped; every other character stands for itself.
-/

namespace SlotRadio.Json

/-- A JSON value.  A literal is `null`, `true`, `false` or a number, as
written; a string is given by its content, and members stand in the order of
writing. -/
inductive Document where
  | literal (text : List Char)
  | string (content : String)
  | array (items : List Document)
  | object (members : List (String × Document))

namespace Document

/-- The absent value. -/
def null : Document :=
  .literal ['n', 'u', 'l', 'l']

/-- A truth value. -/
def bool : Bool → Document
  | true => .literal ['t', 'r', 'u', 'e']
  | false => .literal ['f', 'a', 'l', 's', 'e']

/-- A natural number. -/
def nat (n : Nat) : Document :=
  .literal (Decimal.natural n)

/-- An integer. -/
def int (n : Int) : Document :=
  .literal (Decimal.integer n)

/-- A value that may be absent. -/
def option {α : Type} (write : α → Document) : Option α → Document
  | none => null
  | some a => write a

/-- A list of values of one kind. -/
def list {α : Type} (write : α → Document) (items : List α) : Document :=
  .array (items.map write)

end Document

/-- What stands where blanks may stand: `lineBreak` before an item of the
given depth and before a closing bracket, `afterColon` between a colon and the
value. -/
structure Layout where
  lineBreak : Nat → List Char
  afterColon : List Char

namespace Layout

/-- No blanks at all. -/
def compact : Layout where
  lineBreak _ := []
  afterColon := []

/-- A line for each member, indented by two spaces a level. -/
def indented : Layout where
  lineBreak depth := '\n' :: List.replicate (2 * depth) ' '
  afterColon := [' ']

end Layout

/-- The digits of the escape `\u00xy`. -/
def hexDigit (n : Nat) : Char :=
  if n < 10 then Char.ofNat (0x30 + n) else Char.ofNat (0x57 + n)

/-- A character inside a string. -/
def escapeChar (c : Char) : List Char :=
  if c = '"' then ['\\', '"']
  else if c = '\\' then ['\\', '\\']
  else if c = '\x08' then ['\\', 'b']
  else if c = '\x0c' then ['\\', 'f']
  else if c = '\n' then ['\\', 'n']
  else if c = '\r' then ['\\', 'r']
  else if c = '\t' then ['\\', 't']
  else if c.toNat < 0x20 then
    ['\\', 'u', '0', '0', hexDigit (c.toNat / 16), hexDigit (c.toNat % 16)]
  else [c]

/-- A string in its quotation marks. -/
def quote (s : String) : List Char :=
  '"' :: (s.toList.flatMap escapeChar ++ ['"'])

/-- Items between brackets: nothing between them if there are none, and
otherwise the items with commas, then the line break of the bracket. -/
def bracket (l : Layout) (depth : Nat) (opening closing : Char) :
    List (List Char) → List Char
  | [] => [opening, closing]
  | items => opening :: ([','].intercalate items ++ (l.lineBreak depth ++ [closing]))

mutual

/-- The text of a value that stands at the given depth. -/
def render (l : Layout) (depth : Nat) : Document → List Char
  | .literal text => text
  | .string content => quote content
  | .array items => bracket l depth '[' ']' (renderItems l (depth + 1) items)
  | .object members => bracket l depth '{' '}' (renderMembers l (depth + 1) members)

/-- The texts of a list's items, each on its line. -/
def renderItems (l : Layout) (depth : Nat) : List Document → List (List Char)
  | [] => []
  | item :: items =>
    (l.lineBreak depth ++ render l depth item) :: renderItems l depth items

/-- The texts of an object's members, each on its line. -/
def renderMembers (l : Layout) (depth : Nat) : List (String × Document) → List (List Char)
  | [] => []
  | (name, value) :: members =>
    (l.lineBreak depth ++ (quote name ++ (':' :: (l.afterColon ++ render l depth value))))
      :: renderMembers l depth members

end

/-- The text of a document. -/
def Document.text (d : Document) (l : Layout) : String :=
  String.ofList (render l 0 d)

end SlotRadio.Json
