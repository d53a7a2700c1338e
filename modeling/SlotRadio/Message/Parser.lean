import SlotRadio.Text.Blank
import SlotRadio.Message.Basic
import SlotRadio.Message.Token
/-!
# Reading a message

Every text is a message.  It is first stripped of the blanks at its ends
and put in capitals, then cut into tokens.  The tokens decide:

* `CQ` and one to three more tokens are a call to everybody.  With two
  more, the last is a grid if it looks like one, and otherwise the
  caller, the token before it being the modifier.  With three more, the
  last must be a grid;
* any other three tokens are addressee, sender and content, where the
  content is one of `RR73`, `RRR`, `73`, a grid, or a report with or
  without a leading `R`;
* all else is free text, kept with its inner blanks.
-/

namespace SlotRadio.Message

/-- A call to everybody from the tokens after `CQ`. -/
def ofCall? : List String → Option Message
  | [sender] => some (cq none sender none)
  | [a, b] => some (if isGridSquare b then cq none a (some b) else cq (some a) b none)
  | [modifier, sender, square] =>
    if isGridSquare square then some (cq (some modifier) sender (some square)) else none
  | _ => none

/-- A directed message from its content token. -/
def ofContent? (addressee sender content : String) : Option Message :=
  if content = "RR73" then some (roger addressee sender true)
  else if content = "RRR" then some (roger addressee sender false)
  else if content = "73" then some (seventyThree addressee sender)
  else if isGridSquare content then some (grid addressee sender content)
  else
    match content.toList with
    | 'R' :: level => (readReport level).map (rogerReport addressee sender)
    | level => (readReport level).map (report addressee sender)

/-- The message that a list of tokens stands for, if any. -/
def ofTokens? : List String → Option Message
  | [] => none
  | first :: rest =>
    if first = "CQ" then ofCall? rest
    else
      match rest with
      | [sender, content] => ofContent? first sender content
      | _ => none

/-- A text without the blanks at its ends, in capitals. -/
def normalText (s : String) : String :=
  Text.capitals (String.ofList (Text.trim s.toList))

/-- The message that a text stands for. -/
def parse (s : String) : Message :=
  let line := normalText s
  (ofTokens? ((Text.words line.toList).map String.ofList)).getD (freeText line)

end SlotRadio.Message
