import SlotRadio.Text.Letter
/-!
# Messages of a standard exchange

A message either calls everybody (`cq`), or carries one step of a
contact from a sender to an addressee, or is free text.

* `Message.addressee?`, `Message.sender?` — who a message is for and who
  it comes from, where it says so;
* `Message.isFor` — whether a station is meant, its call compared
  without regard to ASCII case.
-/

namespace SlotRadio

/-- One transmission's content.  A call to everybody may have a word such as
`DX` that says who should answer, and the caller's grid.  The first answer
brings the sender's grid; then come a signal report, one that also confirms
the partner's report, a confirmation, which closes the contact as well if
`with73`, and the closing `73`.  Any other text is free. -/
inductive Message where
  | cq (modifier : Option String) (sender : String) (grid : Option String)
  | grid (addressee sender square : String)
  | report (addressee sender : String) (snr : Int)
  | rogerReport (addressee sender : String) (snr : Int)
  | roger (addressee sender : String) (with73 : Bool)
  | seventyThree (addressee sender : String)
  | freeText (text : String)
  deriving DecidableEq, Repr

namespace Message

/-- The station a message is directed at. -/
def addressee? : Message → Option String
  | grid addressee _ _ | report addressee _ _ | rogerReport addressee _ _ | roger addressee _ _
  | seventyThree addressee _ => some addressee
  | cq .. | freeText _ => none

/-- The station a message comes from. -/
def sender? : Message → Option String
  | cq _ by_ _ | grid _ by_ _ | report _ by_ _ | rogerReport _ by_ _ | roger _ by_ _
  | seventyThree _ by_ => some by_
  | freeText _ => none

/-- True when a message is directed at `call`. -/
def isFor (m : Message) (call : String) : Bool :=
  m.addressee?.any (Text.sameCall · call)

end Message

end SlotRadio
