import SlotRadio.Message.Basic
import SlotRadio.Message.Token
/-!
# The text of a message

A message is sent as its tokens with one space between them.  Free text
is a single token and is sent as it stands.
-/

namespace SlotRadio.Message

/-- The tokens of a message in the order of sending. -/
def tokens : Message → List String
  | cq modifier sender square => ["CQ"] ++ modifier.toList ++ [sender] ++ square.toList
  | grid addressee sender square => [addressee, sender, square]
  | report addressee sender snr => [addressee, sender, String.ofList (reportText snr)]
  | rogerReport addressee sender snr => [addressee, sender, String.ofList ('R' :: reportText snr)]
  | roger addressee sender with73 => [addressee, sender, if with73 then "RR73" else "RRR"]
  | seventyThree addressee sender => [addressee, sender, "73"]
  | freeText text => [text]

/-- The text of a message. -/
def text (m : Message) : String :=
  String.ofList ([' '].intercalate (m.tokens.map String.toList))

/-- A message as its partner will read it: reports are held within
thirty dB of zero. -/
def clamped : Message → Message
  | report addressee sender snr => report addressee sender (clampReport snr)
  | rogerReport addressee sender snr => rogerReport addressee sender (clampReport snr)
  | m => m

end SlotRadio.Message
