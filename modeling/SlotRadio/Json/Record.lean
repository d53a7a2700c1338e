import SlotRadio.Json.Codec
/-!
# Records in JSON

A record is an object with named members, or a list of the members'
values in their order.

* In an object the members may come in any order, and members with other
  names are gone over.  A member given twice is a fault, and so is a
  member left out, unless the record says what it stands for then.
* In a list no value may be left out, unless the record allows lists
  that are too short.

The members of a record type are described by a list (`Member`); the
values belonging to it are tuples (`Values`), and tuples of what has been
read so far (`Slots`).  `Record.codec` makes a codec of such a
description.
-/

namespace SlotRadio.Json

/-- A member of a record: how its values are read and written, and the value
where an object leaves it out. -/
structure Member where
  name : String
  Value : Type
  codec : Codec Value
  omitted : Option Value

/-- A member that must be there. -/
def Member.required {α : Type} (name : String) (codec : Codec α) : Member :=
  ⟨name, α, codec, none⟩

/-- A member that may be `null`, and is `null` where it is left out. -/
def Member.optional {α : Type} (name : String) (codec : Codec α) : Member :=
  ⟨name, Option α, codec.option, some none⟩

/-- A member with a value where it is left out. -/
def Member.withDefault {α : Type} (name : String) (codec : Codec α) (value : α) : Member :=
  ⟨name, α, codec, some value⟩

/-- A value for each member. -/
def Values : List Member → Type
  | [] => Unit
  | m :: ms => m.Value × Values ms

/-- What has been read for each member. -/
def Slots : List Member → Type
  | [] => Unit
  | m :: ms => Option m.Value × Slots ms

namespace Slots

/-- Nothing has been read. -/
def empty : (ms : List Member) → Slots ms
  | [] => ()
  | _ :: ms => (none, empty ms)

/-- Whether a value has been read for the member of a name; nothing if
there is no such member. -/
def taken? : (ms : List Member) → Slots ms → String → Option Bool
  | [], _, _ => none
  | m :: ms, (value, rest), name =>
    if m.name = name then some value.isSome else taken? ms rest name

/-- Reads the value of the member of a name. -/
def fill : (ms : List Member) → Slots ms → String → Reader (Slots ms)
  | [], slots, _, input => .ok (slots, input)
  | m :: ms, (value, rest), name, input =>
    if m.name = name then
      (m.codec.read input).map fun (v, left) => ((some v, rest), left)
    else
      (fill ms rest name input).map fun (filled, left) => ((value, filled), left)

/-- The values of all members, those left out included. -/
def finish : (ms : List Member) → Slots ms → Except Fault (Values ms)
  | [], _ => .ok ()
  | m :: ms, (value, rest) =>
    match value.or m.omitted with
    | none => .error .mismatch
    | some v => (finish ms rest).map fun values => (v, values)

end Slots

/-- Reads the members of an object up to its closing bracket, at most
`fuel` of them. -/
def readMembers (ms : List Member) : Nat → Bool → Slots ms → Reader (Slots ms)
  | 0, _, _, _ => .error .malformed
  | fuel + 1, first, slots, input =>
    match nextName first input with
    | .error f => .error f
    | .ok (.inr rest) => .ok (slots, rest)
    | .ok (.inl quoted) =>
      match readBody quoted with
      | .error f => .error f
      | .ok (letters, afterName) =>
        let name := String.ofList letters
        match slots.taken? ms name with
        | some true => .error .mismatch
        | known =>
          match takeColon afterName with
          | .error f => .error f
          | .ok afterColon =>
            if known.isSome then
              match slots.fill ms name afterColon with
              | .error f => .error f
              | .ok (filled, rest) => readMembers ms fuel false filled rest
            else
              match skipValue afterColon with
              | .error f => .error f
              | .ok rest => readMembers ms fuel false slots rest

/-- Reads the values of a list in the order of the members. -/
def readValues (short : Bool) : (ms : List Member) → Bool → Reader (Values ms)
  | [], _, input => (takeClosing ']' input).map ((), ·)
  | m :: ms, first, input =>
    match nextItem first input with
    | .error f => .error f
    | .ok none =>
      match m.omitted with
      | some v =>
        if short then
          (readValues short ms first input).map fun (values, rest) => ((v, values), rest)
        else .error .mismatch
      | none => .error .mismatch
    | .ok (some item) =>
      match m.codec.read item with
      | .error f => .error f
      | .ok (v, rest) =>
        (readValues short ms false rest).map fun (values, left) => ((v, values), left)

/-- The written members. -/
def writeMembers : (ms : List Member) → Values ms → List (String × Document)
  | [], _ => []
  | m :: ms, (v, rest) => (m.name, m.codec.write v) :: writeMembers ms rest

/-- A record type: its members in the order of writing, and the way from a
tuple of values to a record and back.  A list that stands for a record may be
too short if `short`. -/
structure Record (ρ : Type) where
  members : List Member
  build : Values members → ρ
  parts : ρ → Values members
  short : Bool

namespace Record

variable {ρ : Type} (r : Record ρ)

/-- Reads the members of an object, behind its opening bracket. -/
def readObject (input : Input) : Except Fault (ρ × Input) :=
  match readMembers r.members (input.length + 1) true (.empty r.members) input with
  | .error f => .error f
  | .ok (slots, rest) => (slots.finish r.members).map fun values => (r.build values, rest)

/-- Reads a record. -/
def read (input : Input) : Except Fault (ρ × Input) :=
  match skipSpace input with
  | [] => .error .truncated
  | c :: rest =>
    if c = '[' then
      (readValues r.short r.members true rest).map fun (values, left) =>
        (r.build values, left)
    else if c = '{' then r.readObject rest
    else .error (mismatchAt (c :: rest))

/-- How the records are read and written. -/
def codec : Codec ρ where
  read := r.read
  write a := .object (writeMembers r.members (r.parts a))

end Record

end SlotRadio.Json
