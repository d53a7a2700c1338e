import SlotRadio.Json.Codec
/-!
# Choices in JSON

A choice between named alternatives is written as the name alone, or, if
the alternative carries a value, as an object with the name as its only
member.  In that form an alternative without a value may be written too,
with `null`.
-/

namespace SlotRadio.Json

/-- An alternative, with or without a value that it carries. -/
inductive Branch (ε : Type) where
  | plain (name : String) (value : ε)
  | carrying {α : Type} (name : String) (codec : Codec α) (inject : α → ε)

namespace Branch

variable {ε : Type}

/-- The name of an alternative. -/
def name : Branch ε → String
  | plain name _ => name
  | carrying name _ _ => name

/-- Reads what an alternative carries. -/
def readPayload : Branch ε → Reader ε
  | plain _ value, input => (Codec.unit.read input).map fun (_, rest) => (value, rest)
  | carrying _ codec inject, input =>
    (codec.read input).map fun (a, rest) => (inject a, rest)

/-- The alternative of a name. -/
def find? (branches : List (Branch ε)) (wanted : String) : Except Fault (Branch ε) :=
  match branches.find? (·.name == wanted) with
  | some b => .ok b
  | none => .error .mismatch

/-- Reads an alternative written as a name. -/
def readPlain (branches : List (Branch ε)) (input : Input) : Except Fault (ε × Input) :=
  match readBody input with
  | .error f => .error f
  | .ok (letters, rest) =>
    match find? branches (String.ofList letters) with
    | .ok (.plain _ value) => .ok (value, rest)
    | .ok (.carrying ..) => .error .mismatch
    | .error f => .error f

/-- Reads an alternative written as an object, behind its opening
bracket.  What is no name at all is malformed, whatever it is instead; an
unknown name is found out before its colon. -/
def readCarrying (branches : List (Branch ε)) (input : Input) : Except Fault (ε × Input) :=
  match nextName true input with
  | .error f => .error f
  | .ok (.inr _) => .error .malformed
  | .ok (.inl quoted) =>
    match readBody quoted with
    | .error f => .error f
    | .ok (letters, afterName) =>
      match find? branches (String.ofList letters) with
      | .error f => .error f
      | .ok b =>
        match takeColon afterName with
        | .error f => .error f
        | .ok afterColon =>
          match b.readPayload afterColon with
          | .error f => .error f
          | .ok (value, rest) => (takeClosing '}' rest).map (value, ·)

/-- Reads one of several alternatives. -/
def read (branches : List (Branch ε)) (input : Input) : Except Fault (ε × Input) :=
  match skipSpace input with
  | [] => .error .truncated
  | c :: rest =>
    if c = '"' then readPlain branches rest
    else if c = '{' then readCarrying branches rest
    else .error .malformed

end Branch

/-- The document of an alternative that carries a value. -/
def Document.tagged (name : String) (value : Document) : Document :=
  .object [(name, value)]

end SlotRadio.Json
