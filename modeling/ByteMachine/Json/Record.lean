import ByteMachine.Json.Scalar
import ByteMachine.Json.Skip

/-!
Records: an object with known keys, or a list of the fields in their order. Fields that are
left out keep what they have; a known key may stand once, and other keys are passed over.
-/

namespace ByteMachine.Json

/-- A key, and a reader that sets the field to the value. -/
structure RecordField (α : Type) where
  key : String
  read : α → Reader α

/-- The fields of a record and what a record is called in a message. -/
structure Shape (α : Type) where
  title : String
  fields : List (RecordField α)

namespace Shape

variable {α : Type}

def field? (s : Shape α) (key : String) : Option (RecordField α) := s.fields.find? (·.key = key)

/-- What may follow the last field of a list. -/
def closeList (text : List Char) : Except Problem (List Char) :=
  match skipBlanks text with
  | [] => .error (.unclosed .list)
  | ']' :: text => .ok text
  | ',' :: text =>
    match skipBlanks text with
    | ']' :: _ => .error (.malformed .trailingComma)
    | _ => .error (.malformed .trailingCharacters)
  | _ => .error (.malformed .trailingCharacters)

/-- The next element of a list, or nothing at its end. -/
def nextElement (first : Bool) (text : List Char) : Except Problem (Option (List Char)) :=
  match skipBlanks text with
  | [] => .error (.unclosed .list)
  | c :: text =>
    if c = ']' then .ok none
    else if first then .ok (some (c :: text))
    else if c = ',' then
      match skipBlanks text with
      | [] => .error (.unclosed .value)
      | ']' :: _ => .error (.malformed .trailingComma)
      | text => .ok (some text)
    else .error (.malformed .expectedCommaOrBracket)

/-- Reads the fields of a list in their order. -/
def readElements (value : α) (first : Bool) : List (RecordField α) → Reader α
  | [], text => (closeList text).map fun rest => (value, rest)
  | f :: fields, text => do
    match ← nextElement first text with
    | none => (closeList text).map fun rest => (value, rest)
    | some text =>
      let (value, text) ← f.read value text
      readElements value false fields text

/-- The next key of an object from after its quote, or the rest of the text after the object. -/
inductive Turn where
  | key (text : List Char)
  | finished (rest : List Char)

def nextKey (first : Bool) (text : List Char) : Except Problem Turn :=
  match skipBlanks text with
  | [] => .error (.unclosed .object)
  | c :: text =>
    if c = '}' then .ok (.finished text)
    else if first then
      if c = '"' then .ok (.key text) else .error (.malformed .keyNotText)
    else if c = ',' then
      match skipBlanks text with
      | [] => .error (.unclosed .value)
      | d :: text =>
        if d = '"' then .ok (.key text)
        else if d = '}' then .error (.malformed .trailingComma)
        else .error (.malformed .keyNotText)
    else .error (.malformed .expectedCommaOrBrace)

def takeColon (text : List Char) : Except Problem (List Char) :=
  match skipBlanks text with
  | [] => .error (.unclosed .object)
  | ':' :: text => .ok text
  | _ => .error (.malformed .expectedColon)

/-- Reads a key and what belongs to it. `seen` are the known keys so far, and `bound` is more
than the length of the text after the key. -/
def readMember (s : Shape α) (value : α) (seen : List String) (bound : Nat) (text : List Char) :
    Except Problem (α × List String × List Char) := do
  let (key, text) ← Text.read text
  match s.field? key with
  | none => do
    let text ← takeColon text
    let text ← skipValue bound text
    .ok (value, seen, text)
  | some f =>
    if key ∈ seen then .error (.mismatch (.duplicateField key))
    else do
      let text ← takeColon text
      let (value, text) ← f.read value text
      .ok (value, key :: seen, text)

/-- Reads members to the end of the object. A member takes a character at least, so that more
members than there are characters are enough. -/
def readMembers (s : Shape α) (value : α) (seen : List String) (first : Bool)
    (text : List Char) : Nat → Except Problem (α × List Char)
  | 0 => .error (.unclosed .object)
  | members + 1 =>
    match nextKey first text with
    | .error e => .error e
    | .ok (.finished rest) => .ok (value, rest)
    | .ok (.key text) =>
      match s.readMember value seen members text with
      | .error e => .error e
      | .ok (value, seen, text) => s.readMembers value seen false text members

/-- Reads a record over the values that it starts from. -/
def read (s : Shape α) (value : α) : Reader α := fun text =>
  match skipBlanks text with
  | [] => .error (.unclosed .value)
  | c :: text =>
    if c = '[' then readElements value true s.fields text
    else if c = '{' then s.readMembers value [] true text (text.length + 1)
    else mismatch s.title (c :: text)

end Shape

end ByteMachine.Json
