import ByteMachine.Json.Number
import ByteMachine.Json.Text

/-!
Values of a wanted kind. Another kind is named by what it would have been, unless it is not
even well formed.
-/

namespace ByteMachine.Json

/-- What begins here. A scalar is read to its end. -/
def find : List Char → Except Problem Found
  | [] => .error (.unclosed .value)
  | c :: text =>
    if c = 'n' then (takeWord ['u', 'l', 'l'] text).map fun _ => .null
    else if c = 't' then (takeWord ['r', 'u', 'e'] text).map fun _ => .boolean true
    else if c = 'f' then (takeWord ['a', 'l', 's', 'e'] text).map fun _ => .boolean false
    else if c = '"' then (Text.read text).map fun r => .text r.1
    else if c = '[' then .ok .sequence
    else if c = '{' then .ok .map
    else if c = '-' ∨ c.isDigit then
      (readNumber (c :: text)).map fun r =>
        match r.1 with
        | .natural n => .integer n
        | .negative n => .integer (-n)
        | .binary negative x => .binary negative x
    else .error (.malformed .expectedValue)

/-- The problem that something else than `expected` begins here. -/
def mismatch {α : Type} (expected : String) (text : List Char) : Except Problem α := do
  let found ← find text
  .error (.mismatch (.invalidType found expected))

/-- A whole number below `limit`. -/
def readNatural (expected : String) (limit : Nat) : Reader Nat := fun text =>
  match skipBlanks text with
  | [] => .error (.unclosed .value)
  | c :: text =>
    if c = '-' ∨ c.isDigit then do
      let (number, rest) ← readNumber (c :: text)
      match number with
      | .natural n =>
        if n < limit then .ok (n, rest)
        else .error (.mismatch (.invalidValue (.integer n) expected))
      | .negative n => .error (.mismatch (.invalidValue (.integer (-n)) expected))
      | .binary negative x => .error (.mismatch (.invalidType (.binary negative x) expected))
    else mismatch expected (c :: text)

def readBoolean : Reader Bool := fun text =>
  match skipBlanks text with
  | [] => .error (.unclosed .value)
  | c :: text =>
    if c = 't' then (takeWord ['r', 'u', 'e'] text).map fun rest => (true, rest)
    else if c = 'f' then (takeWord ['a', 'l', 's', 'e'] text).map fun rest => (false, rest)
    else mismatch "a boolean" (c :: text)

/-- `null`, or a value. -/
def readOptional {α : Type} (read : Reader α) : Reader (Option α) := fun text =>
  match skipBlanks text with
  | 'n' :: text => (takeWord ['u', 'l', 'l'] text).map fun rest => (none, rest)
  | text => (read text).map fun r => (some r.1, r.2)

end ByteMachine.Json
