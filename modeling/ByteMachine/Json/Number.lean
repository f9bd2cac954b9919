import ByteMachine.Json.Basic

/-!
Numbers. A literal is first taken apart by the grammar and then given a value: a whole number
where its digits are all there is and fit in 64 bits, else a binary number. The binary number
comes from as many digits as fit in 64 bits, scaled by powers of ten with a rounding at each
scaling.
-/

namespace ByteMachine.Json

structure Literal where
  negative : Bool
  whole : List Char
  fraction : Option (List Char) := none
  exponent : Option Int := none

inductive Number where
  | natural (n : Nat)
  /-- The number below zero of magnitude `n`. -/
  | negative (n : Nat)
  | binary (negative : Bool) (magnitude : Binary64)

namespace Literal

/-- One digit or more; `atEnd` is the problem where the text is over. -/
def takeDigits (atEnd : Problem) : Reader (List Char)
  | [] => .error atEnd
  | c :: text =>
    if c.isDigit then .ok (c :: text.takeWhile Char.isDigit, text.dropWhile Char.isDigit)
    else .error (.malformed .invalidNumber)

/-- A zero is not followed by more digits. -/
def takeWhole (atEnd : Problem) : Reader (List Char)
  | '0' :: c :: text =>
    if c.isDigit then .error (.malformed .invalidNumber) else .ok (['0'], c :: text)
  | text => takeDigits atEnd text

def takeFraction (atEnd : Problem) : Reader (Option (List Char))
  | '.' :: text => do
    let (digits, text) ← takeDigits atEnd text
    .ok (some digits, text)
  | text => .ok (none, text)

def digitsValue (digits : List Char) : Nat := Nat.ofDigitChars 10 digits 0

def takeExponentDigits (atEnd : Problem) (negative : Bool) : Reader (Option Int) := fun text => do
  let (digits, text) ← takeDigits atEnd text
  let n : Int := digitsValue digits
  .ok (some (if negative then -n else n), text)

def takeExponent (atEnd : Problem) : Reader (Option Int)
  | c :: text =>
    if c = 'e' ∨ c = 'E' then
      match text with
      | '-' :: text => takeExponentDigits atEnd true text
      | '+' :: text => takeExponentDigits atEnd false text
      | text => takeExponentDigits atEnd false text
    else .ok (none, c :: text)
  | [] => .ok (none, [])

def takeUnsigned (atEnd : Problem) (negative : Bool) : Reader Literal := fun text => do
  let (whole, text) ← takeWhole atEnd text
  let (fraction, text) ← takeFraction atEnd text
  let (exponent, text) ← takeExponent atEnd text
  .ok (⟨negative, whole, fraction, exponent⟩, text)

def take (atEnd : Problem) : Reader Literal
  | '-' :: text => takeUnsigned atEnd true text
  | text => takeUnsigned atEnd false text

/-- Appends digits to `n` while the result fits in 64 bits, and counts the digits left. -/
def accumulate (n : Nat) : List Char → Nat × Nat
  | [] => (n, 0)
  | c :: digits =>
    let next := 10 * n + (c.toNat - '0'.toNat)
    if next < UInt64.size then accumulate next digits else (n, digits.length + 1)

/-- The greatest power of ten that is a binary number. -/
def greatestPower : Nat := 308

def powerOfTen? (exponent : Nat) : Option Binary64 := Binary64.ofNat? (Nat.pow 10 exponent)

/-- The number `x * 10 ^ exponent`. -/
def scaleUp (x : Binary64) (exponent : Nat) : Option Binary64 :=
  if exponent ≤ greatestPower then (powerOfTen? exponent).bind x.mul?
  else if x.mantissa = 0 then some x
  else none

def divideByPower (x : Binary64) (exponent : Nat) : Option Binary64 :=
  (powerOfTen? exponent).bind x.div?

/-- Divides by the greatest power `times` times, then once more. -/
def divideOften (x : Binary64) (last : Nat) : Nat → Option Binary64
  | 0 => divideByPower x last
  | times + 1 =>
    if x.mantissa = 0 then some x
    else (divideByPower x greatestPower).bind fun y => divideOften y last times

/-- The number `x / 10 ^ exponent`, by powers of ten that are binary numbers. -/
def scaleDown (x : Binary64) (exponent : Nat) : Option Binary64 :=
  let times := (exponent - 1) / greatestPower
  divideOften x (exponent - greatestPower * times) times

/-- The number `significand * 10 ^ exponent`, if it is not too large. -/
def binary? (significand : Nat) (exponent : Int) : Option Binary64 := do
  let x ← Binary64.ofNat? significand
  if 0 ≤ exponent then scaleUp x exponent.toNat else scaleDown x exponent.natAbs

def ofBinary (negative : Bool) (significand : Nat) (exponent : Int) : Except Problem Number :=
  match binary? significand exponent with
  | some x => .ok (.binary negative x)
  | none => .error (.malformed .numberOutOfRange)

/-- A negative zero and whole numbers below the least of 64 bits are binary. -/
def ofWhole (negative : Bool) (n : Nat) : Except Problem Number :=
  if ¬ negative then .ok (.natural n)
  else if n = 0 ∨ UInt64.size / 2 < n then ofBinary true n 0
  else .ok (.negative n)

def value (l : Literal) : Except Problem Number :=
  let (n, left) := accumulate 0 l.whole
  if left = 0 ∧ l.fraction = none ∧ l.exponent = none then ofWhole l.negative n
  else
    let fraction := l.fraction.getD []
    let (n, ignored) := accumulate n fraction
    ofBinary l.negative n (left - (fraction.length - ignored) + l.exponent.getD 0)

end Literal

/-- The value of a number that starts here. -/
def readNumber : Reader Number := fun text => do
  let (literal, text) ← Literal.take (.unclosed .value) text
  let number ← literal.value
  .ok (number, text)

/-- Passes over a number, whatever its value. -/
def skipNumber (text : List Char) : Except Problem (List Char) := do
  let (_, text) ← Literal.take (.malformed .invalidNumber) text
  .ok text

end ByteMachine.Json
