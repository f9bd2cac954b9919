import ByteMachine.Decimal.Binary64

/-!
The shortest decimal that reads back as a given binary number. The numbers that round to it
form an interval, and the decimals of a given last place a grid. The first grid from above that
has a point in the interval gives the digits, and of two such points the nearer.
-/

namespace ByteMachine

/-- The number `digits * 10 ^ exponent`. -/
structure Decimal where
  digits : Nat
  exponent : Int
  deriving DecidableEq

namespace Decimal

/-- Everything over a common denominator: the number, its interval, and whether the ends belong. -/
structure Interval where
  below : Nat
  value : Nat
  above : Nat
  unit : Nat
  closed : Bool

namespace Interval

/-- The neighbour below is half as far where the power of two changes. -/
def ofBinary (x : Binary64) : Interval :=
  let scale := Nat.pow 2 (x.exponent - 2).toNat
  let gap := if x.mantissa = Nat.pow 2 52 ∧ Binary64.leastExponent < x.exponent then 1 else 2
  { below := (4 * x.mantissa - gap) * scale
    value := 4 * x.mantissa * scale
    above := (4 * x.mantissa + 2) * scale
    unit := Nat.pow 2 (2 - x.exponent).toNat
    closed := x.mantissa % 2 = 0 }

/-- Measured in units of `10 ^ exponent`. -/
def scaled (i : Interval) (exponent : Int) : Interval :=
  let up := Nat.pow 10 (-exponent).toNat
  { i with
    below := i.below * up
    value := i.value * up
    above := i.above * up
    unit := i.unit * Nat.pow 10 exponent.toNat }

def Holds (i : Interval) (n : Nat) : Prop :=
  if i.closed then i.below ≤ n * i.unit ∧ n * i.unit ≤ i.above
  else i.below < n * i.unit ∧ n * i.unit < i.above

instance (i : Interval) (n : Nat) : Decidable (i.Holds n) :=
  inferInstanceAs (Decidable (ite ..))

/-- The nearest whole number that belongs; halfway, the even one. -/
def whole? (i : Interval) : Option Nat :=
  let low := i.value / i.unit
  [roundDiv i.value i.unit, low, low + 1].find? fun n => i.Holds n

/-- Tries the grids from `10 ^ exponent` down. -/
def search (i : Interval) (exponent : Int) : Nat → Decimal
  | 0 => ⟨0, 0⟩
  | tries + 1 =>
    match (i.scaled exponent).whole? with
    | some n => ⟨n, exponent⟩
    | none => i.search (exponent - 1) tries

end Interval

/-- Without zeros at the end. -/
def trim (d : Decimal) : Decimal :=
  if h : d.digits ≠ 0 ∧ d.digits % 10 = 0 then
    trim ⟨d.digits / 10, d.exponent + 1⟩
  else d
termination_by d.digits
decreasing_by omega

/-- The number itself lies on the grid of its own exponent, so that the search ends there. -/
def shortest (x : Binary64) : Decimal :=
  if x.mantissa = 0 then ⟨0, 0⟩
  else
    let i := Interval.ofBinary x
    let start := (Nat.toDigits 10 (i.value / i.unit)).length
    (i.search start (start + (2 - x.exponent).toNat + 1)).trim

/-- Which exponents of the leading digit are written without an exponent. -/
structure Layout where
  leastPositional : Int
  greatestPositional : Int

/-- A point and a digit follow a whole number; an exponent always has its sign. -/
def Layout.text (l : Layout) (d : Decimal) : String :=
  let digits := Nat.toDigits 10 d.digits
  let leading : Int := d.exponent + digits.length - 1
  let chars :=
    if d.digits = 0 then ['0', '.', '0']
    else if l.leastPositional ≤ leading ∧ leading ≤ l.greatestPositional then
      if 0 ≤ d.exponent then digits ++ List.replicate d.exponent.toNat '0' ++ ['.', '0']
      else if 0 ≤ leading then
        digits.take (leading.toNat + 1) ++ '.' :: digits.drop (leading.toNat + 1)
      else '0' :: '.' :: List.replicate (-leading - 1).toNat '0' ++ digits
    else
      let fraction := if digits.length = 1 then [] else '.' :: digits.drop 1
      let sign := if leading < 0 then '-' else '+'
      digits.take 1 ++ fraction ++ 'e' :: sign :: Nat.toDigits 10 leading.natAbs
  String.ofList chars

end Decimal

end ByteMachine
