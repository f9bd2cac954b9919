import ByteMachine.Decimal.Rounding

/-!
Finite numbers of the 64-bit binary format without their sign, and the three operations that are
needed of them. Each gives the number nearest to the exact result, and nothing where that is
beyond the largest.
-/

namespace ByteMachine

/-- The number `mantissa * 2 ^ exponent`. -/
structure Binary64 where
  mantissa : Nat
  exponent : Int
  deriving DecidableEq

namespace Binary64

def leastExponent : Int := -1074

def greatestExponent : Int := 971

/-- A ratio over a power of two, as numerator and denominator. -/
def scaled (num den : Nat) (exponent : Int) : Nat × Nat :=
  (num * Nat.pow 2 (-exponent).toNat, den * Nat.pow 2 exponent.toNat)

/-- The power of two that leaves a quotient of 53 bits, or the least there is. -/
def exponentOf (num den : Nat) : Int :=
  let guess : Int := (num.log2 : Int) - den.log2 - 53
  let (n, d) := scaled num den guess
  max leastExponent (if n / d < Nat.pow 2 53 then guess else guess + 1)

def nearest? (num den : Nat) : Option Binary64 :=
  let exponent := exponentOf num den
  let (n, d) := scaled num den exponent
  let mantissa := Decimal.roundDiv n d
  let x : Binary64 :=
    if mantissa < Nat.pow 2 53 then ⟨mantissa, exponent⟩ else ⟨Nat.pow 2 52, exponent + 1⟩
  if x.exponent ≤ greatestExponent then some x else none

def numerator (x : Binary64) : Nat := x.mantissa * Nat.pow 2 x.exponent.toNat

def denominator (x : Binary64) : Nat := Nat.pow 2 (-x.exponent).toNat

def ofNat? (n : Nat) : Option Binary64 := nearest? n 1

def mul? (x y : Binary64) : Option Binary64 :=
  nearest? (x.numerator * y.numerator) (x.denominator * y.denominator)

def div? (x y : Binary64) : Option Binary64 :=
  nearest? (x.numerator * y.denominator) (x.denominator * y.numerator)

end Binary64

end ByteMachine
