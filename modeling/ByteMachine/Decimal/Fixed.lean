import ByteMachine.Decimal.Binary64

/-!
Numbers with a given count of places after the point. A half goes to the even neighbour.
-/

namespace ByteMachine.Decimal

def fixed (places : Nat) (x : Binary64) : String :=
  let n := roundDiv (x.numerator * Nat.pow 10 places) x.denominator
  let digits := (Nat.toDigits 10 n).leftpad (places + 1) '0'
  let point := digits.length - places
  String.ofList (digits.take point ++ '.' :: digits.drop point)

end ByteMachine.Decimal
