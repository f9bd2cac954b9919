/-!
Quotients rounded to a whole number. A half goes to the even neighbour.
-/

namespace ByteMachine.Decimal

def roundDiv (num den : Nat) : Nat :=
  let q := num / den
  let r := num % den
  if 2 * r < den ∨ 2 * r = den ∧ q % 2 = 0 then q else q + 1

@[simp] theorem roundDiv_one (n : Nat) : roundDiv n 1 = n := by
  simp [roundDiv, Nat.mod_one]

/-- The rounded quotient is within half a unit. -/
theorem roundDiv_near (num : Nat) {den : Nat} (h : 0 < den) :
    2 * num ≤ (2 * roundDiv num den + 1) * den ∧ 2 * roundDiv num den * den ≤ 2 * num + den := by
  have hdiv := Nat.div_add_mod num den
  have hmod := Nat.mod_lt num h
  unfold roundDiv
  generalize num / den = q at *
  generalize num % den = r at *
  dsimp only
  subst hdiv
  split <;> constructor <;> grind

end ByteMachine.Decimal
