/-!
Addresses are 32-bit words. Arithmetic on them wraps; `advance` stops at the last address
instead.
-/

namespace ByteMachine

abbrev Address := UInt32

namespace Address

/-- The address `n` bytes on, or the last address if there is none. -/
def advance (a : Address) (n : Nat) : Address :=
  UInt32.ofNat (min (a.toNat + n) 0xffffffff)

theorem toNat_advance (a : Address) (n : Nat) :
    (a.advance n).toNat = min (a.toNat + n) 0xffffffff := by
  rw [advance, UInt32.toNat_ofNat']
  exact Nat.mod_eq_of_lt (by omega)

theorem toNat_advance_of_lt {a : Address} {n : Nat} (h : a.toNat + n < 0x100000000) :
    (a.advance n).toNat = a.toNat + n := by
  rw [toNat_advance]
  omega

@[simp] theorem advance_zero (a : Address) : a.advance 0 = a := by
  apply UInt32.toNat_inj.1
  have := a.toNat_lt
  rw [toNat_advance]
  omega

end Address

end ByteMachine
