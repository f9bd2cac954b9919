/-!
Numbers in hexadecimal with a least number of digits.
-/

namespace ByteMachine.Hex

def digits (width n : Nat) : List Char := (Nat.toDigits 16 n).leftpad width '0'

/-- `0x` and lower-case digits. -/
def lower (width n : Nat) : String := "0x" ++ String.ofList (digits width n)

/-- `0x` and upper-case digits. -/
def upper (width n : Nat) : String := "0x" ++ String.ofList ((digits width n).map Char.toUpper)

def byte (b : UInt8) : String := String.ofList (digits 2 b.toNat)

end ByteMachine.Hex
