import ByteMachine.Instruction
import ByteMachine.Text.Hex

/-!
The text of an instruction. Registers and values are decimal, addresses hexadecimal with at
least four digits.
-/

namespace ByteMachine.Instruction

def registerName (r : UInt8) : String := "r" ++ toString r.toNat

def mnemonic : Instruction → String
  | nop => "nop"
  | halt => "halt"
  | load reg value => "load " ++ registerName reg ++ ", " ++ toString value.toNat
  | add target source => "add " ++ registerName target ++ ", " ++ registerName source
  | store source addr => "store " ++ registerName source ++ ", " ++ Hex.lower 4 addr.toNat

end ByteMachine.Instruction
