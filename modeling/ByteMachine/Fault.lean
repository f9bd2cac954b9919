import ByteMachine.Address
import ByteMachine.Text.Hex

/-!
Why an instruction cannot be fetched or carried out. Every fault knows the address of the
opcode.
-/

namespace ByteMachine

inductive Fault where
  | pcOutOfBounds (addr : Address)
  | truncated (addr : Address) (opcode : UInt8)
  | unknownOpcode (addr : Address) (opcode : UInt8)
  | invalidRegister (addr : Address) (reg : UInt8)
  deriving DecidableEq

namespace Fault

def addr : Fault → Address
  | pcOutOfBounds a => a
  | truncated a _ => a
  | unknownOpcode a _ => a
  | invalidRegister a _ => a

def message : Fault → String
  | pcOutOfBounds a => "PC out of bounds: " ++ Hex.upper 4 a.toNat
  | truncated a op =>
    "instruction " ++ Hex.upper 2 op.toNat ++ " at " ++ Hex.upper 4 a.toNat
      ++ " extends beyond memory"
  | unknownOpcode a op => "unknown opcode " ++ Hex.upper 2 op.toNat ++ " at " ++ Hex.upper 4 a.toNat
  | invalidRegister a r =>
    "invalid register r" ++ toString r.toNat ++ " in instruction at " ++ Hex.upper 4 a.toNat

end Fault

end ByteMachine
