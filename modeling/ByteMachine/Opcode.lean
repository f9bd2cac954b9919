/-!
The five operations, the byte that stands for each and the number of operand bytes after it.
-/

namespace ByteMachine

inductive Opcode where
  | nop
  | halt
  | load
  | store
  | add
  deriving DecidableEq

namespace Opcode

def byte : Opcode → UInt8
  | nop => 0x00
  | halt => 0x01
  | load => 0x10
  | store => 0x11
  | add => 0x20

def ofByte? (b : UInt8) : Option Opcode :=
  if b = 0x00 then some nop
  else if b = 0x01 then some halt
  else if b = 0x10 then some load
  else if b = 0x11 then some store
  else if b = 0x20 then some add
  else none

def operandCount : Opcode → Nat
  | nop => 0
  | halt => 0
  | load => 2
  | store => 3
  | add => 2

@[simp] theorem ofByte?_byte (op : Opcode) : ofByte? op.byte = some op := by
  cases op <;> rfl

theorem byte_of_ofByte? {b : UInt8} {op : Opcode} (h : ofByte? b = some op) : op.byte = b := by
  unfold ofByte? at h
  grind [byte]

end Opcode

end ByteMachine
