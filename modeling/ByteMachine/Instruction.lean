import ByteMachine.LittleEndian
import ByteMachine.Opcode
import ByteMachine.Registers

/-!
Instructions and their bytes: the opcode, then the operands, an address as two bytes with the
low one first. Register operands are kept as written, also those that name no register.
-/

namespace ByteMachine

inductive Instruction where
  | nop
  | halt
  | load (reg value : UInt8)
  | add (target source : UInt8)
  | store (source : UInt8) (addr : UInt16)
  deriving DecidableEq

namespace Instruction

def opcode : Instruction → Opcode
  | nop => .nop
  | halt => .halt
  | load .. => .load
  | add .. => .add
  | store .. => .store

def operands : Instruction → List UInt8
  | nop => []
  | halt => []
  | load reg value => [reg, value]
  | add target source => [target, source]
  | store source addr => source :: LittleEndian.encode 2 addr.toNat

def encode (i : Instruction) : List UInt8 := i.opcode.byte :: i.operands

/-- The number of bytes of the encoding. -/
def size (i : Instruction) : Nat := 1 + i.opcode.operandCount

@[simp] theorem length_operands (i : Instruction) :
    i.operands.length = i.opcode.operandCount := by
  cases i <;> simp [operands, opcode, Opcode.operandCount]

@[simp] theorem length_encode (i : Instruction) : i.encode.length = i.size := by
  simp [encode, size, Nat.add_comm]

theorem size_pos (i : Instruction) : 0 < i.size := by
  simp only [size]
  omega

theorem size_le (i : Instruction) : i.size ≤ 4 := by
  cases i <;> simp [size, opcode, Opcode.operandCount]

/-- Reads the operands back; they fit only if there are as many as the opcode takes. -/
def ofOperands? : Opcode → List UInt8 → Option Instruction
  | .nop, [] => some nop
  | .halt, [] => some halt
  | .load, [reg, value] => some (load reg value)
  | .add, [target, source] => some (add target source)
  | .store, [source, lo, hi] => some (store source (UInt16.ofNat (LittleEndian.decode [lo, hi])))
  | _, _ => none

@[simp] theorem ofOperands?_operands (i : Instruction) :
    ofOperands? i.opcode i.operands = some i := by
  cases i with
  | store source addr =>
    have h := (LittleEndian.decode_encode 2 addr.toNat).trans (Nat.mod_eq_of_lt addr.toNat_lt)
    change some (store source (UInt16.ofNat (LittleEndian.decode (LittleEndian.encode 2 _)))) = _
    rw [h, UInt16.ofNat_toNat]
  | _ => rfl

/-- The operands that name registers, in order. -/
def registers : Instruction → List UInt8
  | nop => []
  | halt => []
  | load reg _ => [reg]
  | add target source => [target, source]
  | store source _ => [source]

/-- The first operand that should name a register and does not. -/
def invalidRegister? (i : Instruction) : Option UInt8 :=
  i.registers.find? fun r => ¬ Registers.IsValid r

theorem invalidRegister?_eq_none {i : Instruction} :
    i.invalidRegister? = none ↔ ∀ r ∈ i.registers, Registers.IsValid r := by
  simp [invalidRegister?]

end Instruction

/-- The bytes of a program. -/
def assemble (program : List Instruction) : List UInt8 := program.flatMap Instruction.encode

@[simp] theorem assemble_nil : assemble [] = [] := rfl

@[simp] theorem assemble_cons (i : Instruction) (is : List Instruction) :
    assemble (i :: is) = i.encode ++ assemble is := rfl

@[simp] theorem assemble_append (p q : List Instruction) :
    assemble (p ++ q) = assemble p ++ assemble q := by
  simp [assemble]

end ByteMachine
