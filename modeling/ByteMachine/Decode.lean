import ByteMachine.Fault
import ByteMachine.Instruction
import ByteMachine.Slice

/-!
Reading one instruction from bytes. The causes of failure come in this order: the address is
outside the bytes, the opcode is unknown, the operands are cut off.
-/

namespace ByteMachine

def decode (bytes : Array UInt8) (addr : Address) : Except Fault Instruction :=
  match bytes[addr.toNat]? with
  | none => .error (.pcOutOfBounds addr)
  | some b =>
    match Opcode.ofByte? b with
    | none => .error (.unknownOpcode addr b)
    | some op =>
      match slice? bytes (addr.toNat + 1) op.operandCount with
      | none => .error (.truncated addr b)
      | some operands =>
        match Instruction.ofOperands? op operands.toList with
        | none => .error (.unknownOpcode addr b)
        | some i => .ok i

/-- A decoded instruction lies inside the bytes. -/
theorem add_size_le_of_decode {bytes : Array UInt8} {addr : Address} {i : Instruction}
    (h : decode bytes addr = .ok i) : addr.toNat + i.size ≤ bytes.size := by
  unfold decode at h
  repeat' split at h
  all_goals try cases h
  rename_i op _ _ operands hs _ hi
  have hle := (slice?_eq_some_iff.1 hs).1
  have hop : i.opcode = op := by
    unfold Instruction.ofOperands? at hi
    split at hi <;> cases hi <;> rfl
  rw [Instruction.size, hop]
  omega

theorem addr_of_decode {bytes : Array UInt8} {addr : Address} {f : Fault}
    (h : decode bytes addr = .error f) : f.addr = addr := by
  unfold decode at h
  repeat' split at h
  all_goals cases h
  all_goals rfl

end ByteMachine
