import ByteMachine.Address
import ByteMachine.Text.Hex

/-!
Settings of a machine and the bounds they have to keep.
-/

namespace ByteMachine

structure MemoryConfig where
  size : Nat := 0x10000
  outputPort : Address := 0xff00
  deriving DecidableEq

structure ExecutionConfig where
  maxSteps : Option UInt64 := none
  /-- An operand that names no register is a fault, instead of an instruction without effect. -/
  strictRegisters : Bool := false
  traceInstructions : Bool := false
  deriving DecidableEq

structure Config where
  memory : MemoryConfig := {}
  execution : ExecutionConfig := {}
  deriving DecidableEq

namespace Config

def maxMemorySize : Nat := 16 * 1024 * 1024

structure IsValid (c : Config) : Prop where
  size_pos : 1 ≤ c.memory.size
  size_le : c.memory.size ≤ maxMemorySize
  port_lt : c.memory.outputPort.toNat < c.memory.size

/-- A bound that is broken. -/
inductive Violation where
  | memorySize (size : Nat)
  | outputPort (port : Address) (size : Nat)
  deriving DecidableEq

def Violation.message : Violation → String
  | memorySize size =>
    "memory size " ++ toString size ++ " out of range (1..=" ++ toString maxMemorySize ++ ")"
  | outputPort port size =>
    "output port " ++ Hex.upper 4 port.toNat ++ " outside memory of " ++ toString size ++ " bytes"

/-- The first bound that is broken, the memory size before the port. -/
def violation? (c : Config) : Option Violation :=
  if c.memory.size = 0 ∨ maxMemorySize < c.memory.size then some (.memorySize c.memory.size)
  else if c.memory.size ≤ c.memory.outputPort.toNat then
    some (.outputPort c.memory.outputPort c.memory.size)
  else none

theorem violation?_eq_none_iff {c : Config} : c.violation? = none ↔ c.IsValid := by
  unfold violation?
  constructor
  · intro h
    split at h
    · cases h
    · split at h
      · cases h
      · exact ⟨by omega, by omega, by omega⟩
  · rintro ⟨h₁, h₂, h₃⟩
    rw [if_neg (by omega), if_neg (by omega)]

end Config

end ByteMachine
