import ByteMachine.Opcode

/-!
What a machine has done since it was made or reset.
-/

namespace ByteMachine

structure Counters where
  /-- The machine has begun to execute. -/
  started : Bool := false
  steps : Nat := 0
  nop : Nat := 0
  halt : Nat := 0
  load : Nat := 0
  add : Nat := 0
  store : Nat := 0
  /-- Bytes offered to the output port. -/
  portWrites : Nat := 0
  /-- Instructions without effect, for an operand that names no register. -/
  skippedEffects : Nat := 0
  deriving DecidableEq

namespace Counters

def start (c : Counters) : Counters := { c with started := true }

/-- Counts an instruction that has been carried out. -/
def retire (c : Counters) (op : Opcode) : Counters :=
  let c := { c with steps := c.steps + 1 }
  match op with
  | .nop => { c with nop := c.nop + 1 }
  | .halt => { c with halt := c.halt + 1 }
  | .load => { c with load := c.load + 1 }
  | .add => { c with add := c.add + 1 }
  | .store => { c with store := c.store + 1 }

def writePort (c : Counters) : Counters := { c with portWrites := c.portWrites + 1 }

def skipEffect (c : Counters) : Counters := { c with skippedEffects := c.skippedEffects + 1 }

@[simp] theorem steps_retire (c : Counters) (op : Opcode) : (c.retire op).steps = c.steps + 1 := by
  cases op <;> rfl

end Counters

end ByteMachine
