import ByteMachine.Machine

/-!
The registers of a machine as text, one a line.
-/

namespace ByteMachine

/-- What is shown of a machine after a run. -/
structure Report where
  registers : Registers
  pc : Address
  state : State

namespace Report

def ofMachine (m : Machine) : Report := ⟨m.registers, m.pc, m.state⟩

def lines (r : Report) : List String :=
  "Execution finished." :: r.registers.toList.mapIdx fun i v =>
    "r" ++ toString i ++ " = " ++ toString v.toNat

def text (r : Report) : String := String.join (r.lines.map (· ++ "\n"))

end Report

end ByteMachine
