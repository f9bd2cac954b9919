import ByteMachine.Config
import ByteMachine.Counters
import ByteMachine.Fault
import ByteMachine.Memory
import ByteMachine.Registers

/-!
The machine: registers, memory, a program counter, what it has counted and how far it has
come. A machine that has halted or faulted stays so until it is reset.
-/

namespace ByteMachine

inductive Stop where
  | halted
  | faulted (fault : Fault)
  deriving DecidableEq

inductive State where
  | ready
  | running
  | stopped (stop : Stop)
  deriving DecidableEq

namespace State

def stop? : State → Option Stop
  | stopped s => some s
  | _ => none

def IsTerminal (s : State) : Prop := s.stop?.isSome

instance (s : State) : Decidable s.IsTerminal := inferInstanceAs (Decidable (_ = true))

theorem isTerminal_of_stop? {s : State} {t : Stop} (h : s.stop? = some t) : s.IsTerminal := by
  rw [IsTerminal, h]
  rfl

theorem eq_stopped_of_stop? {s : State} {t : Stop} (h : s.stop? = some t) : s = stopped t := by
  cases s with
  | stopped => exact congrArg stopped (Option.some.inj h)
  | ready | running => cases h

theorem not_isTerminal_of_stop? {s : State} (h : s.stop? = none) : ¬ s.IsTerminal := by
  rw [IsTerminal, h]
  exact nofun

def text : State → String
  | ready => "ready"
  | running => "running"
  | stopped .halted => "halted"
  | stopped (.faulted f) => "faulted (" ++ f.message ++ ")"

end State

structure Machine where
  registers : Registers
  memory : Memory
  counters : Counters
  pc : Address
  state : State
  outputPort : Address
  strict : Bool
  trace : Bool

namespace Machine

def ofConfig (c : Config) : Machine where
  registers := .zero
  memory := .zeroed c.memory.size
  counters := {}
  pc := 0
  state := .ready
  outputPort := c.memory.outputPort
  strict := c.execution.strictRegisters
  trace := c.execution.traceInstructions

/-- A new machine of the same memory size and settings. -/
def reset (m : Machine) : Machine :=
  { m with
    registers := .zero
    memory := m.memory.clear
    counters := {}
    pc := 0
    state := .ready }

end Machine

end ByteMachine
