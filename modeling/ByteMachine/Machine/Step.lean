import ByteMachine.Decode
import ByteMachine.Effect
import ByteMachine.Machine

/-!
One instruction: it is read at the program counter, counted, and carried out. A machine that
goes on has moved its program counter up and keeps it within memory.
-/

namespace ByteMachine.Machine

/-- Stops at a fault. The opcode has been passed, unless there was none. -/
def fail (m : Machine) (f : Fault) : Machine × List Effect :=
  let pc :=
    match f with
    | .pcOutOfBounds _ => m.pc
    | _ => f.addr + 1
  ({ m with pc, state := .stopped (.faulted f) }, [.log (.faulted f)])

/-- Passes an instruction and counts it. -/
def retire (m : Machine) (i : Instruction) : Machine :=
  { m with pc := m.pc + UInt32.ofNat i.size, counters := m.counters.retire i.opcode }

def setRegister (m : Machine) (index value : UInt8) : Machine :=
  { m with registers := (m.registers.write? index value).getD m.registers }

/-- Writes a byte to memory, and to the output port if it has that address. -/
def store (m : Machine) (addr : Address) (value : UInt8) : Machine × List Effect :=
  let missed :=
    if m.memory.Contains addr then [] else [.log (.storeOutside addr m.memory.size)]
  let m := { m with memory := m.memory.write addr value }
  if addr = m.outputPort then
    ({ m with counters := m.counters.writePort }, missed ++ [.emit value])
  else (m, missed)

/-- Carries out an instruction that was read at `addr` and has been passed. -/
def perform (m : Machine) (addr : Address) : Instruction → Machine × List Effect
  | .nop => (m, [])
  | .halt => ({ m with state := .stopped .halted }, [.log (.halted addr m.counters.steps)])
  | .load reg value => (m.setRegister reg value, [])
  | .add target source =>
    match m.registers.read? target, m.registers.read? source with
    | some a, some b => (m.setRegister target (a + b), [])
    | _, _ => (m, [])
  | .store source target =>
    match m.registers.read? source with
    | some value => m.store target.toUInt32 value
    | none => (m, [])

/-- Executes an instruction that was read at the program counter. -/
def execute (m : Machine) (i : Instruction) : Machine × List Effect :=
  match i.invalidRegister? with
  | none => (m.retire i).perform m.pc i
  | some reg =>
    if m.strict then m.fail (.invalidRegister m.pc reg)
    else
      let skipped := m.retire i
      ({ skipped with counters := skipped.counters.skipEffect },
        [.log (.effectSkipped m.pc i reg)])

def cycle (m : Machine) : Machine × List Effect :=
  match decode m.memory.bytes m.pc with
  | .error f => m.fail f
  | .ok i =>
    let traced := if m.trace then [.log (.traced m.pc i)] else []
    let (m, effects) := m.execute i
    (m, traced ++ effects)

def start (m : Machine) : Machine :=
  { m with state := .running, counters := m.counters.start }

/-- Does nothing in a terminal state. -/
def step (m : Machine) : Machine × List Effect :=
  match m.state with
  | .ready => m.start.cycle
  | .running => m.cycle
  | .stopped _ => (m, [])

end ByteMachine.Machine
