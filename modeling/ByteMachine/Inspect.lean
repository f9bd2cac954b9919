import ByteMachine.Simulator

/-!
Values laid open field by field, for a reader who wants to see what a simulator holds. The
contents of memory and the sink are left out.
-/

namespace ByteMachine.Inspect

/-- A name and named parts; `more` says that some are left out. -/
def record (name : String) (parts : List (String × String)) (more : Bool) : String :=
  let shown := parts.map fun p => p.1 ++ ": " ++ p.2
  let shown := if more then shown ++ [".."] else shown
  name ++ " \x7b " ++ String.intercalate ", " shown ++ " \x7d"

def option {α : Type} (inner : α → String) : Option α → String
  | none => "None"
  | some a => "Some(" ++ inner a ++ ")"

def bytes (values : List UInt8) : String :=
  "[" ++ String.intercalate ", " (values.map fun v => toString v.toNat) ++ "]"

def address (a : Address) : String := toString a.toNat

def registers (r : Registers) : String := record "RegisterFile" [("regs", bytes r.toList)] false

def memory (m : Memory) : String := record "Memory" [("len", toString m.size)] true

def counters (c : Counters) : String :=
  record "SimStats"
    [("start_time", if c.started then "Some(..)" else "None"), ("steps", toString c.steps),
      ("inst_nop", toString c.nop), ("inst_halt", toString c.halt),
      ("inst_load", toString c.load), ("inst_add", toString c.add),
      ("inst_store", toString c.store), ("port_writes", toString c.portWrites),
      ("skipped_effects", toString c.skippedEffects)] false

def fault : Fault → String
  | .pcOutOfBounds a => record "PcOutOfBounds" [("pc", address a)] false
  | .truncated a op =>
    record "TruncatedInstruction" [("opcode", toString op.toNat), ("addr", address a)] false
  | .unknownOpcode a op =>
    record "UnknownOpcode" [("opcode", toString op.toNat), ("addr", address a)] false
  | .invalidRegister a r =>
    record "InvalidRegister" [("reg", toString r.toNat), ("addr", address a)] false

def state : State → String
  | .ready => "Ready"
  | .running => "Running"
  | .stopped .halted => "Halted"
  | .stopped (.faulted f) => "Faulted(" ++ fault f ++ ")"

def machine (m : Machine) : String :=
  record "Machine"
    [("regs", registers m.registers), ("memory", memory m.memory),
      ("stats", counters m.counters), ("pc", address m.pc), ("state", state m.state),
      ("output_port", address m.outputPort), ("strict_registers", toString m.strict),
      ("trace", toString m.trace)] false

def header (h : Header) : String :=
  record "ProgramHeader"
    [("signature", bytes h.signature.toList), ("version", toString h.version.toNat),
      ("flags", toString h.flags.toNat), ("head_offset", address h.head),
      ("code_offset", address h.entry), ("data_offset", address h.data),
      ("symbol_offset", address h.symbols), ("file_size", toString h.fileSize.toNat)] false

def loaded (l : Loaded) : String :=
  record "LoadedImage"
    [("header", header l.header), ("body_len", toString l.bodySize),
      ("copied", toString l.copied)] false

def simulator (s : Simulator) : String :=
  record "Simulator"
    [("machine", machine s.machine), ("max_steps", option (fun n => toString n.toNat) s.maxSteps),
      ("image", option loaded s.loaded)] true

end ByteMachine.Inspect
