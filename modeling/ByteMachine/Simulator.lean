import ByteMachine.Disassembly
import ByteMachine.Image
import ByteMachine.Machine.Install
import ByteMachine.Machine.Run
import ByteMachine.Report

/-!
A machine with the image it was given and the budget of its runs.
-/

namespace ByteMachine

structure Simulator where
  machine : Machine
  maxSteps : Option UInt64
  loaded : Option Loaded

namespace Simulator

def ofConfig (c : Config) : Simulator := ⟨.ofConfig c, c.execution.maxSteps, none⟩

/-- Takes over an installation. -/
def accept (s : Simulator) (i : Installation) : Simulator × List Effect :=
  ({ s with machine := i.machine, loaded := some i.loaded }, i.effects)

def load (s : Simulator) (file : Array UInt8) : Except LoadError (Simulator × List Effect) :=
  (s.machine.install file).map s.accept

/-- Loads what reading the file at `path` gave. -/
def loadFile (s : Simulator) (path : String) (contents : Except ReadFailure (Array UInt8)) :
    Except LoadError (Simulator × List Effect) :=
  (s.machine.installFile path contents).map s.accept

/-- Runs within the budget; the output is flushed at the end. -/
def run : Simulator → Simulator × Outcome × Array Effect
  | ⟨machine, maxSteps, loaded⟩ =>
    let r := machine.run (maxSteps.map UInt64.toNat)
    (⟨r.machine, maxSteps, loaded⟩, r.outcome, r.effects.push .flush)

/-- From the entry point to the last byte copied. -/
def listing (s : Simulator) : List String :=
  match s.loaded with
  | none => []
  | some l => ByteMachine.listing s.machine.memory.bytes l.entry l.stop

def report (s : Simulator) : Report := .ofMachine s.machine

end Simulator

end ByteMachine
