import ByteMachine.Fault
import ByteMachine.Instruction.Mnemonic
import ByteMachine.Log.Level

/-!
What can be logged, how much it matters, and its line: the level, a message, then named
fields.
-/

namespace ByteMachine

inductive Event where
  | runStarted (pc : Address) (budget : Option Nat)
  | budgetExhausted (pc : Address) (steps : Nat)
  | traced (addr : Address) (i : Instruction)
  | effectSkipped (addr : Address) (i : Instruction) (reg : UInt8)
  | halted (addr : Address) (steps : Nat)
  | faulted (fault : Fault)
  | storeOutside (addr : Address) (memorySize : Nat)
  | bodyClipped (head : Address) (bodySize copied memorySize : Nat)
  | imageInstalled (version : UInt16) (head entry : Address) (copied : Nat)
  | portWriteFailed (error : String) (byte : UInt8)
  | flushFailed (error : String)
  deriving DecidableEq

namespace Event

def level : Event → Level
  | traced .. => .trace
  | portWriteFailed .. => .warn
  | flushFailed .. => .warn
  | _ => .debug

def address (a : Address) : String := Hex.lower 4 a.toNat

def message : Event → String
  | runStarted .. => "run started"
  | budgetExhausted pc _ => "step budget exhausted at " ++ address pc
  | traced a i => address a ++ ": " ++ i.mnemonic
  | effectSkipped a i r =>
    i.mnemonic ++ " at " ++ address a ++ " names invalid register " ++ Instruction.registerName r
      ++ "; effect skipped"
  | halted a _ => "halted at " ++ address a
  | faulted f => "fault: " ++ f.message
  | storeOutside a size =>
    "store to " ++ address a ++ " outside memory of " ++ toString size ++ " bytes skipped"
  | bodyClipped head body copied size =>
    "image body of " ++ toString body ++ " bytes at " ++ address head ++ " clipped to "
      ++ toString copied ++ " bytes by " ++ toString size ++ "-byte memory"
  | imageInstalled .. => "image installed"
  | portWriteFailed .. => "output port write failed"
  | flushFailed _ => "failed to flush output"

/-- Names and values, in the order in which they are written. -/
def fields : Event → List (String × String)
  | runStarted pc none => [("pc", toString pc.toNat)]
  | runStarted pc (some budget) => [("pc", toString pc.toNat), ("budget", toString budget)]
  | budgetExhausted _ steps => [("steps", toString steps)]
  | halted _ steps => [("steps", toString steps)]
  | bodyClipped _ body copied _ => [("dropped", toString (body - copied))]
  | imageInstalled version head entry copied =>
    [("version", toString version.toNat), ("head", toString head.toNat),
      ("entry", toString entry.toNat), ("copied", toString copied)]
  | portWriteFailed error byte => [("error", error), ("byte", toString byte.toNat)]
  | flushFailed error => [("error", error)]
  | _ => []

/-- The level is set to the right in five columns. -/
def line (e : Event) : String :=
  String.ofList (e.level.name.toList.leftpad 5 ' ') ++ " " ++ e.message
    ++ String.join (e.fields.map fun f => " " ++ f.1 ++ "=" ++ f.2)

end Event

end ByteMachine
