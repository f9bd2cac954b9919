import ByteMachine.Counters
import ByteMachine.Decimal.Fixed

/-!
The counters as a table. The time that a run took is no counter: its line stands between the
two parts of the table.
-/

namespace ByteMachine.Counters

/-- The share of `n` in all steps, in per cent. -/
def share? (c : Counters) (n : Nat) : Option Binary64 :=
  if c.steps = 0 then Binary64.ofNat? 0
  else do
    let ratio ← (← Binary64.ofNat? n).div? (← Binary64.ofNat? c.steps)
    ratio.mul? (← Binary64.ofNat? 100)

def rule (c : Char) : String := String.ofList (List.replicate 58 c)

/-- A name in the columns before the value. -/
def row (name value : String) : String := String.ofList (name.toList.rightpad 25 ' ') ++ value

def mixRow (c : Counters) (name : String) (n : Nat) : String :=
  let share := ((c.share? n).map (Decimal.fixed 2)).getD ""
  row ("  op." ++ name) (toString n ++ " (" ++ share ++ "%)")

def hostTimeRow (seconds : String) : String := row "host_seconds" (seconds ++ " s")

def summaryHead : List String := ["", rule '=', "MHF VM EXECUTION STATISTICS", rule '=']

def summaryTail (c : Counters) : List String :=
  [row "sim_insts" (toString c.steps), rule '-', "INSTRUCTION MIX", c.mixRow "nop" c.nop,
    c.mixRow "halt" c.halt, c.mixRow "load" c.load, c.mixRow "add" c.add,
    c.mixRow "store" c.store, rule '-', row "  io.port_writes" (toString c.portWrites),
    row "  skipped_effects" (toString c.skippedEffects), rule '=']

end ByteMachine.Counters
