import ByteMachine.Log.Event

/-!
What a machine asks of the world, in order. The machine never learns how it went.
-/

namespace ByteMachine

inductive Effect where
  /-- A byte for the output port. -/
  | emit (byte : UInt8)
  | flush
  | log (event : Event)
  deriving DecidableEq

namespace Effect

/-- The bytes offered to the output port. -/
def emitted (effects : List Effect) : List UInt8 :=
  effects.filterMap fun
    | emit b => some b
    | _ => none

@[simp] theorem emitted_nil : emitted [] = [] := rfl

@[simp] theorem emitted_append (xs ys : List Effect) :
    emitted (xs ++ ys) = emitted xs ++ emitted ys := by
  simp [emitted]

end Effect

end ByteMachine
