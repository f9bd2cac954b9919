import ByteMachine.Machine.Progress

/-!
Running until the machine stops or a budget of steps is used up. The program counter goes up
with every step and stays within memory, so that a run ends without a budget too.
-/

namespace ByteMachine

/-- How a run ended. -/
inductive Outcome where
  | stopped (stop : Stop)
  | exhausted (steps : Nat) (pc : Address)
  deriving DecidableEq

def Outcome.text : Outcome → String
  | stopped .halted => "[HALT] CPU halted."
  | stopped (.faulted f) => "[ERROR] " ++ f.message
  | exhausted steps pc =>
    "[STOP] step budget exhausted after " ++ toString steps ++ " steps at "
      ++ Hex.upper 4 pc.toNat

structure Run where
  machine : Machine
  outcome : Outcome
  effects : Array Effect

/-- The run with effects put in front. -/
def Run.after (r : Run) (effects : Array Effect) : Run :=
  { r with effects := effects ++ r.effects }

namespace Machine

/-- Goes on with a run that has made `steps` steps and had `effects`. -/
def runOn (m : Machine) (budget : Option Nat) (steps : Nat) (effects : Array Effect) : Run :=
  if budget = some steps then
    ⟨m, .exhausted steps m.pc, effects.push (.log (.budgetExhausted m.pc steps))⟩
  else
    let next := m.step
    match _ : next.1.state.stop? with
    | some stop => ⟨next.1, .stopped stop, effects ++ next.2⟩
    | none => next.1.runOn budget (steps + 1) (effects ++ next.2)
termination_by m.memory.size - m.pc.toNat
decreasing_by
  have := pc_step (State.not_isTerminal_of_stop? ‹_›)
  rw [size_step]
  omega

theorem runOn_exhausted (m : Machine) (steps : Nat) (effects : Array Effect) :
    m.runOn (some steps) steps effects =
      ⟨m, .exhausted steps m.pc, effects.push (.log (.budgetExhausted m.pc steps))⟩ := by
  rw [runOn, if_pos rfl]

theorem runOn_stopped {m : Machine} {budget : Option Nat} {steps : Nat} {stop : Stop}
    (hb : budget ≠ some steps) (hs : m.step.1.state.stop? = some stop) (effects : Array Effect) :
    m.runOn budget steps effects = ⟨m.step.1, .stopped stop, effects ++ m.step.2⟩ := by
  rw [runOn, if_neg hb]
  dsimp only
  split <;> simp_all

theorem runOn_running {m : Machine} {budget : Option Nat} {steps : Nat}
    (hb : budget ≠ some steps) (hs : m.step.1.state.stop? = none) (effects : Array Effect) :
    m.runOn budget steps effects =
      m.step.1.runOn budget (steps + 1) (effects ++ m.step.2) := by
  rw [runOn, if_neg hb]
  dsimp only
  split <;> simp_all

/-- What has happened before does not matter to a run. -/
theorem runOn_append (m : Machine) (budget : Option Nat) (steps : Nat) (xs ys : Array Effect) :
    m.runOn budget steps (xs ++ ys) = (m.runOn budget steps ys).after xs := by
  fun_induction m.runOn budget steps ys with
  | case1 m steps ys h =>
    subst h
    rw [runOn_exhausted, Run.after, Array.append_push]
  | case2 m steps ys h next stop hs =>
    have happ : xs ++ ys ++ next.2 = xs ++ (ys ++ next.2) := Array.ext' (by simp)
    exact (runOn_stopped h hs _).trans (congrArg (Run.mk next.1 (.stopped stop)) happ)
  | case3 m steps ys h next hs ih =>
    have happ : xs ++ ys ++ next.2 = xs ++ (ys ++ next.2) := Array.ext' (by simp)
    exact (runOn_running h hs _).trans ((congrArg (next.1.runOn budget (steps + 1)) happ).trans ih)

/-- Runs until the machine stops, or until `budget` steps have left it running. -/
def run (m : Machine) (budget : Option Nat) : Run :=
  m.runOn budget 0 #[.log (.runStarted m.pc budget)]

end Machine

end ByteMachine
