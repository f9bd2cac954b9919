import ByteMachine.Machine.Run
import ByteMachine.Proofs.Step

/-!
The machines that a run steps, one after the other, and the instructions that it retires. What
a run is in the end, and what it has asked for, is what its steps are and ask for.
-/

namespace ByteMachine

namespace Outcome

/-- The outcome of a run that had made `steps` steps before. -/
def after (steps : Nat) : Outcome → Outcome
  | stopped stop => stopped stop
  | exhausted n pc => exhausted (steps + n) pc

@[simp] lemma after_zero (o : Outcome) : o.after 0 = o := by
  rcases o with stop | ⟨n, pc⟩
  · rfl
  · rw [after, Nat.zero_add]

lemma after_after (o : Outcome) (j k : Nat) : (o.after j).after k = o.after (k + j) := by
  rcases o with stop | ⟨n, pc⟩
  · rfl
  · rw [after, after, after, Nat.add_assoc]

/-- What a run that ends so asks for after its last step. -/
def closing : Outcome → List Effect
  | stopped _ => []
  | exhausted steps pc => [.log (.budgetExhausted pc steps)]

@[simp] lemma emitted_closing (o : Outcome) : Effect.emitted o.closing = [] := by
  rcases o with stop | ⟨n, pc⟩ <;> rfl

lemma after_eq_stopped {o : Outcome} {k : Nat} {stop : Stop} :
    o.after k = .stopped stop ↔ o = .stopped stop := by
  rcases o with s | ⟨n, pc⟩
  · exact Iff.rfl
  · exact ⟨nofun, nofun⟩

lemma after_eq_exhausted {o : Outcome} {k n : Nat} {pc : Address} :
    o.after k = .exhausted (k + n) pc ↔ o = .exhausted n pc := by
  rcases o with s | ⟨j, q⟩
  · exact ⟨nofun, nofun⟩
  · simp only [after, exhausted.injEq, Nat.add_left_cancel_iff]

end Outcome

namespace Machine

/-- The machines that a run steps, in order. -/
def trail (m : Machine) (budget : Option Nat) : List Machine :=
  if budget = some 0 then []
  else
    match _ : m.step.1.state.stop? with
    | some _ => [m]
    | none => m :: m.step.1.trail (budget.map (· - 1))
termination_by m.memory.size - m.pc.toNat
decreasing_by
  have := pc_step (State.not_isTerminal_of_stop? ‹_›)
  rw [size_step]
  omega

/-- The instruction that the next step counts, with its address. -/
def retiring? (m : Machine) : Option (Address × Instruction) :=
  match decode m.memory.bytes m.pc with
  | .ok i => if m.step.1.counters.steps = m.counters.steps then none else some (m.pc, i)
  | .error _ => none

/-- The instructions that a run counts, in order and with their addresses. -/
def retired (m : Machine) (budget : Option Nat) : List (Address × Instruction) :=
  (m.trail budget).filterMap retiring?

variable {m : Machine} {i : Instruction} {f : Fault} {budget : Option Nat}

lemma Passes.retiring? (h : m.Passes i) : m.retiring? = some (m.pc, i) := by
  rw [Machine.retiring?, h.decoded]
  simp only [h.steps]
  rw [if_neg (by omega)]

lemma Refuses.retiring? (h : m.Refuses f) : m.retiring? = none := by
  unfold Machine.retiring?
  split
  · rw [if_pos h.steps]
  · rfl

lemma retiring?_of_isTerminal (h : m.state.IsTerminal) : m.retiring? = none := by
  unfold retiring?
  rw [step_of_isTerminal h]
  split <;> simp

/-- What is counted is passed at the program counter. -/
lemma passes_of_retiring? {a : Address} (h : m.retiring? = some (a, i)) :
    a = m.pc ∧ m.Passes i := by
  have hlive : ¬ m.state.IsTerminal := fun hterm => by
    rw [retiring?_of_isTerminal hterm] at h
    cases h
  obtain ⟨j, hj⟩ | ⟨f, hf⟩ := passes_or_refuses hlive
  · rw [hj.retiring?] at h
    cases h
    exact ⟨rfl, hj⟩
  · rw [hf.retiring?] at h
    cases h

lemma steps_step (m : Machine) :
    m.step.1.counters.steps = m.counters.steps + m.retiring?.toList.length := by
  by_cases h : m.state.IsTerminal
  · rw [retiring?_of_isTerminal h, step_of_isTerminal h]
    rfl
  · obtain ⟨i, hi⟩ | ⟨f, hf⟩ := passes_or_refuses h
    · rw [hi.retiring?, hi.steps]
      rfl
    · rw [hf.retiring?, hf.steps]
      rfl

lemma trail_stopped {stop : Stop} (hb : budget ≠ some 0)
    (hs : m.step.1.state.stop? = some stop) : m.trail budget = [m] := by
  rw [trail, if_neg hb]
  split <;> simp_all

lemma trail_running (hb : budget ≠ some 0) (hs : m.step.1.state.stop? = none) :
    m.trail budget = m :: m.step.1.trail (budget.map (· - 1)) := by
  rw [trail, if_neg hb]
  split <;> simp_all

lemma self_mem_trail (hb : budget ≠ some 0) : m ∈ m.trail budget := by
  rcases hs : m.step.1.state.stop? with _ | stop
  · rw [trail_running hb hs]
    exact List.mem_cons_self
  · rw [trail_stopped hb hs]
    exact List.mem_cons_self

lemma map_add_ne {b : Option Nat} {k : Nat} (hb : b ≠ some 0) : b.map (k + ·) ≠ some k := by
  rcases b with _ | n
  · exact nofun
  · simpa using hb

lemma map_add_succ {b : Option Nat} {k : Nat} (hb : b ≠ some 0) :
    b.map (k + ·) = (b.map (· - 1)).map (k + 1 + ·) := by
  rcases b with _ | _ | n
  · rfl
  · exact absurd rfl hb
  · simp only [Option.map_some, Option.some.injEq]
    omega

/-! ### A run and its trail -/

lemma runOn_eq_trail (m : Machine) (budget : Option Nat) : ∀ (k : Nat) (effects : Array Effect),
    let r := m.runOn (budget.map (k + ·)) k effects
    r.machine = ((m.trail budget).getLast?.map fun x => x.step.1).getD m ∧
      r.effects.toList = effects.toList ++
        ((m.trail budget).flatMap (fun x => x.step.2) ++ r.outcome.closing) := by
  fun_induction m.trail budget with
  | case1 m =>
    intro k effects
    rw [Option.map_some, Nat.add_zero, runOn_exhausted]
    exact ⟨rfl, Array.toList_push⟩
  | case2 m budget hb stop hs =>
    intro k effects
    rw [runOn_stopped (map_add_ne hb) hs]
    refine ⟨rfl, ?_⟩
    rw [Array.toList_appendList, List.flatMap_singleton, Outcome.closing, List.append_nil]
  | case3 m budget hb hs ih =>
    intro k effects
    rw [runOn_running (map_add_ne hb) hs, map_add_succ hb]
    obtain ⟨hmachine, heff⟩ := ih (k + 1) (effects ++ m.step.2)
    refine ⟨?_, ?_⟩
    · rw [hmachine, List.getLast?_cons]
      rcases (m.step.1.trail _).getLast? <;> rfl
    · rw [heff, Array.toList_appendList, List.flatMap_cons, List.append_assoc, List.append_assoc]

/-- **What a run asks for** is what its steps ask for, between the lines that it begins with and
ends with. -/
theorem effects_run (m : Machine) (budget : Option Nat) :
    (m.run budget).effects.toList = .log (.runStarted m.pc budget) ::
      ((m.trail budget).flatMap (fun x => x.step.2) ++ (m.run budget).outcome.closing) := by
  have h := (m.runOn_eq_trail budget 0 #[.log (.runStarted m.pc budget)]).2
  simp only [Nat.zero_add, Option.map_id'] at h
  exact h

/-- **A run is its trail**: it leaves what the last step leaves, and emits what the steps emit. -/
theorem run_eq_trail (m : Machine) (budget : Option Nat) :
    (m.run budget).machine = ((m.trail budget).getLast?.map fun x => x.step.1).getD m ∧
      Effect.emitted (m.run budget).effects.toList =
        Effect.emitted ((m.trail budget).flatMap fun x => x.step.2) := by
  refine ⟨?_, ?_⟩
  · have h := (m.runOn_eq_trail budget 0 #[.log (.runStarted m.pc budget)]).1
    simp only [Nat.zero_add, Option.map_id'] at h
    exact h
  · have hstart : Effect.emitted [.log (.runStarted m.pc budget)] = [] := rfl
    rw [effects_run, ← List.singleton_append, Effect.emitted_append, hstart, List.nil_append,
      Effect.emitted_append, Outcome.emitted_closing, List.append_nil]

lemma steps_runOn (m : Machine) (budget : Option Nat) : ∀ (k : Nat) (effects : Array Effect),
    (m.runOn (budget.map (k + ·)) k effects).machine.counters.steps =
      m.counters.steps + (m.retired budget).length := by
  unfold retired
  fun_induction m.trail budget with
  | case1 m =>
    intro k effects
    rw [Option.map_some, Nat.add_zero, runOn_exhausted]
    rfl
  | case2 m budget hb stop hs =>
    intro k effects
    rw [runOn_stopped (map_add_ne hb) hs]
    exact steps_step m
  | case3 m budget hb hs ih =>
    intro k effects
    rw [runOn_running (map_add_ne hb) hs, map_add_succ hb, ih, steps_step, List.filterMap_cons]
    rcases m.retiring? with _ | x
    · rfl
    · simp only [Option.toList_some, List.length_cons, List.length_nil]
      omega

/-- **The step counter counts what a run retires.** -/
theorem steps_run (m : Machine) (budget : Option Nat) :
    (m.run budget).machine.counters.steps = m.counters.steps + (m.retired budget).length := by
  have h := steps_runOn m budget 0 #[.log (.runStarted m.pc budget)]
  simp only [Nat.zero_add, Option.map_id'] at h
  exact h

/-! ### The first step of a run -/

lemma runOn_zero_running (hb : budget ≠ some 0) (hs : m.step.1.state.stop? = none) :
    m.runOn budget 0 #[] =
      m.step.1.runOn ((budget.map (· - 1)).map (1 + ·)) 1 ((#[] : Array Effect) ++ m.step.2) := by
  have hmap := map_add_succ (k := 0) hb
  simp only [Nat.zero_add, Option.map_id'] at hmap
  rw [runOn_running hb hs, ← hmap]

/-- Steps made before are counted in an outcome, and nothing else. -/
lemma outcome_runOn (m : Machine) (budget : Option Nat) : ∀ (k : Nat) (effects : Array Effect),
    (m.runOn (budget.map (k + ·)) k effects).outcome =
      (m.runOn budget 0 #[]).outcome.after k := by
  fun_induction m.trail budget with
  | case1 m =>
    intro k effects
    rw [Option.map_some, Nat.add_zero, runOn_exhausted, runOn_exhausted]
    rfl
  | case2 m budget hb stop hs =>
    intro k effects
    rw [runOn_stopped (map_add_ne hb) hs, runOn_stopped hb hs]
    rfl
  | case3 m budget hb hs ih =>
    intro k effects
    rw [runOn_running (map_add_ne hb) hs, map_add_succ hb, ih, runOn_zero_running hb hs, ih,
      Outcome.after_after]

lemma run_eq_after (m : Machine) (budget : Option Nat) :
    m.run budget = (m.runOn budget 0 #[]).after #[.log (.runStarted m.pc budget)] :=
  runOn_append m budget 0 _ #[]

lemma outcome_run (m : Machine) (budget : Option Nat) :
    (m.run budget).outcome = (m.runOn budget 0 #[]).outcome := by
  rw [run_eq_after]
  rfl

lemma run_zero (m : Machine) :
    (m.run (some 0)).machine = m ∧ (m.run (some 0)).outcome = .exhausted 0 m.pc ∧
      Effect.emitted (m.run (some 0)).effects.toList = [] := by
  rw [run, runOn_exhausted]
  exact ⟨rfl, rfl, rfl⟩

lemma run_stopped (hb : budget ≠ some 0) (hs : m.step.1.state.stop? = some stop) :
    (m.run budget).machine = m.step.1 ∧ (m.run budget).outcome = .stopped stop ∧
      Effect.emitted (m.run budget).effects.toList = Effect.emitted m.step.2 := by
  rw [run, runOn_stopped hb hs]
  refine ⟨rfl, rfl, ?_⟩
  simp [Effect.emitted]

/-- A run that goes on after its first step is a run from there on, with one step less. -/
lemma run_running (hb : budget ≠ some 0) (hs : m.step.1.state.stop? = none) :
    (m.run budget).machine = (m.step.1.run (budget.map (· - 1))).machine ∧
      (m.run budget).outcome = (m.step.1.run (budget.map (· - 1))).outcome.after 1 ∧
      Effect.emitted (m.run budget).effects.toList = Effect.emitted m.step.2 ++
        Effect.emitted (m.step.1.run (budget.map (· - 1))).effects.toList := by
  obtain ⟨hmachine, heff⟩ := m.run_eq_trail budget
  obtain ⟨hmachine', heff'⟩ := m.step.1.run_eq_trail (budget.map (· - 1))
  have htrail := trail_running hb hs
  refine ⟨?_, ?_, ?_⟩
  · rw [hmachine, hmachine', htrail, List.getLast?_cons]
    rcases (m.step.1.trail (budget.map (· - 1))).getLast? <;> rfl
  · rw [outcome_run, outcome_run, runOn_zero_running hb hs, outcome_runOn]
  · rw [heff, heff', htrail, List.flatMap_cons, Effect.emitted_append]

/-- Only a whole budget is used up. -/
lemma budget_eq_of_exhausted {n : Nat} {pc : Address}
    (h : (m.run budget).outcome = .exhausted n pc) : budget = some n := by
  rw [outcome_run] at h
  revert h
  fun_induction m.runOn budget 0 #[] with
  | case1 m k effects hb =>
    rintro ⟨⟩
    exact hb
  | case2 =>
    intro h
    cases h
  | case3 m k effects hb next hs ih => exact ih

/-! ### Runs without a budget -/

lemma retired_none_stopped {stop : Stop} (hs : m.step.1.state.stop? = some stop) :
    m.retired none = m.retiring?.toList := by
  rw [retired, trail_stopped (Option.some_ne_none 0).symm hs, List.filterMap_cons]
  rcases m.retiring? <;> rfl

lemma retired_none_running (hs : m.step.1.state.stop? = none) :
    m.retired none = m.retiring?.toList ++ m.step.1.retired none := by
  rw [retired, trail_running (Option.some_ne_none 0).symm hs, List.filterMap_cons]
  rcases m.retiring? <;> rfl

lemma run_none_stopped {stop : Stop} (hs : m.step.1.state.stop? = some stop) :
    (m.run none).machine = m.step.1 ∧ (m.run none).outcome = .stopped stop ∧
      Effect.emitted (m.run none).effects.toList = Effect.emitted m.step.2 :=
  run_stopped (Option.some_ne_none 0).symm hs

/-- Without a budget there is nothing to count. -/
lemma outcome_after_none (m : Machine) (k : Nat) :
    (m.run none).outcome.after k = (m.run none).outcome := by
  rcases h : (m.run none).outcome with stop | ⟨n, pc⟩
  · rfl
  · cases budget_eq_of_exhausted h

lemma run_none_running (hs : m.step.1.state.stop? = none) :
    (m.run none).machine = (m.step.1.run none).machine ∧
      (m.run none).outcome = (m.step.1.run none).outcome ∧
      Effect.emitted (m.run none).effects.toList =
        Effect.emitted m.step.2 ++ Effect.emitted (m.step.1.run none).effects.toList := by
  have h := run_running (Option.some_ne_none 0).symm hs
  rwa [Option.map_none, outcome_after_none] at h

end Machine

end ByteMachine
