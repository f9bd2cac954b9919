import ByteMachine.Proofs.Offered
import ByteMachine.Proofs.Trail

/-!
Every run ends. The program counter goes up with each step that leaves the machine running, so
a run makes no more steps than there are bytes from the program counter on, and a larger
budget is no budget.
-/

namespace ByteMachine.Machine

lemma steps_step_le (m : Machine) :
    m.step.1.counters.steps ≤ m.counters.steps + min 1 (m.memory.size - m.pc.toNat) := by
  by_cases h : m.state.IsTerminal
  · rw [step_of_isTerminal h]
    exact Nat.le_add_right _ _
  · obtain ⟨i, hi⟩ | ⟨f, hf⟩ := passes_or_refuses h
    · have hle := add_size_le_of_decode hi.decoded
      have hpos := i.size_pos
      rw [hi.steps, Memory.size]
      omega
    · rw [hf.steps]
      omega

/-- Each step takes a byte of memory that no later step can take. -/
lemma steps_runOn_le (m : Machine) (budget : Option Nat) (k : Nat) (effects : Array Effect) :
    (m.runOn budget k effects).machine.counters.steps ≤
      m.counters.steps + (m.memory.size - m.pc.toNat) := by
  fun_induction m.runOn budget k effects with
  | case1 m k effects h => exact Nat.le_add_right _ _
  | case2 m k effects h next stop hs =>
    have := steps_step_le m
    dsimp only [next]
    omega
  | case3 m k effects h next hs ih =>
    have hpc := pc_step (State.not_isTerminal_of_stop? hs)
    have hstep := steps_step_le m
    rw [size_step] at ih
    dsimp only [next] at ih ⊢
    omega

/-- A budget of more steps than there are bytes ahead does not cut a run. -/
lemma runOn_of_room (m : Machine) (k : Nat) (effects : Array Effect) :
    ∀ n, m.memory.size - m.pc.toNat < n →
      m.runOn (some (k + n)) k effects = m.runOn none k effects := by
  fun_induction m.runOn none k effects with
  | case1 m k effects h => cases h
  | case2 m k effects _ next stop hs =>
    intro n hn
    rw [runOn_stopped (by rw [Ne, Option.some.injEq]; omega) hs]
  | case3 m k effects _ next hs ih =>
    intro n hn
    have hpc := pc_step (State.not_isTerminal_of_stop? hs)
    have hroom : next.1.memory.size - next.1.pc.toNat < n - 1 := by
      dsimp only [next]
      rw [size_step]
      omega
    have hsum : k + 1 + (n - 1) = k + n := by omega
    rw [runOn_running (by rw [Ne, Option.some.injEq]; omega) hs, ← ih _ hroom, hsum]

lemma exists_stop_runOn (m : Machine) (k : Nat) (effects : Array Effect) :
    ∃ stop, (m.runOn none k effects).outcome = .stopped stop ∧
      (m.runOn none k effects).machine.state = .stopped stop := by
  fun_induction m.runOn none k effects with
  | case1 m k effects h => cases h
  | case2 m k effects h next stop hs =>
    exact ⟨stop, rfl, State.eq_stopped_of_stop? hs⟩
  | case3 m k effects h next hs ih => exact ih

/-- **Every run ends**, after at most as many instructions as there are bytes from the program
counter on; and with a budget above that number it is the run without a budget. -/
theorem run_ends {σ : Type} (sink : Sink σ) (s : σ) (m : Machine) :
    (∃ stop, (m.run none).outcome = .stopped stop ∧
      (m.run none).machine.state = .stopped stop) ∧
    (m.run none).machine.counters.steps = m.counters.steps + (m.retired none).length ∧
    (m.retired none).length ≤ m.memory.size - m.pc.toNat ∧
    ∀ n, m.memory.size - m.pc.toNat < n →
      (∀ steps pc, (m.run (some n)).outcome ≠ .exhausted steps pc) ∧
      (m.run (some n)).outcome = (m.run none).outcome ∧
      (m.run (some n)).machine = (m.run none).machine ∧
      sink.offered s (m.run (some n)).effects.toList =
        sink.offered s (m.run none).effects.toList := by
  obtain ⟨stop, hout, hstate⟩ := exists_stop_runOn m 0 #[.log (.runStarted m.pc none)]
  have hsteps := steps_run m none
  have hle := steps_runOn_le m none 0 #[.log (.runStarted m.pc none)]
  refine ⟨⟨stop, hout, hstate⟩, hsteps, ?_, fun n hn => ?_⟩
  · rw [← run, hsteps] at hle
    exact Nat.le_of_add_le_add_left hle
  have hroom := runOn_of_room m 0 #[] n hn
  rw [Nat.zero_add] at hroom
  have hsame : (m.run (some n)).outcome = (m.run none).outcome := by
    rw [run_eq_after, run_eq_after, hroom]
    rfl
  refine ⟨fun steps pc h => ?_, hsame, ?_, ?_⟩
  · rw [hsame] at h
    cases hout.symm.trans h
  · rw [run_eq_after, run_eq_after, hroom]
    rfl
  · rw [Sink.offered_eq, Sink.offered_eq, run_eq_after, run_eq_after, hroom]
    simp only [Run.after, Array.toList_append, Effect.emitted_append]
    rfl

/-- Code that writes the instruction it stops at: `load r0, 1` and `store r0, 0x0007`. -/
def selfWriting : Machine :=
  { Machine.ofConfig {} with memory := ⟨#[0x10, 0, 1, 0x11, 0, 7, 0, 0], by decide⟩ }

theorem run_ends_selfWriting : selfWriting.memory.size - selfWriting.pc.toNat < 9 ∧
    (selfWriting.run (some 9)).outcome = (selfWriting.run none).outcome ∧
    (selfWriting.run (some 9)).machine = (selfWriting.run none).machine := by
  have h : selfWriting.memory.size - selfWriting.pc.toNat < 9 := by decide
  obtain ⟨-, hout, hmachine, -⟩ := (run_ends Sink.capture #[] selfWriting).2.2.2 9 h
  exact ⟨h, hout, hmachine⟩

end ByteMachine.Machine
