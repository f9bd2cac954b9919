import ByteMachine.Proofs.Stopped

/-!
What a budget pays for. It is used up by steps after which the machine goes on, and by nothing else:
a halt is counted among the instructions but does not have to be paid for after the last step that
was, and a fault is neither counted nor paid for.
-/

namespace ByteMachine.Machine

variable {σ : Type} {m m' : Machine} {k n : Nat} {stop : Stop}

/-- The machine makes a number of steps and goes on after each of them, and this is what it is
then. -/
inductive GoesOn : Machine → Nat → Machine → Prop
  | here {m : Machine} : GoesOn m 0 m
  | step {m m' : Machine} {k : Nat} (h : m.step.1.state.stop? = none)
    (later : GoesOn m.step.1 k m') : GoesOn m (k + 1) m'

/-! ### What steps count -/

lemma steps_of_goesOn (hlive : ¬ m.state.IsTerminal) (hs : m.step.1.state.stop? = none) :
    m.step.1.counters.steps = m.counters.steps + 1 := by
  obtain ⟨i, hi, -⟩ := passes_of_goesOn hlive hs
  exact hi.steps

/-- Of the steps that stop a machine, a halt is counted and a fault is not. -/
lemma steps_of_stops (hlive : ¬ m.state.IsTerminal) (hs : m.step.1.state.stop? = some stop) :
    m.step.1.counters.steps = m.counters.steps + if stop = .halted then 1 else 0 := by
  obtain ⟨i, hi⟩ | ⟨f, hf⟩ := passes_or_refuses hlive
  · rw [hi.state] at hs
    split at hs
    · cases hs
      rw [hi.steps, if_pos rfl]
    · cases hs
  · rw [hf.state] at hs
    cases hs
    rw [hf.steps, if_neg nofun, Nat.add_zero]

namespace GoesOn

lemma live (h : GoesOn m k m') (hlive : ¬ m.state.IsTerminal) : ¬ m'.state.IsTerminal := by
  induction h with
  | here => exact hlive
  | step hs _ ih => exact ih (State.not_isTerminal_of_stop? hs)

lemma steps (h : GoesOn m k m') (hlive : ¬ m.state.IsTerminal) :
    m'.counters.steps = m.counters.steps + k := by
  induction h with
  | here => rfl
  | step hs _ ih =>
    rw [ih (State.not_isTerminal_of_stop? hs), steps_of_goesOn hlive hs]
    omega

lemma state (h : GoesOn m k m') (hlive : ¬ m.state.IsTerminal) :
    m'.state = if k = 0 then m.state else .running := by
  induction h with
  | here => rfl
  | step hs _ ih =>
    rw [ih (State.not_isTerminal_of_stop? hs), running_of_goesOn hlive hs, ite_self,
      if_neg (Nat.succ_ne_zero _)]

/-! ### What steps come back with -/

lemma course_eq (h : GoesOn m k m') :
    (course next m (List.replicate k .step)).1 = (m', List.replicate k (.stepped none)) := by
  induction h with
  | here => rfl
  | step hs _ ih =>
    simp only [List.replicate_succ, course, next, hs, ih]

lemma course_of_stops (h : GoesOn m k m') (hs : m'.step.1.state.stop? = some stop) :
    (course next m (List.replicate (k + 1) .step)).1.2 =
      List.replicate k (.stepped none) ++ [.stepped (some stop)] := by
  induction h with
  | here => exact congrArg (fun s => [Answer.stepped s]) hs
  | step hgoes _ ih =>
    rw [List.replicate_succ, course]
    simp only [next, hgoes, ih hs]
    rfl

end GoesOn

lemma exists_goesOn_of_course (k : Nat) : ∀ {m : Machine},
    (course next m (List.replicate k .step)).1.2 = List.replicate k (.stepped none) →
      ∃ m', GoesOn m k m' := by
  induction k with
  | zero => exact fun {m} _ => ⟨m, .here⟩
  | succ k ih =>
    intro m h
    rw [List.replicate_succ, List.replicate_succ, course] at h
    obtain ⟨hfirst, hlater⟩ := List.cons.inj h
    obtain ⟨m', hm'⟩ := ih hlater
    exact ⟨m', .step (Answer.stepped.inj hfirst) hm'⟩

/-! ### Runs -/

/-- A budget pays for all steps if the machine goes on after each of them. -/
lemma GoesOn.run_eq (h : GoesOn m n m') :
    (m.run (some n)).machine = m' ∧ (m.run (some n)).outcome = .exhausted n m'.pc := by
  induction h with
  | @here m => exact ⟨m.run_zero.1, m.run_zero.2.1⟩
  | @step m m' k hs _ ih =>
    have hn : some (k + 1) ≠ some 0 := nofun
    obtain ⟨hmachine, hout, -⟩ := run_running hn hs
    obtain ⟨hlater, hexhausted⟩ := ih
    refine ⟨hmachine.trans hlater, ?_⟩
    rw [hout, Option.map_some, Nat.add_sub_cancel, hexhausted, Outcome.after, Nat.add_comm]

/-- A machine that stops while the budget lasts is left as it has stopped. -/
lemma GoesOn.run_of_stops (h : GoesOn m k m') (hs : m'.step.1.state.stop? = some stop)
    (hlt : k < n) :
    (m.run (some n)).machine = m'.step.1 ∧ (m.run (some n)).outcome = .stopped stop := by
  induction h generalizing n with
  | @here m =>
    have hn : some n ≠ some 0 := by simpa using Nat.ne_of_gt hlt
    obtain ⟨hmachine, hout, -⟩ := run_stopped hn hs
    exact ⟨hmachine, hout⟩
  | @step m m' k hgoes _ ih =>
    have hn : some n ≠ some 0 := by simpa using Nat.ne_of_gt (Nat.zero_lt_of_lt hlt)
    obtain ⟨hmachine, hout, -⟩ := run_running hn hgoes
    obtain ⟨hlater, hstopped⟩ := ih hs (n := n - 1) (by omega)
    refine ⟨hmachine.trans hlater, ?_⟩
    rw [hout, Option.map_some, hstopped, Outcome.after]

/-- **A machine goes on for a number of steps, or stops before.** -/
theorem goesOn_or_stops (n : Nat) : ∀ m : Machine,
    (∃ m', GoesOn m n m') ∨
      ∃ k < n, ∃ m' stop, GoesOn m k m' ∧ m'.step.1.state.stop? = some stop := by
  induction n with
  | zero => exact fun m => Or.inl ⟨m, .here⟩
  | succ n ih =>
    intro m
    rcases hs : m.step.1.state.stop? with _ | stop
    · obtain ⟨m', hm'⟩ | ⟨k, hk, m', stop, hm', hstop⟩ := ih m.step.1
      · exact Or.inl ⟨m', .step hs hm'⟩
      · exact Or.inr ⟨k + 1, by omega, m', stop, .step hs hm', hstop⟩
    · exact Or.inr ⟨0, Nat.succ_pos n, m, stop, .here, hs⟩

/-- What the next steps come back with, each with the sink at hand. -/
def answersTo (sink : Sink σ) (m : Machine) (k : Nat) (w : σ × Array Event) : List Answer :=
  (inTurn callTo m (List.replicate k (sink, .step)) w).1.2

lemma answersTo_eq (sink : Sink σ) (m : Machine) (k : Nat) (w : σ × Array Event) :
    m.answersTo sink k w = (course next m (List.replicate k .step)).1.2 := by
  rw [answersTo, inTurn_result callTo_eq, List.map_replicate]

/-- **Budgets are accounted for exactly.** A run with a budget of `n` steps retires `n` instructions
at most. It says that the budget is exhausted if and only if the machine goes on after each of the
next `n` steps; then it has retired `n` and is running, unless there was nothing to pay for. If it
says how the machine stopped, the machine has stopped so, at one of these steps; and as many
instructions have been retired as there were steps before that one, and one more if it was a
halt. -/
theorem run_pays (hlive : ¬ m.state.IsTerminal) (n : Nat) (sink : Sink σ) (w : σ × Array Event) :
    let r := (m.runTo sink (some n) w).1
    r.1.counters.steps ≤ m.counters.steps + n ∧
    ((∃ k pc, r.2 = .exhausted k pc) ↔ m.answersTo sink n w = List.replicate n (.stepped none)) ∧
    (∀ k pc, r.2 = .exhausted k pc → k = n ∧ pc = r.1.pc ∧
      r.1.counters.steps = m.counters.steps + n ∧
      r.1.state = if n = 0 then m.state else .running) ∧
    ∀ stop, r.2 = .stopped stop → r.1.state = .stopped stop ∧ ∃ k < n,
      m.answersTo sink (k + 1) w = List.replicate k (.stepped none) ++ [.stepped (some stop)] ∧
      r.1.counters.steps = m.counters.steps + k + if stop = .halted then 1 else 0 := by
  intro r
  have hr : r = ((m.run (some n)).machine, (m.run (some n)).outcome) := by
    dsimp only [r]
    rw [runTo_eq]
    rfl
  simp only [answersTo_eq]
  obtain ⟨m', hm'⟩ | ⟨k, hk, m', stop, hm', hs⟩ := goesOn_or_stops n m
  · obtain ⟨hmachine, hout⟩ := hm'.run_eq
    rw [hr, hmachine, hout]
    have hsteps := hm'.steps hlive
    refine ⟨Nat.le_of_eq hsteps, ⟨fun _ => ?_, fun _ => ⟨n, m'.pc, rfl⟩⟩, ?_, nofun⟩
    · rw [hm'.course_eq]
    · rintro _ _ ⟨⟩
      exact ⟨rfl, rfl, hsteps, hm'.state hlive⟩
  · obtain ⟨hmachine, hout⟩ := hm'.run_of_stops hs hk
    rw [hr, hmachine, hout]
    have hsteps := steps_of_stops (hm'.live hlive) hs
    rw [hm'.steps hlive] at hsteps
    refine ⟨?_, ⟨?_, fun hall => ?_⟩, nofun, ?_⟩
    · rw [hsteps]
      split <;> omega
    · rintro ⟨_, _, ⟨⟩⟩
    · -- if no step of these stopped the machine, the run would have said so.
      obtain ⟨m'', hm''⟩ := exists_goesOn_of_course n hall
      cases hout.symm.trans hm''.run_eq.2
    · rintro _ ⟨⟩
      exact ⟨State.eq_stopped_of_stop? hs, k, hk, hm'.course_of_stops hs, hsteps⟩

/-- A halt after one other instruction: a budget of one step does not get there, and one of two
steps does, without being used up. -/
theorem run_pays_halting :
    let m : Machine := { ofConfig { memory := { size := 4, outputPort := 0 } } with
      memory := ⟨#[0, 1, 0, 0], by decide⟩ }
    let one := (m.runTo Sink.capture (some 1) (#[], #[])).1
    let two := (m.runTo Sink.capture (some 2) (#[], #[])).1
    ¬ m.state.IsTerminal ∧
      one.2 = .exhausted 1 1 ∧ one.1.counters.steps = 1 ∧ one.1.state = .running ∧
      two.2 = .stopped .halted ∧ two.1.state = .stopped .halted ∧ two.1.counters.steps ≤ 2 ∧
      m.answersTo Sink.capture 2 (#[], #[]) ≠ [.stepped none, .stepped none] := by
  intro m one two
  have hlive : ¬ m.state.IsTerminal := by decide
  obtain ⟨-, -, hexhausted, -⟩ := run_pays hlive 1 Sink.capture (#[], #[])
  obtain ⟨hle, hiff, -, hstopped⟩ := run_pays hlive 2 Sink.capture (#[], #[])
  have hone : one.2 = .exhausted 1 1 := by decide +kernel
  have htwo : two.2 = .stopped .halted := by decide +kernel
  obtain ⟨-, -, hsteps, hstate⟩ := hexhausted 1 1 hone
  refine ⟨hlive, hone, hsteps, hstate, htwo, (hstopped .halted htwo).1, hle, fun hall => ?_⟩
  obtain ⟨k, pc, hout⟩ := hiff.2 hall
  cases htwo.symm.trans hout

end ByteMachine.Machine
