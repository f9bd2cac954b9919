import Mathlib.Data.List.Induction
import ByteMachine.Proofs.Offered
import ByteMachine.Proofs.Trail

/-!
Runs in slices. A run that gets its budget in parts does what it does with all of it at once:
a step is made or not whatever part of the budget pays for it, and a machine that has stopped
makes no other.
-/

namespace ByteMachine

/-- Goes on after a run, with a new budget. -/
def Run.resume (r : Run) (budget : Option Nat) : Run := (r.machine.run budget).after r.effects

namespace Machine

variable {m : Machine} {budget : Option Nat} {stop : Stop}

/-! ### Every budget -/

/-- A machine that has stopped stays as it is and answers as before. -/
lemma run_of_stop (h : m.state.stop? = some stop) (budget : Option Nat) :
    (m.run budget).machine = m ∧ Effect.emitted (m.run budget).effects.toList = [] ∧
      (budget ≠ some 0 → (m.run budget).outcome = .stopped stop) := by
  have hstep := step_of_isTerminal (State.isTerminal_of_stop? h)
  by_cases hb : budget = some 0
  · subst hb
    obtain ⟨hmachine, -, heff⟩ := m.run_zero
    exact ⟨hmachine, heff, fun hne => absurd rfl hne⟩
  · have hs : m.step.1.state.stop? = some stop := by rw [hstep, h]
    obtain ⟨hmachine, hout, heff⟩ := run_stopped hb hs
    rw [hstep] at hmachine heff
    exact ⟨hmachine, heff, fun _ => hout⟩

/-- What every step keeps of a machine and of what it has emitted, a run keeps. -/
lemma run_invariant {P : Machine → List UInt8 → Prop}
    (hstep : ∀ m output, P m output → P m.step.1 (output ++ Effect.emitted m.step.2))
    (m : Machine) (budget : Option Nat) : ∀ output, P m output →
      P (m.run budget).machine (output ++ Effect.emitted (m.run budget).effects.toList) := by
  fun_induction m.trail budget with
  | case1 m =>
    intro output h
    obtain ⟨hmachine, -, heff⟩ := m.run_zero
    rw [hmachine, heff, List.append_nil]
    exact h
  | case2 m budget hb stop hs =>
    intro output h
    obtain ⟨hmachine, -, heff⟩ := run_stopped hb hs
    rw [hmachine, heff]
    exact hstep m output h
  | case3 m budget hb hs ih =>
    intro output h
    obtain ⟨hmachine, -, heff⟩ := run_running hb hs
    rw [hmachine, heff, ← List.append_assoc]
    exact ih _ (hstep m output h)

/-- A run keeps what every step keeps. -/
lemma run_keeps {β : Type} {part : Machine → β} (hstep : ∀ m, part m.step.1 = part m)
    (m : Machine) (budget : Option Nat) : part (m.run budget).machine = part m :=
  run_invariant (P := fun x _ => part x = part m) (fun x _ h => (hstep x).trans h) m budget [] rfl

lemma settings_run (m : Machine) (budget : Option Nat) :
    (m.run budget).machine.settings = m.settings := run_keeps settings_step m budget

lemma size_run (m : Machine) (budget : Option Nat) :
    (m.run budget).machine.memory.size = m.memory.size :=
  @run_keeps _ (fun x => x.memory.size) size_step m budget

/-! ### Two slices -/

/-- What a run does after its first `a` steps, put together with them. -/
structure Splits (first second whole : Run) (a : Nat) (rest : Option Nat) : Prop where
  machine : second.machine = whole.machine
  emitted : Effect.emitted first.effects.toList ++ Effect.emitted second.effects.toList =
    Effect.emitted whole.effects.toList
  exhausted : ∀ n pc, first.outcome = .exhausted n pc → whole.outcome = second.outcome.after a
  stopped : ∀ stop, first.outcome = .stopped stop →
    whole.outcome = .stopped stop ∧ (rest ≠ some 0 → second.outcome = .stopped stop)

lemma splits_zero (m : Machine) (rest : Option Nat) :
    Splits (m.run (some 0)) ((m.run (some 0)).machine.run rest) (m.run rest) 0 rest := by
  obtain ⟨hmachine, hout, heff⟩ := m.run_zero
  rw [hmachine]
  refine ⟨rfl, ?_, fun n pc _ => (Outcome.after_zero _).symm, fun stop hstop => ?_⟩
  · rw [heff, List.nil_append]
  · rw [hout] at hstop
    cases hstop

lemma map_add_succ_ne_zero (rest : Option Nat) (a : Nat) :
    rest.map (a + 1 + ·) ≠ some 0 := by
  rcases rest with _ | n <;> simp

/-- The first slice already ends at a stop, and the second one has nothing to do. -/
lemma splits_stopped (hs : m.step.1.state.stop? = some stop) (a : Nat) (rest : Option Nat) :
    Splits (m.run (some (a + 1))) ((m.run (some (a + 1))).machine.run rest)
      (m.run (rest.map (a + 1 + ·))) (a + 1) rest := by
  obtain ⟨hfirst, hout, heff⟩ := run_stopped (map_add_succ_ne_zero (some 0) a) hs
  obtain ⟨hwhole, hout', heff'⟩ := run_stopped (map_add_succ_ne_zero rest a) hs
  obtain ⟨hsecond, hnone, hout''⟩ := run_of_stop hs rest
  rw [Option.map_some, Nat.add_zero] at hfirst hout heff
  rw [hfirst]
  refine ⟨hsecond.trans hwhole.symm, ?_, fun n pc h => ?_, fun stop' h => ?_⟩
  · rw [heff, hnone, heff', List.append_nil]
  · rw [hout] at h
    cases h
  · rw [hout] at h
    cases h
    exact ⟨hout', hout''⟩

/-- A step before the first slice belongs to the first and to the whole. -/
lemma splits_running (hs : m.step.1.state.stop? = none) {a : Nat} {rest : Option Nat}
    (h : Splits (m.step.1.run (some a)) ((m.step.1.run (some a)).machine.run rest)
      (m.step.1.run (rest.map (a + ·))) a rest) :
    Splits (m.run (some (a + 1))) ((m.run (some (a + 1))).machine.run rest)
      (m.run (rest.map (a + 1 + ·))) (a + 1) rest := by
  obtain ⟨hfirst, hout, heff⟩ := run_running (map_add_succ_ne_zero (some 0) a) hs
  obtain ⟨hwhole, hout', heff'⟩ := run_running (map_add_succ_ne_zero rest a) hs
  have hless : (rest.map (a + 1 + ·)).map (· - 1) = rest.map (a + ·) := by
    rcases rest with _ | n
    · rfl
    · simp only [Option.map_some, Option.some.injEq]
      omega
  rw [hless] at hwhole hout' heff'
  simp only [Option.map_some, Nat.add_zero, Nat.add_sub_cancel] at hfirst hout heff
  refine ⟨?_, ?_, fun n pc hn => ?_, fun stop hstop => ?_⟩
  · rw [hfirst, hwhole, h.machine]
  · rw [hfirst, heff, heff', ← h.emitted, List.append_assoc]
  · rw [hout] at hn
    rcases hafter : (m.step.1.run (some a)).outcome with stop | ⟨n', pc'⟩
    · rw [hafter] at hn
      cases hn
    · rw [hout', hfirst, h.exhausted n' pc' hafter, Outcome.after_after, Nat.add_comm]
  · rw [hout, Outcome.after_eq_stopped] at hstop
    rw [hout', hfirst, Outcome.after_eq_stopped]
    exact h.stopped stop hstop

/-- **A run splits anywhere.** -/
theorem splits_run (a : Nat) : ∀ (m : Machine) (rest : Option Nat),
    Splits (m.run (some a)) ((m.run (some a)).machine.run rest) (m.run (rest.map (a + ·)))
      a rest := by
  induction a with
  | zero =>
    intro m rest
    simp only [Nat.zero_add, Option.map_id']
    exact m.splits_zero rest
  | succ a ih =>
    intro m rest
    rcases hs : m.step.1.state.stop? with _ | stop
    · exact splits_running hs (ih m.step.1 rest)
    · exact splits_stopped hs a rest

/-! ### Any number of slices -/

/-- A run that gets one budget after the other. -/
def runSlices (m : Machine) (first : Nat) (more : List Nat) : Run :=
  more.foldl (fun r n => r.resume (some n)) (m.run (some first))

lemma emitted_resume (r : Run) (budget : Option Nat) :
    Effect.emitted (r.resume budget).effects.toList =
      Effect.emitted r.effects.toList ++
        Effect.emitted (r.machine.run budget).effects.toList := by
  rw [Run.resume, Run.after, Array.toList_append, Effect.emitted_append]

lemma runSlices_eq (m : Machine) (first : Nat) (more : List Nat) :
    (m.runSlices first more).machine = (m.run (some (more.foldl (· + ·) first))).machine ∧
      Effect.emitted (m.runSlices first more).effects.toList =
        Effect.emitted (m.run (some (more.foldl (· + ·) first))).effects.toList := by
  unfold runSlices
  induction more using List.reverseRecOn with
  | nil => exact ⟨rfl, rfl⟩
  | append_singleton more n ih =>
    obtain ⟨hmachine, hemitted⟩ := ih
    have hsplit := splits_run (more.foldl (· + ·) first) m (some n)
    rw [Option.map_some] at hsplit
    simp only [List.foldl_append, List.foldl_cons, List.foldl_nil]
    rw [emitted_resume, hemitted, hmachine]
    refine ⟨?_, hsplit.emitted⟩
    rw [← hsplit.machine, ← hmachine]
    rfl

/-- After any slices, what is left is done without a budget. -/
lemma resume_none_runSlices (m : Machine) (first : Nat) (more : List Nat) :
    ((m.runSlices first more).resume none).machine = (m.run none).machine ∧
      ((m.runSlices first more).resume none).outcome = (m.run none).outcome ∧
      Effect.emitted ((m.runSlices first more).resume none).effects.toList =
        Effect.emitted (m.run none).effects.toList := by
  obtain ⟨hmachine, hemitted⟩ := m.runSlices_eq first more
  have h := splits_run (more.foldl (· + ·) first) m none
  rw [Option.map_none, ← hmachine] at h
  refine ⟨h.machine, ?_, ?_⟩
  · change ((m.runSlices first more).machine.run none).outcome = _
    rcases hout : (m.run (some (more.foldl (· + ·) first))).outcome with stop | ⟨n, pc⟩
    · obtain ⟨hwhole, hrest⟩ := h.stopped stop hout
      rw [hwhole, hrest (Option.some_ne_none 0).symm]
    · rw [h.exhausted n pc hout]
      exact (outcome_after_none _ _).symm
  · rw [emitted_resume, hemitted, h.emitted]

/-- **Budgets add up.** A run with a budget and then with another, or with none, leaves and emits
what one run with both does, and ends alike: if the first part used its budget up, the second says
how the whole ends, and counts its own steps. Hence a run may be cut into any number of slices. -/
theorem run_slices {σ : Type} (sink : Sink σ) (s : σ) (m : Machine) :
    (∀ (a : Nat) (rest : Option Nat),
      let first := m.run (some a)
      let second := first.machine.run rest
      let whole := m.run (rest.map (a + ·))
      second.machine = whole.machine ∧
      sink.offered s (first.effects ++ second.effects).toList =
        sink.offered s whole.effects.toList ∧
      (∀ n pc, first.outcome = .exhausted n pc →
        (∀ stop, second.outcome = .stopped stop ↔ whole.outcome = .stopped stop) ∧
        ∀ n pc, second.outcome = .exhausted n pc ↔
          rest = some n ∧ whole.outcome = .exhausted (a + n) pc) ∧
      (∀ stop, first.outcome = .stopped stop →
        whole.outcome = .stopped stop ∧ (rest ≠ some 0 → second.outcome = .stopped stop))) ∧
    ∀ (first : Nat) (more : List Nat),
      let sliced := m.runSlices first more
      let whole := m.run (some (more.foldl (· + ·) first))
      sliced.machine = whole.machine ∧
      sink.offered s sliced.effects.toList = sink.offered s whole.effects.toList ∧
      (sliced.resume none).machine = (m.run none).machine ∧
      (sliced.resume none).outcome = (m.run none).outcome ∧
      sink.offered s (sliced.resume none).effects.toList =
        sink.offered s (m.run none).effects.toList := by
  simp only [Sink.offered_eq]
  refine ⟨fun a rest => ?_, fun first more => ?_⟩
  · have h := splits_run a m rest
    refine ⟨h.machine, ?_, fun n pc hfirst => ⟨fun stop => ?_, fun n' pc' => ?_⟩, h.stopped⟩
    · rw [Array.toList_append, Effect.emitted_append, h.emitted]
    · rw [h.exhausted n pc hfirst, Outcome.after_eq_stopped]
    · rw [h.exhausted n pc hfirst, Outcome.after_eq_exhausted]
      exact ⟨fun hsecond => ⟨budget_eq_of_exhausted hsecond, hsecond⟩, And.right⟩
  · obtain ⟨hmachine, hemitted⟩ := m.runSlices_eq first more
    exact ⟨hmachine, hemitted, m.resume_none_runSlices first more⟩

/-- A run that is cut before it stores to the port, and again before it halts. -/
theorem run_slices_resumed :
    let m : Machine := { Machine.ofConfig { memory := { size := 16, outputPort := 15 } } with
      memory := ⟨#[0x10, 0, 65, 0x11, 0, 15, 0, 1, 0, 0, 0, 0, 0, 0, 0, 0], by decide⟩ }
    (m.run (some 1)).outcome = .exhausted 1 3 ∧
      ((m.run (some 1)).machine.run (some 1)).outcome = .exhausted 1 7 ∧
      (m.run (some 2)).outcome = .exhausted 2 7 ∧
      ((m.runSlices 1 [1]).resume none).outcome = (m.run none).outcome := by
  intro m
  obtain ⟨htwo, hmany⟩ := run_slices Sink.capture #[] m
  have hfirst : (m.run (some 1)).outcome = .exhausted 1 3 := by decide +kernel
  have hsecond : ((m.run (some 1)).machine.run (some 1)).outcome = .exhausted 1 7 := by
    decide +kernel
  obtain ⟨-, -, hexhausted, -⟩ := htwo 1 (some 1)
  have hwhole := ((hexhausted 1 3 hfirst).2 1 7).1 hsecond
  exact ⟨hfirst, hsecond, hwhole.2, (hmany 1 [1]).2.2.2.1⟩

end Machine

end ByteMachine
