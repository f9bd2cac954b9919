import ByteMachine.Proofs.Attached
import ByteMachine.Proofs.Slices

/-!
Machines that have stopped. They stay as they are, whatever is asked of them and whatever sinks they
are given, and say how they stopped; only a run that is given no step at all says something else,
for it looks at its budget before it looks at the machine.
-/

namespace ByteMachine.Machine

variable {σ : Type} {m : Machine} {stop : Stop}

/-- The calls that execute instructions. -/
def Call.Executes : Call → Prop
  | .step => True
  | .run _ => True
  | _ => False

/-- What every step keeps, the calls that execute instructions keep. -/
lemma executes_invariant {P : Machine → List UInt8 → Prop}
    (hstep : ∀ m output, P m output → P m.step.1 (output ++ Effect.emitted m.step.2))
    {calls : List Call} (hcalls : ∀ c ∈ calls, c.Executes) (output : List UInt8) (h : P m output) :
    P (course next m calls).1.1 (output ++ Effect.emitted (course next m calls).2) := by
  refine course_invariant (fun c hc x output hx => ?_) m output h
  cases c with
  | step => exact hstep x output hx
  | run budget => exact run_invariant hstep x budget output hx
  | setRegister | write | copy | setPc | setTrace | reset => exact absurd (hcalls _ hc) id

/-- What a machine that has stopped comes back with. -/
def replyOf (stop : Stop) (pc : Address) : Call → Answer
  | .step => .stepped (some stop)
  | .run budget => .ended (if budget = some 0 then .exhausted 0 pc else .stopped stop)
  | _ => .done

lemma next_of_stopped (h : m.state = .stopped stop) {c : Call} (hc : c.Executes) :
    (m.next c).1 = (m, replyOf stop m.pc c) ∧ Effect.emitted (m.next c).2 = [] := by
  have hstop : m.state.stop? = some stop := by rw [h]; rfl
  cases c with
  | step =>
    have hstep := step_of_isTerminal (State.isTerminal_of_stop? hstop)
    refine ⟨?_, ?_⟩
    · simp only [next, replyOf, hstep, hstop]
    · simp only [next, hstep, Effect.emitted_nil]
  | run budget =>
    obtain ⟨hmachine, hemitted, hout⟩ := run_of_stop hstop budget
    refine ⟨?_, hemitted⟩
    simp only [next, replyOf, hmachine]
    split
    · rename_i hb
      rw [hb, m.run_zero.2.1]
    · rename_i hb
      rw [hout hb]
  | setRegister | write | copy | setPc | setTrace | reset => exact absurd hc id

lemma course_of_stopped (h : m.state = .stopped stop) {calls : List Call}
    (hcalls : ∀ c ∈ calls, c.Executes) :
    (course next m calls).1 = (m, calls.map (replyOf stop m.pc)) ∧
      Effect.emitted (course next m calls).2 = [] := by
  induction calls with
  | nil => exact ⟨rfl, rfl⟩
  | cons c calls ih =>
    obtain ⟨hc, hrest⟩ := List.forall_mem_cons.1 hcalls
    obtain ⟨hfirst, hnone⟩ := next_of_stopped h hc
    obtain ⟨hlater, hnone'⟩ := ih hrest
    simp only [course, hfirst, hlater, Effect.emitted_append, hnone, hnone', List.map_cons,
      List.append_nil, and_self]

/-- A budget that is used up leaves a machine that goes on, if it has found one. -/
lemma not_isTerminal_run (m : Machine) (budget : Option Nat) :
    ¬ m.state.IsTerminal → ∀ n pc, (m.run budget).outcome = .exhausted n pc →
      ¬ (m.run budget).machine.state.IsTerminal := by
  fun_induction m.trail budget with
  | case1 m =>
    intro hm n pc _
    rwa [m.run_zero.1]
  | case2 m budget hb stop hs =>
    intro hm n pc hout
    rw [(run_stopped hb hs).2.1] at hout
    cases hout
  | case3 m budget hb hs ih =>
    intro hm n pc hout
    obtain ⟨hmachine, hafter, -⟩ := run_running hb hs
    rw [hmachine]
    rw [hafter] at hout
    rcases hlater : (m.step.1.run (budget.map (· - 1))).outcome with stop | ⟨k, q⟩
    · rw [hlater] at hout
      cases hout
    · exact ih (State.not_isTerminal_of_stop? hs) k q hlater

/-- A run that uses up a budget and had one finds a machine that goes on, and leaves one. -/
lemma not_isTerminal_of_exhausted {budget : Option Nat} {n : Nat} {pc : Address} (hn : n ≠ 0)
    (h : (m.run budget).outcome = .exhausted n pc) :
    ¬ m.state.IsTerminal ∧ ¬ (m.run budget).machine.state.IsTerminal := by
  have hbudget : budget ≠ some 0 := by
    rw [budget_eq_of_exhausted h]
    simpa using hn
  have hm : ¬ m.state.IsTerminal := by
    intro hm
    obtain ⟨stop, hstop⟩ := Option.isSome_iff_exists.1 hm
    rw [(run_of_stop hstop budget).2.2 hbudget] at h
    cases h
  exact ⟨hm, m.not_isTerminal_run budget hm n pc h⟩

/-- **A machine that has stopped stays so.** Steps and runs, with any budgets and sinks, leave it
exactly as it is, and nothing is emitted. Each of them says how it stopped, apart from a run that is
given no step, which says that its budget is exhausted. Of a run that is given one, only machines
that go on before and after it are said to have exhausted it. -/
theorem stopped_stays :
    (∀ {m : Machine} {stop : Stop} {calls : List (Sink σ × Call)} (s : σ) (events : Array Event),
      m.state = .stopped stop → (∀ c ∈ calls, c.2.Executes) →
      let r := inTurn callTo m (recorded calls) ((s, []), events)
      r.1.1 = m ∧ r.1.2 = calls.map (fun c => replyOf stop m.pc c.2) ∧ r.2.1.2 = []) ∧
    ∀ {m : Machine} {budget : Option Nat} {n : Nat} {pc : Address}, n ≠ 0 →
      (m.run budget).outcome = .exhausted n pc →
      ¬ m.state.IsTerminal ∧ ¬ (m.run budget).machine.state.IsTerminal := by
  refine ⟨fun {m stop calls} s events h hcalls => ?_, not_isTerminal_of_exhausted⟩
  obtain ⟨hcourse, hnone⟩ := course_of_stopped h (List.forall_mem_map.2 hcalls)
  obtain ⟨hresult, hrecord⟩ := inTurn_recorded callTo_eq calls m ((s, []), events)
  intro r
  refine ⟨?_, ?_, ?_⟩
  · rw [hresult, hcourse]
  · rw [hresult, hcourse, List.map_map]
    rfl
  · rw [hrecord, hnone]
    rfl

/-- A machine that has executed a halt and nothing else. -/
def haltedAtOnce : Machine :=
  ({ ofConfig { memory := { size := 4, outputPort := 0 } } with
    memory := ⟨#[1, 0, 0, 0], by decide⟩ }.run none).machine

/-- What a halted machine says, and that a machine that steps over a zero has not halted. -/
theorem stopped_stays_halted :
    let calls : List (Sink (Array UInt8) × Call) :=
      [(.capture, .step), (.capture, .run none), (.capture, .run (some 0))]
    let fresh : Machine := .ofConfig { memory := { size := 4, outputPort := 0 } }
    haltedAtOnce.state = .stopped .halted ∧ (∀ c ∈ calls, c.2.Executes) ∧
      (inTurn callTo haltedAtOnce (recorded calls) ((#[], []), #[])).1.2 =
        [.stepped (some .halted), .ended (.stopped .halted), .ended (.exhausted 0 1)] ∧
      1 ≠ 0 ∧ (fresh.run (some 1)).outcome = .exhausted 1 1 ∧
      ¬ (fresh.run (some 1)).machine.state.IsTerminal := by
  intro calls fresh
  have hhalted : haltedAtOnce.state = .stopped .halted := by decide +kernel
  have hpc : haltedAtOnce.pc = 1 := by decide +kernel
  have hcalls : ∀ c ∈ calls, c.2.Executes := by simp [calls, Call.Executes]
  have hout : (fresh.run (some 1)).outcome = .exhausted 1 1 := by decide +kernel
  obtain ⟨-, hanswers, -⟩ := stopped_stays.1 #[] #[] hhalted hcalls
  rw [hpc] at hanswers
  exact ⟨hhalted, hcalls, hanswers, Nat.one_ne_zero, hout,
    ((stopped_stays (σ := Unit)).2 Nat.one_ne_zero hout).2⟩

/-- A halted machine does not say so to a run that is given no step. -/
theorem halted_run_zero_exhausted :
    haltedAtOnce.state = .stopped .halted ∧
      (haltedAtOnce.run (some 0)).outcome ≠ .stopped .halted ∧
      (haltedAtOnce.run (some 0)).outcome = .exhausted 0 1 := by
  decide +kernel

end ByteMachine.Machine
