import ByteMachine.Proofs.Placement
import ByteMachine.Proofs.Slices

/-!
Strict machines beside lenient ones. Both make the same steps as long as every instruction names
registers only. At the first that does not, the lenient machine skips what it would have done and
the strict one stops, as the lenient machine was when it came there.
-/

namespace ByteMachine

/-- The same settings, but with strict checks. -/
def Config.strictly (c : Config) : Config :=
  { c with execution := { c.execution with strictRegisters := true } }

namespace Machine

variable {m : Machine} {i : Instruction} {r : UInt8} {f : Fault} {strict trace : Bool}
  {budget : Option Nat}

/-- The machine with other checks and with tracing on or off. -/
def under (m : Machine) (strict trace : Bool) : Machine := { m with strict, trace }

lemma begun_under : (m.under strict trace).begun = m.begun.under strict trace := by
  unfold begun under
  dsimp only
  split <;> rfl

lemma store_under (a : Address) (v : UInt8) :
    (m.under strict trace).store a v = ((m.store a v).1.under strict trace, (m.store a v).2) := by
  unfold store under
  dsimp only
  split <;> rfl

lemma perform_under (a : Address) (i : Instruction) :
    (m.under strict trace).perform a i =
      ((m.perform a i).1.under strict trace, (m.perform a i).2) := by
  cases i with
  | add target source =>
    simp only [perform, under]
    split <;> rfl
  | store source b =>
    have hread : (m.under strict trace).registers = m.registers := rfl
    simp only [perform, hread]
    split
    · exact store_under ..
    · rfl
  | _ => rfl

/-! ### Steps that do not depend on the checks -/

/-- **A step that passes the same instruction** differs in its log at most. -/
lemma Passes.step_under (h : m.Passes i) (h' : (m.under strict trace).Passes i) :
    (m.under strict trace).step.1 = m.step.1.under strict trace ∧
      Effect.emitted (m.under strict trace).step.2 = Effect.emitted m.step.2 := by
  have hretire : (m.under strict trace).begun.retire i = (m.begun.retire i).under strict trace := by
    rw [begun_under]
    rfl
  have hpc : (m.under strict trace).pc = m.pc := rfl
  obtain ⟨hr, h1, h2⟩ | ⟨r, hr, h1, h2⟩ := h.step_cases
  · obtain ⟨-, h1', h2'⟩ | ⟨r, hr', -⟩ := h'.step_cases
    · rw [h1', h2', h1, h2, hretire, hpc, perform_under]
      exact ⟨rfl, rfl⟩
    · rw [hr] at hr'
      cases hr'
  · obtain ⟨hr', -⟩ | ⟨r', -, h1', h2'⟩ := h'.step_cases
    · rw [hr] at hr'
      cases hr'
    · rw [h1', h2', h1, h2, hretire]
      exact ⟨rfl, rfl⟩

lemma Refuses.step_under (h : m.Refuses f) (h' : (m.under strict trace).Refuses f) :
    (m.under strict trace).step.1 = m.step.1.under strict trace ∧
      Effect.emitted (m.under strict trace).step.2 = Effect.emitted m.step.2 := by
  rw [h'.emitted, h.emitted, h'.step_fst, h.step_fst, begun_under]
  exact ⟨rfl, rfl⟩

/-! ### Skipped effects -/

/-- The next step skips what the instruction would do, for its operand `r` names no register. -/
structure Skips (m : Machine) (i : Instruction) (r : UInt8) : Prop where
  passes : m.Passes i
  invalid : i.invalidRegister? = some r

lemma skippedEffects_begun : m.begun.counters.skippedEffects = m.counters.skippedEffects := by
  unfold begun
  split <;> rfl

lemma skippedEffects_retire (c : Counters) (op : Opcode) :
    (c.retire op).skippedEffects = c.skippedEffects := by
  cases op <;> rfl

lemma Skips.skippedEffects (h : m.Skips i r) :
    m.step.1.counters.skippedEffects = m.counters.skippedEffects + 1 := by
  obtain ⟨hr, -⟩ | ⟨r', -, h1, -⟩ := h.passes.step_cases
  · rw [h.invalid] at hr
    cases hr
  · rw [h1]
    simp only [Counters.skipEffect, retire, skippedEffects_retire, skippedEffects_begun]

lemma Passes.skippedEffects (h : m.Passes i) (hr : i.invalidRegister? = none) :
    m.step.1.counters.skippedEffects = m.counters.skippedEffects := by
  obtain ⟨-, h1, -⟩ | ⟨r, hr', -⟩ := h.step_cases
  · have hbefore : (m.begun.retire i).counters.skippedEffects = m.counters.skippedEffects := by
      rw [retire, skippedEffects_retire, skippedEffects_begun]
    rw [h1, ← hbefore]
    rcases (m.begun.retire i).counters_perform m.pc i with hc | hc
    · rw [hc]
    · rw [hc]
      rfl
  · rw [hr] at hr'
    cases hr'

lemma Refuses.skippedEffects (h : m.Refuses f) :
    m.step.1.counters.skippedEffects = m.counters.skippedEffects := by
  rw [h.step_fst]
  exact skippedEffects_begun

/-- The operand is the first one that names no register. -/
lemma Skips.first (h : m.Skips i r) : ¬ Registers.IsValid r ∧
    ∃ front back, i.registers = front ++ r :: back ∧ ∀ q ∈ front, Registers.IsValid q := by
  obtain ⟨hinvalid, front, back, hreg, hfront⟩ := List.find?_eq_some_iff_append.1 h.invalid
  exact ⟨by simpa using hinvalid, front, back, hreg, by simpa using hfront⟩

/-- A strict machine stops where a lenient one skips. -/
lemma Skips.refuses (h : m.Skips i r) (trace : Bool) :
    (m.under true trace).Refuses (.invalidRegister m.pc r) :=
  ⟨h.passes.live, Or.inr ⟨i, r, h.passes.decoded, rfl, h.invalid, rfl⟩⟩

/-- **A lenient machine skips, or it makes the step of a strict one.** -/
lemma skips_or_step_strict (hm : m.strict = false) (trace : Bool) :
    (∃ i r, m.Skips i r) ∨
      (m.step.1.counters.skippedEffects = m.counters.skippedEffects ∧
        (m.under true trace).step.1 = m.step.1.under true trace ∧
        Effect.emitted (m.under true trace).step.2 = Effect.emitted m.step.2) := by
  by_cases hterm : m.state.IsTerminal
  · have hterm' : (m.under true trace).state.IsTerminal := hterm
    rw [step_of_isTerminal hterm, step_of_isTerminal hterm']
    exact Or.inr ⟨rfl, rfl, rfl⟩
  · obtain ⟨i, h⟩ | ⟨f, h⟩ := passes_or_refuses hterm
    · rcases hr : i.invalidRegister? with _ | r
      · exact Or.inr ⟨h.skippedEffects hr, h.step_under ⟨h.live, h.decoded, fun _ => hr⟩⟩
      · exact Or.inl ⟨i, r, h, hr⟩
    · obtain hd | ⟨i, r, -, hs, -⟩ := h.cause
      · exact Or.inr ⟨h.skippedEffects, h.step_under ⟨h.live, Or.inl hd⟩⟩
      · rw [hm] at hs
        cases hs

lemma skippedEffects_le_step (m : Machine) :
    m.counters.skippedEffects ≤ m.step.1.counters.skippedEffects := by
  by_cases hterm : m.state.IsTerminal
  · rw [step_of_isTerminal hterm]
  · obtain ⟨i, h⟩ | ⟨f, h⟩ := passes_or_refuses hterm
    · rcases hr : i.invalidRegister? with _ | r
      · exact Nat.le_of_eq (h.skippedEffects hr).symm
      · rw [Skips.skippedEffects ⟨h, hr⟩]
        exact Nat.le_succ _
    · exact Nat.le_of_eq h.skippedEffects.symm

lemma skippedEffects_le_run (m : Machine) (budget : Option Nat) :
    m.counters.skippedEffects ≤ (m.run budget).machine.counters.skippedEffects :=
  run_invariant (P := fun x _ => m.counters.skippedEffects ≤ x.counters.skippedEffects)
    (fun x _ h => Nat.le_trans h x.skippedEffects_le_step) m budget [] (Nat.le_refl _)

/-! ### Runs -/

lemma Skips.stop? (h : m.Skips i r) : m.step.1.state.stop? = none := by
  have hi : i ≠ .halt := by
    rintro rfl
    cases h.invalid
  rw [h.passes.state, if_neg hi]
  rfl

/-- The run `r'` is the run `r`, with other checks and with tracing on or off. -/
structure RunsUnder (strict trace : Bool) (r' r : Run) : Prop where
  machine : r'.machine = r.machine.under strict trace
  outcome : r'.outcome = r.outcome
  emitted : Effect.emitted r'.effects.toList = Effect.emitted r.effects.toList

lemma runsUnder_zero (m : Machine) :
    RunsUnder strict trace ((m.under strict trace).run (some 0)) (m.run (some 0)) := by
  obtain ⟨hm, ho, he⟩ := m.run_zero
  obtain ⟨hm', ho', he'⟩ := (m.under strict trace).run_zero
  refine ⟨?_, ?_, ?_⟩
  · rw [hm', hm]
  · rw [ho', ho]
    rfl
  · rw [he', he]

/-- Runs are alike if their first steps are, and what comes after them. -/
lemma runsUnder_of_step (hb : budget ≠ some 0)
    (hstep : (m.under strict trace).step.1 = m.step.1.under strict trace)
    (heff : Effect.emitted (m.under strict trace).step.2 = Effect.emitted m.step.2)
    (hrest : m.step.1.state.stop? = none →
      RunsUnder strict trace ((m.step.1.under strict trace).run (budget.map (· - 1)))
        (m.step.1.run (budget.map (· - 1)))) :
    RunsUnder strict trace ((m.under strict trace).run budget) (m.run budget) := by
  have hstate : (m.under strict trace).step.1.state = m.step.1.state := by
    rw [hstep]
    rfl
  rcases hs : m.step.1.state.stop? with _ | stop
  · obtain ⟨hm, ho, he⟩ := run_running hb hs
    obtain ⟨hm', ho', he'⟩ := run_running hb ((congrArg State.stop? hstate).trans hs)
    rw [hstep] at hm' ho' he'
    obtain ⟨hmachine, hout, hemitted⟩ := hrest hs
    refine ⟨?_, ?_, ?_⟩
    · rw [hm', hm, hmachine]
    · rw [ho', ho, hout]
    · rw [he', he, heff, hemitted]
  · obtain ⟨hm, ho, he⟩ := run_stopped hb hs
    obtain ⟨hm', ho', he'⟩ := run_stopped hb ((congrArg State.stop? hstate).trans hs)
    refine ⟨?_, ?_, ?_⟩
    · rw [hm', hm, hstep]
    · rw [ho', ho]
    · rw [he', he, heff]

/-- A lenient run without skipped effects is the run of a strict machine. -/
lemma run_strict_of_skippedEffects_eq (trace : Bool) (m : Machine) (budget : Option Nat) :
    m.strict = false →
    (m.run budget).machine.counters.skippedEffects = m.counters.skippedEffects →
      RunsUnder true trace ((m.under true trace).run budget) (m.run budget) := by
  fun_induction m.trail budget with
  | case1 m => exact fun _ _ => m.runsUnder_zero
  | case2 m budget hb stop hs =>
    intro hlenient _
    obtain ⟨i, r, hskip⟩ | ⟨-, hstep, heff⟩ := skips_or_step_strict hlenient trace
    · rw [hskip.stop?] at hs
      cases hs
    · refine runsUnder_of_step hb hstep heff fun hnone => ?_
      rw [hs] at hnone
      cases hnone
  | case3 m budget hb hs ih =>
    intro hlenient hnone
    rw [(run_running hb hs).1] at hnone
    obtain ⟨i, r, hskip⟩ | ⟨hsame, hstep, heff⟩ := skips_or_step_strict hlenient trace
    · have hle := m.step.1.skippedEffects_le_run (budget.map (· - 1))
      rw [hnone, hskip.skippedEffects] at hle
      omega
    · exact runsUnder_of_step hb hstep heff fun _ =>
        ih ((strict_step m).trans hlenient) (hnone.trans hsame.symm)

/-- The run, after `k` of its steps, comes to the first instruction that it skips. -/
structure FirstSkip (m : Machine) (budget : Option Nat) (k : Nat) (i : Instruction) (r : UInt8) :
    Prop where
  lt_budget : ∀ n, budget = some n → k < n
  outcome : (m.run (some k)).outcome = .exhausted k (m.run (some k)).machine.pc
  skippedEffects : (m.run (some k)).machine.counters.skippedEffects = m.counters.skippedEffects
  skips : (m.run (some k)).machine.Skips i r

lemma firstSkip_zero (hb : budget ≠ some 0) (h : m.Skips i r) : m.FirstSkip budget 0 i r := by
  obtain ⟨hm, ho, -⟩ := m.run_zero
  refine ⟨fun n hn => ?_, ?_, ?_, ?_⟩
  · rcases n with _ | n
    · exact absurd hn hb
    · exact Nat.succ_pos n
  · rw [ho, hm]
  · rw [hm]
  · rwa [hm]

lemma FirstSkip.succ {k : Nat} (hs : m.step.1.state.stop? = none)
    (hsame : m.step.1.counters.skippedEffects = m.counters.skippedEffects)
    (h : m.step.1.FirstSkip (budget.map (· - 1)) k i r) : m.FirstSkip budget (k + 1) i r := by
  have hk : some (k + 1) ≠ some 0 := by simp
  obtain ⟨hm, ho, -⟩ := run_running hk hs
  simp only [Option.map_some, Nat.add_sub_cancel] at hm ho
  refine ⟨fun n hn => ?_, ?_, ?_, ?_⟩
  · have := h.lt_budget (n - 1) (by rw [hn]; rfl)
    omega
  · rw [ho, hm, h.outcome, Outcome.after, Nat.add_comm]
  · rw [hm, h.skippedEffects, hsame]
  · rw [hm]
    exact h.skips

/-- A run that skips something skips something first. -/
lemma exists_firstSkip (m : Machine) (budget : Option Nat) : m.strict = false →
    (m.run budget).machine.counters.skippedEffects ≠ m.counters.skippedEffects →
      ∃ k i r, m.FirstSkip budget k i r := by
  fun_induction m.trail budget with
  | case1 m =>
    intro _ hskipped
    rw [(m.run_zero).1] at hskipped
    exact absurd rfl hskipped
  | case2 m budget hb stop hs =>
    intro hlenient hskipped
    obtain ⟨i, r, hskip⟩ | ⟨hsame, -⟩ := skips_or_step_strict hlenient m.trace
    · rw [hskip.stop?] at hs
      cases hs
    · rw [(run_stopped hb hs).1] at hskipped
      exact absurd hsame hskipped
  | case3 m budget hb hs ih =>
    intro hlenient hskipped
    obtain ⟨i, r, hskip⟩ | ⟨hsame, -⟩ := skips_or_step_strict hlenient m.trace
    · exact ⟨0, i, r, firstSkip_zero hb hskip⟩
    · rw [(run_running hb hs).1] at hskipped
      obtain ⟨k, i, r, hfirst⟩ := ih ((strict_step m).trans hlenient)
        fun he => hskipped (he.trans hsame)
      exact ⟨k + 1, i, r, hfirst.succ hs hsame⟩

/-- **A strict run stops at the first skip**, in the state in which the lenient run came there. -/
lemma FirstSkip.run_strict {k : Nat} (h : m.FirstSkip budget k i r)
    (hlenient : m.strict = false) (trace : Bool) :
    ((m.under true trace).run budget).outcome =
        .stopped (.faulted (.invalidRegister (m.run (some k)).machine.pc r)) ∧
      ((m.under true trace).run budget).machine =
        (((m.run (some k)).machine.begun.fail
          (.invalidRegister (m.run (some k)).machine.pc r)).1.under true trace) ∧
      Effect.emitted ((m.under true trace).run budget).effects.toList =
        Effect.emitted (m.run (some k)).effects.toList := by
  obtain ⟨hm, ho, he⟩ := run_strict_of_skippedEffects_eq trace m (some k) hlenient h.skippedEffects
  -- what is left of the budget pays for the step that stops the strict machine
  obtain ⟨rest, hrest, hbudget⟩ : ∃ rest, rest ≠ some 0 ∧ budget = rest.map (k + ·) := by
    rcases hb : budget with _ | n
    · exact ⟨none, nofun, rfl⟩
    · have := h.lt_budget n hb
      refine ⟨some (n - k), ?_, ?_⟩
      · rw [Ne, Option.some.injEq]
        omega
      · rw [Option.map_some, Option.some.injEq]
        omega
  obtain ⟨hsplit, hemitted, hexhausted, -⟩ := splits_run k (m.under true trace) rest
  have hrefuses := h.skips.refuses trace
  have hstop := congrArg State.stop? hrefuses.state
  rw [← hm] at hstop hrefuses
  obtain ⟨hm', ho', he'⟩ := run_stopped hrest hstop
  subst hbudget
  refine ⟨?_, ?_, ?_⟩
  · rw [hexhausted k _ (ho.trans h.outcome), ho']
    rfl
  · rw [← hsplit, hm', hrefuses.step_fst, hm, begun_under]
    rfl
  · rw [← hemitted, he', hrefuses.emitted, List.append_nil, he]

/-! ### From the image on -/

lemma install_under (m : Machine) (file : Array UInt8) (strict trace : Bool) :
    (m.under strict trace).install file =
      (m.install file).map fun i => { i with machine := i.machine.under strict trace } := by
  unfold install
  rcases Header.ofFile file with e | h
  · rfl
  · dsimp only
    split <;> rfl

/-- **Strict checks tell at the first invalid register only.** The image is loaded into a lenient
and into a strict machine and both run. If the lenient run skips nothing, the runs are the same.
Otherwise the lenient run, cut after some number of its steps, has not skipped anything and is about
to skip an instruction for its first operand that names no register; there the strict run ends with
the fault that names both, and leaves and has emitted what that instruction finds. -/
theorem run_strict_eq_until_skip {σ : Type} (sink : Sink σ) (s : σ) {c : Config}
    {file : Array UInt8} {ready : Installation} (hlenient : c.execution.strictRegisters = false)
    (hload : (ofConfig c).install file = .ok ready) (budget : Option Nat) :
    ∃ ready', (ofConfig c.strictly).install file = .ok ready' ∧
      let lenient := ready.machine.run budget
      let strict := ready'.machine.run budget
      (lenient.machine.counters.skippedEffects = 0 →
        strict.outcome = lenient.outcome ∧
        strict.machine = { lenient.machine with strict := true } ∧
        sink.offered s strict.effects.toList = sink.offered s lenient.effects.toList) ∧
      (lenient.machine.counters.skippedEffects ≠ 0 → ∃ k i reg,
        let before := ready.machine.run (some k)
        let fault := Fault.invalidRegister before.machine.pc reg
        (∀ n, budget = some n → k < n) ∧
        before.outcome = .exhausted k before.machine.pc ∧
        before.machine.counters.skippedEffects = 0 ∧
        before.machine.step.1.counters.skippedEffects = 1 ∧
        decode before.machine.memory.bytes before.machine.pc = .ok i ∧
        ¬ Registers.IsValid reg ∧
        (∃ front back, i.registers = front ++ reg :: back ∧ ∀ r ∈ front, Registers.IsValid r) ∧
        strict.outcome = .stopped (.faulted fault) ∧
        strict.machine = { before.machine.begun with
          strict := true
          pc := before.machine.pc + 1
          state := .stopped (.faulted fault) } ∧
        sink.offered s strict.effects.toList = sink.offered s before.effects.toList) := by
  obtain ⟨-, -, hready⟩ := install_eq_ok_iff.1 hload
  have hzero : ready.machine.counters.skippedEffects = 0 := by
    rw [hready]
    rfl
  have hstrict : ready.machine.strict = false := by
    rw [hready]
    exact hlenient
  have htrace (b : Option Nat) : (ready.machine.run b).machine.trace = ready.machine.trace :=
    congrArg (fun settings => settings.2.2) (settings_run ready.machine b)
  refine ⟨{ ready with machine := ready.machine.under true ready.machine.trace }, ?_, ?_, ?_⟩
  · have hconfig : ofConfig c.strictly = (ofConfig c).under true ready.machine.trace := by
      rw [hready]
      rfl
    rw [hconfig, install_under, hload]
    rfl
  · intro hnone
    obtain ⟨hm, ho, he⟩ := run_strict_of_skippedEffects_eq ready.machine.trace ready.machine budget
      hstrict (hnone.trans hzero.symm)
    refine ⟨ho, hm.trans ?_, ?_⟩
    · rw [← htrace budget]
      rfl
    · rw [Sink.offered_eq, Sink.offered_eq, he]
  · intro hskipped
    obtain ⟨k, i, reg, h⟩ := exists_firstSkip ready.machine budget hstrict
      (by rwa [hzero])
    obtain ⟨ho, hm, he⟩ := h.run_strict hstrict ready.machine.trace
    have hnone := h.skippedEffects.trans hzero
    obtain ⟨hinvalid, hfirst⟩ := h.skips.first
    refine ⟨k, i, reg, h.lt_budget, h.outcome, hnone, ?_, h.skips.passes.decoded, hinvalid,
      hfirst, ho, ?_, ?_⟩
    · rw [h.skips.skippedEffects, hnone]
    · refine hm.trans ?_
      rw [← htrace (some k), ← trace_begun]
      rfl
    · rw [Sink.offered_eq, Sink.offered_eq, he]

/-- A program that sends a byte and then adds from a register 9. -/
theorem run_strict_eq_until_skip_adds :
    let c : Config := { memory := { size := 16, outputPort := 15 } }
    let file := (Image.ofProgram 0 [.load 0 7, .store 0 15, .add 1 9, .halt]).encode.toArray
    c.execution.strictRegisters = false ∧ ∃ ready ready',
      (ofConfig c).install file = .ok ready ∧ (ofConfig c.strictly).install file = .ok ready' ∧
      (ready.machine.run none).outcome = .stopped .halted ∧
      (ready.machine.run none).machine.counters.skippedEffects = 1 ∧
      (ready'.machine.run none).outcome = .stopped (.faulted (.invalidRegister 7 9)) ∧
      ∃ k, (ready.machine.run (some k)).outcome = .exhausted k 7 ∧
        (ready'.machine.run none).machine.registers =
          (ready.machine.run (some k)).machine.registers := by
  intro c file
  obtain ⟨ready, hready⟩ : ∃ ready, ready = (ofConfig c).place (.inFront file) (bodyBytes file) :=
    ⟨_, rfl⟩
  have hload : (ofConfig c).install file = .ok ready :=
    install_eq_ok_iff.2 ⟨by decide, by decide, hready⟩
  obtain ⟨ready', hload', -, hfault⟩ := run_strict_eq_until_skip Sink.capture #[] rfl hload none
  have hhalted : (ready.machine.run none).outcome = .stopped .halted := by
    rw [hready]
    decide +kernel
  have hskipped : (ready.machine.run none).machine.counters.skippedEffects = 1 := by
    rw [hready]
    decide +kernel
  have hout : (ready'.machine.run none).outcome = .stopped (.faulted (.invalidRegister 7 9)) := by
    rw [(install_eq_ok_iff.1 hload').2.2]
    decide +kernel
  obtain ⟨k, i, reg, -, hbefore, -, -, -, -, -, hstop, hmachine, -⟩ :=
    hfault (by rw [hskipped]; exact Nat.one_ne_zero)
  have hpc : (ready.machine.run (some k)).machine.pc = 7 := by
    rw [hout, Outcome.stopped.injEq, Stop.faulted.injEq, Fault.invalidRegister.injEq] at hstop
    exact hstop.1.symm
  refine ⟨rfl, ready, ready', hload, hload', hhalted, hskipped, hout, k, ?_, ?_⟩
  · rw [hbefore, hpc]
  · rw [hmachine]
    exact registers_begun

end Machine

end ByteMachine
