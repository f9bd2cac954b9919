import ByteMachine.Machine.Run
import ByteMachine.Proofs.Decoding
import ByteMachine.Proofs.Offered
import ByteMachine.Proofs.Step

/-!
Machines that differ in memory alone. A step keeps them so wherever their memories agree, as
long as both read the same instruction; and since the program counter only goes up, what lies
below it is never read again.
-/

namespace ByteMachine

open Machine

/-- Two machines are the same but for memory, and their memories agree where `d` holds. -/
structure AgreeOn (d : Address → Prop) (m m' : Machine) : Prop where
  registers : m'.registers = m.registers
  counters : m'.counters = m.counters
  pc : m'.pc = m.pc
  state : m'.state = m.state
  outputPort : m'.outputPort = m.outputPort
  strict : m'.strict = m.strict
  trace : m'.trace = m.trace
  size : m'.memory.size = m.memory.size
  memory : ∀ a, d a → m'.memory.read? a = m.memory.read? a

namespace AgreeOn

variable {d : Address → Prop} {m m' : Machine}

lemma contains (h : AgreeOn d m m') (a : Address) :
    m'.memory.Contains a ↔ m.memory.Contains a := by
  rw [Memory.Contains, Memory.Contains, h.size]

lemma begun (h : AgreeOn d m m') : AgreeOn d m.begun m'.begun := by
  unfold Machine.begun
  rw [h.state]
  split
  · exact { h with counters := congrArg Counters.start h.counters, state := rfl }
  · exact h

lemma fail (h : AgreeOn d m m') (f : Fault) :
    AgreeOn d (m.fail f).1 (m'.fail f).1 ∧ (m'.fail f).2 = (m.fail f).2 := by
  have hpc : (m'.fail f).1.pc = (m.fail f).1.pc := by simp only [Machine.fail, h.pc]
  exact ⟨{ h with pc := hpc, state := rfl }, rfl⟩

lemma retire (h : AgreeOn d m m') (i : Instruction) : AgreeOn d (m.retire i) (m'.retire i) := by
  have hpc : (m'.retire i).pc = (m.retire i).pc := by simp only [Machine.retire, h.pc]
  have hcount : (m'.retire i).counters = (m.retire i).counters := by
    simp only [Machine.retire, h.counters]
  exact { h with pc := hpc, counters := hcount }

lemma setRegister (h : AgreeOn d m m') (index value : UInt8) :
    AgreeOn d (m.setRegister index value) (m'.setRegister index value) := by
  have hreg : (m'.setRegister index value).registers = (m.setRegister index value).registers := by
    simp only [Machine.setRegister, h.registers]
  exact { h with registers := hreg }

lemma store (h : AgreeOn d m m') (a : Address) (v : UInt8) :
    AgreeOn d (m.store a v).1 (m'.store a v).1 ∧ (m'.store a v).2 = (m.store a v).2 := by
  have hmem (b : Address) (hb : d b) :
      (m'.memory.write a v).read? b = (m.memory.write a v).read? b := by
    rw [Memory.read?_write, Memory.read?_write, h.memory b hb]
    simp only [h.contains]
  have hsize : (m'.memory.write a v).size = (m.memory.write a v).size := by
    rw [Memory.size_write, Memory.size_write, h.size]
  unfold Machine.store
  dsimp only
  rw [h.outputPort]
  simp only [h.contains, h.size]
  split
  · have hcount := congrArg Counters.writePort h.counters
    exact ⟨{ h with counters := hcount, outputPort := rfl, size := hsize, memory := hmem }, rfl⟩
  · exact ⟨{ h with outputPort := rfl, size := hsize, memory := hmem }, rfl⟩

lemma perform (h : AgreeOn d m m') (a : Address) (i : Instruction) :
    AgreeOn d (m.perform a i).1 (m'.perform a i).1 ∧ (m'.perform a i).2 = (m.perform a i).2 := by
  cases i with
  | nop => exact ⟨h, rfl⟩
  | halt =>
    refine ⟨{ h with state := rfl }, ?_⟩
    simp only [Machine.perform, h.counters]
  | load reg value => exact ⟨h.setRegister reg value, rfl⟩
  | add target source =>
    simp only [Machine.perform, h.registers]
    split
    · exact ⟨h.setRegister target _, rfl⟩
    · exact ⟨h, rfl⟩
  | store source b =>
    simp only [Machine.perform, h.registers]
    split
    · exact h.store _ _
    · exact ⟨h, rfl⟩

lemma execute (h : AgreeOn d m m') (i : Instruction) :
    AgreeOn d (m.execute i).1 (m'.execute i).1 ∧ (m'.execute i).2 = (m.execute i).2 := by
  have hret := h.retire i
  unfold Machine.execute
  split
  · rw [h.pc]
    exact hret.perform m.pc i
  · rw [h.strict, h.pc]
    split
    · exact h.fail _
    · exact ⟨{ hret with counters := congrArg Counters.skipEffect hret.counters }, rfl⟩

/-- **A step keeps agreement**, wherever there is some, if both machines read the same. -/
theorem step (h : AgreeOn d m m')
    (hd : decode m'.memory.bytes m'.pc = decode m.memory.bytes m.pc) :
    AgreeOn d m.step.1 m'.step.1 ∧ m'.step.2 = m.step.2 := by
  by_cases hm : m.state.IsTerminal
  · rw [step_of_isTerminal hm, step_of_isTerminal (h.state ▸ hm)]
    exact ⟨h, rfl⟩
  · rw [step_eq_cycle hm, step_eq_cycle (h.state ▸ hm)]
    have hb := h.begun
    unfold Machine.cycle
    rw [memory_begun, memory_begun, pc_begun, pc_begun, hd]
    split
    · exact hb.fail _
    · rename_i i _
      obtain ⟨hexe, heff⟩ := hb.execute i
      refine ⟨hexe, ?_⟩
      simp only [trace_begun, h.trace, h.pc, heff]

end AgreeOn

/-! ### What lies behind the program counter -/

lemma decode_eq_of_agreeOn {p : Address} {m m' : Machine} (h : AgreeOn (p ≤ ·) m m')
    (hp : p ≤ m.pc) : decode m'.memory.bytes m'.pc = decode m.memory.bytes m.pc := by
  rw [h.pc]
  refine decode_congr h.size fun a ha _ => ?_
  by_cases hlt : a < m.memory.size
  · have hto := Memory.toNat_ofNat_of_le (Nat.le_of_lt hlt)
    have hle : p ≤ UInt32.ofNat a := by
      rw [UInt32.le_iff_toNat_le, hto]
      exact Nat.le_trans (UInt32.le_iff_toNat_le.1 hp) ha
    have := h.memory _ hle
    rwa [Memory.read?, Memory.read?, hto] at this
  · have hlt' : ¬ a < m'.memory.size := by rwa [h.size]
    rw [Array.getElem?_eq_none (Nat.not_lt.1 hlt), Array.getElem?_eq_none (Nat.not_lt.1 hlt')]

/-- Runs keep the agreement ahead of a point that is passed. -/
lemma runOn_of_agreeOn {p : Address} (m : Machine) (budget : Option Nat) (k : Nat)
    (effects : Array Effect) : ∀ m', AgreeOn (p ≤ ·) m m' → p ≤ m.pc →
      AgreeOn (p ≤ ·) (m.runOn budget k effects).machine (m'.runOn budget k effects).machine ∧
        (m'.runOn budget k effects).outcome = (m.runOn budget k effects).outcome ∧
        (m'.runOn budget k effects).effects = (m.runOn budget k effects).effects := by
  fun_induction m.runOn budget k effects with
  | case1 m k effects hb =>
    intro m' h hp
    subst hb
    rw [runOn_exhausted, h.pc]
    exact ⟨h, rfl, rfl⟩
  | case2 m k effects hb next stop hs =>
    intro m' h hp
    obtain ⟨hstep, heff⟩ := h.step (decode_eq_of_agreeOn h hp)
    rw [runOn_stopped hb (by rw [hstep.state]; exact hs), heff]
    exact ⟨hstep, rfl, rfl⟩
  | case3 m k effects hb next hs ih =>
    intro m' h hp
    obtain ⟨hstep, heff⟩ := h.step (decode_eq_of_agreeOn h hp)
    have hpc := pc_step (State.not_isTerminal_of_stop? hs)
    rw [runOn_running hb (by rw [hstep.state]; exact hs), heff]
    exact ih _ hstep (UInt32.le_iff_toNat_le.2 (Nat.le_trans (UInt32.le_iff_toNat_le.1 hp)
      (Nat.le_of_lt hpc.1)))

/-- **Memory behind the program counter is dead**: what stands there changes nothing that a run
does, and nothing that it leaves ahead. -/
theorem run_of_agree_ahead {σ : Type} (sink : Sink σ) (s : σ) {m m' : Machine}
    (h : AgreeOn (m.pc ≤ ·) m m') (budget : Option Nat) :
    (m'.run budget).outcome = (m.run budget).outcome ∧
      AgreeOn (m.pc ≤ ·) (m.run budget).machine (m'.run budget).machine ∧
      sink.offered s (m'.run budget).effects.toList =
        sink.offered s (m.run budget).effects.toList := by
  obtain ⟨hmachine, hout, heff⟩ :=
    runOn_of_agreeOn m budget 0 #[.log (.runStarted m.pc budget)] m' h (UInt32.le_refl _)
  have hrun : m'.run budget = m'.runOn budget 0 #[.log (.runStarted m.pc budget)] := by
    rw [run, h.pc]
  rw [hrun]
  refine ⟨hout, hmachine, ?_⟩
  rw [heff]
  rfl

/-- Stores that reach back over what has been executed and ahead to the next instruction. -/
theorem run_of_agree_ahead_stores :
    let m : Machine := { Machine.ofConfig {} with
      memory := ⟨#[0, 0, 0, 0x11, 0, 1, 0, 0x11, 1, 11, 0, 7, 1], by decide⟩, pc := 3 }
    let m' : Machine := { m with memory := m.memory.write 2 0x20 }
    AgreeOn (m.pc ≤ ·) m m' ∧ m'.memory.read? 2 ≠ m.memory.read? 2 ∧
      (m'.run none).outcome = (m.run none).outcome := by
  intro m m'
  have h : AgreeOn (m.pc ≤ ·) m m' := by
    refine ⟨rfl, rfl, rfl, rfl, rfl, rfl, rfl, Memory.size_write .., fun a ha => ?_⟩
    have hne : (2 : Address) ≠ a := by
      rintro rfl
      exact absurd ha (by decide)
    rw [Memory.read?_write, if_neg (fun hc => hne hc.1)]
  exact ⟨h, by decide, (run_of_agree_ahead Sink.capture #[] h none).1⟩

end ByteMachine
