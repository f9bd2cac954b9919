import ByteMachine.Proofs.Accounting

/-!
Faults. There are four reasons for the next step to stop a machine, each with its own fault, and at
most one of them holds. Such a step leaves alone all that an instruction could have changed, and
nothing of it gets to the sink.
-/

namespace ByteMachine

lemma Opcode.ofByte?_eq_none_iff {b : UInt8} :
    ofByte? b = none ↔ b ∉ [0x00, 0x01, 0x10, 0x11, 0x20] := by
  constructor
  · intro h hb
    simp only [List.mem_cons, List.not_mem_nil, or_false] at hb
    rcases hb with rfl | rfl | rfl | rfl | rfl <;> cases h
  · intro h
    rcases hop : ofByte? b with _ | op
    · rfl
    · rw [← byte_of_ofByte? hop] at h
      cases op <;> exact absurd (by decide) h

/-- The registers are numbered up to 7. -/
lemma Instruction.invalidRegister?_eq (i : Instruction) :
    i.invalidRegister? = i.registers.find? (7 < ·) := by
  have hbeyond (r : UInt8) : ¬ Registers.IsValid r ↔ 7 < r := by
    rw [Registers.isValid_iff, UInt8.lt_iff_toNat_lt]
    exact Nat.not_lt
  simp only [invalidRegister?, hbeyond]

/-- What is asked of the log does not get to the sink. -/
lemma Sink.foldl_deliver_logs {σ : Type} (sink : Sink σ) (es : List Event) (w : σ × Array Event) :
    ((es.map Effect.log).foldl sink.deliver w).1 = w.1 := by
  induction es generalizing w with
  | nil => rfl
  | cons e es ih => exact ih _

namespace Machine

variable {σ : Type} {m : Machine} {f g : Fault}

/-! ### The causes -/

/-- The reasons for the next step to fault. -/
inductive FaultsWith (m : Machine) : Fault → Prop
  | outside (h : m.memory.size ≤ m.pc.toNat) : FaultsWith m (.pcOutOfBounds m.pc)
  | unknown {b : UInt8} (hb : m.memory.read? m.pc = some b)
      (h : b ∉ [0x00, 0x01, 0x10, 0x11, 0x20]) : FaultsWith m (.unknownOpcode m.pc b)
  /-- There is an opcode, but memory ends before the instruction does. -/
  | truncated {op : Opcode} (hb : m.memory.read? m.pc = some op.byte)
      (h : m.memory.size < m.pc.toNat + (1 + op.operandCount)) :
      FaultsWith m (.truncated m.pc op.byte)
  /-- The instruction is complete. Its first operand to name no register is to blame. -/
  | register {i : Instruction} {r : UInt8} (hstrict : m.strict = true)
      (hi : HoldsAt m.memory.bytes m.pc.toNat i.encode)
      (hr : i.registers.find? (7 < ·) = some r) : FaultsWith m (.invalidRegister m.pc r)

/-- The causes are those that a step refuses an instruction for. -/
lemma faultsWith_iff : m.FaultsWith f ↔
    decode m.memory.bytes m.pc = .error f ∨
      ∃ i r, decode m.memory.bytes m.pc = .ok i ∧ m.strict = true ∧
        i.invalidRegister? = some r ∧ f = .invalidRegister m.pc r := by
  constructor
  · intro h
    cases h with
    | outside h =>
      exact Or.inl (decode_eq_error_iff.2 (Or.inl ⟨Array.getElem?_eq_none h, rfl⟩))
    | unknown hb h =>
      refine Or.inl (decode_eq_error_iff.2 (Or.inr ⟨_, hb, Or.inl ⟨?_, rfl⟩⟩))
      exact Opcode.ofByte?_eq_none_iff.2 h
    | @truncated op hb h =>
      rw [← Nat.add_assoc] at h
      exact Or.inl (decode_eq_error_iff.2
        (Or.inr ⟨_, hb, Or.inr ⟨op, Opcode.ofByte?_byte op, h, rfl⟩⟩))
    | register hstrict hi hr =>
      exact Or.inr ⟨_, _, decode_eq_ok_iff.2 hi, hstrict,
        (Instruction.invalidRegister?_eq _).trans hr, rfl⟩
  · rintro (hd | ⟨i, r, hd, hstrict, hr, rfl⟩)
    · obtain ⟨hnone, rfl⟩ | ⟨b, hb, ⟨hop, rfl⟩ | ⟨op, hop, hlt, rfl⟩⟩ := decode_eq_error_iff.1 hd
      · exact .outside (Array.getElem?_eq_none_iff.1 hnone)
      · exact .unknown hb (Opcode.ofByte?_eq_none_iff.1 hop)
      · obtain rfl := Opcode.byte_of_ofByte? hop
        exact .truncated hb (by rwa [Nat.add_assoc] at hlt)
    · exact .register hstrict (decode_eq_ok_iff.1 hd)
        ((Instruction.invalidRegister?_eq i).symm.trans hr)

/-- **No two causes hold at once.** -/
theorem FaultsWith.unique (hf : m.FaultsWith f) (hg : m.FaultsWith g) : f = g := by
  rw [faultsWith_iff] at hf hg
  obtain hf | ⟨i, r, hf, -, hr, rfl⟩ := hf
  · obtain hg | ⟨i, r, hg, -⟩ := hg
    · exact Except.error.inj (hf.symm.trans hg)
    · cases hf.symm.trans hg
  · obtain hg | ⟨j, q, hg, -, hq, rfl⟩ := hg
    · cases hf.symm.trans hg
    · obtain rfl := Except.ok.inj (hf.symm.trans hg)
      rw [Option.some.inj (hr.symm.trans hq)]

lemma refuses_iff (hlive : ¬ m.state.IsTerminal) : m.Refuses f ↔ m.FaultsWith f :=
  ⟨fun h => faultsWith_iff.2 h.cause, fun h => ⟨hlive, faultsWith_iff.1 h⟩⟩

/-! ### The step -/

lemma stop?_step_iff (hlive : ¬ m.state.IsTerminal) :
    m.step.1.state.stop? = some (.faulted f) ↔ m.FaultsWith f := by
  rw [← refuses_iff hlive]
  constructor
  · intro h
    obtain ⟨i, hi⟩ | ⟨g, hg⟩ := passes_or_refuses hlive
    · rw [hi.state] at h
      split at h <;> cases h
    · rw [hg.state] at h
      cases h
      exact hg
  · intro h
    rw [h.state]
    rfl

/-- Only the clock may have been started. -/
lemma Refuses.counters_eq (h : m.Refuses f) :
    { m.step.1.counters with started := m.counters.started } = m.counters := by
  rw [h.counters]
  unfold begun
  split <;> rfl

/-- **Faults are precise and atomic.** A machine that has not stopped faults with its next step if
and only if it has a cause to, with the fault that belongs to the cause. If it does, registers,
memory, counters, settings and the sink are as before, and the program counter is past the opcode,
if there is one. -/
theorem step_faults (hlive : ¬ m.state.IsTerminal) (sink : Sink σ) (s : σ) (events : Array Event)
    (f : Fault) :
    let r := m.callTo sink .step (s, events)
    (r.1.2 = .stepped (some (.faulted f)) ↔ m.FaultsWith f) ∧
      (r.1.2 = .stepped (some (.faulted f)) →
        r.1.1.registers = m.registers ∧ r.1.1.memory = m.memory ∧
          { r.1.1.counters with started := m.counters.started } = m.counters ∧
          r.1.1.settings = m.settings ∧ r.2.1 = s ∧
          r.1.1.state = .stopped (.faulted f) ∧ f.addr = m.pc ∧
          r.1.1.pc.toNat =
            if f = .pcOutOfBounds m.pc then m.pc.toNat else m.pc.toNat + 1) := by
  intro r
  have hr : r = ((m.step.1, .stepped m.step.1.state.stop?),
      m.step.2.foldl sink.deliver (s, events)) := congrFun (callTo_eq sink m .step) _
  have hiff : r.1.2 = .stepped (some (.faulted f)) ↔ m.FaultsWith f := by
    rw [hr, ← stop?_step_iff hlive]
    exact ⟨Answer.stepped.inj, congrArg Answer.stepped⟩
  refine ⟨hiff, fun h => ?_⟩
  have hf : m.Refuses f := (refuses_iff hlive).2 (hiff.1 h)
  obtain ⟨es, hes⟩ := hf.effects
  rw [hr]
  refine ⟨hf.registers, hf.memory, hf.counters_eq, settings_step m, ?_, hf.state, hf.addr, ?_⟩
  · rw [hes]
    exact sink.foldl_deliver_logs es (s, events)
  · rw [hf.pc_toNat, ← hf.addr]
    cases f with
    | pcOutOfBounds a => exact (if_pos rfl).symm
    | truncated | unknownOpcode | invalidRegister => exact (if_neg nofun).symm

/-- A strict machine in front of an instruction that adds a register which does not exist. -/
def addingNine : Machine :=
  let m := Machine.ofConfig { execution := { strictRegisters := true }, memory := { size := 16 } }
  { m with memory := m.memory.load 5 #[0x20, 3, 9], pc := 5 }

/-- The operand that is to blame is not the first one. -/
theorem step_faults_addingNine :
    ¬ addingNine.state.IsTerminal ∧
      let r := addingNine.callTo Sink.capture .step (#[7], #[])
      addingNine.FaultsWith (.invalidRegister 5 9) ∧
        r.1.2 = .stepped (some (.faulted (.invalidRegister 5 9))) ∧
        r.1.1.state = .stopped (.faulted (.invalidRegister 5 9)) ∧ r.1.1.pc.toNat = 6 ∧
        r.2.1 = #[7] := by
  have hlive : ¬ addingNine.state.IsTerminal := by decide
  have hcause : addingNine.FaultsWith (.invalidRegister 5 9) :=
    .register (i := .add 3 9) rfl (decode_eq_ok_iff.1 (by decide +kernel)) (by decide)
  obtain ⟨hiff, hatomic⟩ := step_faults hlive Sink.capture #[7] #[] (.invalidRegister 5 9)
  obtain ⟨-, -, -, -, hsink, hstate, -, hpc⟩ := hatomic (hiff.2 hcause)
  exact ⟨hlive, hcause, hiff.2 hcause, hstate, hpc, hsink⟩

end Machine

end ByteMachine
