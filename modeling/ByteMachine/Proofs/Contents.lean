import ByteMachine.Proofs.Step

/-!
What instructions mean: their effect on registers, memory and output, without a program
counter. A step that passes an instruction has exactly this effect.
-/

namespace ByteMachine

lemma Memory.write_of_not_contains {m : Memory} {a : Address} (h : ¬ m.Contains a) (v : UInt8) :
    m.write a v = m := by
  have hbytes : m.bytes.setIfInBounds a.toNat v = m.bytes :=
    Array.setIfInBounds_eq_of_size_le (Nat.not_lt.1 h)
  simp only [write, hbytes]

lemma Registers.exists_read? (r : Registers) {index : UInt8} (h : IsValid index) :
    ∃ value, r.read? index = some value :=
  Option.isSome_iff_exists.1 (isSome_read?.2 h)

/-- All its operands that should name registers do. -/
def Instruction.NamesRegisters (i : Instruction) : Prop :=
  ∀ r ∈ i.registers, Registers.IsValid r

instance (i : Instruction) : Decidable i.NamesRegisters := List.decidableBAll _ i.registers

lemma Instruction.namesRegisters_iff {i : Instruction} :
    i.NamesRegisters ↔ i.invalidRegister? = none :=
  invalidRegister?_eq_none.symm

/-- What instructions work on: registers, memory and the bytes sent to the output port. -/
structure Contents where
  registers : Registers
  memory : Memory
  output : List UInt8

namespace Contents

def register (c : Contents) (index : UInt8) : UInt8 := (c.registers.read? index).getD 0

lemma read?_eq_register (c : Contents) {index : UInt8} (h : Registers.IsValid index) :
    c.registers.read? index = some (c.register index) := by
  obtain ⟨v, hv⟩ := c.registers.exists_read? h
  rw [register, hv, Option.getD_some]

def setRegister (c : Contents) (index value : UInt8) : Contents :=
  { c with registers := (c.registers.write? index value).getD c.registers }

/-- Writes inside memory only; a byte for the port is sent whether it is inside or not. -/
def store (port : Address) (c : Contents) (a : Address) (value : UInt8) : Contents where
  registers := c.registers
  memory := if c.memory.Contains a then c.memory.write a value else c.memory
  output := if a = port then c.output ++ [value] else c.output

def carryOut (port : Address) (c : Contents) : Instruction → Contents
  | .nop => c
  | .halt => c
  | .load reg value => c.setRegister reg value
  | .add target source => c.setRegister target (c.register target + c.register source)
  | .store source a => c.store port a.toUInt32 (c.register source)

/-- An instruction that names an invalid register does nothing. -/
def apply (port : Address) (c : Contents) (i : Instruction) : Contents :=
  if i.NamesRegisters then c.carryOut port i else c

lemma apply_halt (port : Address) (c : Contents) : c.apply port .halt = c := rfl

lemma store_memory (port : Address) (c : Contents) (a : Address) (v : UInt8) :
    (c.store port a v).memory = c.memory.write a v := by
  simp only [store]
  split
  · rfl
  · rename_i h
    exact (Memory.write_of_not_contains h v).symm

/-- Only the target of a store from a register changes in memory. -/
lemma read?_apply (port : Address) (c : Contents) (i : Instruction) (b : Address)
    (h : ∀ source target, i = .store source target → Registers.IsValid source →
      target.toUInt32 ≠ b) :
    (c.apply port i).memory.read? b = c.memory.read? b := by
  unfold apply
  split
  · rename_i hv
    cases i with
    | store source target =>
      have hne := h source target rfl (hv source (by simp [Instruction.registers]))
      simp only [carryOut]
      rw [store_memory, Memory.read?_write, if_neg (fun hc => hne hc.1)]
    | _ => rfl
  · rfl

end Contents

namespace Machine

variable {m : Machine} {i : Instruction}

def contents (m : Machine) (output : List UInt8) : Contents := ⟨m.registers, m.memory, output⟩

lemma store_contents (m : Machine) (a : Address) (v : UInt8) (output : List UInt8) :
    (m.contents output).store m.outputPort a v =
      (m.store a v).1.contents (output ++ Effect.emitted (m.store a v).2) := by
  have hmem := Contents.store_memory m.outputPort (m.contents output) a v
  have hlog : Effect.emitted (if m.memory.Contains a then []
      else [.log (.storeOutside a m.memory.size)]) = [] := by split <;> rfl
  simp only [Contents.store] at hmem ⊢
  rw [hmem]
  unfold Machine.store
  dsimp only
  split
  · simp only [contents, Effect.emitted_append, hlog]
    rfl
  · simp only [contents, hlog, List.append_nil]

lemma perform_contents (hi : i.invalidRegister? = none)
    (a : Address) (output : List UInt8) :
    (m.contents output).carryOut m.outputPort i =
      (m.perform a i).1.contents (output ++ Effect.emitted (m.perform a i).2) := by
  have hv := Instruction.namesRegisters_iff.2 hi
  have hread (r : UInt8) (hr : r ∈ i.registers) :
      m.registers.read? r = some ((m.contents output).register r) :=
    (m.contents output).read?_eq_register (hv r hr)
  cases i with
  | nop => simp [Contents.carryOut, perform, contents]
  | halt => simp [Contents.carryOut, perform, contents, Effect.emitted]
  | load reg value =>
    simp [Contents.carryOut, Contents.setRegister, perform, setRegister, contents]
  | add target source =>
    simp only [perform, hread target (by simp [Instruction.registers]),
      hread source (by simp [Instruction.registers])]
    simp [Contents.carryOut, Contents.setRegister, setRegister, contents]
  | store source b =>
    simp only [perform, hread source (by simp [Instruction.registers])]
    exact store_contents m b.toUInt32 _ output

lemma Refuses.contents {f : Fault} (h : m.Refuses f) (output : List UInt8) :
    m.step.1.contents (output ++ Effect.emitted m.step.2) = m.contents output := by
  rw [h.emitted, Machine.contents, Machine.contents, h.registers, h.memory, List.append_nil]

/-- **A step that passes an instruction does what the instruction means.** -/
theorem Passes.apply_contents (h : m.Passes i) (output : List UInt8) :
    (m.contents output).apply m.outputPort i =
      m.step.1.contents (output ++ Effect.emitted m.step.2) := by
  unfold Contents.apply
  obtain ⟨hr, h1, h2⟩ | ⟨r, hr, h1, h2⟩ := h.step_cases
  · rw [if_pos (Instruction.namesRegisters_iff.2 hr), h1, h2]
    have hc : m.contents output = (m.begun.retire i).contents output := by
      simp [contents, retire]
    have hp : m.outputPort = (m.begun.retire i).outputPort := by simp [retire]
    rw [hc, hp]
    exact perform_contents hr m.pc output
  · have hinv : ¬ i.NamesRegisters := by
      rw [Instruction.namesRegisters_iff, hr]
      exact Option.some_ne_none r
    rw [if_neg hinv, h1, h2]
    simp [contents, retire]

end Machine

end ByteMachine
