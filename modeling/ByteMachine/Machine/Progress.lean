import ByteMachine.Machine.Step

/-!
A step keeps the size of memory. A machine that is not stopped afterwards has moved its program
counter up, at most to the end of memory.
-/

namespace ByteMachine.Machine

@[simp] theorem size_store (m : Machine) (addr : Address) (v : UInt8) :
    (m.store addr v).1.memory.size = m.memory.size := by
  unfold store
  dsimp only
  split <;> simp

@[simp] theorem pc_store (m : Machine) (addr : Address) (v : UInt8) :
    (m.store addr v).1.pc = m.pc := by
  unfold store
  dsimp only
  split <;> rfl

@[simp] theorem size_perform (m : Machine) (addr : Address) (i : Instruction) :
    (m.perform addr i).1.memory.size = m.memory.size := by
  unfold perform
  repeat' split
  all_goals first | rfl | exact size_store ..

@[simp] theorem pc_perform (m : Machine) (addr : Address) (i : Instruction) :
    (m.perform addr i).1.pc = m.pc := by
  unfold perform
  repeat' split
  all_goals first | rfl | exact pc_store ..

@[simp] theorem size_fail (m : Machine) (f : Fault) :
    (m.fail f).1.memory.size = m.memory.size := rfl

@[simp] theorem isTerminal_fail (m : Machine) (f : Fault) : (m.fail f).1.state.IsTerminal :=
  rfl

@[simp] theorem size_execute (m : Machine) (i : Instruction) :
    (m.execute i).1.memory.size = m.memory.size := by
  unfold execute
  repeat' split
  all_goals first | rfl | exact size_perform ..

theorem pc_execute {m : Machine} {i : Instruction} (h : ¬ (m.execute i).1.state.IsTerminal) :
    (m.execute i).1.pc = m.pc + UInt32.ofNat i.size := by
  revert h
  unfold execute
  repeat' split
  · exact fun _ => pc_perform ..
  · exact fun h => absurd (isTerminal_fail ..) h
  · exact fun _ => rfl

@[simp] theorem size_cycle (m : Machine) : m.cycle.1.memory.size = m.memory.size := by
  unfold cycle
  split
  · rfl
  · exact size_execute ..

theorem pc_cycle {m : Machine} (h : ¬ m.cycle.1.state.IsTerminal) :
    m.pc.toNat < m.cycle.1.pc.toNat ∧ m.cycle.1.pc.toNat ≤ m.memory.size := by
  revert h
  unfold cycle
  split
  · exact fun h => absurd (isTerminal_fail ..) h
  · rename_i i hi
    intro h
    have hpc := pc_execute h
    have hle := add_size_le_of_decode hi
    have hlt := m.memory.size_lt
    have hpos := i.size_pos
    have hto : (m.pc + UInt32.ofNat i.size).toNat = m.pc.toNat + i.size := by
      rw [UInt32.toNat_add, UInt32.toNat_ofNat']
      omega
    dsimp only
    rw [hpc, hto]
    exact ⟨by omega, hle⟩

@[simp] theorem size_step (m : Machine) : m.step.1.memory.size = m.memory.size := by
  unfold step
  split
  · exact size_cycle _
  · exact size_cycle _
  · rfl

theorem pc_step {m : Machine} (h : ¬ m.step.1.state.IsTerminal) :
    m.pc.toNat < m.step.1.pc.toNat ∧ m.step.1.pc.toNat ≤ m.memory.size := by
  revert h
  unfold step
  split
  · exact pc_cycle
  · exact pc_cycle
  · rename_i hs
    exact fun h => absurd (State.isTerminal_of_stop? (by rw [hs]; rfl)) h

end ByteMachine.Machine
