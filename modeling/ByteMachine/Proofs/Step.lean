import Mathlib.Tactic.Common
import ByteMachine.Machine.Progress

/-!
What one step can do. A machine that is not stopped either passes the instruction at its
program counter or refuses it with a fault, and each of the two says what changes.
-/

namespace ByteMachine

/-- The addresses up to the end of memory are the numbers up to its size. -/
lemma Memory.toNat_ofNat_of_le {m : Memory} {k : Nat} (h : k ≤ m.size) :
    (UInt32.ofNat k).toNat = k := by
  rw [UInt32.toNat_ofNat']
  exact Nat.mod_eq_of_lt (Nat.lt_of_le_of_lt h m.size_lt)

namespace Machine

variable {m : Machine} {i : Instruction} {f : Fault}

/-- The machine as its next instruction finds it. -/
def begun (m : Machine) : Machine := if m.state = .ready then m.start else m

@[simp] lemma registers_begun : m.begun.registers = m.registers := by unfold begun; split <;> rfl
@[simp] lemma memory_begun : m.begun.memory = m.memory := by unfold begun; split <;> rfl
@[simp] lemma pc_begun : m.begun.pc = m.pc := by unfold begun; split <;> rfl
@[simp] lemma outputPort_begun : m.begun.outputPort = m.outputPort := by
  unfold begun; split <;> rfl
@[simp] lemma strict_begun : m.begun.strict = m.strict := by unfold begun; split <;> rfl
@[simp] lemma trace_begun : m.begun.trace = m.trace := by unfold begun; split <;> rfl
@[simp] lemma steps_begun : m.begun.counters.steps = m.counters.steps := by
  unfold begun; split <;> rfl

lemma state_begun (h : ¬ m.state.IsTerminal) : m.begun.state = .running := by
  unfold begun
  rcases hs : m.state with _ | _ | s
  · rfl
  · simpa using hs
  · exact absurd (by rw [hs]; rfl) h

lemma step_eq_cycle (h : ¬ m.state.IsTerminal) : m.step = m.begun.cycle := by
  unfold step begun
  rcases hs : m.state with _ | _ | s
  · rfl
  · rfl
  · exact absurd (by rw [hs]; rfl) h

lemma step_of_isTerminal (h : m.state.IsTerminal) : m.step = (m, []) := by
  unfold step
  rcases hs : m.state with _ | _ | s
  · rw [hs] at h; exact absurd h nofun
  · rw [hs] at h; exact absurd h nofun
  · rfl

/-! ### The two kinds of step -/

/-- The next step carries an instruction out, or skips what it would have done. -/
structure Passes (m : Machine) (i : Instruction) : Prop where
  live : ¬ m.state.IsTerminal
  decoded : decode m.memory.bytes m.pc = .ok i
  allowed : m.strict = true → i.invalidRegister? = none

/-- The next step stops the machine with a fault. -/
structure Refuses (m : Machine) (f : Fault) : Prop where
  live : ¬ m.state.IsTerminal
  cause : decode m.memory.bytes m.pc = .error f ∨
    ∃ i r, decode m.memory.bytes m.pc = .ok i ∧ m.strict = true ∧
      i.invalidRegister? = some r ∧ f = .invalidRegister m.pc r

/-- **There is no third kind of step.** -/
theorem passes_or_refuses (h : ¬ m.state.IsTerminal) :
    (∃ i, m.Passes i) ∨ ∃ f, m.Refuses f := by
  rcases hd : decode m.memory.bytes m.pc with f | i
  · exact Or.inr ⟨f, h, Or.inl hd⟩
  · rcases hr : i.invalidRegister? with _ | r
    · exact Or.inl ⟨i, h, hd, fun _ => hr⟩
    · by_cases hs : m.strict = true
      · exact Or.inr ⟨_, h, Or.inr ⟨i, r, hd, hs, hr, rfl⟩⟩
      · exact Or.inl ⟨i, h, hd, fun h' => absurd h' hs⟩

/-- The line of the trace for an instruction, if there is a trace. -/
def announced (m : Machine) (i : Instruction) : List Effect :=
  if m.trace then [.log (.traced m.pc i)] else []

lemma announced_eq_map (m : Machine) (i : Instruction) :
    ∃ es : List Event, m.announced i = es.map Effect.log := by
  unfold announced
  split
  · exact ⟨[.traced m.pc i], rfl⟩
  · exact ⟨[], rfl⟩

@[simp] lemma emitted_announced (m : Machine) (i : Instruction) :
    Effect.emitted (m.announced i) = [] := by
  unfold announced
  split <;> rfl

/-- An instruction that is refused is in the trace if it has been read. -/
lemma Refuses.step_eq (h : m.Refuses f) :
    (decode m.memory.bytes m.pc = .error f ∧ m.step = m.begun.fail f) ∨
      ∃ i r, decode m.memory.bytes m.pc = .ok i ∧ f = .invalidRegister m.pc r ∧
        m.step = ((m.begun.fail f).1, m.announced i ++ [.log (.faulted f)]) := by
  rw [step_eq_cycle h.live]
  unfold cycle
  rw [memory_begun, pc_begun]
  obtain hd | ⟨i, r, hd, hs, hr, rfl⟩ := h.cause
  · rw [hd]
    exact Or.inl ⟨rfl, rfl⟩
  · rw [hd]
    refine Or.inr ⟨i, r, rfl, rfl, ?_⟩
    simp only [execute, hr, strict_begun, hs, pc_begun, trace_begun, ↓reduceIte]
    rfl

lemma Refuses.step_fst (h : m.Refuses f) : m.step.1 = (m.begun.fail f).1 := by
  obtain ⟨-, heq⟩ | ⟨i, r, -, -, heq⟩ := h.step_eq
  · rw [heq]
  · rw [heq]

/-- A refused instruction is at most logged. -/
lemma Refuses.effects (h : m.Refuses f) : ∃ es : List Event, m.step.2 = es.map Effect.log := by
  obtain ⟨-, heq⟩ | ⟨i, r, -, -, heq⟩ := h.step_eq
  · exact ⟨[.faulted f], congrArg Prod.snd heq⟩
  · obtain ⟨es, hes⟩ := m.announced_eq_map i
    exact ⟨es ++ [.faulted f], by rw [heq, hes, List.map_append]; rfl⟩

lemma Refuses.emitted (h : m.Refuses f) : Effect.emitted m.step.2 = [] := by
  obtain ⟨es, hes⟩ := h.effects
  rw [hes, Effect.emitted, List.filterMap_map]
  exact List.filterMap_eq_nil_iff.2 fun _ _ => rfl

lemma Refuses.registers (h : m.Refuses f) : m.step.1.registers = m.registers := by
  rw [h.step_fst]; exact registers_begun

lemma Refuses.memory (h : m.Refuses f) : m.step.1.memory = m.memory := by
  rw [h.step_fst]; exact memory_begun

lemma Refuses.state (h : m.Refuses f) : m.step.1.state = .stopped (.faulted f) := by
  rw [h.step_fst]; rfl

lemma Refuses.steps (h : m.Refuses f) : m.step.1.counters.steps = m.counters.steps := by
  rw [h.step_fst]; exact steps_begun

lemma Passes.step_eq (h : m.Passes i) :
    m.step = ((m.begun.execute i).1, m.announced i ++ (m.begun.execute i).2) := by
  rw [step_eq_cycle h.live, cycle, memory_begun, pc_begun, h.decoded]
  simp only [trace_begun]
  rfl

/-- An instruction that is passed is carried out or skipped. -/
lemma Passes.execute_cases (h : m.Passes i) :
    (i.invalidRegister? = none ∧ m.begun.execute i = (m.begun.retire i).perform m.pc i) ∨
    (∃ r, i.invalidRegister? = some r ∧
      m.begun.execute i =
        ({ m.begun.retire i with counters := (m.begun.retire i).counters.skipEffect },
          [.log (.effectSkipped m.pc i r)])) := by
  rcases hr : i.invalidRegister? with _ | r
  · left
    simp only [execute, hr, pc_begun, and_self]
  · right
    have hs : m.strict ≠ true := fun hs => by simp [h.allowed hs] at hr
    refine ⟨r, rfl, ?_⟩
    simp only [execute, hr, strict_begun, hs, pc_begun]
    rfl

/-- What an instruction that is passed does to the machine. -/
lemma Passes.step_cases (h : m.Passes i) :
    (i.invalidRegister? = none ∧ m.step.1 = ((m.begun.retire i).perform m.pc i).1 ∧
      Effect.emitted m.step.2 = Effect.emitted ((m.begun.retire i).perform m.pc i).2) ∨
    (∃ r, i.invalidRegister? = some r ∧
      m.step.1 = { m.begun.retire i with
        counters := (m.begun.retire i).counters.skipEffect } ∧
      Effect.emitted m.step.2 = []) := by
  rw [h.step_eq]
  simp only [Effect.emitted_append, emitted_announced, List.nil_append]
  obtain ⟨hr, hexecute⟩ | ⟨r, hr, hexecute⟩ := h.execute_cases
  · exact Or.inl ⟨hr, congrArg Prod.fst hexecute, congrArg (Effect.emitted ·.2) hexecute⟩
  · exact Or.inr ⟨r, hr, congrArg Prod.fst hexecute, congrArg (Effect.emitted ·.2) hexecute⟩

/-! ### What carrying out an instruction leaves alone -/

/-- What is set when a machine is made. -/
def settings (m : Machine) : Address × Bool × Bool := (m.outputPort, m.strict, m.trace)

lemma settings_store (m : Machine) (a : Address) (v : UInt8) :
    (m.store a v).1.settings = m.settings := by
  unfold store
  dsimp only
  split <;> rfl

lemma settings_perform (m : Machine) (a : Address) (i : Instruction) :
    (m.perform a i).1.settings = m.settings := by
  unfold perform
  repeat' split
  all_goals first | rfl | exact settings_store ..

/-- Carrying out an instruction counts a byte for the port, if anything. -/
lemma counters_perform (m : Machine) (a : Address) (i : Instruction) :
    (m.perform a i).1.counters = m.counters ∨
      (m.perform a i).1.counters = m.counters.writePort := by
  have hstore (b : Address) (v : UInt8) : (m.store b v).1.counters = m.counters ∨
      (m.store b v).1.counters = m.counters.writePort := by
    unfold store
    dsimp only
    split
    · exact Or.inr rfl
    · exact Or.inl rfl
  unfold perform
  repeat' split
  all_goals first | exact Or.inl rfl | exact hstore ..

@[simp] lemma steps_perform (m : Machine) (a : Address) (i : Instruction) :
    (m.perform a i).1.counters.steps = m.counters.steps := by
  rcases m.counters_perform a i with h | h
  · rw [h]
  · rw [h]
    rfl

lemma state_perform (m : Machine) (a : Address) (i : Instruction) :
    (m.perform a i).1.state = if i = .halt then .stopped .halted else m.state := by
  have hstore (b : Address) (v : UInt8) : (m.store b v).1.state = m.state := by
    unfold store
    dsimp only
    split <;> rfl
  cases i with
  | halt => rfl
  | nop => rfl
  | load => rfl
  | add target source => simp only [perform]; split <;> rfl
  | store source b => simp only [perform]; split; exacts [hstore .., rfl]

/-! ### What a step that passes an instruction changes -/

lemma Passes.pc (h : m.Passes i) : m.step.1.pc = m.pc + UInt32.ofNat i.size := by
  obtain ⟨-, h1, -⟩ | ⟨r, -, h1, -⟩ := h.step_cases
  · rw [h1, pc_perform, retire, pc_begun]
  · rw [h1, retire, pc_begun]

lemma Passes.pc_toNat (h : m.Passes i) : m.step.1.pc.toNat = m.pc.toNat + i.size := by
  have hle := add_size_le_of_decode h.decoded
  have hlt := m.memory.size_lt
  rw [h.pc, UInt32.toNat_add, UInt32.toNat_ofNat']
  omega

lemma Passes.steps (h : m.Passes i) : m.step.1.counters.steps = m.counters.steps + 1 := by
  obtain ⟨-, h1, -⟩ | ⟨r, -, h1, -⟩ := h.step_cases
  · rw [h1, steps_perform, retire, Counters.steps_retire, steps_begun]
  · rw [h1]
    exact (Counters.steps_retire ..).trans (by rw [steps_begun])

lemma Passes.state (h : m.Passes i) :
    m.step.1.state = if i = .halt then .stopped .halted else .running := by
  obtain ⟨-, h1, -⟩ | ⟨r, hr, h1, -⟩ := h.step_cases
  · rw [h1, state_perform, retire, state_begun h.live]
  · have hi : i ≠ .halt := by rintro rfl; cases hr
    rw [h1, if_neg hi]
    exact state_begun h.live

lemma live_of_goesOn (hs : m.step.1.state.stop? = none) : ¬ m.state.IsTerminal := by
  intro hterm
  rw [step_of_isTerminal hterm] at hs
  exact State.not_isTerminal_of_stop? hs hterm

/-- A machine that goes on has passed an instruction. -/
lemma passes_of_goesOn (hlive : ¬ m.state.IsTerminal) (hs : m.step.1.state.stop? = none) :
    ∃ i, m.Passes i ∧ i ≠ .halt := by
  obtain ⟨i, hi⟩ | ⟨f, hf⟩ := passes_or_refuses hlive
  · refine ⟨i, hi, ?_⟩
    rintro rfl
    rw [hi.state] at hs
    cases hs
  · rw [hf.state] at hs
    cases hs

lemma running_of_goesOn (hlive : ¬ m.state.IsTerminal) (hs : m.step.1.state.stop? = none) :
    m.step.1.state = .running := by
  obtain ⟨i, hi, hhalt⟩ := passes_of_goesOn hlive hs
  rw [hi.state, if_neg hhalt]

lemma Passes.settings (h : m.Passes i) : m.step.1.settings = m.settings := by
  obtain ⟨-, h1, -⟩ | ⟨r, -, h1, -⟩ := h.step_cases
  · rw [h1, settings_perform]
    simp [Machine.settings, retire]
  · rw [h1]
    simp [Machine.settings, retire]

/-- **The settings stay as they are.** -/
theorem settings_step (m : Machine) : m.step.1.settings = m.settings := by
  by_cases h : m.state.IsTerminal
  · rw [step_of_isTerminal h]
  · obtain ⟨i, hi⟩ | ⟨f, hf⟩ := passes_or_refuses h
    · exact hi.settings
    · rw [hf.step_fst]
      simp [settings, fail]

lemma outputPort_step (m : Machine) : m.step.1.outputPort = m.outputPort :=
  congrArg Prod.fst (settings_step m)

lemma strict_step (m : Machine) : m.step.1.strict = m.strict :=
  congrArg (fun s => s.2.1) (settings_step m)

end Machine

end ByteMachine
