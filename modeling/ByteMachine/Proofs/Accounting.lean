import ByteMachine.Proofs.Placement
import ByteMachine.Proofs.Stopped
import ByteMachine.Proofs.Strictness

/-!
What the counters tell. A step that passes an instruction counts it once, and a byte sent or an
effect skipped with it; a step that refuses one counts nothing. So the counters agree with each
other and with the state, and the program counter has come as far as the instructions counted are
long.
-/

namespace ByteMachine

/-- The address that a store writes to. -/
def Instruction.target? : Instruction → Option Address
  | .store _ a => some a.toUInt32
  | _ => none

namespace Counters

/-- The bytes of the instructions counted. -/
def bytes (c : Counters) : Nat := c.nop + c.halt + 3 * c.load + 3 * c.add + 4 * c.store

/-- The counters agree with each other. -/
structure Balanced (c : Counters) : Prop where
  steps : c.steps = c.nop + c.halt + c.load + c.add + c.store
  portWrites : c.portWrites ≤ c.store
  effects : c.portWrites + c.skippedEffects ≤ c.load + c.add + c.store

lemma bytes_retire (c : Counters) (op : Opcode) :
    (c.retire op).bytes = c.bytes + (1 + op.operandCount) := by
  cases op <;> simp only [retire, bytes, Opcode.operandCount] <;> omega

lemma halt_retire (c : Counters) (op : Opcode) :
    (c.retire op).halt = c.halt + if op = .halt then 1 else 0 := by
  cases op <;> rfl

lemma portWrites_retire (c : Counters) (op : Opcode) :
    (c.retire op).portWrites = c.portWrites := by
  cases op <;> rfl

lemma started_retire (c : Counters) (op : Opcode) : (c.retire op).started = c.started := by
  cases op <;> rfl

namespace Balanced

variable {c : Counters}

lemma start (h : c.Balanced) : c.start.Balanced := ⟨h.steps, h.portWrites, h.effects⟩

lemma retire (h : c.Balanced) (op : Opcode) : (c.retire op).Balanced := by
  obtain ⟨hsteps, hport, heff⟩ := h
  cases op <;> constructor <;> simp only [Counters.retire] <;> omega

lemma retire_writePort (h : c.Balanced) : (c.retire .store).writePort.Balanced := by
  obtain ⟨hsteps, hport, heff⟩ := h
  constructor <;> simp only [Counters.retire, writePort] <;> omega

/-- Only instructions with operands are skipped. -/
lemma retire_skipEffect (h : c.Balanced) {op : Opcode} (hop : op.operandCount ≠ 0) :
    (c.retire op).skipEffect.Balanced := by
  obtain ⟨hsteps, hport, heff⟩ := h
  cases op with
  | nop | halt => exact absurd rfl hop
  | load | store | add => constructor <;> simp only [Counters.retire, skipEffect] <;> omega

end Balanced

end Counters

namespace Machine

variable {m : Machine} {i : Instruction} {f : Fault}

/-! ### What a step counts -/

lemma counters_perform_eq (hi : i.invalidRegister? = none) (a : Address) :
    (m.perform a i).1.counters =
      if i.target? = some m.outputPort then m.counters.writePort else m.counters := by
  cases i with
  | store source target =>
    have hsource := Instruction.invalidRegister?_eq_none.1 hi source (by simp [Instruction.registers])
    obtain ⟨value, hread⟩ := Option.isSome_iff_exists.1
      (Registers.isSome_read?.2 hsource : (m.registers.read? source).isSome)
    simp only [perform, hread, store, Instruction.target?, Option.some.injEq]
    split <;> rfl
  | add target source =>
    simp only [perform]
    split <;> rfl
  | _ => rfl

/-- What a step counts when it passes an instruction. -/
lemma Passes.counters_cases (h : m.Passes i) :
    (i.invalidRegister? = none ∧ m.step.1.counters =
      if i.target? = some m.outputPort then (m.begun.counters.retire i.opcode).writePort
      else m.begun.counters.retire i.opcode) ∨
    ∃ r, i.invalidRegister? = some r ∧
      m.step.1.counters = (m.begun.counters.retire i.opcode).skipEffect := by
  obtain ⟨hr, h1, -⟩ | ⟨r, hr, h1, -⟩ := h.step_cases
  · left
    refine ⟨hr, ?_⟩
    rw [h1, counters_perform_eq hr]
    simp only [Machine.retire, outputPort_begun]
  · right
    exact ⟨r, hr, by rw [h1, Machine.retire]⟩

/-- Whatever tells instructions apart by their opcodes takes no notice of effects. -/
lemma Passes.counters_keep {β : Type} (h : m.Passes i) (part : Counters → β)
    (hport : ∀ c, part c.writePort = part c) (hskip : ∀ c, part c.skipEffect = part c) :
    part m.step.1.counters = part (m.begun.counters.retire i.opcode) := by
  obtain ⟨-, hc⟩ | ⟨r, -, hc⟩ := h.counters_cases
  · rw [hc]
    split
    · exact hport _
    · rfl
  · rw [hc, hskip]

lemma Refuses.counters (h : m.Refuses f) : m.step.1.counters = m.begun.counters := by
  rw [h.step_fst]
  rfl

lemma operandCount_of_invalidRegister? {r : UInt8} (h : i.invalidRegister? = some r) :
    i.opcode.operandCount ≠ 0 := by
  cases i with
  | nop | halt => cases h
  | load | add | store => exact nofun

/-! ### The counters and the state -/

/-- The counters agree with each other, with the state and with the settings. -/
structure Consistent (m : Machine) : Prop where
  balanced : m.counters.Balanced
  halt : m.counters.halt = if m.state = .stopped .halted then 1 else 0
  /-- A machine that is strict skips nothing. -/
  skipped : m.strict = true → m.counters.skippedEffects = 0
  started : m.counters.started = true ↔ m.state ≠ .ready
  ready : m.state = .ready → m.counters = {}

lemma consistent_of_ready (hs : m.state = .ready) (hc : m.counters = {}) : m.Consistent := by
  refine ⟨?_, ?_, fun _ => ?_, ?_, fun _ => hc⟩
  · rw [hc]
    exact ⟨rfl, Nat.le_refl _, Nat.le_refl _⟩
  · rw [hc, hs]
    rfl
  · rw [hc]
  · rw [hc, hs]
    exact ⟨nofun, fun h => absurd rfl h⟩

namespace Consistent

/-- Nothing but counters, state and strictness matters. -/
lemma of_eq {m' : Machine} (h : m.Consistent) (hc : m'.counters = m.counters)
    (hs : m'.state = m.state) (hst : m'.strict = m.strict) : m'.Consistent := by
  obtain ⟨hbalanced, hhalt, hskipped, hstarted, hready⟩ := h
  exact ⟨hc ▸ hbalanced, by rw [hc, hs, hhalt], by rwa [hst, hc], by rwa [hc, hs],
    by rwa [hs, hc]⟩

lemma begun (h : m.Consistent) (hlive : ¬ m.state.IsTerminal) : m.begun.Consistent := by
  have hstate := state_begun hlive
  obtain ⟨hbalanced, hhalt, hskipped, hstarted, hready⟩ := h
  unfold Machine.begun at hstate ⊢
  split
  · rename_i hs
    refine ⟨hbalanced.start, ?_, hskipped, ⟨fun _ => nofun, fun _ => rfl⟩, nofun⟩
    rw [hs] at hhalt
    exact hhalt
  · exact ⟨hbalanced, hhalt, hskipped, hstarted, hready⟩

lemma step_of_passes (h : m.Consistent) (hp : m.Passes i) : m.step.1.Consistent := by
  obtain ⟨hbalanced, hhalt, -, hstarted, -⟩ := h.begun hp.live
  have hrunning := state_begun hp.live
  have hnotReady : m.step.1.state ≠ .ready := by
    rw [hp.state]
    split <;> exact nofun
  refine ⟨?_, ?_, fun hs => ?_, ⟨fun _ => hnotReady, fun _ => ?_⟩, fun hs => absurd hs hnotReady⟩
  · obtain ⟨-, hc⟩ | ⟨r, hr, hc⟩ := hp.counters_cases
    · rw [hc]
      split
      · rename_i htarget
        cases i with
        | store source a => exact hbalanced.retire_writePort
        | _ => cases htarget
      · exact hbalanced.retire _
    · rw [hc]
      exact hbalanced.retire_skipEffect (operandCount_of_invalidRegister? hr)
  · have hcount := hp.counters_keep Counters.halt (fun _ => rfl) fun _ => rfl
    rw [hrunning] at hhalt
    rw [hcount, Counters.halt_retire, hhalt, hp.state]
    cases i <;> rfl
  · rw [hp.skippedEffects (hp.allowed (by rwa [strict_step] at hs))]
    exact h.skipped (by rwa [strict_step] at hs)
  · have hcount := hp.counters_keep Counters.started (fun _ => rfl) fun _ => rfl
    rw [hcount, Counters.started_retire, hstarted, hrunning]
    exact nofun

lemma step_of_refuses (h : m.Consistent) (hf : m.Refuses f) : m.step.1.Consistent := by
  obtain ⟨hbalanced, hhalt, hskipped, hstarted, -⟩ := h.begun hf.live
  rw [state_begun hf.live] at hhalt hstarted
  refine ⟨?_, ?_, fun hs => ?_, ?_, fun hs => ?_⟩
  · rwa [hf.counters]
  · rw [hf.counters, hf.state, hhalt]
    rfl
  · rw [strict_step] at hs
    rw [hf.counters]
    exact hskipped (by rwa [strict_begun])
  · rw [hf.counters, hf.state, hstarted]
    exact ⟨fun _ => nofun, fun _ => nofun⟩
  · rw [hf.state] at hs
    cases hs

/-- **A step keeps the counters consistent.** -/
theorem step (h : m.Consistent) : m.step.1.Consistent := by
  by_cases hterm : m.state.IsTerminal
  · rwa [step_of_isTerminal hterm]
  · obtain ⟨i, hp⟩ | ⟨f, hf⟩ := passes_or_refuses hterm
    · exact h.step_of_passes hp
    · exact h.step_of_refuses hf

lemma next (h : m.Consistent) (c : Call) : (m.next c).1.1.Consistent := by
  cases c with
  | step => exact h.step
  | run budget =>
    exact run_invariant (P := fun x _ => x.Consistent) (fun _ _ hx => hx.step) m budget [] h
  | reset => exact consistent_of_ready rfl rfl
  | setRegister | write | copy | setPc | setTrace => exact h.of_eq rfl rfl rfl

lemma of_install {file : Array UInt8} {i : Installation} (h : m.install file = .ok i) :
    i.machine.Consistent := by
  obtain ⟨hfile, -, rfl⟩ := install_eq_ok_iff.1 h
  have hplaces := m.places_place hfile
  exact consistent_of_ready hplaces.state hplaces.counters

end Consistent

end Machine

namespace Simulator

variable {σ : Type}

lemma consistent_next {s : Simulator} (h : s.machine.Consistent) (op : Operation) :
    (s.next op).1.1.machine.Consistent := by
  have hload (file : Array UInt8) : (s.next (.load file)).1.1.machine.Consistent := by
    simp only [next, load]
    rcases hi : s.machine.install file with e | i
    · exact h
    · exact .of_install hi
  cases op with
  | load file => exact hload file
  | loadFile path contents =>
    rcases contents with e | file
    · exact h
    · exact hload file
  | run => exact h.next (.run _)
  | call c => exact h.next c

/-- **The counters are consistent in every state.** Whatever is asked of a simulator and its
machine, in any order and with any sinks, loads that fail among it: the counters agree with each
other and with the state. -/
theorem counters_consistent (c : Config) (calls : List (Sink σ × Operation))
    (w : σ × Array Event) :
    (inTurn performTo (ofConfig c) calls w).1.1.machine.Consistent := by
  rw [inTurn_result performTo_eq]
  exact course_invariant (P := fun s _ => s.machine.Consistent)
    (fun op _ _ _ h => consistent_next h op) (ofConfig c) []
    (Machine.consistent_of_ready rfl rfl)

end Simulator

/-! ### The counters and the program counter -/

/-- The opcode of a refused instruction is passed, if there was one. -/
def State.refusedBytes : State → Nat
  | .stopped (.faulted (.pcOutOfBounds _)) => 0
  | .stopped (.faulted _) => 1
  | _ => 0

namespace Machine

variable {σ : Type} {m : Machine} {i : Instruction} {f : Fault} {entry : Nat}

/-- The program counter has come from the entry point past all that has been counted. -/
structure Accounts (entry : Nat) (m : Machine) : Prop where
  pc : m.pc.toNat = entry + m.counters.bytes + m.state.refusedBytes
  within : m.counters.steps ≠ 0 → entry + m.counters.bytes ≤ m.memory.size

lemma bytes_begun : m.begun.counters.bytes = m.counters.bytes := by
  unfold begun
  split <;> rfl

lemma refusedBytes_of_live (h : ¬ m.state.IsTerminal) : m.state.refusedBytes = 0 := by
  rcases hs : m.state with _ | _ | s
  · rfl
  · rfl
  · exact absurd (by rw [hs]; rfl) h

lemma Passes.bytes (h : m.Passes i) : m.step.1.counters.bytes = m.counters.bytes + i.size := by
  rw [h.counters_keep Counters.bytes (fun _ => rfl) fun _ => rfl, Counters.bytes_retire,
    bytes_begun, Instruction.size]

/-- An instruction that is refused has an opcode in memory, unless it is not in memory at all. -/
lemma Refuses.lt_size (h : m.Refuses f) (hf : ∀ a, f ≠ .pcOutOfBounds a) :
    m.pc.toNat < m.memory.size := by
  obtain hd | ⟨i, r, hd, -⟩ := h.cause
  · by_contra hge
    have hnone : m.memory.bytes[m.pc.toNat]? = none :=
      Array.getElem?_eq_none (Nat.le_of_not_lt hge)
    rw [decode, hnone] at hd
    exact hf m.pc (Except.error.inj hd).symm
  · have := add_size_le_of_decode hd
    have := i.size_pos
    rw [Memory.size]
    omega

lemma Refuses.addr (h : m.Refuses f) : f.addr = m.pc := by
  obtain hd | ⟨i, r, -, -, -, rfl⟩ := h.cause
  · exact addr_of_decode hd
  · rfl

lemma Refuses.pc_toNat (h : m.Refuses f) :
    m.step.1.pc.toNat = m.pc.toNat + (State.stopped (.faulted f)).refusedBytes := by
  have hnext (hf : ∀ a, f ≠ .pcOutOfBounds a) : (f.addr + 1).toNat = m.pc.toNat + 1 := by
    have hlt := h.lt_size hf
    have hsize := m.memory.size_lt
    rw [Memory.size] at hlt
    rw [h.addr, UInt32.toNat_add, UInt32.toNat_one]
    omega
  rw [h.step_fst]
  cases f with
  | pcOutOfBounds a => exact congrArg UInt32.toNat pc_begun
  | truncated | unknownOpcode | invalidRegister => exact hnext nofun

lemma Accounts.step (h : m.Accounts entry) : m.step.1.Accounts entry := by
  by_cases hterm : m.state.IsTerminal
  · rwa [step_of_isTerminal hterm]
  · obtain ⟨hpc, hwithin⟩ := h
    rw [refusedBytes_of_live hterm] at hpc
    obtain ⟨i, hp⟩ | ⟨f, hf⟩ := passes_or_refuses hterm
    · have hle := add_size_le_of_decode hp.decoded
      have hrefused : m.step.1.state.refusedBytes = 0 := by
        rw [hp.state]
        split <;> rfl
      refine ⟨?_, fun _ => ?_⟩
      · rw [hp.pc_toNat, hp.bytes, hrefused, hpc]
        omega
      · rw [hp.bytes, size_step, Memory.size]
        omega
    · have hbytes : m.step.1.counters.bytes = m.counters.bytes := by
        rw [hf.counters, bytes_begun]
      refine ⟨?_, fun hsteps => ?_⟩
      · rw [hf.pc_toNat, hbytes, hf.state, hpc]
        omega
      · rw [hbytes, size_step]
        exact hwithin (by rwa [hf.steps] at hsteps)

lemma accounts_of_install {file : Array UInt8} {i : Installation} (hi : m.install file = .ok i) :
    i.machine.Accounts i.loaded.entry.toNat := by
  obtain ⟨hfile, -, rfl⟩ := install_eq_ok_iff.1 hi
  have hplaces := m.places_place hfile
  refine ⟨?_, fun hsteps => ?_⟩
  · rw [hplaces.counters, hplaces.state, hplaces.entry]
    rfl
  · rw [hplaces.counters] at hsteps
    exact absurd rfl hsteps

/-- **The program counter accounts for every byte that has been retired.** After an image has been
installed and any steps and runs have been made, it is as far behind the entry point as the
instructions counted are long, and past the opcode of an instruction that has been refused; and
what has been counted lies in memory. -/
theorem pc_accounts {file : Array UInt8} {i : Installation} (hi : m.install file = .ok i)
    {calls : List (Sink σ × Call)} (hcalls : ∀ c ∈ calls, c.2.Executes) (w : σ × Array Event) :
    let reached := (inTurn callTo i.machine calls w).1.1
    reached.pc.toNat =
        i.loaded.entry.toNat + reached.counters.bytes + reached.state.refusedBytes ∧
      (reached.counters.steps ≠ 0 →
        i.loaded.entry.toNat + reached.counters.bytes ≤ reached.memory.size) := by
  intro reached
  have hreached : reached.Accounts i.loaded.entry.toNat := by
    dsimp only [reached]
    rw [inTurn_result callTo_eq]
    exact executes_invariant (P := fun x _ => x.Accounts i.loaded.entry.toNat)
      (fun _ _ h => h.step) (List.forall_mem_map.2 hcalls) [] (accounts_of_install hi)
  exact ⟨hreached.pc, hreached.within⟩

/-- A strict machine that has just been made. -/
def strictNew : Machine := .ofConfig
  { memory := { size := 16, outputPort := 9 }, execution := { strictRegisters := true } }

/-- The image of a program that loads a register and then adds one that does not exist. -/
def addsNine : Array UInt8 := (Image.ofProgram 2 [.load 0 7, .add 0 9]).encode.toArray

/-- An instruction of three bytes is passed, and the next one refused. -/
theorem pc_accounts_refused :
    let calls : List (Sink Unit × Call) := [(.null, .step), (.null, .run none), (.null, .step)]
    ∃ i, strictNew.install addsNine = .ok i ∧ (∀ c ∈ calls, c.2.Executes) ∧
      let reached := (inTurn callTo i.machine calls ((), #[])).1.1
      reached.state = .stopped (.faulted (.invalidRegister 5 9)) ∧
        reached.pc.toNat = 2 + 3 + 1 ∧ reached.counters.steps ≠ 0 ∧ 2 + 3 ≤ reached.memory.size := by
  intro calls
  have hfile : 28 ≤ addsNine.size ∧ addsNine.toList.take 3 = mark := by decide
  have hcalls : ∀ c ∈ calls, c.2.Executes := by simp [calls, Call.Executes]
  have hi := (install_eq_ok_iff (m := strictNew)).2 ⟨hfile.1, hfile.2, rfl⟩
  have hentry : (strictNew.place (.inFront addsNine) (bodyBytes addsNine)).loaded.entry = 2 := by
    decide +kernel
  have haccounts := pc_accounts hi hcalls ((), #[])
  refine ⟨_, hi, hcalls, ?_⟩
  intro reached
  have hbytes : reached.counters.bytes = 3 := by decide +kernel
  have hsteps : reached.counters.steps = 1 := by decide +kernel
  have hstate : reached.state = .stopped (.faulted (.invalidRegister 5 9)) := by decide +kernel
  obtain ⟨hpc, hwithin⟩ := haccounts
  rw [hentry, hbytes, hstate] at hpc
  rw [hentry, hbytes, hsteps] at hwithin
  refine ⟨hstate, hpc, ?_, hwithin Nat.one_ne_zero⟩
  rw [hsteps]
  exact Nat.one_ne_zero

end Machine

end ByteMachine
