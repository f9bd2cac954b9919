import ByteMachine.Proofs.Contents
import ByteMachine.Proofs.Faults

/-!
The loop that fetches one byte at a time. It moves the program counter past every byte as soon as
the byte is there, and looks at an opcode before it knows whether the operands are. A machine
decodes an instruction as a whole first, and yet a step comes to the same.
-/

namespace ByteMachine

/-- The bytes of an address, the low one first, make up the address. -/
lemma high_mul_add_low (addr : UInt16) :
    (UInt8.ofNat (addr.toNat / 256)).toNat * 256 + (UInt8.ofNat addr.toNat).toNat = addr.toNat := by
  have := addr.toNat_lt
  rw [UInt8.toNat_ofNat', UInt8.toNat_ofNat']
  omega

/-- What the loop works on. -/
structure Core where
  registers : Vector UInt8 8
  memory : Array UInt8
  pc : Address
  state : State
  output : List UInt8

namespace Core

/-! ### The loop -/

def load (c : Core) (reg value : UInt8) : Core :=
  if h : reg.toNat < 8 then { c with registers := c.registers.set reg.toNat value h } else c

def add (c : Core) (reg1 reg2 : UInt8) : Core :=
  if h : reg1.toNat < 8 ∧ reg2.toNat < 8 then
    let a := c.registers[reg1.toNat]
    let b := c.registers[reg2.toNat]
    c.load reg1 (UInt8.ofNat ((a.toNat + b.toNat) % 256))
  else c

/-- A byte for the port is sent whether there is memory at its address or not. -/
def store (port : Address) (c : Core) (reg : UInt8) (addr : Nat) : Core :=
  if h : reg.toNat < 8 then
    let value := c.registers[reg.toNat]
    { c with
      memory := if hin : addr < c.memory.size then c.memory.set addr value hin else c.memory
      output := if addr = port.toNat then c.output ++ [value] else c.output }
  else c

def halt (c : Core) : Core := { c with state := .stopped .halted }

/-- Goes on with the loop, unless there is a fault. -/
abbrev Loop (α : Type) : Type := StateT Core (Except Fault) α

/-- Takes the byte at the program counter. -/
def fetch (missing : Fault) : Loop UInt8 := do
  let c ← get
  match c.memory[c.pc.toNat]? with
  | some b =>
    set { c with pc := c.pc + 1 }
    return b
  | none => throw missing

/-- Only a strict machine minds what registers are named. -/
def check (strict : Bool) (addr : Address) (named : List UInt8) : Loop Unit :=
  match named.find? (7 < ·) with
  | some r => if strict then throw (.invalidRegister addr r) else return
  | none => return

/-- The table of opcodes. The operands are fetched in order, one after the other. -/
def dispatch (port : Address) (strict : Bool) (addr : Address) (op : UInt8) : Loop Unit := do
  let operand := fetch (.truncated addr op)
  if op = 0x00 then
    return
  else if op = 0x01 then
    modify halt
  else if op = 0x10 then
    let reg ← operand
    let imm ← operand
    check strict addr [reg]
    modify (load · reg imm)
  else if op = 0x20 then
    let reg1 ← operand
    let reg2 ← operand
    check strict addr [reg1, reg2]
    modify (add · reg1 reg2)
  else if op = 0x11 then
    let reg ← operand
    let lo ← operand
    let hi ← operand
    check strict addr [reg]
    modify (store port · reg (hi.toNat * 256 + lo.toNat))
  else
    throw (.unknownOpcode addr op)

/-- One turn of the loop. -/
def turn (port : Address) (strict : Bool) : Loop Unit := do
  let addr := (← get).pc
  let op ← fetch (.pcOutOfBounds addr)
  dispatch port strict addr op

/-- A fault drops what the turn has done and leaves the program counter past the opcode, if there
is one. -/
def next (port : Address) (strict : Bool) (c : Core) : Core :=
  match (turn port strict).run c with
  | .ok ((), c') => c'
  | .error (.pcOutOfBounds addr) => { c with state := .stopped (.faulted (.pcOutOfBounds addr)) }
  | .error f => { c with pc := c.pc + 1, state := .stopped (.faulted f) }

/-- The loop, for a number of turns at most. -/
def loop (port : Address) (strict : Bool) : Nat → Core → Core
  | 0, c => c
  | n + 1, c => if c.state.IsTerminal then c else loop port strict n (next port strict c)

variable {α : Type} {c : Core} {b : UInt8} {f : Fault} {i : Instruction} {port : Address}
  {strict : Bool} {n : Nat}

lemma loop_of_isTerminal (h : c.state.IsTerminal) (n : Nat) : loop port strict n c = c := by
  rcases n with _ | n
  · rfl
  · exact if_pos h

/-! ### Fetching -/

/-- The core after some bytes have been fetched. -/
def skip (c : Core) (n : Nat) : Core := { c with pc := c.pc + UInt32.ofNat n }

lemma skip_zero (c : Core) : c.skip 0 = c := by
  have hpc : c.pc + UInt32.ofNat 0 = c.pc := UInt32.add_zero c.pc
  rw [skip, hpc]

lemma skip_succ (c : Core) (n : Nat) :
    { c.skip n with pc := (c.skip n).pc + 1 } = c.skip (n + 1) := by
  simp only [skip, UInt32.ofNat_add, UInt32.add_assoc]
  rfl

lemma toNat_skip (h : c.pc.toNat + n < 0x100000000) : (c.skip n).pc.toNat = c.pc.toNat + n := by
  rw [skip, UInt32.toNat_add, UInt32.toNat_ofNat']
  omega

/-- Nothing is fetched from past the end of memory. -/
lemma fetch_bind_none {k : UInt8 → Loop α} (h : c.memory[c.pc.toNat]? = none) :
    (fetch f >>= k).run c = .error f := by
  simp only [fetch, StateT.run_bind, StateT.run_get, pure_bind, h]
  rfl

/-- A byte that is there is passed. -/
lemma fetch_bind_some {k : UInt8 → Loop α} (hsize : c.memory.size < 0x100000000)
    (h : c.memory[c.pc.toNat + n]? = some b) :
    (fetch f >>= k).run (c.skip n) = (k b).run (c.skip (n + 1)) := by
  have hlt := (Array.getElem?_eq_some_iff.1 h).1
  have hb : (c.skip n).memory[(c.skip n).pc.toNat]? = some b := by
    rw [toNat_skip (by omega)]
    exact h
  have hfetch : (fetch f).run (c.skip n) = .ok (b, c.skip (n + 1)) := by
    simp only [fetch, StateT.run_bind, StateT.run_get, pure_bind, hb]
    rw [← skip_succ]
    rfl
  rw [StateT.run_bind, hfetch]
  rfl

/-- What fails with every byte that may come fails. -/
lemma fetch_bind_error {k : UInt8 → Loop α} (hsize : c.memory.size < 0x100000000)
    (hn : c.pc.toNat + n ≤ c.memory.size)
    (h : ∀ b, c.memory[c.pc.toNat + n]? = some b → (k b).run (c.skip (n + 1)) = .error f) :
    (fetch f >>= k).run (c.skip n) = .error f := by
  rcases hb : c.memory[c.pc.toNat + n]? with _ | b
  · refine fetch_bind_none ?_
    rw [toNat_skip (by omega)]
    exact hb
  · rw [fetch_bind_some hsize hb, h b hb]

/-! ### Instructions -/

/-- The row of an instruction in the table of opcodes. -/
def carryOut (port : Address) (c : Core) : Instruction → Core
  | .nop => c
  | .halt => c.halt
  | .load reg imm => c.load reg imm
  | .add reg1 reg2 => c.add reg1 reg2
  | .store reg addr => c.store port reg addr.toNat

/-- The opcode is passed before anything is done about it. -/
lemma turn_of_byte (hsize : c.memory.size < 0x100000000) (hb : c.memory[c.pc.toNat]? = some b) :
    (turn port strict).run c = (dispatch port strict c.pc b).run (c.skip 1) := by
  have hfetch := fetch_bind_some (n := 0) (f := .pcOutOfBounds c.pc)
    (k := dispatch port strict c.pc) hsize hb
  rw [skip_zero] at hfetch
  exact hfetch

/-- A whole instruction is fetched before it is checked and carried out. -/
lemma turn_of_holdsAt (hsize : c.memory.size < 0x100000000)
    (hi : HoldsAt c.memory c.pc.toNat i.encode) :
    (turn port strict).run c =
      (check strict c.pc i.registers >>= fun _ => modify (carryOut port · i)).run
        (c.skip i.size) := by
  obtain ⟨hop, hrest⟩ := holdsAt_cons.1 hi
  rw [turn_of_byte hsize hop]
  cases i with
  | nop => rfl
  | halt => rfl
  | load reg imm =>
    obtain ⟨hreg, hrest⟩ := holdsAt_cons.1 hrest
    obtain ⟨himm, -⟩ := holdsAt_cons.1 hrest
    exact (fetch_bind_some hsize hreg).trans (fetch_bind_some hsize himm)
  | add reg1 reg2 =>
    obtain ⟨hreg1, hrest⟩ := holdsAt_cons.1 hrest
    obtain ⟨hreg2, -⟩ := holdsAt_cons.1 hrest
    exact (fetch_bind_some hsize hreg1).trans (fetch_bind_some hsize hreg2)
  | store reg addr =>
    obtain ⟨hreg, hrest⟩ := holdsAt_cons.1 hrest
    obtain ⟨hlo, hrest⟩ := holdsAt_cons.1 hrest
    obtain ⟨hhi, -⟩ := holdsAt_cons.1 hrest
    have hcarry : (carryOut port · (.store reg addr)) = (store port · reg
        ((UInt8.ofNat (addr.toNat / 256)).toNat * 256 + (UInt8.ofNat addr.toNat).toNat)) := by
      rw [high_mul_add_low]
      rfl
    rw [hcarry]
    exact (fetch_bind_some hsize hreg).trans
      ((fetch_bind_some hsize hlo).trans (fetch_bind_some hsize hhi))

lemma check_bind {k : Unit → Loop α} {named : List UInt8} {addr : Address}
    (h : strict = true → named.find? (7 < ·) = none) : check strict addr named >>= k = k () := by
  unfold check
  split
  · rename_i hr
    have hlenient : strict ≠ true := fun hs => nomatch (h hs).symm.trans hr
    rw [if_neg hlenient, pure_bind]
  · rw [pure_bind]

/-- A turn that nothing is wrong with carries out what it has fetched. -/
lemma next_of_holdsAt (hsize : c.memory.size < 0x100000000)
    (hi : HoldsAt c.memory c.pc.toNat i.encode)
    (hallowed : strict = true → i.registers.find? (7 < ·) = none) :
    next port strict c = carryOut port (c.skip i.size) i := by
  have hturn : (turn port strict).run c = .ok ((), carryOut port (c.skip i.size) i) := by
    rw [turn_of_holdsAt hsize hi, check_bind hallowed]
    rfl
  rw [next, hturn]

/-! ### Faults -/

lemma turn_of_none (h : c.memory[c.pc.toNat]? = none) :
    (turn port strict).run c = .error (.pcOutOfBounds c.pc) :=
  fetch_bind_none (k := dispatch port strict c.pc) h

lemma dispatch_of_not_mem {op : UInt8} {addr : Address} (h : op ∉ [0x00, 0x01, 0x10, 0x11, 0x20]) :
    (dispatch port strict addr op).run c = .error (.unknownOpcode addr op) := by
  simp only [List.mem_cons, List.not_mem_nil, or_false, not_or] at h
  obtain ⟨h00, h01, h10, h11, h20⟩ := h
  unfold dispatch
  rw [if_neg h00, if_neg h01, if_neg h10, if_neg h20, if_neg h11]
  rfl

/-- At the latest the last operand is found to be missing. -/
lemma dispatch_of_short {op : Opcode} (hsize : c.memory.size < 0x100000000)
    (hb : c.memory[c.pc.toNat]? = some op.byte)
    (hshort : c.memory.size < c.pc.toNat + (1 + op.operandCount)) :
    (dispatch port strict c.pc op.byte).run (c.skip 1) = .error (.truncated c.pc op.byte) := by
  have hlt := (Array.getElem?_eq_some_iff.1 hb).1
  have hinside {b : UInt8} {k : Nat} (h : c.memory[c.pc.toNat + k]? = some b) :
      c.pc.toNat + (k + 1) ≤ c.memory.size := (Array.getElem?_eq_some_iff.1 h).1
  cases op with
  | nop | halt => exact absurd hshort (Nat.not_lt.2 hlt)
  | load | add =>
    refine fetch_bind_error hsize hlt fun reg hreg => ?_
    refine fetch_bind_error hsize (hinside hreg) fun last hlast => ?_
    exact absurd hshort (Nat.not_lt.2 (hinside hlast))
  | store =>
    refine fetch_bind_error hsize hlt fun reg hreg => ?_
    refine fetch_bind_error hsize (hinside hreg) fun lo hlo => ?_
    refine fetch_bind_error hsize (hinside hlo) fun hi hhi => ?_
    exact absurd hshort (Nat.not_lt.2 (hinside hhi))

lemma check_bind_error {k : Unit → Loop α} {named : List UInt8} {addr : Address} {r : UInt8}
    (h : named.find? (7 < ·) = some r) :
    (check true addr named >>= k).run c = .error (.invalidRegister addr r) := by
  unfold check
  rw [h]
  rfl

/-! ### What changes -/

/-- What an instruction changes in registers, memory and output. The rest stays as it is. -/
def Changes (port : Address) (c c' : Core) : Instruction → Prop
  | .nop | .halt => c'.registers = c.registers ∧ c'.memory = c.memory ∧ c'.output = c.output
  | .load reg imm =>
    (∀ (k : Nat) (hk : k < 8),
        c'.registers[k] = if k = reg.toNat then imm else c.registers[k]) ∧
      c'.memory = c.memory ∧ c'.output = c.output
  | .add reg1 reg2 =>
    (∀ (k : Nat) (hk : k < 8), c'.registers[k].toNat =
        if h : k = reg1.toNat ∧ reg2.toNat < 8 then
          (c.registers[k].toNat + c.registers[reg2.toNat].toNat) % 256
        else c.registers[k].toNat) ∧
      c'.memory = c.memory ∧ c'.output = c.output
  | .store reg addr =>
    c'.registers = c.registers ∧
      (∀ a : Nat, c'.memory[a]? =
        if h : a = addr.toNat ∧ a < c.memory.size ∧ reg.toNat < 8 then
          some c.registers[reg.toNat]
        else c.memory[a]?) ∧
      c'.output = c.output ++
        if h : addr.toNat = port.toNat ∧ reg.toNat < 8 then [c.registers[reg.toNat]]
        else []

lemma memory_load (c : Core) (reg value : UInt8) : (c.load reg value).memory = c.memory := by
  unfold load
  split <;> rfl

lemma output_load (c : Core) (reg value : UInt8) : (c.load reg value).output = c.output := by
  unfold load
  split <;> rfl

lemma getElem_load (c : Core) (reg value : UInt8) {k : Nat} (hk : k < 8) :
    (c.load reg value).registers[k] = if k = reg.toNat then value else c.registers[k] := by
  unfold load
  split
  · simp only [Vector.getElem_set, eq_comm]
  · rename_i h
    have hne : k ≠ reg.toNat := fun hreg => h (hreg ▸ hk)
    rw [if_neg hne]

lemma changes_add (port : Address) (c : Core) (reg1 reg2 : UInt8) :
    Changes port c (c.add reg1 reg2) (.add reg1 reg2) := by
  unfold add
  split
  · rename_i h
    refine ⟨fun k hk => ?_, memory_load .., output_load ..⟩
    rw [getElem_load c reg1 _ hk]
    by_cases hreg : k = reg1.toNat
    · subst hreg
      rw [if_pos rfl, dif_pos ⟨rfl, h.2⟩, UInt8.toNat_ofNat']
      exact Nat.mod_mod _ _
    · rw [if_neg hreg, dif_neg fun hc => hreg hc.1]
  · rename_i h
    refine ⟨fun k hk => ?_, rfl, rfl⟩
    have hnone : ¬ (k = reg1.toNat ∧ reg2.toNat < 8) := fun hc => h ⟨hc.1 ▸ hk, hc.2⟩
    rw [dif_neg hnone]

lemma changes_store (port : Address) (c : Core) (reg : UInt8) (addr : UInt16) :
    Changes port c (c.store port reg addr.toNat) (.store reg addr) := by
  unfold store
  split
  · rename_i h
    refine ⟨rfl, fun a => ?_, ?_⟩
    · dsimp only
      split
      · rename_i hin
        rw [Array.getElem?_set hin]
        by_cases ha : a = addr.toNat
        · rw [if_pos ha.symm, dif_pos ⟨ha, ha ▸ hin, h⟩]
        · rw [if_neg (Ne.symm ha), dif_neg fun hc => ha hc.1]
      · rename_i hout
        have hnone : ¬ (a = addr.toNat ∧ a < c.memory.size ∧ reg.toNat < 8) :=
          fun hc => hout (hc.1 ▸ hc.2.1)
        rw [dif_neg hnone]
    · dsimp only
      split
      · rename_i hport
        rw [dif_pos ⟨hport, h⟩]
      · rename_i hport
        rw [dif_neg fun hc => hport hc.1, List.append_nil]
  · rename_i h
    refine ⟨rfl, fun a => ?_, ?_⟩
    · rw [dif_neg fun hc => h hc.2.2]
    · rw [dif_neg fun hc => h hc.2, List.append_nil]

/-- **An instruction changes what the table says**, and nothing else. -/
theorem changes_carryOut (port : Address) (c : Core) (i : Instruction) :
    Changes port c (carryOut port c i) i := by
  cases i with
  | nop | halt => exact ⟨rfl, rfl, rfl⟩
  | load reg imm => exact ⟨fun k hk => c.getElem_load reg imm hk, memory_load .., output_load ..⟩
  | add reg1 reg2 => exact changes_add port c reg1 reg2
  | store reg addr => exact changes_store port c reg addr

/-- An instruction that names a register above 7 changes nothing. -/
lemma carryOut_of_beyond {q : UInt8} (hq : q ∈ i.registers) (h7 : 7 < q) :
    carryOut port c i = c := by
  have h : ¬ q.toNat < 8 := Nat.not_lt.2 h7
  cases i with
  | nop | halt => cases hq
  | load reg imm =>
    obtain rfl := List.mem_singleton.1 hq
    exact dif_neg h
  | add reg1 reg2 =>
    refine dif_neg fun hc => ?_
    obtain rfl | hq := List.mem_cons.1 hq
    · exact h hc.1
    · obtain rfl := List.mem_singleton.1 hq
      exact h hc.2
  | store reg addr =>
    obtain rfl := List.mem_singleton.1 hq
    exact dif_neg h

end Core

namespace Machine

variable {σ : Type} {m : Machine} {i : Instruction} {f : Fault}

/-! ### Machines -/

/-- What the loop would work on, after some bytes have been sent to the port. -/
def core (m : Machine) (output : List UInt8) : Core :=
  ⟨m.registers.values, m.memory.bytes, m.pc, m.state, output⟩

lemma core_begun (hlive : ¬ m.state.IsTerminal) (output : List UInt8) :
    m.begun.core output = { m.core output with state := .running } := by
  simp only [core, registers_begun, memory_begun, pc_begun, state_begun hlive]

lemma register_eq (k : Contents) {reg : UInt8} (h : reg.toNat < 8) :
    k.register reg = k.registers.values[reg.toNat] := by
  rw [Contents.register, Registers.read?, Vector.getElem?_eq_getElem h, Option.getD_some]

lemma setRegister_eq (k : Contents) {reg : UInt8} (value : UInt8) (h : reg.toNat < 8) :
    k.setRegister reg value =
      { k with registers := ⟨k.registers.values.set reg.toNat value h⟩ } := by
  rw [Contents.setRegister, Registers.write?, dif_pos h, Option.getD_some]

/-- What instructions mean for a machine is what the table says. -/
lemma carryOut_contents (k : Contents) (pc : Address) (state : State) (port : Address)
    (i : Instruction) :
    Core.carryOut port ⟨k.registers.values, k.memory.bytes, pc, state, k.output⟩ i =
      ⟨(k.apply port i).registers.values, (k.apply port i).memory.bytes, pc,
        if i = .halt then .stopped .halted else state, (k.apply port i).output⟩ := by
  by_cases hi : i.NamesRegisters
  · rw [Contents.apply, if_pos hi]
    cases i with
    | nop | halt => rfl
    | load reg imm =>
      have hreg : reg.toNat < 8 := hi reg (by simp [Instruction.registers])
      rw [Contents.carryOut, setRegister_eq k imm hreg]
      exact dif_pos hreg
    | add reg1 reg2 =>
      have hreg1 : reg1.toNat < 8 := hi reg1 (by simp [Instruction.registers])
      have hreg2 : reg2.toNat < 8 := hi reg2 (by simp [Instruction.registers])
      have hsum (a b : UInt8) : UInt8.ofNat ((a.toNat + b.toNat) % 256) = a + b := by
        apply UInt8.toNat_inj.1
        rw [UInt8.toNat_ofNat', UInt8.toNat_add]
        exact Nat.mod_mod _ _
      rw [Contents.carryOut, register_eq k hreg1, register_eq k hreg2, setRegister_eq k _ hreg1,
        ← hsum]
      exact (dif_pos ⟨hreg1, hreg2⟩).trans (dif_pos hreg1)
    | store reg addr =>
      have hreg : reg.toNat < 8 := hi reg (by simp [Instruction.registers])
      have hbytes (v : UInt8) : (k.store port addr.toUInt32 v).memory.bytes =
          if hin : addr.toNat < k.memory.bytes.size then k.memory.bytes.set addr.toNat v hin
          else k.memory.bytes := by
        rw [Contents.store_memory]
        rfl
      have hport : addr.toUInt32 = port ↔ addr.toNat = port.toNat := UInt32.toNat_inj.symm
      rw [Contents.carryOut, register_eq k hreg, hbytes]
      simp only [Contents.store, hport]
      exact dif_pos hreg
  · obtain ⟨q, hq, hbeyond⟩ : ∃ q ∈ i.registers, ¬ Registers.IsValid q := by
      simpa [Instruction.NamesRegisters] using hi
    have hhalt : i ≠ .halt := by
      rintro rfl
      cases hq
    rw [Contents.apply, if_neg hi, if_neg hhalt, Core.carryOut_of_beyond hq (Nat.not_lt.1 hbeyond)]

lemma Passes.core (h : m.Passes i) (output : List UInt8) :
    Core.carryOut m.outputPort ((m.begun.core output).skip i.size) i =
      m.step.1.core (output ++ Effect.emitted m.step.2) := by
  have hcarry := carryOut_contents (m.contents output) (m.pc + UInt32.ofNat i.size) .running
    m.outputPort i
  rw [h.apply_contents output, ← h.state] at hcarry
  rw [core_begun h.live]
  exact hcarry.trans (by rw [← h.pc]; rfl)

/-- What is wrong with the next step is wrong with the turn. -/
lemma FaultsWith.turn (h : m.FaultsWith f) {c : Core} (hmemory : c.memory = m.memory.bytes)
    (hpc : c.pc = m.pc) (port : Address) : (Core.turn port m.strict).run c = .error f := by
  have hread : c.memory[c.pc.toNat]? = m.memory.read? m.pc := by
    rw [hmemory, hpc]
    rfl
  have hsize : c.memory.size < 0x100000000 := hmemory ▸ m.memory.size_lt
  cases h with
  | outside h =>
    rw [← hpc]
    exact Core.turn_of_none (hread.trans (Array.getElem?_eq_none h))
  | unknown hb h =>
    rw [← hpc, Core.turn_of_byte hsize (hread.trans hb)]
    exact Core.dispatch_of_not_mem h
  | truncated hb h =>
    rw [Memory.size, ← hmemory, ← hpc] at h
    rw [← hpc, Core.turn_of_byte hsize (hread.trans hb)]
    exact Core.dispatch_of_short hsize (hread.trans hb) h
  | register hstrict hi hr =>
    rw [← hmemory, ← hpc] at hi
    rw [← hpc, Core.turn_of_holdsAt hsize hi, hstrict]
    exact Core.check_bind_error hr

/-- **A step is a turn of the loop**, also one that ends in a fault. -/
theorem next_core (hlive : ¬ m.state.IsTerminal) (output : List UInt8) :
    Core.next m.outputPort m.strict { m.core output with state := .running } =
      m.step.1.core (output ++ Effect.emitted m.step.2) := by
  rw [← core_begun hlive]
  have hmemory : (m.begun.core output).memory = m.memory.bytes := congrArg Memory.bytes memory_begun
  have hpc : (m.begun.core output).pc = m.pc := pc_begun
  obtain ⟨i, hi⟩ | ⟨f, hf⟩ := passes_or_refuses hlive
  · rw [← hi.core]
    refine Core.next_of_holdsAt ?_ ?_ fun hs => ?_
    · rw [hmemory]
      exact m.memory.size_lt
    · rw [hmemory, hpc]
      exact decode_eq_ok_iff.1 hi.decoded
    · rw [← Instruction.invalidRegister?_eq]
      exact hi.allowed hs
  · have hturn := ((refuses_iff hlive).1 hf).turn hmemory hpc m.outputPort
    have haddr := hf.addr
    rw [hf.emitted, List.append_nil, hf.step_fst, Core.next, hturn]
    cases f with
    | pcOutOfBounds a => rfl
    | truncated | unknownOpcode | invalidRegister =>
      dsimp only
      rw [hpc, ← haddr]
      rfl

/-- **A step agrees with the loop that fetches one byte at a time.** A machine that has not stopped
comes to the same registers, memory, program counter, state and output, also where there is a fault.
Where a complete instruction is decoded and there is none, nothing changes but what the table says,
and nothing at all if the instruction names a register above 7. -/
theorem step_bytewise (hlive : ¬ m.state.IsTerminal) (sink : Sink σ) (s : σ)
    (events : Array Event) :
    let r := m.callTo sink.recording .step ((s, []), events)
    let after := r.1.1.core r.2.1.2
    Core.next m.outputPort m.strict { m.core [] with state := .running } = after ∧
      ∀ i, decode m.memory.bytes m.pc = .ok i → (∀ f, r.1.2 ≠ .stepped (some (.faulted f))) →
        Core.Changes m.outputPort (m.core []) after i ∧
          ((∃ q ∈ i.registers, 7 < q) → after.registers = m.registers.values ∧
            after.memory = m.memory.bytes ∧ after.output = []) ∧
          ∀ reg addr, i = .store reg addr → ∃ lo hi,
            HoldsAt m.memory.bytes (m.pc.toNat + 1) [reg, lo, hi] ∧
              addr.toNat = hi.toNat * 256 + lo.toNat := by
  intro r after
  have hr : r = ((m.step.1, .stepped m.step.1.state.stop?),
      m.step.2.foldl sink.recording.deliver ((s, []), events)) :=
    congrFun (callTo_eq sink.recording m .step) _
  have hafter : after = m.step.1.core ([] ++ Effect.emitted m.step.2) := by
    dsimp only [after]
    rw [hr, ← Sink.recording_foldl sink m.step.2 ((s, []), events)]
  refine ⟨(next_core hlive []).trans hafter.symm, fun i hi hnofault => ?_⟩
  have hp : m.Passes i := by
    obtain ⟨j, hj⟩ | ⟨f, hf⟩ := passes_or_refuses hlive
    · obtain rfl := Except.ok.inj (hj.decoded.symm.trans hi)
      exact hj
    · refine absurd ?_ (hnofault f)
      rw [hr, hf.state]
      rfl
  rw [← hp.core, core_begun hlive] at hafter
  refine ⟨?_, fun ⟨q, hq, h7⟩ => ?_, ?_⟩
  · rw [hafter]
    exact Core.changes_carryOut m.outputPort _ i
  · rw [hafter, Core.carryOut_of_beyond hq h7]
    exact ⟨rfl, rfl, rfl⟩
  · rintro reg addr rfl
    obtain ⟨-, hoperands⟩ := holdsAt_cons.1 (decode_eq_ok_iff.1 hi)
    exact ⟨_, _, hoperands, (high_mul_add_low addr).symm⟩

/-- A machine whose program is one store, of a byte for the port that stands where the register of
the store is named. -/
def storingOverItself : Machine :=
  let m := Machine.ofConfig { memory := { size := 8, outputPort := 1 } }
  { m with
    memory := m.memory.load 0 #[0x11, 6, 1, 0]
    registers := ⟨m.registers.values.set 6 0xA5⟩ }

/-- An instruction may change its own operands. -/
theorem step_bytewise_storingOverItself :
    ¬ storingOverItself.state.IsTerminal ∧
      let r := storingOverItself.callTo Sink.null.recording .step (((), []), #[])
      let after := r.1.1.core r.2.1.2
      decode storingOverItself.memory.bytes 0 = .ok (.store 6 1) ∧
        (∀ f, r.1.2 ≠ .stepped (some (.faulted f))) ∧
        Core.next 1 false { storingOverItself.core [] with state := .running } = after ∧
        after.registers = storingOverItself.registers.values ∧
        after.memory[1]? = some 0xA5 ∧
        (∀ a ≠ 1, after.memory[a]? = storingOverItself.memory.bytes[a]?) ∧
        after.output = [0xA5] := by
  have hlive : ¬ storingOverItself.state.IsTerminal := by decide
  have hi : decode storingOverItself.memory.bytes 0 = .ok (.store 6 1) := by decide +kernel
  obtain ⟨hnext, hchanges⟩ := step_bytewise hlive Sink.null () #[]
  refine ⟨hlive, ?_⟩
  intro r after
  have hnofault (f : Fault) : r.1.2 ≠ .stepped (some (.faulted f)) := by
    have hgoes : r.1.1.state.stop? = none := by decide +kernel
    have hanswer : r.1.2 = .stepped r.1.1.state.stop? := rfl
    rw [hanswer, hgoes]
    exact nofun
  obtain ⟨⟨hregisters, hmemory, houtput⟩, -⟩ := hchanges _ hi hnofault
  refine ⟨hi, hnofault, hnext, hregisters, (hmemory 1).trans (by decide +kernel), fun a ha => ?_,
    houtput.trans (by decide +kernel)⟩
  exact (hmemory a).trans (dif_neg fun hc => ha hc.1)

/-! ### Runs -/

/-- **A run is the loop.** A machine that is running comes to what the loop comes to with the same
budget. -/
theorem run_bytewise (n : Nat) : ∀ {m : Machine}, m.state = .running → ∀ output : List UInt8,
    Core.loop m.outputPort m.strict n (m.core output) =
      (m.run (some n)).machine.core
        (output ++ Effect.emitted (m.run (some n)).effects.toList) := by
  induction n with
  | zero =>
    intro m _ output
    obtain ⟨hmachine, -, hemitted⟩ := m.run_zero
    rw [hmachine, hemitted, List.append_nil]
    rfl
  | succ n ih =>
    intro m hrunning output
    have hlive : ¬ m.state.IsTerminal := by
      rw [hrunning]
      exact nofun
    have hbegun : { m.core output with state := .running } = m.core output := by
      rw [← hrunning]
      rfl
    have hnext := next_core hlive output
    rw [hbegun] at hnext
    have hturn : Core.loop m.outputPort m.strict (n + 1) (m.core output) =
        Core.loop m.outputPort m.strict n (m.step.1.core (output ++ Effect.emitted m.step.2)) := by
      rw [← hnext]
      exact if_neg hlive
    have hbudget : some (n + 1) ≠ some 0 := nofun
    rw [hturn]
    rcases hs : m.step.1.state.stop? with _ | stop
    · obtain ⟨hmachine, -, hemitted⟩ := run_running hbudget hs
      have hlater := ih (running_of_goesOn hlive hs) (output ++ Effect.emitted m.step.2)
      rw [outputPort_step, strict_step] at hlater
      rw [hmachine, hemitted, ← List.append_assoc]
      exact hlater
    · obtain ⟨hmachine, -, hemitted⟩ := run_stopped hbudget hs
      rw [hmachine, hemitted]
      exact Core.loop_of_isTerminal (State.isTerminal_of_stop? hs) n

end Machine

end ByteMachine
