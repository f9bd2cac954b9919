import ByteMachine.Proofs.ListingText
import ByteMachine.Proofs.Placement

/-!
What never has to be made up for. Where two tables or two bounds do not fit each other, decoding, a
step, a listing and an installation go on with something plausible: an opcode that is known is
reported as unknown, a register keeps its value, a column of bytes stays empty, and so does a body.
Here each of them gets stuck there instead. None of them ever is, and all come to the same.
-/

namespace ByteMachine

open Located

/-- The bytes from `start` up to `stop`, if these are in order and within. -/
def range? (bytes : Array UInt8) (start stop : Nat) : Option (Array UInt8) :=
  if start ≤ stop ∧ stop ≤ bytes.size then some (bytes.extract start stop) else none

/-- Stuck where the operands that are there do not fit the opcode. -/
def decode? (bytes : Array UInt8) (addr : Address) : Option (Except Fault Instruction) :=
  match bytes[addr.toNat]? with
  | none => some (.error (.pcOutOfBounds addr))
  | some b =>
    match Opcode.ofByte? b with
    | none => some (.error (.unknownOpcode addr b))
    | some op =>
      match slice? bytes (addr.toNat + 1) op.operandCount with
      | none => some (.error (.truncated addr b))
      | some operands => (Instruction.ofOperands? op operands.toList).map .ok

/-- Stuck where the bytes of an instruction are not there. -/
def Located.line? (bytes : Array UInt8) (x : Located) : Option String :=
  match x.content with
  | .ok i => do
    let raw ← slice? bytes x.addr.toNat i.size
    let column := padded bytesWidth (String.join (raw.toList.map fun b => Hex.byte b ++ " "))
    return Hex.lower 4 x.addr.toNat ++ ":  " ++ (column ++ " " ++ i.mnemonic)
  | .error _ => some (x.line bytes)

def listing? (bytes : Array UInt8) (start stop : Address) : Option (List String) :=
  (decodeRange bytes start stop).toList.mapM (line? bytes)

namespace Machine

/-- Stuck where the index names no register. -/
def setRegister? (m : Machine) (index value : UInt8) : Option Machine := do
  let registers ← m.registers.write? index value
  return { m with registers }

/-- Stuck where a register cannot be read or written. -/
def perform? (m : Machine) (addr : Address) : Instruction → Option (Machine × List Effect)
  | .nop => some (m.perform addr .nop)
  | .halt => some (m.perform addr .halt)
  | .load reg value => do
    let m ← m.setRegister? reg value
    return (m, [])
  | .add target source => do
    let a ← m.registers.read? target
    let b ← m.registers.read? source
    let m ← m.setRegister? target (a + b)
    return (m, [])
  | .store source target => do
    let value ← m.registers.read? source
    return m.store target.toUInt32 value

/-- Only an instruction that names no invalid register gets at the registers. -/
def execute? (m : Machine) (i : Instruction) : Option (Machine × List Effect) :=
  match i.invalidRegister? with
  | none => (m.retire i).perform? m.pc i
  | some _ => some (m.execute i)

def cycle? (m : Machine) : Option (Machine × List Effect) := do
  match ← decode? m.memory.bytes m.pc with
  | .error f => return m.fail f
  | .ok i =>
    let (next, effects) ← m.execute? i
    return (next, m.announced i ++ effects)

def step? (m : Machine) : Option (Machine × List Effect) :=
  match m.state with
  | .ready => m.start.cycle?
  | .running => m.cycle?
  | .stopped _ => some (m, [])

/-- Stuck where the body that is announced is no range of the file. -/
def install? (m : Machine) (file : Array UInt8) : Option (Except LoadError Installation) :=
  match Header.ofFile file with
  | .error e => some (.error e)
  | .ok h =>
    if h.IsSigned then do
      let body ← range? file Header.size (min (Header.size + h.bodySize) file.size)
      return .ok (m.place h body)
    else some (.error (.invalidSignature h.signature))

end Machine

/-! ### Decoding -/

/-- **The operands that an opcode takes always fit it.** -/
theorem decode?_eq (bytes : Array UInt8) (addr : Address) :
    decode? bytes addr = some (decode bytes addr) := by
  unfold decode? decode
  rcases bytes[addr.toNat]? with _ | b
  · rfl
  · rcases hop : Opcode.ofByte? b with _ | op
    · simp only [hop]
    · rcases hs : slice? bytes (addr.toNat + 1) op.operandCount with _ | operands
      · simp only [hop, hs]
      · have hlen : operands.toList.length = op.operandCount := size_of_slice? hs
        obtain ⟨i, hi⟩ := Option.isSome_iff_exists.1 (Instruction.isSome_ofOperands? hlen)
        simp only [hop, hs, hi, Option.map_some]

/-- A byte is reported as unknown only if no opcode has it. -/
lemma decode_eq_unknownOpcode_iff {bytes : Array UInt8} {addr : Address} {b : UInt8} :
    decode bytes addr = .error (.unknownOpcode addr b) ↔
      bytes[addr.toNat]? = some b ∧ Opcode.ofByte? b = none := by
  rw [decode_eq_error_iff]
  constructor
  · rintro (⟨-, hf⟩ | ⟨b', hb, ⟨hop, hf⟩ | ⟨op, -, -, hf⟩⟩)
    · cases hf
    · cases hf
      exact ⟨hb, hop⟩
    · cases hf
  · rintro ⟨hb, hop⟩
    exact Or.inr ⟨b, hb, Or.inl ⟨hop, rfl⟩⟩

/-! ### Steps -/

namespace Machine

variable {m : Machine} {i : Instruction}

lemma setRegister?_eq (m : Machine) {index : UInt8} (h : Registers.IsValid index)
    (value : UInt8) : m.setRegister? index value = some (m.setRegister index value) := by
  have hsome : (m.registers.write? index value).isSome := Registers.isSome_write?.2 h
  obtain ⟨registers, hwrite⟩ := Option.isSome_iff_exists.1 hsome
  rw [setRegister?, setRegister, hwrite]
  rfl

/-- **Registers that an instruction may name can be read and written.** -/
theorem perform?_eq (m : Machine) (addr : Address) (hi : i.invalidRegister? = none) :
    m.perform? addr i = some (m.perform addr i) := by
  have hv : ∀ r ∈ i.registers, Registers.IsValid r := Instruction.invalidRegister?_eq_none.1 hi
  cases i with
  | nop => rfl
  | halt => rfl
  | load reg value =>
    rw [perform?, m.setRegister?_eq (hv reg List.mem_cons_self)]
    rfl
  | add target source =>
    have htarget := hv target List.mem_cons_self
    have hsource := hv source (List.mem_cons_of_mem _ List.mem_cons_self)
    obtain ⟨a, ha⟩ := m.registers.exists_read? htarget
    obtain ⟨b, hb⟩ := m.registers.exists_read? hsource
    simp only [perform?, perform, ha, hb, m.setRegister?_eq htarget]
    rfl
  | store source target =>
    obtain ⟨value, hvalue⟩ := m.registers.exists_read? (hv source List.mem_cons_self)
    simp only [perform?, perform, hvalue]
    rfl

lemma execute?_eq (m : Machine) (i : Instruction) : m.execute? i = some (m.execute i) := by
  unfold execute?
  split
  · rename_i hi
    rw [perform?_eq _ _ hi, execute, hi]
  · rfl

lemma cycle?_eq (m : Machine) : m.cycle? = some m.cycle := by
  rw [cycle?, decode?_eq, cycle]
  rcases decode m.memory.bytes m.pc with f | i
  · rfl
  · simp only [Option.bind_eq_bind, Option.bind_some, execute?_eq]
    rfl

/-- **No step gets stuck.** -/
theorem step?_eq (m : Machine) : m.step? = some m.step := by
  rcases hs : m.state with _ | _ | stop
  · simp only [step?, step, hs, cycle?_eq]
  · simp only [step?, step, hs, cycle?_eq]
  · simp only [step?, step, hs]

end Machine

/-! ### Listings -/

lemma Located.line?_eq {bytes : Array UInt8} {x : Located} (hx : decode bytes x.addr = x.content) :
    x.line? bytes = some (x.line bytes) := by
  obtain ⟨addr, f | i⟩ := x
  · rfl
  · simp only [line?, line, slice?_of_decode hx]
    rfl

/-- **The bytes of an instruction are there to be listed.** -/
theorem listing?_eq (bytes : Array UInt8) (start stop : Address) :
    listing? bytes start stop = some (listing bytes start stop) := by
  have hwalk := walk_decodeRange bytes start stop
  exact mapM_eq_some_map fun x hx => line?_eq (hwalk.decode_of_mem hx)

/-! ### Bodies -/

lemma Header.size_le_of_ofFile {file : Array UInt8} {h : Header} (hh : ofFile file = .ok h) :
    size ≤ file.size := by
  by_contra hlt
  rw [ofFile_of_lt (Nat.not_le.1 hlt)] at hh
  cases hh

/-- **A body ends within its file**, and not before the header does. -/
theorem range?_body {file : Array UInt8} {h : Header} (hh : Header.ofFile file = .ok h) :
    range? file Header.size (min (Header.size + h.bodySize) file.size) =
        some (Machine.bodyOf file h) ∧
      (Machine.bodyOf file h).size = min h.bodySize (file.size - Header.size) := by
  have hsize := Header.size_le_of_ofFile hh
  have hslice : slice? file Header.size (min h.bodySize (file.size - Header.size)) =
      some (file.extract Header.size (min (Header.size + h.bodySize) file.size)) := by
    refine slice?_eq_some_iff.2 ⟨by omega, ?_⟩
    congr 1
    omega
  have hbody : Machine.bodyOf file h =
      file.extract Header.size (min (Header.size + h.bodySize) file.size) := by
    rw [Machine.bodyOf, hslice, Option.getD_some]
  rw [hbody]
  exact ⟨if_pos ⟨by omega, by omega⟩, size_of_slice? hslice⟩

lemma Machine.install?_eq (m : Machine) (file : Array UInt8) :
    m.install? file = some (m.install file) := by
  unfold install? install
  rcases hh : Header.ofFile file with e | h
  · rfl
  · dsimp only
    split
    · rw [(range?_body hh).1]
      rfl
    · rfl

/-- **Nothing has to be made up for.** Whatever the bytes, the machine and the file are, decoding, a
step, a listing and an installation come to what they would come to if they got stuck instead. So
an opcode that is known is never reported as unknown, and the registers that a step gets at are
there. The bytes of an instruction that is listed are there too, as many as it is encoded in; and
so is the body of a file with a header, from there up to its announced end or that of the file. -/
theorem never_stuck (bytes : Array UInt8) (addr start stop : Address) (m : Machine)
    (file : Array UInt8) :
    (decode? bytes addr = some (decode bytes addr) ∧
      ∀ b, decode bytes addr = .error (.unknownOpcode addr b) ↔
        bytes[addr.toNat]? = some b ∧ Opcode.ofByte? b = none) ∧
    m.step? = some m.step ∧
    (listing? bytes start stop = some (listing bytes start stop) ∧
      ∀ x ∈ (decodeRange bytes start stop).toList, ∀ i, x.content = .ok i →
        ∃ raw, slice? bytes x.addr.toNat i.size = some raw ∧ raw.size = i.size ∧
          raw.toList = i.encode) ∧
    m.install? file = some (m.install file) ∧
      ∀ h, Header.ofFile file = .ok h →
        ∃ body, range? file Header.size (min (Header.size + h.bodySize) file.size) = some body ∧
          body.size = min h.bodySize (file.size - Header.size) := by
  refine ⟨⟨decode?_eq bytes addr, fun b => decode_eq_unknownOpcode_iff⟩, m.step?_eq,
    ⟨listing?_eq bytes start stop, fun x hx i hi => ?_⟩, m.install?_eq file, fun h hh => ?_⟩
  · have hdecoded := (walk_decodeRange bytes start stop).decode_of_mem hx
    exact ⟨_, slice?_of_decode (hdecoded.trans hi), i.length_encode, rfl⟩
  · obtain ⟨hbody, hsize⟩ := range?_body hh
    exact ⟨_, hbody, hsize⟩

/-- A store that fills memory, and an image that is shorter than it announces. -/
theorem never_stuck_store :
    let bytes : Array UInt8 := #[0x11, 1, 4, 0]
    let h := Header.ofBody 0 0 3
    let file := (h.encode ++ [7, 8]).toArray
    (∃ x ∈ (decodeRange bytes 0 4).toList, x.content = .ok (.store 1 4) ∧
      ∃ raw, slice? bytes x.addr.toNat 4 = some raw ∧ raw.toList = [0x11, 1, 4, 0]) ∧
    Header.ofFile file = .ok h ∧ ∃ body, range? file 28 30 = some body ∧ body.size = 2 := by
  intro bytes h file
  obtain ⟨-, -, ⟨-, hraw⟩, -, hbody⟩ := never_stuck bytes 0 0 4 (.ofConfig {}) file
  have hx : (⟨0, .ok (.store 1 4)⟩ : Located) ∈ (decodeRange bytes 0 4).toList := by
    have hd : decode bytes 0 = .ok (.store 1 4) := rfl
    rw [decodeRange_eq, if_pos (by decide), hd, Array.toList_append]
    exact List.mem_cons_self
  have hh : Header.ofFile file = .ok h := Header.ofFile_encode h [7, 8]
  obtain ⟨raw, hslice, -, hencode⟩ := hraw _ hx _ rfl
  obtain ⟨body, hrange, hsize⟩ := hbody h hh
  exact ⟨⟨_, hx, rfl, raw, hslice, hencode⟩, hh, body, hrange, hsize⟩

end ByteMachine
