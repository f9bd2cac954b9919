import ByteMachine.Proofs.Codec

/-!
Programs that are loaded and listed again. Where memory ends before a program does, what is listed
is the longest front of it that has room, and the instruction in which memory ends is a fault.
-/

namespace ByteMachine

open Located

/-- The longest front of a program whose bytes have room. -/
structure LongestFront (room : Nat) (program front : List Instruction) : Prop where
  isPrefix : front <+: program
  fits : (assemble front).length ≤ room
  longest : ∀ other, other <+: program → (assemble other).length ≤ room → other <+: front

/-- Memory ends strictly inside an instruction of a program, and the fault says of which. -/
def EndsInside (size : Nat) (origin : Address) (program : List Instruction) (f : Fault) : Prop :=
  ∃ before i after a, program = before ++ i :: after ∧
    a.toNat = origin.toNat + (assemble before).length ∧ a.toNat < size ∧
    size < a.toNat + i.size ∧ f = .truncated a i.opcode.byte

/-- What is listed of a program that has been placed in a memory of some size: the longest front of
it that has room, and a fault if and only if memory ends inside the instruction after that. -/
structure ReadsBack (size : Nat) (origin : Address) (program : List Instruction)
    (code : List Located) : Prop where
  contents : ∃ front cut, LongestFront (size - origin.toNat) program front ∧
    code.map Located.content = front.map .ok ++ (Option.toList cut).map .error ∧
    ∀ f, cut = some f ↔ EndsInside size origin program f
  addr : ∀ k x, code[k]? = some x →
    x.addr.toNat = origin.toNat + ((program.take k).map Instruction.size).sum

/-- The lines of a program of which only what stands before `size` is there. -/
def locateBelow (size : Nat) : Address → List Instruction → List Located
  | _, [] => []
  | a, i :: is =>
    if a.toNat + i.size ≤ size then ⟨a, .ok i⟩ :: locateBelow size (a.advance i.size) is
    else if a.toNat < size then [⟨a, .error (.truncated a i.opcode.byte)⟩]
    else []

/-! ### Fronts of a program -/

namespace LongestFront

variable {room : Nat} {i : Instruction} {is program front : List Instruction}

/-- A program that has room is its own longest front. -/
lemma self (hfits : (assemble program).length ≤ room) : LongestFront room program program :=
  ⟨List.prefix_rfl, hfits, fun _ h _ => h⟩

lemma cons (hi : i.size ≤ room) (h : LongestFront (room - i.size) is front) :
    LongestFront room (i :: is) (i :: front) := by
  refine ⟨List.cons_prefix_cons.2 ⟨rfl, h.isPrefix⟩, ?_, fun other hother hfits => ?_⟩
  · have := h.fits
    rw [length_assemble_cons]
    omega
  · rcases other with _ | ⟨j, other⟩
    · exact List.nil_prefix
    · obtain ⟨rfl, hrest⟩ := List.cons_prefix_cons.1 hother
      rw [length_assemble_cons] at hfits
      exact List.cons_prefix_cons.2 ⟨rfl, h.longest other hrest (by omega)⟩

/-- An instruction without room leaves no front but the empty one. -/
lemma of_lt (hi : room < i.size) : LongestFront room (i :: is) [] := by
  refine ⟨List.nil_prefix, Nat.zero_le _, fun other hother hfits => ?_⟩
  rcases other with _ | ⟨j, other⟩
  · exact List.nil_prefix
  · obtain ⟨rfl, -⟩ := List.cons_prefix_cons.1 hother
    rw [length_assemble_cons] at hfits
    omega

lemma of_no_room : LongestFront 0 program [] := by
  rcases program with _ | ⟨i, is⟩
  · exact .self (Nat.le_refl _)
  · exact .of_lt i.size_pos

/-- There is one longest front. -/
lemma unique {front' : List Instruction} (h : LongestFront room program front)
    (h' : LongestFront room program front') : front = front' := by
  have hle := h'.longest front h.isPrefix h.fits
  have hge := h.longest front' h'.isPrefix h'.fits
  exact hle.eq_of_length_le hge.length_le

end LongestFront

/-! ### The instruction in which memory ends -/

section EndsInside

variable {size : Nat} {a : Address} {i : Instruction} {is : List Instruction} {f : Fault}

lemma not_endsInside_nil : ¬ EndsInside size a [] f := by
  rintro ⟨before, i, after, b, h, -⟩
  simp at h

/-- The first instruction is there as a whole, so memory ends later. -/
lemma endsInside_cons_of_le (hsize : size < 0x100000000) (hi : a.toNat + i.size ≤ size) :
    EndsInside size a (i :: is) f ↔ EndsInside size (a.advance i.size) is f := by
  have hto : (a.advance i.size).toNat = a.toNat + i.size :=
    Address.toNat_advance_of_lt (by omega)
  constructor
  · rintro ⟨before, j, after, b, hprogram, haddr, hlt, hin, hf⟩
    rcases before with _ | ⟨k, before⟩
    · obtain ⟨rfl, -⟩ := List.cons.inj hprogram
      rw [assemble_nil, List.length_nil] at haddr
      omega
    · obtain ⟨rfl, rfl⟩ := List.cons.inj hprogram
      rw [length_assemble_cons] at haddr
      exact ⟨before, j, after, b, rfl, by omega, hlt, hin, hf⟩
  · rintro ⟨before, j, after, b, rfl, haddr, hlt, hin, hf⟩
    refine ⟨i :: before, j, after, b, rfl, ?_, hlt, hin, hf⟩
    rw [length_assemble_cons]
    omega

/-- The first instruction is not there as a whole, so memory ends in it or before it. -/
lemma endsInside_cons_of_lt (hi : size < a.toNat + i.size) :
    EndsInside size a (i :: is) f ↔ a.toNat < size ∧ f = .truncated a i.opcode.byte := by
  constructor
  · rintro ⟨before, j, after, b, hprogram, haddr, hlt, -, hf⟩
    rcases before with _ | ⟨k, before⟩
    · obtain ⟨rfl, -⟩ := List.cons.inj hprogram
      obtain rfl : b = a := UInt32.toNat_inj.1 haddr
      exact ⟨hlt, hf⟩
    · obtain ⟨rfl, -⟩ := List.cons.inj hprogram
      rw [length_assemble_cons] at haddr
      omega
  · rintro ⟨hlt, hf⟩
    exact ⟨[], i, is, a, rfl, rfl, hlt, hi, hf⟩

end EndsInside

/-! ### What is listed -/

/-- An instruction that is cut off is a fault of its opcode. -/
lemma decode_of_lt {bytes : Array UInt8} {a : Address} {i : Instruction}
    (hb : bytes[a.toNat]? = some i.opcode.byte) (hlt : bytes.size < a.toNat + i.size) :
    decode bytes a = .error (.truncated a i.opcode.byte) := by
  have hnone : slice? bytes (a.toNat + 1) i.opcode.operandCount = none := by
    rw [← Option.not_isSome_iff_eq_none, isSome_slice?]
    rw [Instruction.size] at hlt
    omega
  unfold decode
  simp only [hb, Opcode.ofByte?_byte, hnone]

/-- A program of which a front stands at the end of the bytes is listed as far as they go. -/
lemma decodeRange_eq_locateBelow {bytes : Array UInt8} {stop : Address}
    (hsize : bytes.size < 0x100000000) {program : List Instruction} : ∀ {a : Address},
    HoldsAt bytes a.toNat ((assemble program).take (bytes.size - a.toNat)) →
      stop.toNat = a.toNat + min (assemble program).length (bytes.size - a.toNat) →
      (decodeRange bytes a stop).toList = locateBelow bytes.size a program := by
  induction program with
  | nil =>
    intro a _ hstop
    have hle : stop.toNat = a.toNat := by simpa using hstop
    rw [locateBelow, decodeRange_of_le hle.le]
  | cons i is ih =>
    intro a hheld hstop
    have hpos := i.size_pos
    rw [length_assemble_cons] at hstop
    rw [assemble_cons, List.take_append, Instruction.length_encode] at hheld
    by_cases hi : a.toNat + i.size ≤ bytes.size
    · have hto : (a.advance i.size).toNat = a.toNat + i.size :=
        Address.toNat_advance_of_lt (by omega)
      have hlt : a < stop := UInt32.lt_iff_toNat_lt.2 (by omega)
      have hwhole : i.encode.take (bytes.size - a.toNat) = i.encode :=
        List.take_of_length_le (by rw [Instruction.length_encode]; omega)
      rw [hwhole, holdsAt_append, Instruction.length_encode, Nat.sub_sub] at hheld
      have hrest := ih (a := a.advance i.size) (by rw [hto]; exact hheld.2) (by rw [hto]; omega)
      rw [decodeRange_eq, if_pos hlt, decode_eq_ok_iff.2 hheld.1, locateBelow, if_pos hi]
      dsimp only
      rw [Array.toList_append, hrest]
      rfl
    · rw [locateBelow, if_neg hi]
      by_cases hin : a.toNat < bytes.size
      · have hlt : a < stop := UInt32.lt_iff_toNat_lt.2 (by omega)
        obtain ⟨room, hroom⟩ : ∃ room, bytes.size - a.toNat = room + 1 :=
          ⟨bytes.size - a.toNat - 1, by omega⟩
        rw [Instruction.encode, hroom, List.take_succ_cons, List.cons_append, holdsAt_cons]
          at hheld
        rw [decodeRange_eq, if_pos hlt, decode_of_lt hheld.1 (by omega), if_pos hin]
      · rw [if_neg hin, decodeRange_of_le (by omega)]

/-! ### What the lines are -/

lemma contents_locateBelow {size : Nat} (hsize : size < 0x100000000)
    (program : List Instruction) : ∀ a : Address, ∃ front cut,
      LongestFront (size - a.toNat) program front ∧
      (locateBelow size a program).map Located.content =
        front.map .ok ++ (Option.toList cut).map .error ∧
      ∀ f, cut = some f ↔ EndsInside size a program f := by
  induction program with
  | nil =>
    intro a
    refine ⟨[], none, .self (Nat.zero_le _), rfl, fun f => ⟨nofun, fun h => ?_⟩⟩
    exact absurd h not_endsInside_nil
  | cons i is ih =>
    intro a
    by_cases hi : a.toNat + i.size ≤ size
    · have hto : (a.advance i.size).toNat = a.toNat + i.size :=
        Address.toNat_advance_of_lt (by omega)
      obtain ⟨front, cut, hfront, hcode, hcut⟩ := ih (a.advance i.size)
      rw [hto, ← Nat.sub_sub] at hfront
      refine ⟨i :: front, cut, hfront.cons (by omega), ?_, fun f => ?_⟩
      · rw [locateBelow, if_pos hi, List.map_cons, hcode]
        rfl
      · rw [hcut, endsInside_cons_of_le hsize hi]
    · have hpos := i.size_pos
      have hnone : LongestFront (size - a.toNat) (i :: is) [] := .of_lt (by omega)
      rw [locateBelow, if_neg hi]
      simp only [endsInside_cons_of_lt (Nat.lt_of_not_le hi)]
      by_cases hin : a.toNat < size
      · refine ⟨[], some (.truncated a i.opcode.byte), hnone, ?_, fun f => ?_⟩
        · rw [if_pos hin]
          rfl
        · rw [Option.some.injEq, eq_comm]
          exact (and_iff_right hin).symm
      · refine ⟨[], none, hnone, ?_, fun f => ⟨nofun, fun h => absurd h.1 hin⟩⟩
        rw [if_neg hin]
        rfl

lemma addr_locateBelow {size : Nat} (hsize : size < 0x100000000) {program : List Instruction}
    {x : Located} : ∀ {k : Nat} {a : Address}, (locateBelow size a program)[k]? = some x →
      x.addr.toNat = a.toNat + ((program.take k).map Instruction.size).sum := by
  induction program with
  | nil => exact fun h => absurd h nofun
  | cons i is ih =>
    intro k a h
    rw [locateBelow] at h
    by_cases hi : a.toNat + i.size ≤ size
    · have hto : (a.advance i.size).toNat = a.toNat + i.size :=
        Address.toNat_advance_of_lt (by omega)
      rw [if_pos hi] at h
      rcases k with _ | k
      · cases h
        rfl
      · have haddr := ih (a := a.advance i.size) h
        rw [haddr, hto, List.take_succ_cons, List.map_cons, List.sum_cons, Nat.add_assoc]
    · rw [if_neg hi] at h
      split at h
      · rcases k with _ | k
        · cases h
          rfl
        · cases h
      · cases h

lemma readsBack_locateBelow {size : Nat} (hsize : size < 0x100000000) (origin : Address)
    (program : List Instruction) :
    ReadsBack size origin program (locateBelow size origin program) :=
  ⟨contents_locateBelow hsize program origin, fun _ _ h => addr_locateBelow hsize h⟩

namespace ReadsBack

variable {size : Nat} {origin : Address} {program : List Instruction} {code : List Located}

/-- A program that has room is listed as it is. -/
lemma content_of_fits (h : ReadsBack size origin program code)
    (hfits : (assemble program).length ≤ size - origin.toNat) :
    code.map Located.content = program.map .ok := by
  obtain ⟨front, cut, hfront, hcode, hcut⟩ := h.contents
  obtain rfl := hfront.unique (.self hfits)
  rcases cut with _ | f
  · rw [hcode]
    exact List.append_nil _
  · obtain ⟨before, i, after, a, rfl, haddr, hlt, hin, -⟩ := (hcut f).1 rfl
    rw [assemble_append, List.length_append, length_assemble_cons] at hfits
    omega

/-- Nothing is listed of a program that stands past the end. -/
lemma eq_nil_of_le (h : ReadsBack size origin program code) (hle : size ≤ origin.toNat) :
    code = [] := by
  obtain ⟨front, cut, hfront, hcode, hcut⟩ := h.contents
  rw [Nat.sub_eq_zero_of_le hle] at hfront
  obtain rfl := hfront.unique .of_no_room
  rcases cut with _ | f
  · exact List.map_eq_nil_iff.1 hcode
  · obtain ⟨before, i, after, a, -, haddr, hlt, -⟩ := (hcut f).1 rfl
    omega

end ReadsBack

/-! ### From the image to the listing -/

/-- What a program leaves in memory and how far it goes, also if it is longer than a header can
tell. -/
lemma install_ofProgram {m : Machine} (hsize : m.memory.size ≤ Config.maxMemorySize)
    (origin : Address) (program : List Instruction) :
    ∃ i, m.install (Image.ofProgram origin program).encode.toArray = .ok i ∧
      i.loaded.entry = origin ∧ i.machine.memory.size = m.memory.size ∧
      HoldsAt i.machine.memory.bytes origin.toNat
        ((assemble program).take (m.memory.size - origin.toNat)) ∧
      i.loaded.stop.toNat =
        origin.toNat + min (assemble program).length (m.memory.size - origin.toNat) := by
  obtain ⟨n, hn⟩ : ∃ n, n = (Image.ofProgram origin program).header.bodySize := ⟨_, rfl⟩
  have hbody : n = min (assemble program).length (0xffffffff - Header.size) :=
    hn.trans (Header.bodySize_ofBody_eq_min origin origin _)
  have hreset : m.reset.memory.size = m.memory.size := m.memory.size_clear
  rw [Config.maxMemorySize] at hsize
  rw [Header.size] at hbody
  refine ⟨_, m.install_encode_take (Header.isSigned_ofBody ..), rfl, ?_, ?_, ?_⟩
  · exact (Memory.size_load ..).trans hreset
  · have hheld := m.reset.memory.holdsAt_load_take origin ((assemble program).take n)
    have htake : ((assemble program).take n).take (m.memory.size - origin.toNat) =
        (assemble program).take (m.memory.size - origin.toNat) := by
      rw [List.take_take, List.take_eq_take_iff]
      omega
    rw [hreset, htake, hn] at hheld
    exact hheld
  · change (Address.advance origin
      (m.reset.memory.room origin ((assemble program).take _).toArray.size)).toNat = _
    have hlt := origin.toNat_lt
    rw [Address.toNat_advance, Memory.room, hreset, List.size_toArray, List.length_take, ← hn,
      hbody]
    omega

/-- **A program loads back as itself, up to clipping.** Its image is installed, and from the entry
point to the last byte copied there stands the longest front of it that has room. An instruction in
which memory ends is a fault after that, and there is no other. So a program that has room is listed
as it is, and of one that stands past the end nothing is listed. -/
theorem Machine.install_reads_back {c : Config} (hc : c.IsValid) {m : Machine}
    (hm : m.memory.size = c.memory.size) (origin : Address) (program : List Instruction) :
    ∃ i, m.install (Image.ofProgram origin program).encode.toArray = .ok i ∧
      let code := (decodeRange i.machine.memory.bytes i.loaded.entry i.loaded.stop).toList
      ReadsBack c.memory.size origin program code ∧
      ((assemble program).length ≤ c.memory.size - origin.toNat →
        code.map Located.content = program.map .ok) ∧
      (c.memory.size ≤ origin.toNat → code = []) := by
  have hmax : m.memory.size ≤ Config.maxMemorySize := Nat.le_trans (Nat.le_of_eq hm) hc.size_le
  obtain ⟨i, hi, hentry, hsize, hheld, hstop⟩ := install_ofProgram hmax origin program
  rw [← hm]
  rw [← hsize] at hheld hstop
  refine ⟨i, hi, ?_⟩
  intro code
  have hcode : code = locateBelow m.memory.size origin program := by
    rw [← hsize]
    dsimp only [code]
    rw [hentry]
    exact decodeRange_eq_locateBelow i.machine.memory.size_lt hheld hstop
  have hback : ReadsBack m.memory.size origin program code := by
    rw [hcode]
    exact readsBack_locateBelow m.memory.size_lt origin program
  exact ⟨hback, hback.content_of_fits, hback.eq_nil_of_le⟩

/-- Memory that ends inside a store. -/
theorem Machine.install_reads_back_cut :
    let c : Config := { memory := { size := 8, outputPort := 0 } }
    let program : List Instruction := [.load 0 1, .store 0 3, .halt]
    c.IsValid ∧ (ofConfig c).memory.size = c.memory.size ∧
      ∃ i, (ofConfig c).install (Image.ofProgram 2 program).encode.toArray = .ok i ∧
        (decodeRange i.machine.memory.bytes i.loaded.entry i.loaded.stop).toList.map
          Located.content = [.ok (.load 0 1), .error (.truncated 5 0x11)] := by
  intro c program
  have hc : c.IsValid := ⟨by decide, by decide, by decide⟩
  have hm : (ofConfig c).memory.size = c.memory.size := by decide
  obtain ⟨i, hi, hback, -⟩ := install_reads_back hc hm 2 program
  obtain ⟨front, cut, hfront, hcode, hcut⟩ := hback.contents
  have hcutAt : cut = some (.truncated 5 0x11) :=
    (hcut _).2 ⟨[.load 0 1], .store 0 3, [.halt], 5, rfl, by decide, by decide, by decide, rfl⟩
  have hwhole : LongestFront (c.memory.size - (2 : Address).toNat) program [.load 0 1] :=
    .cons (by decide) (.of_lt (by decide))
  rw [hfront.unique hwhole, hcutAt] at hcode
  exact ⟨hc, hm, i, hi, hcode⟩

end ByteMachine
