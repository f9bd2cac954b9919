import Mathlib.Data.List.Basic
import Mathlib.Tactic.Common
import Mathlib.Tactic.SplitIfs
import ByteMachine.Decode

/-!
What decoding reads. An instruction is decoded at an address exactly when its encoding stands
there; a fault depends on the opcode byte and on the number of bytes alone.
-/

namespace ByteMachine

/-- The bytes `xs` stand at `start`. -/
def HoldsAt (bytes : Array UInt8) (start : Nat) (xs : List UInt8) : Prop :=
  ∀ k < xs.length, bytes[start + k]? = xs[k]?

lemma holdsAt_nil (bytes : Array UInt8) (start : Nat) : HoldsAt bytes start [] := by
  simp [HoldsAt]

lemma holdsAt_cons {bytes : Array UInt8} {start : Nat} {x : UInt8} {xs : List UInt8} :
    HoldsAt bytes start (x :: xs) ↔ bytes[start]? = some x ∧ HoldsAt bytes (start + 1) xs := by
  constructor
  · intro h
    refine ⟨h 0 (by simp), fun k hk => ?_⟩
    have := h (k + 1) (by simpa using hk)
    rwa [← Nat.add_assoc, Nat.add_right_comm] at this
  · rintro ⟨h0, h⟩ k hk
    rcases k with _ | k
    · exact h0
    · rw [← Nat.add_assoc, Nat.add_right_comm]
      exact h k (by simpa using hk)

lemma holdsAt_append {bytes : Array UInt8} {start : Nat} {xs ys : List UInt8} :
    HoldsAt bytes start (xs ++ ys) ↔
      HoldsAt bytes start xs ∧ HoldsAt bytes (start + xs.length) ys := by
  induction xs generalizing start with
  | nil => simp [holdsAt_nil]
  | cons x xs ih =>
    have hlen : start + (x :: xs).length = start + 1 + xs.length := by
      rw [List.length_cons]; omega
    rw [List.cons_append, holdsAt_cons, holdsAt_cons, ih, hlen, and_assoc]

lemma HoldsAt.le_size {bytes : Array UInt8} {start : Nat} {xs : List UInt8}
    (h : HoldsAt bytes start xs) (hx : xs ≠ []) : start + xs.length ≤ bytes.size := by
  have hpos := List.length_pos_of_ne_nil hx
  have hlast := h (xs.length - 1) (by omega)
  rw [List.getElem?_eq_getElem (by omega)] at hlast
  have := (Array.getElem?_eq_some_iff.1 hlast).1
  omega

/-- Bytes that stand somewhere are the stretch of their length. -/
lemma HoldsAt.extract_eq {bytes : Array UInt8} {start : Nat} {xs : List UInt8}
    (h : HoldsAt bytes start xs) : bytes.extract start (start + xs.length) = xs.toArray := by
  refine Array.ext_getElem? fun k => ?_
  simp only [Array.getElem?_extract, List.getElem?_toArray]
  by_cases hk : k < xs.length
  · have hx : xs ≠ [] := List.length_pos_iff.1 (by omega)
    have hle := h.le_size hx
    rw [if_pos (by omega), h k hk]
  · rw [if_neg (by omega), List.getElem?_eq_none (by omega)]

lemma holdsAt_extract (bytes : Array UInt8) (start stop : Nat) :
    HoldsAt bytes start (bytes.extract start stop).toList := by
  intro k hk
  rw [Array.length_toList, Array.size_extract] at hk
  rw [Array.getElem?_toList, Array.getElem?_extract, if_pos hk]

namespace Instruction

lemma isSome_ofOperands? {op : Opcode} {xs : List UInt8} (h : xs.length = op.operandCount) :
    (ofOperands? op xs).isSome := by
  cases op with
  | nop => obtain rfl := List.length_eq_zero_iff.1 h; rfl
  | halt => obtain rfl := List.length_eq_zero_iff.1 h; rfl
  | load => obtain ⟨a, b, rfl⟩ := List.length_eq_two.1 h; rfl
  | add => obtain ⟨a, b, rfl⟩ := List.length_eq_two.1 h; rfl
  | store => obtain ⟨a, b, c, rfl⟩ := List.length_eq_three.1 h; rfl

/-- Operands are read back as they are written. -/
lemma operands_of_ofOperands? {op : Opcode} {xs : List UInt8} {i : Instruction}
    (h : ofOperands? op xs = some i) : i.opcode = op ∧ i.operands = xs := by
  unfold ofOperands? at h
  split at h <;> cases h
  case h_5 source lo hi =>
    refine ⟨rfl, ?_⟩
    have hlt := LittleEndian.decode_lt [lo, hi]
    rw [List.length_cons, List.length_singleton] at hlt
    have hto : (UInt16.ofNat (LittleEndian.decode [lo, hi])).toNat =
        LittleEndian.decode [lo, hi] := by
      rw [UInt16.toNat_ofNat']
      exact Nat.mod_eq_of_lt hlt
    have henc := LittleEndian.encode_decode [lo, hi]
    rw [operands, hto]
    exact congrArg (source :: ·) henc
  all_goals exact ⟨rfl, rfl⟩

end Instruction

/-- **An instruction is decoded where its encoding stands**, and nowhere else. -/
theorem decode_eq_ok_iff {bytes : Array UInt8} {addr : Address} {i : Instruction} :
    decode bytes addr = .ok i ↔ HoldsAt bytes addr.toNat i.encode := by
  rw [Instruction.encode, holdsAt_cons]
  constructor
  · intro h
    unfold decode at h
    repeat' split at h
    all_goals try cases h
    rename_i b hb _ op hop _ xs hs _ hi
    obtain ⟨rfl, hx⟩ := Instruction.operands_of_ofOperands? hi
    obtain ⟨hle, rfl⟩ := slice?_eq_some_iff.1 hs
    rw [Opcode.byte_of_ofByte? hop, hx]
    exact ⟨hb, holdsAt_extract bytes _ _⟩
  · rintro ⟨hb, hx⟩
    have hslice : slice? bytes (addr.toNat + 1) i.opcode.operandCount =
        some i.operands.toArray := by
      rw [slice?_eq_some_iff, ← i.length_operands]
      refine ⟨?_, hx.extract_eq⟩
      by_cases hnil : i.operands = []
      · have := (Array.getElem?_eq_some_iff.1 hb).1
        rw [hnil, List.length_nil]
        omega
      · exact hx.le_size hnil
    unfold decode
    simp only [hb, Opcode.ofByte?_byte, hslice, Instruction.ofOperands?_operands]

/-- The bytes of an instruction that is decoded are there. -/
lemma slice?_of_decode {bytes : Array UInt8} {addr : Address} {i : Instruction}
    (h : decode bytes addr = .ok i) :
    slice? bytes addr.toNat i.size = some i.encode.toArray := by
  have hextract := (decode_eq_ok_iff.1 h).extract_eq
  rw [Instruction.length_encode] at hextract
  exact slice?_eq_some_iff.2 ⟨add_size_le_of_decode h, hextract⟩

/-- **Why nothing is decoded**: there is no byte at the address, or it is no opcode, or its
operands are not all there. -/
theorem decode_eq_error_iff {bytes : Array UInt8} {addr : Address} {f : Fault} :
    decode bytes addr = .error f ↔
      (bytes[addr.toNat]? = none ∧ f = .pcOutOfBounds addr) ∨
      ∃ b, bytes[addr.toNat]? = some b ∧
        ((Opcode.ofByte? b = none ∧ f = .unknownOpcode addr b) ∨
        ∃ op, Opcode.ofByte? b = some op ∧ bytes.size < addr.toNat + 1 + op.operandCount ∧
          f = .truncated addr b) := by
  unfold decode
  rcases hb : bytes[addr.toNat]? with _ | b
  · simp [eq_comm]
  · rcases hop : Opcode.ofByte? b with _ | op
    · simp [hop, eq_comm]
    · rcases hs : slice? bytes (addr.toNat + 1) op.operandCount with _ | xs
      · have hlt : bytes.size < addr.toNat + 1 + op.operandCount := by
          rw [← Nat.not_le, ← isSome_slice?, hs]
          exact Bool.false_ne_true
        simp [hop, hs, hlt, eq_comm]
      · have hle := (slice?_eq_some_iff.1 hs).1
        have hlen : xs.toList.length = op.operandCount := size_of_slice? hs
        obtain ⟨i, hi⟩ := Option.isSome_iff_exists.1 (Instruction.isSome_ofOperands? hlen)
        simp [hop, hs, hi, Nat.not_lt.2 hle]

/-- The number of bytes that decide what is decoded. -/
def extent : Except Fault Instruction → Nat
  | .ok i => i.size
  | .error _ => 1

lemma extent_pos (x : Except Fault Instruction) : 0 < extent x := by
  rcases x with f | i
  · exact Nat.one_pos
  · exact i.size_pos

/-- A fault is decided by the number of bytes and the one at the address. -/
lemma decode_congr_of_error {bytes bytes' : Array UInt8} {addr : Address} {f : Fault}
    (hsize : bytes'.size = bytes.size) (hb : bytes'[addr.toNat]? = bytes[addr.toNat]?)
    (h : decode bytes addr = .error f) : decode bytes' addr = .error f := by
  rw [decode_eq_error_iff] at h ⊢
  rwa [hb, hsize]

/-- **What decides**: bytes that agree on the extent of what is decoded decode alike. -/
theorem decode_congr {bytes bytes' : Array UInt8} {addr : Address}
    (hsize : bytes'.size = bytes.size)
    (h : ∀ a, addr.toNat ≤ a → a < addr.toNat + extent (decode bytes addr) →
      bytes'[a]? = bytes[a]?) :
    decode bytes' addr = decode bytes addr := by
  have hpos := extent_pos (decode bytes addr)
  rcases hd : decode bytes addr with f | i
  · exact decode_congr_of_error hsize (h _ (Nat.le_refl _) (by omega)) hd
  · rw [hd] at h
    rw [decode_eq_ok_iff] at hd ⊢
    intro k hk
    rw [h _ (by omega) (by rw [Instruction.length_encode] at hk; simp only [extent]; omega)]
    exact hd k hk

end ByteMachine
