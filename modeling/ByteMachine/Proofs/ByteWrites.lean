import ByteMachine.Proofs.Loading

/-!
A body written to memory byte by byte. Placing copies it as a whole and cuts it where memory ends.
Writing each of its bytes at its own place, if there is memory, comes to the same.
-/

namespace ByteMachine.Memory

/-- Writes a byte at a place and tells whether it was taken. A place that is too far on for an
address is refused too. -/
def tryWrite (m : Memory) (place : Nat) (value : UInt8) : Memory × Bool :=
  if place < UInt32.size then
    let a := UInt32.ofNat place
    (m.write a value, m.Contains a)
  else (m, false)

/-- Writes bytes one after the other, from a place on, and counts those that were taken. -/
def writeEach (m : Memory) (place : Nat) : List UInt8 → Memory × Nat
  | [] => (m, 0)
  | b :: bs =>
    let (m, taken) := m.tryWrite place b
    let (m, count) := m.writeEach (place + 1) bs
    (m, if taken then count + 1 else count)

/-! ### One byte -/

lemma ext_of_bytes {m m' : Memory} (h : ∀ k : Nat, m.bytes[k]? = m'.bytes[k]?) : m = m' := by
  obtain ⟨bytes, hlt⟩ := m
  obtain ⟨bytes', hlt'⟩ := m'
  obtain rfl : bytes = bytes' := Array.ext_getElem? h
  rfl

@[simp] lemma size_tryWrite (m : Memory) (place : Nat) (v : UInt8) :
    (m.tryWrite place v).1.size = m.size := by
  unfold tryWrite
  split
  · exact size_write ..
  · rfl

/-- What decides is the size of memory alone. -/
lemma tryWrite_taken (m : Memory) (place : Nat) (v : UInt8) :
    (m.tryWrite place v).2 = decide (place < m.size) := by
  have hsize : m.size < UInt32.size := m.size_lt
  unfold tryWrite
  split
  · rename_i hplace
    have hto : (UInt32.ofNat place).toNat = place := UInt32.toNat_ofNat_of_lt hplace
    simp only [Contains, hto]
  · exact (decide_eq_false (by omega)).symm

lemma getElem?_tryWrite (m : Memory) (place : Nat) (v : UInt8) (k : Nat) :
    (m.tryWrite place v).1.bytes[k]? =
      if k = place ∧ k < m.size then some v else m.bytes[k]? := by
  have hsize : m.size < UInt32.size := m.size_lt
  unfold tryWrite
  split
  · rename_i hplace
    have hto : (UInt32.ofNat place).toNat = place := UInt32.toNat_ofNat_of_lt hplace
    simp only [getElem?_write, hto]
  · rw [if_neg (by omega)]

/-! ### One byte after the other -/

/-- As many bytes are taken as there is room for. -/
lemma writeEach_count (bytes : List UInt8) : ∀ (m : Memory) (place : Nat),
    (m.writeEach place bytes).2 = min bytes.length (m.size - place) := by
  induction bytes with
  | nil => exact fun m place => (Nat.zero_min _).symm
  | cons b bs ih =>
    intro m place
    simp only [writeEach, ih, size_tryWrite, tryWrite_taken, decide_eq_true_eq, List.length_cons]
    split <;> omega

/-- The bytes that are taken stand where they were written, and all others are as they were. -/
lemma getElem?_writeEach (bytes : List UInt8) : ∀ (m : Memory) (place k : Nat),
    (m.writeEach place bytes).1.bytes[k]? =
      if place ≤ k ∧ k < place + min bytes.length (m.size - place) then bytes[k - place]?
      else m.bytes[k]? := by
  induction bytes with
  | nil =>
    intro m place k
    exact (if_neg (by simp)).symm
  | cons b bs ih =>
    intro m place k
    simp only [writeEach, ih, size_tryWrite, getElem?_tryWrite, List.length_cons]
    by_cases hfirst : k = place
    · -- the first byte, which no later one overwrites.
      subst hfirst
      rw [if_neg (by omega), Nat.sub_self, List.getElem?_cons_zero]
      by_cases hin : k < m.size
      · rw [if_pos ⟨rfl, hin⟩, if_pos (by omega)]
      · rw [if_neg (by omega), if_neg (by omega)]
    · by_cases hlater : place + 1 ≤ k ∧ k < place + 1 + min bs.length (m.size - (place + 1))
      · have hnext : k - place = k - (place + 1) + 1 := by omega
        rw [if_pos hlater, if_pos (by omega), hnext, List.getElem?_cons_succ]
      · rw [if_neg hlater, if_neg (by omega), if_neg (by omega)]

/-- **Placing a body is writing it byte by byte**, at its offset and the places after that. A byte is
taken if and only if its place is before the end of memory; as many are taken as there is said to
be room for; and memory keeps its size and every other byte that it had. -/
theorem load_eq_writeEach (m : Memory) (offset : Address) (body : Array UInt8) :
    m.writeEach offset.toNat body.toList = (m.load offset body, m.room offset body.size) ∧
    (∀ place v, (m.tryWrite place v).2 = decide (place < m.size)) ∧
    (m.load offset body).size = m.size ∧
    ∀ k, (m.load offset body).bytes[k]? =
      if offset.toNat ≤ k ∧ k < offset.toNat + m.room offset body.size then
        body[k - offset.toNat]?
      else m.bytes[k]? := by
  have hcount : (m.writeEach offset.toNat body.toList).2 = m.room offset body.size := by
    rw [writeEach_count, Array.length_toList, room]
  have hmemory : (m.writeEach offset.toNat body.toList).1 = m.load offset body := by
    refine ext_of_bytes fun k => ?_
    rw [getElem?_writeEach, getElem?_load, Array.length_toList, Array.getElem?_toList, room]
  exact ⟨Prod.ext hmemory hcount, m.tryWrite_taken, m.size_load offset body,
    m.getElem?_load offset body⟩

end ByteMachine.Memory
