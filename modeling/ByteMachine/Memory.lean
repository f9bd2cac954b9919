import ByteMachine.Address

/-!
A flat memory whose addresses all fit in a word. Reading past the end finds nothing, and
writing there changes nothing.
-/

namespace ByteMachine

structure Memory where
  bytes : Array UInt8
  size_lt : bytes.size < 0x100000000

namespace Memory

def size (m : Memory) : Nat := m.bytes.size

/-- Zero bytes, at most as many as there are addresses but the last. -/
def zeroed (size : Nat) : Memory where
  bytes := Array.replicate (min size 0xffffffff) 0
  size_lt := by
    rw [Array.size_replicate]
    omega

@[simp] theorem size_zeroed (n : Nat) : (zeroed n).size = min n 0xffffffff := by
  simp [size, zeroed]

def Contains (m : Memory) (a : Address) : Prop := a.toNat < m.size

instance (m : Memory) (a : Address) : Decidable (m.Contains a) :=
  inferInstanceAs (Decidable (_ < _))

def read? (m : Memory) (a : Address) : Option UInt8 := m.bytes[a.toNat]?

theorem isSome_read? {m : Memory} {a : Address} : (m.read? a).isSome ↔ m.Contains a := by
  simp [read?, Contains, size]

def write (m : Memory) (a : Address) (value : UInt8) : Memory where
  bytes := m.bytes.setIfInBounds a.toNat value
  size_lt := by
    rw [Array.size_setIfInBounds]
    exact m.size_lt

@[simp] theorem size_write (m : Memory) (a : Address) (v : UInt8) :
    (m.write a v).size = m.size := by
  simp [size, write]

theorem read?_write (m : Memory) (a b : Address) (v : UInt8) :
    (m.write a v).read? b = if a = b ∧ m.Contains b then some v else m.read? b := by
  simp only [read?, write, Contains, size, Array.getElem?_setIfInBounds, UInt32.toNat_inj]
  by_cases h : a = b
  · subst h
    by_cases ha : a.toNat < m.bytes.size <;> simp [ha]
  · simp [h]

/-- How many of `count` bytes have room from `offset` on. -/
def room (m : Memory) (offset : Address) (count : Nat) : Nat :=
  min count (m.size - offset.toNat)

/-- Copies `body` to `offset` and drops what would lie past the end. -/
def load (m : Memory) (offset : Address) (body : Array UInt8) : Memory where
  bytes :=
    m.bytes.extract 0 offset.toNat ++ body.extract 0 (m.room offset body.size)
      ++ m.bytes.extract (offset.toNat + m.room offset body.size) m.size
  size_lt := by
    have := m.size_lt
    simp only [Array.size_append, Array.size_extract, room, size]
    omega

@[simp] theorem size_load (m : Memory) (offset : Address) (body : Array UInt8) :
    (m.load offset body).size = m.size := by
  simp only [load, Array.size_append, Array.size_extract, room, size]
  omega

def clear (m : Memory) : Memory := zeroed m.size

@[simp] theorem size_clear (m : Memory) : m.clear.size = m.size := by
  have := m.size_lt
  rw [clear, size_zeroed, size]
  omega

end Memory

end ByteMachine
