/-!
Eight byte registers. An index outside them names no register: reading finds nothing there
and a write is refused.
-/

namespace ByteMachine

structure Registers where
  values : Vector UInt8 8
  deriving DecidableEq

namespace Registers

def zero : Registers := ⟨Vector.replicate 8 0⟩

/-- An index that names a register. -/
def IsValid (index : UInt8) : Prop := index < 8

instance (index : UInt8) : Decidable (IsValid index) := inferInstanceAs (Decidable (index < 8))

def read? (r : Registers) (index : UInt8) : Option UInt8 := r.values[index.toNat]?

def write? (r : Registers) (index value : UInt8) : Option Registers :=
  if h : index.toNat < 8 then some ⟨r.values.set index.toNat value h⟩ else none

theorem isValid_iff {index : UInt8} : IsValid index ↔ index.toNat < 8 := Iff.rfl

theorem isSome_read? {r : Registers} {index : UInt8} :
    (r.read? index).isSome ↔ IsValid index := by
  simp [read?, isValid_iff]

theorem isSome_write? {r : Registers} {index value : UInt8} :
    (r.write? index value).isSome ↔ IsValid index := by
  simp [write?, isValid_iff]

theorem read?_write? {r r' : Registers} {i v : UInt8} (h : r.write? i v = some r') (j : UInt8) :
    r'.read? j = if i = j then some v else r.read? j := by
  unfold write? at h
  split at h
  case isTrue hi =>
    cases h
    simp only [read?, Vector.getElem?_set, UInt8.toNat_inj]
  case isFalse => cases h

def toList (r : Registers) : List UInt8 := r.values.toList

@[simp] theorem length_toList (r : Registers) : r.toList.length = 8 := by simp [toList]

end Registers

end ByteMachine
