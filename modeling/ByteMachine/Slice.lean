/-!
A stretch of bytes that is either there as a whole or not at all.
-/

namespace ByteMachine

/-- The `count` bytes from `start`, if all of them are there. -/
def slice? (bytes : Array UInt8) (start count : Nat) : Option (Array UInt8) :=
  if start + count ≤ bytes.size then some (bytes.extract start (start + count)) else none

theorem slice?_eq_some_iff {bytes s : Array UInt8} {start count : Nat} :
    slice? bytes start count = some s ↔
      start + count ≤ bytes.size ∧ bytes.extract start (start + count) = s := by
  unfold slice?
  split
  case isTrue h => rw [Option.some.injEq, and_iff_right h]
  case isFalse h => exact ⟨nofun, fun hs => absurd hs.1 h⟩

theorem isSome_slice? {bytes : Array UInt8} {start count : Nat} :
    (slice? bytes start count).isSome ↔ start + count ≤ bytes.size := by
  unfold slice?
  split <;> simp_all

theorem size_of_slice? {bytes s : Array UInt8} {start count : Nat}
    (h : slice? bytes start count = some s) : s.size = count := by
  obtain ⟨hle, rfl⟩ := slice?_eq_some_iff.1 h
  rw [Array.size_extract]
  omega

end ByteMachine
