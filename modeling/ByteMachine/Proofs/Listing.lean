import ByteMachine.Disassembly
import ByteMachine.Proofs.Decoding

/-!
The listing of code up to the first halt: how it is built, and in which order its lines occupy
memory.
-/

namespace ByteMachine

namespace Located

/-- The address after the bytes that decide a line. -/
def stop (x : Located) : Nat := x.addr.toNat + extent x.content

def instruction? (x : Located) : Option (Address × Instruction) :=
  match x.content with
  | .ok i => some (x.addr, i)
  | .error _ => none

/-- Lines up to the first halt, which is kept. -/
def upToHalt : List Located → List Located
  | [] => []
  | x :: xs => if x.content = .ok .halt then [x] else x :: upToHalt xs

/-- The address after the last line. -/
def endOf (code : List Located) : Nat := (code.getLast?.map stop).getD 0

/-- No line stores from a register to what stands after it and before `stop`. -/
def SparesUpTo (stop : Nat) (code : List Located) : Prop :=
  ∀ x ∈ code, ∀ source target, x.content = .ok (.store source target) →
    Registers.IsValid source → ¬ (x.stop ≤ target.toNat ∧ target.toNat < stop)

/-- The line `x` does not store to where `y` stands. -/
def Spares (x y : Located) : Prop :=
  ∀ source target, x.content = .ok (.store source target) → Registers.IsValid source →
    ¬ (y.addr.toNat ≤ target.toNat ∧ target.toNat < y.stop)

end Located

open Located

/-- What is listed up to the first halt. -/
def codeFrom (bytes : Array UInt8) (start stop : Address) : List Located :=
  upToHalt (decodeRange bytes start stop).toList

/-- The lines of `codeFrom`, one by one. -/
inductive Lists (bytes : Array UInt8) (stop : Address) : Address → List Located → Prop
  | out {a : Address} : stop ≤ a → Lists bytes stop a []
  | fault {a : Address} {f : Fault} : a < stop → decode bytes a = .error f →
      Lists bytes stop a [⟨a, .error f⟩]
  | halt {a : Address} : a < stop → decode bytes a = .ok .halt →
      Lists bytes stop a [⟨a, .ok .halt⟩]
  | pass {a : Address} {i : Instruction} {rest : List Located} : a < stop →
      decode bytes a = .ok i → i ≠ .halt → Lists bytes stop (a.advance i.size) rest →
      Lists bytes stop a (⟨a, .ok i⟩ :: rest)

lemma lists_codeFrom (bytes : Array UInt8) (start stop : Address) :
    Lists bytes stop start (codeFrom bytes start stop) := by
  induction hn : stop.toNat - start.toNat using Nat.strongRecOn generalizing start with
  | ind n ih =>
    unfold codeFrom
    rw [decodeRange_eq]
    by_cases hlt : start < stop
    · rw [if_pos hlt]
      rcases hd : decode bytes start with f | i
      · simp only [upToHalt]
        exact .fault hlt hd
      · by_cases hi : i = .halt
        · subst hi
          simp only [Array.toList_append, List.cons_append, upToHalt, if_pos]
          exact .halt hlt hd
        · have hne : (Except.ok i : Except Fault Instruction) ≠ .ok .halt := by
            simpa using hi
          simp only [Array.toList_append, List.cons_append, List.nil_append, upToHalt,
            if_neg hne]
          refine .pass hlt hd hi (ih _ ?_ _ rfl)
          have := UInt32.lt_iff_toNat_lt.1 hlt
          have := i.size_pos
          have := stop.toNat_lt
          rw [Address.toNat_advance]
          omega
    · rw [if_neg hlt]
      exact .out (UInt32.not_lt.1 hlt)

namespace Lists

variable {bytes : Array UInt8} {stop a : Address} {code : List Located}

lemma toNat_advance_of_decode {i : Instruction} (hsize : bytes.size < 0x100000000)
    (h : decode bytes a = .ok i) : (a.advance i.size).toNat = a.toNat + i.size :=
  Address.toNat_advance_of_lt (Nat.lt_of_le_of_lt (add_size_le_of_decode h) hsize)

lemma le_addr (hsize : bytes.size < 0x100000000) (h : Lists bytes stop a code) :
    ∀ x ∈ code, a.toNat ≤ x.addr.toNat := by
  induction h with
  | out => simp
  | fault => simp
  | halt => simp
  | @pass a i rest _ hd _ _ ih =>
    rw [toNat_advance_of_decode hsize hd] at ih
    intro x hx
    rcases List.mem_cons.1 hx with rfl | hx
    · exact Nat.le_refl _
    · exact Nat.le_trans (Nat.le_add_right _ _) (ih x hx)

/-- Each line ends before the ones after it begin. -/
lemma pairwise_stop_le (hsize : bytes.size < 0x100000000) (h : Lists bytes stop a code) :
    code.Pairwise fun x y => x.stop ≤ y.addr.toNat := by
  induction h with
  | out => exact .nil
  | fault => exact List.pairwise_singleton ..
  | halt => exact List.pairwise_singleton ..
  | @pass a i rest _ hd _ hrest ih =>
    refine List.pairwise_cons.2 ⟨fun y hy => ?_, ih⟩
    have := hrest.le_addr hsize y hy
    rwa [toNat_advance_of_decode hsize hd] at this

end Lists

lemma stop_le_endOf {code : List Located}
    (h : code.Pairwise fun x y => x.stop ≤ y.addr.toNat) : ∀ x ∈ code, x.stop ≤ endOf code := by
  intro x hx
  rcases List.eq_nil_or_concat code with rfl | ⟨front, y, rfl⟩
  · cases hx
  · rw [List.concat_eq_append] at h hx ⊢
    have hend : endOf (front ++ [y]) = y.stop := by
      rw [endOf, List.getLast?_concat]
      rfl
    rw [hend]
    rcases List.mem_append.1 hx with hx | hx
    · exact Nat.le_trans ((List.pairwise_append.1 h).2.2 x hx y (List.mem_singleton_self y))
        (Nat.le_add_right _ _)
    · exact Nat.le_of_eq (congrArg stop (List.mem_singleton.1 hx))

/-- A line that stores behind itself or past the end spares every later one. -/
lemma pairwise_spares {stop : Nat} {code : List Located}
    (h : code.Pairwise fun x y => x.stop ≤ y.addr.toNat) (hstop : ∀ x ∈ code, x.stop ≤ stop)
    (hc : SparesUpTo stop code) : code.Pairwise Spares := by
  refine h.imp_of_mem fun {x y} hx hy hxy source target hs hv hin => ?_
  exact hc x hx source target hs hv
    ⟨Nat.le_trans hxy hin.1, Nat.lt_of_lt_of_le hin.2 (hstop y hy)⟩

end ByteMachine
