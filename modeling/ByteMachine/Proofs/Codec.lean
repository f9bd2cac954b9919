import ByteMachine.Proofs.Program

/-!
Code as bytes and bytes as code. What a program assembles to is listed as that program again,
wherever it stands; and whatever bytes are walked through, the instructions found are those bytes.
-/

namespace ByteMachine

open Located

namespace Located

/-- The instructions among lines. -/
def instructions (code : List Located) : List Instruction :=
  (code.filterMap instruction?).map Prod.snd

/-- The address after the last instruction among lines, or `start` if there is none. -/
def reached (start : Nat) (code : List Located) : Nat :=
  ((code.filterMap instruction?).getLast?.map fun x => x.1.toNat + x.2.size).getD start

lemma instructions_ok (a : Address) (i : Instruction) (code : List Located) :
    instructions (⟨a, .ok i⟩ :: code) = i :: instructions code := rfl

lemma reached_ok (start : Nat) (a : Address) (i : Instruction) (code : List Located) :
    reached start (⟨a, .ok i⟩ :: code) = reached (a.toNat + i.size) code := by
  have hfirst : (⟨a, .ok i⟩ :: code).filterMap instruction? =
      (a, i) :: code.filterMap instruction? := rfl
  rw [reached, reached, hfirst, List.getLast?_cons]
  rcases (code.filterMap instruction?).getLast? <;> rfl

end Located

lemma length_assemble (program : List Instruction) :
    (assemble program).length = (program.map Instruction.size).sum := by
  induction program with
  | nil => rfl
  | cons i is ih =>
    rw [length_assemble_cons, ih, List.map_cons, List.sum_cons]

/-! ### From instructions to bytes and back -/

lemma content_locate (program : List Instruction) (a : Address) :
    (locate a program).map Located.content = program.map .ok := by
  induction program generalizing a with
  | nil => rfl
  | cons i is ih => rw [locate, List.map_cons, ih, List.map_cons]

lemma addr_locate {program : List Instruction} {k : Nat} {x : Located} : ∀ {a : Address},
    a.toNat + (assemble program).length < 0x100000000 → (locate a program)[k]? = some x →
      x.addr.toNat = a.toNat + (assemble (program.take k)).length := by
  induction program generalizing k with
  | nil => exact fun _ hx => absurd hx nofun
  | cons i is ih =>
    intro a hlt hx
    rw [length_assemble_cons] at hlt
    rcases k with _ | k
    · cases hx
      rfl
    · have hto : (a.advance i.size).toNat = a.toNat + i.size :=
        Address.toNat_advance_of_lt (by omega)
      have haddr := ih (by omega) hx
      rw [haddr, hto, List.take_succ_cons, length_assemble_cons]
      omega

lemma decodeRange_of_le {bytes : Array UInt8} {a stop : Address} (h : stop.toNat ≤ a.toNat) :
    decodeRange bytes a stop = #[] := by
  rw [decodeRange_eq, if_neg (UInt32.not_lt.2 (UInt32.le_iff_toNat_le.2 h))]

/-- A program is listed where it stands. -/
lemma decodeRange_of_holdsAt {bytes : Array UInt8} {stop : Address} {program : List Instruction} :
    ∀ {a : Address}, HoldsAt bytes a.toNat (assemble program) →
      a.toNat + (assemble program).length = stop.toNat →
      (decodeRange bytes a stop).toList = locate a program := by
  induction program with
  | nil =>
    intro a _ hstop
    rw [decodeRange_of_le hstop.symm.le]
    rfl
  | cons i is ih =>
    intro a hheld hstop
    rw [holdsAt_assemble_cons] at hheld
    rw [length_assemble_cons] at hstop
    have hpos := i.size_pos
    have hend := stop.toNat_lt
    have hlt : a < stop := UInt32.lt_iff_toNat_lt.2 (by omega)
    have hto : (a.advance i.size).toNat = a.toNat + i.size :=
      Address.toNat_advance_of_lt (by omega)
    have hrest := ih (a := a.advance i.size) (by rw [hto]; exact hheld.2) (by rw [hto]; omega)
    rw [decodeRange_eq, if_pos hlt, decode_eq_ok_iff.2 hheld.1]
    dsimp only
    rw [Array.toList_append, hrest, locate]
    rfl

/-! ### From bytes to instructions and back -/

/-- A walk through the bytes from an address, line by line. -/
inductive Walk (bytes : Array UInt8) (stop : Address) : Address → List Located → Prop
  | out {a : Address} : stop ≤ a → Walk bytes stop a []
  | fault {a : Address} {f : Fault} : a < stop → decode bytes a = .error f →
      Walk bytes stop a [⟨a, .error f⟩]
  | pass {a : Address} {i : Instruction} {rest : List Located} : a < stop →
      decode bytes a = .ok i → Walk bytes stop (a.advance i.size) rest →
      Walk bytes stop a (⟨a, .ok i⟩ :: rest)

lemma walk_decodeRange (bytes : Array UInt8) (start stop : Address) :
    Walk bytes stop start (decodeRange bytes start stop).toList := by
  induction hn : stop.toNat - start.toNat using Nat.strongRecOn generalizing start with
  | ind n ih =>
    rw [decodeRange_eq]
    by_cases hlt : start < stop
    · rw [if_pos hlt]
      rcases hd : decode bytes start with f | i
      · exact .fault hlt hd
      · have hless : stop.toNat - (start.advance i.size).toNat < n := by
          have := UInt32.lt_iff_toNat_lt.1 hlt
          have := i.size_pos
          have := stop.toNat_lt
          rw [Address.toNat_advance]
          omega
        dsimp only
        rw [Array.toList_append]
        exact .pass hlt hd (ih _ hless _ rfl)
    · rw [if_neg hlt]
      exact .out (UInt32.not_lt.1 hlt)

namespace Walk

variable {bytes : Array UInt8} {stop a : Address} {code : List Located}

/-- The next address is exact, unless it is past the end anyway. -/
lemma advance_cases {n : Nat} (h : Walk bytes stop (a.advance n) code) :
    (a.advance n).toNat = a.toNat + n ∨ (code = [] ∧ stop.toNat ≤ a.toNat + n) := by
  by_cases hexact : (a.advance n).toNat = a.toNat + n
  · exact Or.inl hexact
  · right
    have hend := stop.toNat_lt
    rw [Address.toNat_advance] at hexact
    have hle : stop ≤ a.advance n := by
      rw [UInt32.le_iff_toNat_le, Address.toNat_advance]
      omega
    refine ⟨?_, by omega⟩
    cases h with
    | out => rfl
    | fault hlt => exact absurd hlt (UInt32.not_lt.2 hle)
    | pass hlt => exact absurd hlt (UInt32.not_lt.2 hle)

/-- Lines stand one after the other from the start on, and only the last one can be a fault. -/
lemma line (h : Walk bytes stop a code) : ∀ {before : List Located} {x : Located}
    {after : List Located}, code = before ++ x :: after →
      x.addr.toNat = a.toNat + (assemble (instructions before)).length ∧ x.addr < stop ∧
        decode bytes x.addr = x.content ∧ (after ≠ [] → ∃ i, x.content = .ok i) := by
  induction h with
  | out => simp
  | fault hlt hd =>
    intro before x after hcode
    rcases before with _ | ⟨y, before⟩
    · cases hcode
      exact ⟨rfl, hlt, hd, fun h => absurd rfl h⟩
    · simp at hcode
  | @pass a i rest hlt hd hwalk ih =>
    intro before x after hcode
    rcases before with _ | ⟨y, before⟩
    · cases hcode
      exact ⟨rfl, hlt, hd, fun _ => ⟨i, rfl⟩⟩
    · obtain ⟨rfl, rfl⟩ := List.cons.inj hcode
      obtain ⟨haddr, hrest⟩ := ih rfl
      obtain hto | ⟨hnil, -⟩ := hwalk.advance_cases
      · refine ⟨?_, hrest⟩
        rw [haddr, hto, instructions_ok, length_assemble_cons]
        omega
      · simp at hnil

/-- The instructions found are the bytes walked through. -/
lemma holdsAt (h : Walk bytes stop a code) :
    HoldsAt bytes a.toNat (assemble (instructions code)) := by
  induction h with
  | out => exact holdsAt_nil bytes _
  | fault => exact holdsAt_nil bytes _
  | @pass a i rest _ hd hwalk ih =>
    rw [instructions_ok, holdsAt_assemble_cons]
    refine ⟨decode_eq_ok_iff.1 hd, ?_⟩
    obtain hto | ⟨rfl, -⟩ := hwalk.advance_cases
    · rwa [hto] at ih
    · exact holdsAt_nil bytes _

lemma reached_eq (h : Walk bytes stop a code) :
    reached a.toNat code = a.toNat + (assemble (instructions code)).length := by
  induction h with
  | out => rfl
  | fault => rfl
  | @pass a i rest _ _ hwalk ih =>
    rw [reached_ok, instructions_ok, length_assemble_cons]
    obtain hto | ⟨rfl, -⟩ := hwalk.advance_cases
    · rw [← hto, ih, hto]
      omega
    · rfl

/-- Only a fault or the end stops the walk. -/
lemma stops (h : Walk bytes stop a code) :
    (∃ before b f, code = before ++ [⟨b, .error f⟩]) ∨ stop.toNat ≤ reached a.toNat code := by
  induction h with
  | out hle => exact Or.inr (UInt32.le_iff_toNat_le.1 hle)
  | @fault a f => exact Or.inl ⟨[], a, f, rfl⟩
  | @pass a i rest _ _ hwalk ih =>
    rw [reached_ok]
    obtain ⟨before, b, f, rfl⟩ | hle := ih
    · exact Or.inl ⟨⟨a, .ok i⟩ :: before, b, f, rfl⟩
    · right
      obtain hto | ⟨rfl, hend⟩ := hwalk.advance_cases
      · rwa [hto] at hle
      · exact hend

end Walk

/-- **The codec loses nothing, either way.** A program in the middle of other bytes is listed as it
is, each instruction after the bytes of those before it. And in any bytes, what is listed stands one
after the other before the end; only the last line can be a fault, and if it is none the walk has
come to the end; the instructions encode to the very bytes that were walked through. -/
theorem decodeRange_lossless :
    (∀ (front : List UInt8) (program : List Instruction) (back : List UInt8),
      front.length + (assemble program).length < 0x100000000 →
      let bytes := (front ++ assemble program ++ back).toArray
      let start := UInt32.ofNat front.length
      let stop := UInt32.ofNat (front.length + (assemble program).length)
      let code := (decodeRange bytes start stop).toList
      code.map Located.content = program.map .ok ∧
      ∀ k x, code[k]? = some x →
        x.addr.toNat = front.length + ((program.take k).map Instruction.size).sum) ∧
    ∀ (bytes : Array UInt8) (start stop : Address),
      let code := (decodeRange bytes start stop).toList
      (∀ before x after, code = before ++ x :: after →
        x.addr.toNat = start.toNat + ((instructions before).map Instruction.size).sum ∧
        x.addr < stop ∧ decode bytes x.addr = x.content ∧
        (after ≠ [] → ∃ i, x.content = .ok i)) ∧
      assemble (instructions code) =
        (bytes.extract start.toNat (reached start.toNat code)).toList ∧
      ((∃ before a f, code = before ++ [⟨a, .error f⟩]) ∨
        stop.toNat ≤ reached start.toNat code) := by
  refine ⟨fun front program back hlt => ?_, fun bytes start stop => ?_⟩
  · intro bytes start stop code
    have hstart : start.toNat = front.length := by
      rw [UInt32.toNat_ofNat']
      exact Nat.mod_eq_of_lt (by omega)
    have hstop : stop.toNat = front.length + (assemble program).length := by
      rw [UInt32.toNat_ofNat']
      exact Nat.mod_eq_of_lt hlt
    have hheld : HoldsAt bytes start.toNat (assemble program) := by
      intro k hk
      rw [hstart, List.getElem?_toArray, List.append_assoc, List.getElem?_append_right (by omega),
        Nat.add_sub_cancel_left, List.getElem?_append_left hk]
    have hcode : code = locate start program :=
      decodeRange_of_holdsAt hheld (by rw [hstart, hstop])
    refine ⟨by rw [hcode, content_locate], fun k x hx => ?_⟩
    rw [hcode] at hx
    rw [addr_locate (by rwa [hstart]) hx, hstart, length_assemble]
  · intro code
    have hwalk := walk_decodeRange bytes start stop
    refine ⟨fun before x after hcode => ?_, ?_, hwalk.stops⟩
    · rw [← length_assemble]
      exact hwalk.line hcode
    · rw [hwalk.reached_eq, hwalk.holdsAt.extract_eq]

/-- A store from a register that does not exist, between two bytes that are no code. -/
theorem decodeRange_lossless_store :
    [0xff].length + (assemble [.store 9 0x1234, .halt]).length < 0x100000000 ∧
      (decodeRange #[0xff, 0x11, 9, 0x34, 0x12, 1, 0xff] 1 6).toList.map Located.content =
        [.ok (.store 9 0x1234), .ok .halt] := by
  have hlt : [0xff].length + (assemble [.store 9 0x1234, .halt]).length < 0x100000000 := by decide
  exact ⟨hlt, (decodeRange_lossless.1 [0xff] [.store 9 0x1234, .halt] [0xff] hlt).1⟩

end ByteMachine
