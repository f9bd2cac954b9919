import ByteMachine.Config
import ByteMachine.Proofs.Codec

/-!
Ranges of code. A walk looks at the end of its range only to see whether to go on. With a later end
it goes the same way, and then further from where its last instruction ended.
-/

namespace ByteMachine

open Located

/-- There is no fault among lines. -/
def Located.IsCode (code : List Located) : Prop := ∀ x ∈ code, ∃ i, x.content = .ok i

namespace Walk

variable {bytes : Array UInt8} {mid stop a : Address} {code : List Located}

/-- A walk with a later end begins with the same lines, and goes on where these end. -/
lemma goes_on (hsize : bytes.size < 0x100000000) (hle : mid ≤ stop) (h : Walk bytes mid a code) :
    ∃ further, (decodeRange bytes a stop).toList = code ++ further ∧
      (IsCode code → ∃ x : Address, x.toNat = reached a.toNat code ∧ mid ≤ x ∧
        further = (decodeRange bytes x stop).toList) := by
  induction h with
  | @out a hout => exact ⟨_, rfl, fun _ => ⟨a, rfl, hout, rfl⟩⟩
  | @fault a f hlt hd =>
    refine ⟨[], ?_, fun hcode => ?_⟩
    · rw [decodeRange_eq, if_pos (UInt32.lt_of_lt_of_le hlt hle), hd]
      rfl
    · obtain ⟨i, hi⟩ := hcode _ List.mem_cons_self
      cases hi
  | @pass a i rest hlt hd _ ih =>
    obtain ⟨further, hrest, hon⟩ := ih
    refine ⟨further, ?_, fun hcode => ?_⟩
    · rw [decodeRange_eq, if_pos (UInt32.lt_of_lt_of_le hlt hle), hd]
      dsimp only
      rw [Array.toList_append, hrest]
      rfl
    · obtain ⟨x, hx, hmid, hfurther⟩ := hon fun y hy => hcode y (List.mem_cons_of_mem _ hy)
      refine ⟨x, ?_, hmid, hfurther⟩
      rw [hx, reached_ok, Lists.toNat_advance_of_decode hsize hd]

/-- Only the operands of the last instruction can be past the end. -/
lemma reached_le (hsize : bytes.size < 0x100000000) (h : Walk bytes stop a code) :
    reached a.toNat code ≤ max a.toNat (stop.toNat + 3) := by
  induction h with
  | out => exact Nat.le_max_left ..
  | fault => exact Nat.le_max_left ..
  | @pass a i rest hlt hd _ ih =>
    have hfirst := UInt32.lt_iff_toNat_lt.1 hlt
    have hshort := i.size_le
    rw [Lists.toNat_advance_of_decode hsize hd] at ih
    rw [reached_ok]
    omega

end Walk

/-- **Ranges of code compose.** What is found up to one end is what is found first up to a later
one. If it is not empty and has no fault in it, the rest is found from the address after its last
instruction, which is at most three bytes past the earlier end; and if it is past the later end as
well, there is no rest. -/
theorem ranges_compose {bytes : Array UInt8} (hsize : bytes.size ≤ Config.maxMemorySize)
    {start mid stop : Address} (hle : mid ≤ stop) :
    let code := (decodeRange bytes start mid).toList
    code <+: (decodeRange bytes start stop).toList ∧
      (IsCode code → start < mid → ∃ x : Address,
        x.toNat = reached start.toNat code ∧ mid ≤ x ∧ x.toNat ≤ mid.toNat + 3 ∧
        (decodeRange bytes start stop).toList = code ++ (decodeRange bytes x stop).toList ∧
        (stop ≤ x → decodeRange bytes x stop = #[])) := by
  intro code
  have hlt : bytes.size < 0x100000000 := Nat.lt_of_le_of_lt hsize (by decide)
  have hwalk : Walk bytes mid start code := walk_decodeRange bytes start mid
  obtain ⟨further, happend, hon⟩ := hwalk.goes_on hlt hle
  refine ⟨⟨further, happend.symm⟩, fun hcode hstart => ?_⟩
  obtain ⟨x, hx, hmid, rfl⟩ := hon hcode
  have hreached := hwalk.reached_le hlt
  have hfirst := UInt32.lt_iff_toNat_lt.1 hstart
  refine ⟨x, hx, hmid, by omega, happend, fun hstop => ?_⟩
  exact decodeRange_of_le (UInt32.le_iff_toNat_le.1 hstop)

/-- A store that begins before the earlier end and is three bytes past it. -/
theorem ranges_compose_crossing :
    let bytes : Array UInt8 := #[0x11, 0, 0x34, 0x12, 0x00, 0xff]
    let code := (decodeRange bytes 0 1).toList
    bytes.size ≤ Config.maxMemorySize ∧ (1 : Address) ≤ 6 ∧ IsCode code ∧ (0 : Address) < 1 ∧
      ∃ x : Address, x.toNat = 4 ∧
        (decodeRange bytes 0 6).toList = code ++ (decodeRange bytes x 6).toList := by
  intro bytes code
  have hsize : bytes.size ≤ Config.maxMemorySize := by decide
  have hle : (1 : Address) ≤ 6 := by decide
  have hcode : (decodeRange bytes 0 1).toList = [⟨0, .ok (.store 0 0x1234)⟩] := by cbv
  have hnone : IsCode code := by
    change IsCode (decodeRange bytes 0 1).toList
    rw [hcode]
    exact List.forall_mem_singleton.2 ⟨_, rfl⟩
  obtain ⟨x, hx, -, -, happend, -⟩ := (ranges_compose hsize hle).2 hnone (by decide)
  refine ⟨hsize, hle, hnone, by decide, x, ?_, happend⟩
  rw [hx, hcode]
  rfl

end ByteMachine
