import ByteMachine.Proofs.Accounting
import ByteMachine.Proofs.Forgetting

/-!
Sums of addresses. A step adds to the program counter only what it has found in memory, and a load
adds to the head of an image only what it has copied there. So every sum is exact, in spite of the
word that has to hold it, and does not go past the end of memory.
-/

namespace ByteMachine

/-- The address after the bytes copied is their exact end: neither is their number cut to fit a
word nor does the sum stop at the last address. -/
structure Loaded.IsExact (l : Loaded) (size : Nat) : Prop where
  word : (UInt32.ofNat l.copied).toNat = l.copied
  stop : l.stop.toNat = l.header.head.toNat + l.copied
  le : l.header.head.toNat + l.copied ≤ size

namespace Machine

variable {σ τ : Type} {m : Machine} {i : Instruction} {f : Fault} {budget : Option Nat}

/-- The next step finds the exact sum, whether it passes an instruction or the opcode of one that it
refuses, and the sum is at most `size`. -/
structure AddsWithin (m : Machine) (size : Nat) : Prop where
  passes : ∀ i, m.Passes i →
    m.step.1.pc.toNat = m.pc.toNat + i.size ∧ m.pc.toNat + i.size ≤ size
  refuses : ∀ f, m.Refuses f → (∀ a, f ≠ .pcOutOfBounds a) →
    m.step.1.pc.toNat = f.addr.toNat + 1 ∧ f.addr.toNat + 1 ≤ size

/-! ### Steps -/

/-- **A step adds exactly**, and within memory. -/
lemma addsWithin (m : Machine) : m.AddsWithin m.memory.size := by
  refine ⟨fun i hi => ⟨hi.pc_toNat, add_size_le_of_decode hi.decoded⟩, fun f hf hout => ?_⟩
  have hlt := hf.lt_size hout
  have hpc := hf.pc_toNat
  have hone : (State.stopped (.faulted f)).refusedBytes = 1 := by
    cases f with
    | pcOutOfBounds a => exact absurd rfl (hout a)
    | truncated | unknownOpcode | invalidRegister => rfl
  rw [hone] at hpc
  rw [hf.addr]
  exact ⟨hpc, hlt⟩

/-- What a machine is found to be after a step after which it goes on: no further than the end of
memory, and right there if it has run out of it. -/
structure StaysWithin (m : Machine) : Prop where
  live : ¬ m.state.IsTerminal → m.pc.toNat ≤ m.memory.size
  outside : ∀ a, m.state = .stopped (.faulted (.pcOutOfBounds a)) →
    a = m.pc ∧ m.pc.toNat = m.memory.size

lemma staysWithin_of_running (h : m.step.1.state.stop? = none) : m.step.1.StaysWithin := by
  refine ⟨fun hterm => ?_, fun a ha => ?_⟩
  · rw [size_step]
    exact (pc_step hterm).2
  · rw [ha] at h
    cases h

/-- Only a program counter outside memory is refused as such. -/
lemma Refuses.size_le {a : Address} (h : m.Refuses (.pcOutOfBounds a)) :
    m.memory.size ≤ m.pc.toNat := by
  obtain hd | ⟨i, r, -, -, -, hf⟩ := h.cause
  · obtain ⟨hnone, -⟩ | ⟨b, -, ⟨-, hf⟩ | ⟨op, -, -, hf⟩⟩ := decode_eq_error_iff.1 hd
    · exact Array.getElem?_eq_none_iff.1 hnone
    · cases hf
    · cases hf
  · cases hf

namespace StaysWithin

lemma of_eq {m' : Machine} (h : m.StaysWithin) (hsize : m'.memory.size = m.memory.size)
    (hpc : m'.pc = m.pc) (hstate : m'.state = m.state) : m'.StaysWithin := by
  refine ⟨fun hterm => ?_, fun a ha => ?_⟩
  · rw [hpc, hsize]
    exact h.live (hstate ▸ hterm)
  · rw [hpc, hsize]
    exact h.outside a (hstate ▸ ha)

lemma step_of_passes (hp : m.Passes i) : m.step.1.StaysWithin := by
  refine ⟨fun _ => ?_, fun a ha => ?_⟩
  · rw [hp.pc_toNat, size_step]
    exact add_size_le_of_decode hp.decoded
  · rw [hp.state] at ha
    split at ha <;> cases ha

lemma step_of_refuses (h : m.StaysWithin) (hf : m.Refuses f) : m.step.1.StaysWithin := by
  refine ⟨fun hterm => absurd (by rw [hf.state]; rfl) hterm, fun a ha => ?_⟩
  rw [hf.state] at ha
  cases ha
  have hpc : m.step.1.pc = m.pc := UInt32.toNat_inj.1 hf.pc_toNat
  rw [hpc, size_step]
  exact ⟨hf.addr, Nat.le_antisymm (h.live hf.live) hf.size_le⟩

lemma step (h : m.StaysWithin) : m.step.1.StaysWithin := by
  by_cases hterm : m.state.IsTerminal
  · rwa [step_of_isTerminal hterm]
  · obtain ⟨i, hp⟩ | ⟨f, hf⟩ := passes_or_refuses hterm
    · exact step_of_passes hp
    · exact h.step_of_refuses hf

end StaysWithin

/-! ### Calls -/

/-- The calls that put the program counter nowhere but where execution takes it. -/
def Call.KeepsPlace : Call → Prop
  | .setPc _ => False
  | .reset => False
  | _ => True

lemma StaysWithin.next (h : m.StaysWithin) {c : Call} (hc : c.KeepsPlace) :
    (m.next c).1.1.StaysWithin := by
  cases c with
  | step => exact h.step
  | run budget =>
    exact run_invariant (P := fun x _ => x.StaysWithin) (fun _ _ hx => hx.step) m budget [] h
  | write a value => exact h.of_eq (m.memory.size_write a value) rfl rfl
  | copy offset bytes => exact h.of_eq (m.memory.size_load offset bytes) rfl rfl
  | setRegister | setTrace => exact h.of_eq rfl rfl rfl
  | setPc | reset => exact absurd hc id

lemma StaysWithin.inTurn (h : m.StaysWithin) {calls : List (Sink σ × Call)}
    (hcalls : ∀ c ∈ calls, c.2.KeepsPlace) (w : σ × Array Event) :
    (ByteMachine.inTurn callTo m calls w).1.1.StaysWithin ∧
      (ByteMachine.inTurn callTo m calls w).1.1.memory.size = m.memory.size := by
  rw [inTurn_result callTo_eq]
  exact course_invariant (P := fun x _ => x.StaysWithin ∧ x.memory.size = m.memory.size)
    (fun c hc x _ hx => ⟨hx.1.next (List.forall_mem_map.2 hcalls c hc),
      (size_of_blank_eq (x.blank_next c)).trans hx.2⟩) m [] ⟨h, rfl⟩

lemma size_of_mem_trail {x : Machine} : x ∈ m.trail budget → x.memory.size = m.memory.size := by
  fun_induction m.trail budget with
  | case1 m => exact fun hx => absurd hx List.not_mem_nil
  | case2 m budget hb stop hs =>
    intro hx
    rw [List.mem_singleton.1 hx]
  | case3 m budget hb hs ih =>
    intro hx
    rcases List.mem_cons.1 hx with rfl | hx
    · rfl
    · rw [ih hx, size_step]

/-! ### Loads -/

/-- **What is copied ends in memory**, and so where it should. -/
lemma isExact_of_install {file : Array UInt8} {i : Installation} (h : m.install file = .ok i)
    (hcopied : 0 < i.loaded.copied) : i.loaded.IsExact m.memory.size := by
  obtain ⟨-, -, rfl⟩ := install_eq_ok_iff.1 h
  have hlt := m.memory.size_lt
  have hroom : ((m.place (.inFront file) (bodyBytes file)).loaded.copied) =
      m.reset.memory.room (Header.inFront file).head (bodyBytes file).size := rfl
  rw [Memory.room, reset, Memory.size_clear] at hroom
  have hle : (Header.inFront file).head.toNat +
      (m.place (.inFront file) (bodyBytes file)).loaded.copied ≤ m.memory.size := by
    omega
  refine ⟨Memory.toNat_ofNat_of_le (m := m.memory) (by omega), ?_, hle⟩
  exact Address.toNat_advance_of_lt (Nat.lt_of_le_of_lt hle hlt)

end Machine

namespace Simulator

variable {σ τ : Type} {s : Simulator} {n : Nat}

/-- The memory has the given size, and the image on record ends in it. -/
structure EndsWithin (s : Simulator) (n : Nat) : Prop where
  size : s.machine.memory.size = n
  loaded : ∀ l, s.loaded = some l → 0 < l.copied → l.IsExact n

lemma EndsWithin.next (h : s.EndsWithin n) (op : Operation) :
    (s.next op).1.1.EndsWithin n := by
  have hsize : (s.next op).1.1.machine.memory.size = n :=
    (Machine.size_of_blank_eq (s.blank_next op).1).trans h.size
  have hload (file : Array UInt8) : ∀ l, (s.next (.load file)).1.1.loaded = some l →
      0 < l.copied → l.IsExact n := by
    intro l hl hcopied
    simp only [Simulator.next, load] at hl
    rcases hi : s.machine.install file with e | i
    · rw [hi] at hl
      exact h.loaded l hl hcopied
    · rw [hi] at hl
      obtain rfl : i.loaded = l := Option.some.inj hl
      rw [← h.size]
      exact Machine.isExact_of_install hi hcopied
  refine ⟨hsize, ?_⟩
  cases op with
  | load file => exact hload file
  | loadFile path contents =>
    rcases contents with e | file
    · exact h.loaded
    · exact hload file
  | run => exact h.loaded
  | call c => exact h.loaded

/-- **Sums of addresses are exact.** Let a simulator whose settings keep their bounds have been
through anything. Every step that it makes, alone or in a run, adds exactly, and the sum is at most
the size of memory. So a machine that goes on after a step is no further than the end of memory; and
if it runs out of memory later on, without having been placed elsewhere, then right at the end. An
image of which something is copied ends in memory too, and its end is exactly that. -/
theorem addresses_exact {c : Config} (hc : c.IsValid) (past : List (Sink σ × Operation))
    (w : σ × Array Event) :
    let s := (inTurn performTo (ofConfig c) past w).1.1
    s.machine.memory.size = c.memory.size ∧
    (∀ (budget : Option Nat), ∀ m ∈ s.machine.trail budget, m.AddsWithin c.memory.size ∧
      (m.step.1.state.stop? = none → m.step.1.pc.toNat ≤ c.memory.size ∧
        ∀ (later : List (Sink τ × Machine.Call)) (w' : τ × Array Event),
          (∀ call ∈ later, call.2.KeepsPlace) →
          let m' := (inTurn Machine.callTo m.step.1 later w').1.1
          ∀ a, m'.state = .stopped (.faulted (.pcOutOfBounds a)) →
            a = m'.pc ∧ m'.pc.toNat = c.memory.size)) ∧
    (∀ file i, s.machine.install file = .ok i → 0 < i.loaded.copied →
      i.loaded.IsExact c.memory.size) ∧
    ∀ l, s.loaded = some l → 0 < l.copied → l.IsExact c.memory.size := by
  intro s
  have hnew : (ofConfig c).EndsWithin c.memory.size := ⟨hc.size_ofConfig, nofun⟩
  obtain ⟨hsize, hloaded⟩ : s.EndsWithin c.memory.size := by
    dsimp only [s]
    rw [inTurn_result performTo_eq]
    exact course_invariant (P := fun x _ => x.EndsWithin c.memory.size)
      (fun op _ _ _ hx => hx.next op) (ofConfig c) [] hnew
  refine ⟨hsize, fun budget m hm => ?_, fun file i hi hcopied => ?_, hloaded⟩
  · have hmsize : m.memory.size = c.memory.size := (Machine.size_of_mem_trail hm).trans hsize
    refine ⟨hmsize ▸ m.addsWithin, fun hgoes => ⟨?_, fun later w' hlater => ?_⟩⟩
    · rw [← hmsize]
      exact (Machine.pc_step (State.not_isTerminal_of_stop? hgoes)).2
    · obtain ⟨hwithin, hkept⟩ := (Machine.staysWithin_of_running hgoes).inTurn hlater w'
      rw [← hmsize, ← m.size_step, ← hkept]
      exact hwithin.outside
  · rw [← hsize]
    exact Machine.isExact_of_install hi hcopied

/-- After a load, the machine is placed on the last byte of memory, steps over it and runs out. -/
theorem addresses_exact_at_end :
    let c : Config := { memory := { size := 16, outputPort := 9 } }
    let past : List (Sink Unit × Operation) :=
      [(.null, .load storesSeven), (.null, .call (.setPc 15))]
    let later : List (Sink Unit × Machine.Call) := [(.null, .setTrace true), (.null, .run none)]
    let s := (inTurn performTo (ofConfig c) past ((), #[])).1.1
    let m' := (inTurn Machine.callTo s.machine.step.1 later ((), #[])).1.1
    c.IsValid ∧ s.machine ∈ s.machine.trail (some 1) ∧ s.machine.step.1.state.stop? = none ∧
      (∀ call ∈ later, call.2.KeepsPlace) ∧
      m'.state = .stopped (.faulted (.pcOutOfBounds 16)) ∧ m'.pc.toNat = 16 ∧
      ∃ l, s.loaded = some l ∧ 0 < l.copied ∧ l.stop.toNat = l.header.head.toNat + 8 := by
  intro c past later s m'
  have hc : c.IsValid := ⟨by decide, by decide, by decide⟩
  have hgoes : s.machine.step.1.state.stop? = none := by decide +kernel
  have htrail : s.machine ∈ s.machine.trail (some 1) := by
    rw [Machine.trail_running (by decide) hgoes]
    exact List.mem_cons_self
  have hlater : ∀ call ∈ later, call.2.KeepsPlace := by simp [later, Machine.Call.KeepsPlace]
  have hout : m'.state = .stopped (.faulted (.pcOutOfBounds 16)) := by decide +kernel
  obtain ⟨l, hl⟩ : ∃ l, s.loaded = some l := ⟨⟨.inFront storesSeven, 8, 8⟩, by decide +kernel⟩
  have hcopied : l.copied = 8 := by
    have hsome : s.loaded.map Loaded.copied = some 8 := by decide +kernel
    rw [hl] at hsome
    exact Option.some.inj hsome
  obtain ⟨-, hsteps, -, hends⟩ := addresses_exact hc past ((), #[])
  have hpc := ((hsteps (some 1) _ htrail).2 hgoes).2 later ((), #[]) hlater 16 hout
  have hexact := hends l hl (by omega)
  exact ⟨hc, htrail, hgoes, hlater, hout, hpc.2, l, hl, by omega, hcopied ▸ hexact.stop⟩

end Simulator

end ByteMachine
