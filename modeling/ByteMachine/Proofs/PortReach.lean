import ByteMachine.Proofs.Clipping
import ByteMachine.Proofs.Forgetting
import ByteMachine.Proofs.PortStream

/-!
Which machines can send anything. A store names its address with sixteen bits and takes up four
bytes of memory. So nothing ever gets to a port further up, or out of a memory that is smaller,
whatever code is loaded or writes itself; and in every other machine a single store gets there.
-/

namespace ByteMachine

namespace Machine

variable {m m' : Machine}

/-- A store can name the port, and memory has room for a store. -/
def ReachesPort (m : Machine) : Prop := m.outputPort.toNat ≤ 0xffff ∧ 4 ≤ m.memory.size

/-! ### What cannot be reached -/

lemma reachesPort_iff_of_blank_eq (h : m'.blank = m.blank) : m'.ReachesPort ↔ m.ReachesPort := by
  have hport : m'.outputPort = m.outputPort := congrArg (fun x => x.outputPort) h
  rw [ReachesPort, ReachesPort, hport, size_of_blank_eq h]

/-- **A step sends something only if the port can be reached.** -/
theorem reachesPort_of_sent? {v : UInt8} (h : m.sent? = some v) : m.ReachesPort := by
  obtain ⟨⟨a, i⟩, hretires, hsent⟩ := Option.bind_eq_some_iff.1 h
  obtain ⟨rfl, hi⟩ := passes_of_retiring? hretires
  obtain ⟨htarget, -⟩ := Instruction.isSome_sent?.1 (Option.isSome_of_eq_some hsent)
  have hroom : m.pc.toNat + i.size ≤ m.memory.size := add_size_le_of_decode hi.decoded
  cases i with
  | store source target =>
    have hport : target.toUInt32 = m.outputPort := Option.some.inj htarget
    have hfour : 4 ≤ m.memory.size := Nat.le_trans (Nat.le_add_left 4 m.pc.toNat) hroom
    refine ⟨?_, hfour⟩
    rw [← hport, UInt16.toNat_toUInt32]
    exact Nat.le_of_lt_succ target.toNat_lt
  | _ => cases htarget

/-- Nothing has been sent, and nothing ever will be. -/
structure Mute (m : Machine) (output : List UInt8) : Prop where
  unreachable : ¬ m.ReachesPort
  silent : output = []

lemma Mute.step {output : List UInt8} (h : m.Mute output) :
    m.step.1.Mute (output ++ Effect.emitted m.step.2) := by
  refine ⟨fun hreaches => h.unreachable ((reachesPort_iff_of_blank_eq m.blank_step).1 hreaches), ?_⟩
  rw [h.silent, List.nil_append, emitted_step]
  rcases hsent : m.sent? with _ | v
  · rfl
  · exact absurd (reachesPort_of_sent? hsent) h.unreachable

lemma Mute.run {output : List UInt8} (h : m.Mute output) (budget : Option Nat) :
    (m.run budget).machine.Mute (output ++ Effect.emitted (m.run budget).effects.toList) :=
  run_invariant (fun _ _ hx => hx.step) m budget output h

end Machine

namespace Simulator

variable {s : Simulator}

lemma emitted_afterLoad (s : Simulator) (file : Array UInt8) :
    Effect.emitted (s.afterLoad (s.load file)).2 = [] := by
  rw [load]
  rcases hi : s.machine.install file with error | i
  · rfl
  · obtain ⟨-, -, rfl⟩ := Machine.install_eq_ok_iff.1 hi
    exact s.machine.emitted_place _ _

/-- **A machine that is mute stays so**, whatever is done with it. -/
theorem mute_next {output : List UInt8} (h : s.machine.Mute output) (op : Operation) :
    (s.next op).1.1.machine.Mute (output ++ Effect.emitted (s.next op).2) := by
  have hsame := Machine.reachesPort_iff_of_blank_eq (s.blank_next op).1
  refine ⟨fun hreaches => h.unreachable (hsame.1 hreaches), ?_⟩
  rw [h.silent, List.nil_append]
  have hrun (budget : Option Nat) :
      Effect.emitted (s.machine.run budget).effects.toList = [] := by
    have hafter := (h.run budget).silent
    rwa [h.silent] at hafter
  cases op with
  | load file => exact s.emitted_afterLoad file
  | loadFile path contents =>
    rcases contents with error | file
    · rfl
    · exact s.emitted_afterLoad file
  | run =>
    have hflush : Effect.emitted [.flush] = [] := rfl
    simp only [next, run, Array.toList_push, Effect.emitted_append, hrun, hflush, List.append_nil]
  | call c =>
    cases c with
    | step =>
      have hstep := h.step.silent
      rwa [h.silent] at hstep
    | run budget => exact hrun budget
    | _ => rfl

end Simulator

/-! ### What can be reached -/

namespace Machine

variable {m : Machine} {budget : Option Nat}

/-- A run sends what its first step sends, if there is one. -/
lemma emitted_run_ne_nil {v : UInt8} (hb : budget ≠ some 0) (h : m.sent? = some v) :
    Effect.emitted (m.run budget).effects.toList ≠ [] := by
  rw [(m.run_eq_trail budget).2, emitted_steps]
  exact List.ne_nil_of_mem (List.mem_filterMap.2 ⟨m, self_mem_trail hb, h⟩)

/-- The program that stores the first register to the port. -/
def sendingTo (port : Address) : List Instruction := [.store 0 (UInt16.ofNat port.toNat)]

/-- **One store is enough** where the port can be reached. -/
theorem exists_sent?_of_reachesPort {c : Config} (hc : c.IsValid)
    (h : (ofConfig c).ReachesPort) :
    ∃ i, (ofConfig c).install (Image.ofProgram 0 (sendingTo c.memory.outputPort)).encode.toArray =
      .ok i ∧ i.machine.sent? = some 0 := by
  obtain ⟨hport, hfour⟩ := h
  have hmax : (ofConfig c).memory.size ≤ Config.maxMemorySize := by
    rw [hc.size_ofConfig]
    exact hc.size_le
  obtain ⟨i, hi, hentry, -, hheld, -⟩ := install_ofProgram hmax 0 (sendingTo c.memory.outputPort)
  obtain ⟨hfile, -, hplace⟩ := install_eq_ok_iff.1 hi
  have hplaces := places_place (ofConfig c) hfile
  rw [← hplace] at hplaces
  have hpc : i.machine.pc = 0 := hplaces.entry.symm.trans hentry
  have hpasses : i.machine.Passes (.store 0 (UInt16.ofNat c.memory.outputPort.toNat)) := by
    refine ⟨by rw [hplaces.state]; exact nofun, ?_, fun _ => rfl⟩
    rw [decode_eq_ok_iff, hpc]
    rwa [List.take_of_length_le hfour] at hheld
  have htarget : (UInt16.ofNat c.memory.outputPort.toNat).toUInt32 = i.machine.outputPort := by
    have hsame : i.machine.outputPort = c.memory.outputPort := congrArg Prod.fst hplaces.settings
    rw [hsame, ← UInt32.toNat_inj, UInt16.toNat_toUInt32, UInt16.toNat_ofNat']
    exact Nat.mod_eq_of_lt (Nat.lt_succ_of_le hport)
  refine ⟨i, hi, ?_⟩
  rw [sent?, hpasses.retiring?, hplaces.registers]
  exact if_pos htarget

end Machine

/-- **The port can be reached if and only if** its address fits in sixteen bits and memory has room
for a store. Then there is an image with which a new machine sends something; and otherwise nothing
is ever sent, whatever images are loaded, in whatever slices they are run, and whatever else is done
in between. -/
theorem port_reachable_iff {σ : Type} {c : Config} (hc : c.IsValid) (sink : Sink σ) (s : σ) :
    ((∃ file i budget, (Machine.ofConfig c).install file = .ok i ∧
        (i.machine.runTo sink.recording budget ((s, []), #[])).2.1.2 ≠ []) ↔
      c.memory.outputPort.toNat ≤ 0xffff ∧ 4 ≤ c.memory.size) ∧
    (0xffff < c.memory.outputPort.toNat ∨ c.memory.size < 4 →
      ∀ calls : List (Sink σ × Operation),
        (inTurn Simulator.performTo (.ofConfig c) (recorded calls) ((s, []), #[])).2.1.2 = []) := by
  have hreaches : (Machine.ofConfig c).ReachesPort ↔
      c.memory.outputPort.toNat ≤ 0xffff ∧ 4 ≤ c.memory.size := by
    rw [Machine.ReachesPort, hc.size_ofConfig]
    rfl
  simp only [Machine.runTo_recording]
  refine ⟨⟨?_, fun h => ?_⟩, fun h calls => ?_⟩
  · rintro ⟨file, i, budget, hi, hne⟩
    rw [← hreaches]
    by_contra hunreachable
    have hmute : i.machine.Mute [] := ⟨fun hr => hunreachable
      ((Machine.reachesPort_iff_of_blank_eq (Machine.blank_install hi)).1 hr), rfl⟩
    exact hne (hmute.run budget).silent
  · obtain ⟨i, hi, hsent⟩ := Machine.exists_sent?_of_reachesPort hc (hreaches.2 h)
    exact ⟨_, i, none, hi, Machine.emitted_run_ne_nil nofun hsent⟩
  · have hunreachable : ¬ (Machine.ofConfig c).ReachesPort := fun hr => by
      obtain ⟨hport, hfour⟩ := hreaches.1 hr
      omega
    have hmute : (Machine.ofConfig c).Mute [] := ⟨hunreachable, rfl⟩
    obtain ⟨-, hrecord⟩ := inTurn_recorded Simulator.performTo_eq calls (.ofConfig c) ((s, []), #[])
    rw [hrecord]
    exact (course_invariant (P := fun (x : Simulator) output => x.machine.Mute output)
      (fun op _ _ _ hx => Simulator.mute_next hx op) (Simulator.ofConfig c) [] hmute).silent

/-- The smallest memory with a port that can be reached, and the first port that cannot. -/
theorem port_reachable_iff_ends :
    let least : Config := { memory := { size := 4, outputPort := 3 } }
    let beyond : Config := { memory := { size := 0x10001, outputPort := 0x10000 } }
    least.IsValid ∧ beyond.IsValid ∧
      (∃ file i budget, (Machine.ofConfig least).install file = .ok i ∧
        (i.machine.runTo Sink.capture.recording budget ((#[], []), #[])).2.1.2 ≠ []) ∧
      (inTurn Simulator.performTo (.ofConfig beyond)
        (recorded [(Sink.capture, .load Machine.storesTwice), (Sink.capture, .run)])
          ((#[], []), #[])).2.1.2 = [] := by
  intro least beyond
  have hleast : least.IsValid := ⟨by decide, by decide, by decide⟩
  have hbeyond : beyond.IsValid := ⟨by decide, by decide, by decide⟩
  refine ⟨hleast, hbeyond, ?_, ?_⟩
  · exact (port_reachable_iff hleast Sink.capture #[]).1.2 ⟨by decide, by decide⟩
  · exact (port_reachable_iff hbeyond Sink.capture #[]).2 (Or.inl (by decide)) _

end ByteMachine
