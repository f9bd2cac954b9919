import ByteMachine.Proofs.Loading
import ByteMachine.Proofs.Offered
import ByteMachine.Proofs.StraightLine

/-!
What a program means. An image made of it is loaded, and the machine does what folding the
instructions does, as long as no store goes to what is still to come.
-/

namespace ByteMachine

open Located Machine

/-- What a program does to registers, memory and output up to its first halt. -/
def Contents.run (port : Address) (c : Contents) (program : List Instruction) : Contents :=
  (program.takeWhile (· ≠ .halt)).foldl (Contents.apply port) c

/-- No store from a register before the first halt goes to what stands after it in the
program. -/
def SparesRest (origin : Address) (program : List Instruction) : Prop :=
  ∀ front source target back, program = front ++ .store source target :: back →
    .halt ∉ front → Registers.IsValid source →
    ¬ (origin.toNat + (assemble (front ++ [.store source target])).length ≤ target.toNat ∧
      target.toNat < origin.toNat + (assemble program).length)

/-- The lines of a program that stands at an address. -/
def locate : Address → List Instruction → List Located
  | _, [] => []
  | a, i :: is => ⟨a, .ok i⟩ :: locate (a.advance i.size) is

/-! ### Programs in memory -/

lemma length_assemble_cons (i : Instruction) (is : List Instruction) :
    (assemble (i :: is)).length = i.size + (assemble is).length := by
  rw [assemble_cons, List.length_append, Instruction.length_encode]

lemma holdsAt_assemble_cons {bytes : Array UInt8} {k : Nat} {i : Instruction}
    {is : List Instruction} : HoldsAt bytes k (assemble (i :: is)) ↔
      HoldsAt bytes k i.encode ∧ HoldsAt bytes (k + i.size) (assemble is) := by
  rw [assemble_cons, holdsAt_append, Instruction.length_encode]

lemma filterMap_locate (program : List Instruction) (a : Address) :
    ((locate a program).filterMap instruction?).map Prod.snd = program := by
  induction program generalizing a with
  | nil => rfl
  | cons i is ih =>
    rw [locate, List.filterMap_cons_some (rfl : instruction? ⟨a, .ok i⟩ = some (a, i)),
      List.map_cons, ih]

lemma mem_locate {program : List Instruction} {x : Located} : ∀ {a : Address},
    a.toNat + (assemble program).length < 0x100000000 → x ∈ locate a program →
      ∃ front i back, program = front ++ i :: back ∧ x.content = .ok i ∧
        x.addr.toNat = a.toNat + (assemble front).length := by
  induction program with
  | nil => exact fun _ hx => absurd hx List.not_mem_nil
  | cons i is ih =>
    intro a hlt hx
    rw [length_assemble_cons] at hlt
    rcases List.mem_cons.1 hx with rfl | hx
    · exact ⟨[], i, is, rfl, rfl, rfl⟩
    · have hto : (a.advance i.size).toNat = a.toNat + i.size :=
        Address.toNat_advance_of_lt (by omega)
      obtain ⟨front, j, back, rfl, hcontent, haddr⟩ := ih (by omega) hx
      refine ⟨i :: front, j, back, rfl, hcontent, ?_⟩
      rw [haddr, hto, length_assemble_cons]
      omega

/-- A line ends where the program up to it ends. -/
lemma stop_locate {x : Located} {i : Instruction} {a : Address} {front : List Instruction}
    (hcontent : x.content = .ok i) (haddr : x.addr.toNat = a.toNat + (assemble front).length) :
    x.stop = a.toNat + (assemble (front ++ [i])).length := by
  have hlen : (assemble [i]).length = i.size := by
    rw [length_assemble_cons]
    rfl
  rw [Located.stop, hcontent, haddr, assemble_append, List.length_append, hlen, extent]
  omega

/-- What stands in memory up to the first halt is what is listed there. -/
lemma lists_locate {bytes : Array UInt8} {stop : Address} {before : List Instruction}
    (hsize : bytes.size < 0x100000000) (hstop : stop.toNat = bytes.size) (hbefore : .halt ∉ before) :
    ∀ {a : Address}, HoldsAt bytes a.toNat (assemble (before ++ [.halt])) →
      Lists bytes stop a (locate a (before ++ [.halt])) := by
  induction before with
  | nil =>
    intro a h
    have hd : decode bytes a = .ok .halt := decode_eq_ok_iff.2 (by simpa using h)
    have hle := add_size_le_of_decode hd
    have hpos := Instruction.halt.size_pos
    exact .halt (UInt32.lt_iff_toNat_lt.2 (by omega)) hd
  | cons i is ih =>
    intro a h
    rw [List.cons_append, holdsAt_assemble_cons] at h
    have hd : decode bytes a = .ok i := decode_eq_ok_iff.2 h.1
    have hle := add_size_le_of_decode hd
    have hpos := i.size_pos
    have hi : i ≠ .halt := fun he => hbefore (he ▸ List.mem_cons_self)
    refine .pass (UInt32.lt_iff_toNat_lt.2 (by omega)) hd hi (ih ?_ ?_)
    · exact fun hmem => hbefore (List.mem_cons_of_mem _ hmem)
    · rw [Lists.toNat_advance_of_decode hsize hd]
      exact h.2

/-- A program that spares what is to come does so line by line. -/
lemma sparesUpTo_locate {a : Address} {before after : List Instruction}
    (hlt : a.toNat + (assemble (before ++ .halt :: after)).length < 0x100000000)
    (hbefore : .halt ∉ before) (hst : SparesRest a (before ++ .halt :: after)) :
    SparesUpTo (a.toNat + (assemble (before ++ .halt :: after)).length)
      (locate a (before ++ [.halt])) := by
  have happ := List.append_cons before Instruction.halt after
  have hlt' : a.toNat + (assemble (before ++ [.halt])).length < 0x100000000 := by
    rw [happ, assemble_append, List.length_append] at hlt
    omega
  intro x hx source target hs hv
  obtain ⟨front, i, back, heq, hcontent, haddr⟩ := mem_locate hlt' hx
  obtain rfl : i = .store source target := Except.ok.inj (hcontent.symm.trans hs)
  rw [stop_locate hcontent haddr]
  refine hst front source target (back ++ after) ?_ ?_ hv
  · rw [happ, heq, List.append_assoc, List.cons_append]
  · -- the halt is the last instruction, and the store is not it
    rcases List.eq_nil_or_concat back with rfl | ⟨back, z, rfl⟩
    · exact absurd (List.append_inj_right' heq rfl) (by simp)
    · rw [List.concat_eq_append, ← List.cons_append, ← List.append_assoc] at heq
      have hfront := List.append_inj_left' heq rfl
      exact fun hmem => hbefore (hfront ▸ List.mem_append_left _ hmem)

lemma stop_le_of_mem_locate {a : Address} {program : List Instruction} {x : Located}
    (hlt : a.toNat + (assemble program).length < 0x100000000) (hx : x ∈ locate a program) :
    x.stop ≤ a.toNat + (assemble program).length := by
  obtain ⟨front, i, back, rfl, hcontent, haddr⟩ := mem_locate hlt hx
  have happ := List.append_cons front i back
  rw [stop_locate hcontent haddr, happ, assemble_append _ back, List.length_append]
  omega

/-! ### Running a program that is in memory -/

lemma Contents.run_append_halt {before : List Instruction} (hbefore : .halt ∉ before)
    (after : List Instruction) (port : Address) (c : Contents) :
    c.run port (before ++ .halt :: after) =
      List.foldl (Contents.apply port) c (before ++ [.halt]) := by
  have htake : (before ++ Instruction.halt :: after).takeWhile (· ≠ .halt) = before := by
    rw [List.takeWhile_append_of_pos, List.takeWhile_cons_of_neg, List.append_nil]
    · simp
    · intro i hi
      simpa using fun he : i = .halt => hbefore (he ▸ hi)
  rw [Contents.run, htake, List.foldl_concat, Contents.apply_halt]

lemma ending?_locate {before : List Instruction} (hbefore : .halt ∉ before) :
    ∀ a, ending? (locate a (before ++ [.halt])) = some .halted := by
  induction before with
  | nil => exact fun _ => rfl
  | cons i is ih =>
    intro a
    have hi : i ≠ .halt := fun he => hbefore (he ▸ List.mem_cons_self)
    rw [List.cons_append, locate, ending?_cons hi]
    exact ih (fun hmem => hbefore (List.mem_cons_of_mem _ hmem)) _

/-- **A program in memory runs as it reads.** -/
theorem run_program {m : Machine} {program : List Instruction} (hm : ¬ m.state.IsTerminal)
    (hs : m.strict = false) (hhalt : .halt ∈ program)
    (hheld : HoldsAt m.memory.bytes m.pc.toNat (assemble program))
    (hst : SparesRest m.pc program) :
    (m.run none).outcome = .stopped .halted ∧
      ∀ output, (m.contents output).run m.outputPort program =
        (m.run none).machine.contents
          (output ++ Effect.emitted (m.run none).effects.toList) := by
  obtain ⟨before, after, rfl, hbefore⟩ := List.eq_append_cons_of_mem hhalt
  have hsize := m.memory.size_lt
  have hlt : m.pc.toNat + (assemble (before ++ .halt :: after)).length < 0x100000000 :=
    Nat.lt_of_le_of_lt (hheld.le_size (by simp [Instruction.encode])) hsize
  have happ := List.append_cons before Instruction.halt after
  have hfront : HoldsAt m.memory.bytes m.pc.toNat (assemble (before ++ [.halt])) := by
    rw [happ, assemble_append, holdsAt_append] at hheld
    exact hheld.1
  have hstop := Memory.toNat_ofNat_of_le (Nat.le_refl m.memory.size)
  have hl := lists_locate hsize hstop hbefore hfront
  have hle : (assemble (before ++ [.halt])).length ≤
      (assemble (before ++ .halt :: after)).length := by
    rw [happ, assemble_append _ after, List.length_append]
    omega
  have hsp := pairwise_spares (hl.pairwise_stop_le hsize)
    (fun x hx => Nat.le_trans (stop_le_of_mem_locate (by omega) hx) (Nat.add_le_add_left hle _))
    (sparesUpTo_locate hlt hbefore hst)
  have hf := follows_of_lists hstop hl m hm hs rfl rfl hsp fun _ _ _ _ _ => rfl
  refine ⟨hf.outcome_eq.1 _ (ending?_locate hbefore m.pc), fun output => ?_⟩
  have hfold := hf.contents_eq output
  rw [← List.foldl_map (f := Prod.snd), filterMap_locate] at hfold
  rw [Contents.run_append_halt hbefore, hfold]

/-! ### From the image to the end of the run -/

lemma Simulator.run_of_unlimited {s : Simulator} (h : s.maxSteps = none) :
    s.run.2.1 = (s.machine.run none).outcome ∧ s.run.1.machine = (s.machine.run none).machine ∧
      Effect.emitted s.run.2.2.toList = Effect.emitted (s.machine.run none).effects.toList := by
  obtain ⟨machine, maxSteps, loaded⟩ := s
  obtain rfl : maxSteps = none := h
  refine ⟨rfl, rfl, ?_⟩
  simp only [Simulator.run, Array.toList_push, Effect.emitted_append]
  exact List.append_nil _

/-- **A program does what it says**, from its image to the end of the run. It starts from zero
registers and a memory that is zero but for the program, it halts, and registers, memory and the
bytes that the sink is offered are those of folding its instructions. -/
theorem load_run_eq_fold {σ : Type} (sink : Sink σ) (s : σ) {c : Config} {origin : Address}
    {program : List Instruction} (hc : c.IsValid) (hstrict : c.execution.strictRegisters = false)
    (hmax : c.execution.maxSteps = none) (hhalt : .halt ∈ program)
    (hfit : origin.toNat + (assemble program).length ≤ c.memory.size)
    (hst : SparesRest origin program) :
    ∃ ready loading,
      (Simulator.ofConfig c).load (Image.ofProgram origin program).encode.toArray =
        .ok (ready, loading) ∧
      ready.machine.registers = .zero ∧
      ready.machine.memory.bytes.toList = List.replicate origin.toNat 0 ++ assemble program ++
        List.replicate (c.memory.size - (origin.toNat + (assemble program).length)) 0 ∧
      ready.run.2.1 = .stopped .halted ∧
      ready.run.1.machine.contents (sink.offered s (loading ++ ready.run.2.2.toList)) =
        (ready.machine.contents []).run c.memory.outputPort program := by
  have hle := hc.size_le
  have hmem : (Memory.zeroed c.memory.size).size = c.memory.size := by
    rw [Memory.size_zeroed]
    exact Nat.min_eq_left (Nat.le_trans hle (by decide))
  have hfit' : origin.toNat + (assemble program).length ≤ (Memory.zeroed c.memory.size).size := by
    rwa [hmem]
  have hshort : Header.size + (assemble program).length < 0x100000000 := by
    simp only [Config.maxMemorySize] at hle
    simp only [Header.size]
    omega
  obtain ⟨ready, loading, hload, hmachine, hsteps, hquiet⟩ :=
    Simulator.load_ofProgram c origin program hshort
  obtain ⟨hout, hend, hemit⟩ := Simulator.run_of_unlimited (hsteps.trans hmax)
  obtain ⟨hstop, hfold⟩ := run_program (m := ready.machine)
    (by rw [hmachine]; exact State.not_isTerminal_of_stop? rfl) (by rw [hmachine]; exact hstrict) hhalt
    (by rw [hmachine]; exact Memory.holdsAt_load hfit') (by rw [hmachine]; exact hst)
  refine ⟨ready, loading, hload, ?_, ?_, hout.trans hstop, ?_⟩
  · rw [hmachine]
    rfl
  · rw [hmachine, Memory.toList_load_zeroed hfit', hmem]
  · have hport : ready.machine.outputPort = c.memory.outputPort := by
      rw [hmachine]
      rfl
    rw [Sink.offered_eq, Effect.emitted_append, hquiet, hemit, hend, ← hport, hfold]

/-- A program that sends a byte to a port behind it, and would overwrite its own halt if there
were a register 9. -/
theorem load_run_eq_fold_port :
    let c : Config := { memory := { size := 16, outputPort := 15 } }
    let program : List Instruction := [.load 0 7, .store 0 15, .store 9 13, .halt, .nop]
    c.IsValid ∧ c.execution.strictRegisters = false ∧ c.execution.maxSteps = none ∧
      .halt ∈ program ∧ (2 : Address).toNat + (assemble program).length ≤ c.memory.size ∧
      SparesRest 2 program ∧ ∃ ready loading,
        (Simulator.ofConfig c).load (Image.ofProgram 2 program).encode.toArray =
          .ok (ready, loading) ∧
        ready.run.2.1 = .stopped .halted ∧
        Sink.capture.offered #[] (loading ++ ready.run.2.2.toList) = [7] := by
  intro c program
  have hc : c.IsValid := ⟨by decide, by decide, by decide⟩
  have hst : SparesRest 2 program := by
    intro front source target back h hfront hv
    rcases front with _ | ⟨i, _ | ⟨j, _ | ⟨k, front⟩⟩⟩
    all_goals simp only [program, List.nil_append, List.cons_append, List.cons.injEq] at h
    · cases h.1
    · obtain ⟨rfl, h, -⟩ := h
      cases h
      decide
    · cases h.2.2.1
      exact absurd hv (by decide)
    · obtain ⟨-, -, -, h⟩ := h
      rcases front with _ | ⟨l, front⟩
      · cases h
      · obtain rfl := (List.cons.inj h).1
        exact absurd (by simp) hfront
  obtain ⟨ready, loading, hload, hreg, -, hstop, hfold⟩ :=
    load_run_eq_fold Sink.capture #[] hc rfl rfl (by decide) (by decide) hst
  refine ⟨hc, rfl, rfl, by decide, by decide, hst, ready, loading, hload, hstop, ?_⟩
  have hout := congrArg Contents.output hfold
  rw [Machine.contents, Machine.contents, hreg] at hout
  exact hout

end ByteMachine
