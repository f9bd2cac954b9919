import ByteMachine.Proofs.Accounting
import ByteMachine.Proofs.Contents

/-!
What is sent to the output port. The bytes are what the stores to the port find in their registers,
in the order in which they are executed. Each of them is counted, and takes the place of the one
before it in memory.
-/

namespace ByteMachine

/-! ### One instruction -/

namespace Instruction

variable {i : Instruction} {port : Address} {registers : Registers}

/-- The byte that an instruction sends. A store from no register sends none. -/
def sent? (port : Address) (registers : Registers) : Instruction → Option UInt8
  | .store source target => if target.toUInt32 = port then registers.read? source else none
  | _ => none

lemma isSome_sent? :
    (i.sent? port registers).isSome ↔ i.target? = some port ∧ i.NamesRegisters := by
  cases i with
  | store source target =>
    simp only [sent?, target?, NamesRegisters, Instruction.registers, Option.some.injEq,
      List.forall_mem_singleton]
    split
    · rename_i h
      rw [Registers.isSome_read?, and_iff_right h]
    · rename_i h
      exact iff_of_false Bool.false_ne_true fun hs => h hs.1
  | _ => exact iff_of_false Bool.false_ne_true fun hs => Option.some_ne_none _ hs.1.symm

lemma sent?_eq_none (h : ¬ i.NamesRegisters) : i.sent? port registers = none := by
  rw [← Option.not_isSome_iff_eq_none, isSome_sent?]
  exact fun hs => h hs.2

end Instruction

namespace Contents

variable {port : Address} {c : Contents} {i : Instruction}

lemma output_apply : (c.apply port i).output = c.output ++ (i.sent? port c.registers).toList := by
  unfold apply
  split
  · rename_i hv
    cases i with
    | store source target =>
      have hread := c.read?_eq_register (hv source (by simp [Instruction.registers]))
      simp only [carryOut, store, Instruction.sent?]
      split
      · rw [hread]
        rfl
      · exact (List.append_nil _).symm
    | _ => exact (List.append_nil _).symm
  · rename_i hv
    rw [Instruction.sent?_eq_none hv]
    exact (List.append_nil _).symm

/-- A byte that is sent stands at the port, and nothing else changes there. -/
lemma read?_port_apply (hport : c.memory.Contains port) :
    (c.apply port i).memory.read? port =
      (i.sent? port c.registers).or (c.memory.read? port) := by
  rcases hsent : i.sent? port c.registers with _ | v
  · -- a store from a register goes elsewhere, or its byte would be sent.
    refine c.read?_apply port i port fun source target hi hsource htarget => ?_
    subst hi
    have hread := c.read?_eq_register hsource
    rw [Instruction.sent?, if_pos htarget, hread] at hsent
    cases hsent
  · have hsome := Instruction.isSome_sent?.1 (Option.isSome_of_eq_some hsent)
    rw [apply, if_pos hsome.2]
    cases i with
    | store source target =>
      have htarget : target.toUInt32 = port := Option.some.inj hsome.1
      have hread := c.read?_eq_register (hsome.2 source (by simp [Instruction.registers]))
      rw [Instruction.sent?, if_pos htarget, hread] at hsent
      rw [carryOut, store_memory, Memory.read?_write, if_pos ⟨htarget, hport⟩, hsent]
      rfl
    | _ => cases hsent

end Contents

namespace Machine

variable {m : Machine} {i : Instruction}

/-! ### One step -/

/-- The byte that the next step sends, if it retires a store to the port. -/
def sent? (m : Machine) : Option UInt8 :=
  m.retiring?.bind fun x => x.2.sent? m.outputPort m.registers

/-- **A step does what the instruction that it retires means**, and nothing without one. -/
theorem contents_step (m : Machine) (output : List UInt8) :
    m.step.1.contents (output ++ Effect.emitted m.step.2) =
      match m.retiring? with
      | some (_, i) => (m.contents output).apply m.outputPort i
      | none => m.contents output := by
  by_cases h : m.state.IsTerminal
  · rw [retiring?_of_isTerminal h, step_of_isTerminal h, Effect.emitted_nil, List.append_nil]
  · obtain ⟨i, hi⟩ | ⟨f, hf⟩ := passes_or_refuses h
    · rw [hi.retiring?]
      exact (hi.apply_contents output).symm
    · rw [hf.retiring?]
      exact hf.contents output

lemma emitted_step (m : Machine) : Effect.emitted m.step.2 = m.sent?.toList := by
  have h := congrArg Contents.output (m.contents_step [])
  unfold sent?
  rcases hr : m.retiring? with _ | ⟨a, i⟩
  · rw [hr] at h
    exact h
  · rw [hr] at h
    exact h.trans Contents.output_apply

lemma read?_port_step (hport : m.memory.Contains m.outputPort) :
    m.step.1.memory.read? m.outputPort = m.sent?.or (m.memory.read? m.outputPort) := by
  have h := congrArg (fun c => c.memory.read? m.outputPort) (m.contents_step [])
  unfold sent?
  rcases hr : m.retiring? with _ | ⟨a, i⟩
  · rw [hr] at h
    exact h
  · rw [hr] at h
    exact h.trans (Contents.read?_port_apply hport)

lemma portWrites_begun : m.begun.counters.portWrites = m.counters.portWrites := by
  unfold begun
  split <;> rfl

lemma Passes.portWrites (h : m.Passes i) : m.step.1.counters.portWrites =
    m.counters.portWrites + (i.sent? m.outputPort m.registers).toList.length := by
  have hretire : (m.begun.counters.retire i.opcode).portWrites = m.counters.portWrites := by
    rw [Counters.portWrites_retire, portWrites_begun]
  obtain ⟨hr, hc⟩ | ⟨r, hr, hc⟩ := h.counters_cases
  · rw [hc]
    split
    · rename_i htarget
      obtain ⟨v, hv⟩ := Option.isSome_iff_exists.1
        (Instruction.isSome_sent?.2 ⟨htarget, Instruction.namesRegisters_iff.2 hr⟩ :
          (i.sent? m.outputPort m.registers).isSome)
      rw [hv]
      exact congrArg (· + 1) hretire
    · rename_i htarget
      have hnone : i.sent? m.outputPort m.registers = none := by
        rw [← Option.not_isSome_iff_eq_none, Instruction.isSome_sent?]
        exact fun hs => htarget hs.1
      rw [hnone]
      exact hretire
  · have hinvalid : ¬ i.NamesRegisters := by
      rw [Instruction.namesRegisters_iff, hr]
      exact nofun
    rw [hc, Instruction.sent?_eq_none hinvalid]
    exact hretire

lemma portWrites_step (m : Machine) :
    m.step.1.counters.portWrites = m.counters.portWrites + m.sent?.toList.length := by
  unfold sent?
  by_cases h : m.state.IsTerminal
  · rw [retiring?_of_isTerminal h, step_of_isTerminal h]
    rfl
  · obtain ⟨i, hi⟩ | ⟨f, hf⟩ := passes_or_refuses h
    · rw [hi.retiring?]
      exact hi.portWrites
    · rw [hf.retiring?, hf.counters]
      exact portWrites_begun

/-! ### Steps and runs in a row -/

/-- The machines that a call steps, in order. -/
def Call.trail (m : Machine) : Call → List Machine
  | .step => [m]
  | .run budget => m.trail budget
  | _ => []

/-- The machines that calls step one after the other. -/
def trails (m : Machine) : List Call → List Machine
  | [] => []
  | c :: calls => c.trail m ++ trails (m.next c).1.1 calls

lemma emitted_steps (steps : List Machine) :
    Effect.emitted (steps.flatMap fun x => x.step.2) = steps.filterMap sent? := by
  induction steps with
  | nil => rfl
  | cons x xs ih =>
    rw [List.flatMap_cons, Effect.emitted_append, emitted_step, ih, List.filterMap_cons]
    rcases x.sent? <;> rfl

lemma emitted_next (m : Machine) (c : Call) :
    Effect.emitted (m.next c).2 = (c.trail m).filterMap sent? := by
  cases c with
  | step =>
    have h := emitted_steps [m]
    rwa [List.flatMap_singleton] at h
  | run budget => exact (m.run_eq_trail budget).2.trans (emitted_steps _)
  | _ => rfl

/-- **Calls emit what is sent on their way**, and in that order. -/
theorem emitted_course (calls : List Call) : ∀ m : Machine,
    Effect.emitted (course next m calls).2 = (m.trails calls).filterMap sent? := by
  induction calls with
  | nil => exact fun m => rfl
  | cons c calls ih =>
    intro m
    rw [course, Effect.emitted_append, emitted_next, ih, trails, List.filterMap_append]

/-- The bytes that have been sent are counted. The last of them stands in memory at the port, or
what had been there before the first. -/
structure Streams (port : Address) (before : Option UInt8) (m : Machine) (output : List UInt8) :
    Prop where
  outputPort : m.outputPort = port
  contained : m.memory.Contains port
  counted : output.length = m.counters.portWrites
  last : m.memory.read? port = output.getLast?.or before

lemma Streams.step {port : Address} {before : Option UInt8} {output : List UInt8}
    (h : m.Streams port before output) :
    m.step.1.Streams port before (output ++ Effect.emitted m.step.2) := by
  obtain ⟨rfl, hcontained, hcounted, hlast⟩ := h
  have hone (sent : Option UInt8) : sent.toList.getLast? = sent := by
    rcases sent <;> rfl
  refine ⟨m.outputPort_step, ?_, ?_, ?_⟩
  · rw [Memory.Contains, size_step]
    exact hcontained
  · rw [List.length_append, emitted_step, portWrites_step, hcounted]
  · rw [read?_port_step hcontained, hlast, emitted_step, List.getLast?_append, hone,
      Option.or_assoc]

section Recorded

variable {σ : Type} {c : Config} {file : Array UInt8} {installed : Installation}

lemma streams_of_install (hc : c.IsValid) (hsize : m.memory.size = c.memory.size)
    (hport : m.outputPort = c.memory.outputPort) (h : m.install file = .ok installed) :
    installed.machine.Streams c.memory.outputPort
      (installed.machine.memory.read? c.memory.outputPort) [] := by
  obtain ⟨hfile, -, rfl⟩ := install_eq_ok_iff.1 h
  have hplaces := m.places_place hfile
  have hsame := congrArg Prod.fst hplaces.settings
  refine ⟨hsame.trans hport, ?_, ?_, rfl⟩
  · rw [Memory.Contains, hplaces.size, hsize]
    exact hc.port_lt
  · rw [hplaces.counters]
    rfl

/-- **What the port is sent.** After a file has been installed in a machine with a valid memory and
port, steps and runs with any budgets offer their sinks, whether these take them or not, just the
values that stores to the port find in their registers as they are retired, one after the other. The
counter says how many they are, and the last of them stands in memory at the port. -/
theorem port_stream (hc : c.IsValid) (hsize : m.memory.size = c.memory.size)
    (hport : m.outputPort = c.memory.outputPort) (hi : m.install file = .ok installed)
    {calls : List (Sink σ × Call)} (hcalls : ∀ x ∈ calls, x.2.Executes) (s : σ)
    (events : Array Event) :
    let r := inTurn callTo installed.machine (recorded calls) ((s, []), events)
    r.2.1.2 = (installed.machine.trails (calls.map Prod.snd)).filterMap sent? ∧
      r.2.1.2.length = r.1.1.counters.portWrites ∧
      ∀ b, r.2.1.2.getLast? = some b → r.1.1.memory.read? c.memory.outputPort = some b := by
  obtain ⟨hresult, hrecord⟩ :=
    inTurn_recorded callTo_eq calls installed.machine ((s, []), events)
  have hstreams := executes_invariant (P := Streams c.memory.outputPort
      (installed.machine.memory.read? c.memory.outputPort)) (fun _ _ h => h.step)
    (List.forall_mem_map.2 hcalls) [] (streams_of_install hc hsize hport hi)
  intro r
  have hrecord' : r.2.1.2 =
      Effect.emitted (course next installed.machine (calls.map Prod.snd)).2 := hrecord
  rw [List.nil_append, ← hrecord', ← congrArg Prod.fst hresult] at hstreams
  refine ⟨hrecord'.trans (emitted_course _ _), hstreams.counted, fun b hb => ?_⟩
  rw [hstreams.last, hb]
  rfl

/-- A machine that has just been made, with its port at 40. -/
def newAtForty : Machine := .ofConfig { memory := { size := 48, outputPort := 40 } }

/-- The image of a program that stores to the port and beside it, also from a register that does not
exist. -/
def storesTwice : Array UInt8 :=
  (Image.ofProgram 3 [.load 2 7, .store 2 40, .store 9 40, .add 2 2, .store 2 41, .store 2 40,
    .halt]).encode.toArray

/-- A sink that takes nothing. -/
def refusing : Sink Unit where
  emit _ s := (s, some "full")
  flush s := (s, none)

/-- Two bytes are sent, the second after the run has been taken up again. -/
theorem port_stream_refused :
    let c : Config := { memory := { size := 48, outputPort := 40 } }
    let calls : List (Sink Unit × Call) :=
      [(refusing, .step), (refusing, .run (some 2)), (.null, .run none), (refusing, .step)]
    ∃ i, c.IsValid ∧ newAtForty.memory.size = c.memory.size ∧
      newAtForty.outputPort = c.memory.outputPort ∧ newAtForty.install storesTwice = .ok i ∧
      (∀ x ∈ calls, x.2.Executes) ∧
      let r := inTurn callTo i.machine (recorded calls) (((), []), #[])
      r.2.1.2 = [7, 14] ∧ (i.machine.trails (calls.map Prod.snd)).filterMap sent? = [7, 14] ∧
        r.1.1.counters.portWrites = 2 ∧ r.1.1.memory.read? 40 = some 14 := by
  intro c calls
  have hc : c.IsValid := ⟨by decide, by decide, by decide⟩
  have hsize : newAtForty.memory.size = c.memory.size := by decide +kernel
  have hfile : 28 ≤ storesTwice.size ∧ storesTwice.toList.take 3 = mark := by decide
  have hcalls : ∀ x ∈ calls, x.2.Executes := by simp [calls, Call.Executes]
  have hi := (install_eq_ok_iff (m := newAtForty)).2 ⟨hfile.1, hfile.2, rfl⟩
  have hstream := port_stream hc hsize rfl hi hcalls () #[]
  refine ⟨_, hc, hsize, rfl, hi, hcalls, ?_⟩
  intro r
  have hrecord : r.2.1.2 = [7, 14] := by decide +kernel
  obtain ⟨htrails, hlength, hlast⟩ := hstream
  rw [hrecord] at htrails hlength hlast
  exact ⟨hrecord, htrails.symm, hlength.symm, hlast 14 rfl⟩

end Recorded

end Machine

end ByteMachine
