import Mathlib.Data.List.Chain
import ByteMachine.Proofs.Warnings

/-!
What the trace tells of a run. A step that is traced logs a line as soon as it has read its
instruction, and before it looks at the registers. So the lines are the instructions that the run
retires, one after the other in memory, and after them the one that it refuses for a register, if
that is how it ends.
-/

namespace ByteMachine

open Effect

namespace Event

/-- A line of the trace. -/
def isTrace (e : Event) : Bool := e.level = .trace

lemma isTrace_of_isWarning {e : Event} (h : e.isWarning = true) : e.isTrace = false := by
  cases e with
  | traced => cases h
  | _ => rfl

/-- The line for an instruction and the address at which it has been read. -/
def ofFetch (x : Address × Instruction) : Event := .traced x.1 x.2

end Event

namespace Machine

variable {m : Machine} {i : Instruction} {f : Fault} {budget : Option Nat}

/-! ### Steps -/

/-- The instruction that the next step reads, with its address. -/
def fetch? (m : Machine) : Option (Address × Instruction) :=
  if m.state.IsTerminal then none
  else
    match decode m.memory.bytes m.pc with
    | .ok i => some (m.pc, i)
    | .error _ => none

lemma fetch?_of_isTerminal (h : m.state.IsTerminal) : m.fetch? = none := if_pos h

lemma fetch?_of_ok (hlive : ¬ m.state.IsTerminal) (h : decode m.memory.bytes m.pc = .ok i) :
    m.fetch? = some (m.pc, i) := by
  rw [fetch?, if_neg hlive, h]

lemma fetch?_of_error (h : decode m.memory.bytes m.pc = .error f) : m.fetch? = none := by
  rw [fetch?, h, ite_self]

lemma filter_announced (m : Machine) (i : Instruction) :
    (logged (m.announced i)).filter Event.isTrace =
      if m.trace then [.traced m.pc i] else [] := by
  unfold announced
  split <;> rfl

lemma filter_perform (m : Machine) (a : Address) (i : Instruction) :
    (logged (m.perform a i).2).filter Event.isTrace = [] := by
  refine List.filter_eq_nil_iff.2 fun e he => ?_
  obtain ⟨steps, rfl⟩ | ⟨b, size, rfl⟩ := mem_logged_perform he
  · exact nofun
  · exact nofun

/-- **A traced step tells what it reads**, and nothing else. -/
theorem trace_step (m : Machine) : (logged m.step.2).filter Event.isTrace =
    if m.trace then m.fetch?.toList.map .ofFetch else [] := by
  by_cases hterm : m.state.IsTerminal
  · rw [step_of_isTerminal hterm, fetch?_of_isTerminal hterm, Option.toList_none, List.map_nil,
      ite_self]
    rfl
  obtain ⟨i, h⟩ | ⟨f, h⟩ := passes_or_refuses hterm
  · rw [fetch?_of_ok hterm h.decoded, h.step_eq, logged_append, List.filter_append,
      filter_announced]
    obtain ⟨-, hexecute⟩ | ⟨r, -, hexecute⟩ := h.execute_cases
    · rw [hexecute, filter_perform, List.append_nil]
      rfl
    · rw [hexecute]
      exact List.append_nil _
  · obtain ⟨hd, heq⟩ | ⟨i, r, hd, -, heq⟩ := h.step_eq
    · rw [heq, fetch?_of_error hd, Option.toList_none, List.map_nil, ite_self]
      rfl
    · rw [heq, fetch?_of_ok hterm hd, logged_append, List.filter_append, filter_announced]
      exact List.append_nil _

/-! ### Runs -/

/-- The instructions that a run reads, in order and with their addresses. -/
def fetched (m : Machine) (budget : Option Nat) : List (Address × Instruction) :=
  (m.trail budget).filterMap fetch?

lemma trace_trail (m : Machine) (budget : Option Nat) :
    (logged ((m.trail budget).flatMap fun x => x.step.2)).filter Event.isTrace =
      if m.trace then (m.fetched budget).map .ofFetch else [] := by
  unfold fetched
  fun_induction m.trail budget with
  | case1 m => exact (ite_self _).symm
  | case2 m budget hb stop hs =>
    rw [List.flatMap_singleton]
    exact m.trace_step
  | case3 m budget hb hs ih =>
    have htrace : m.step.1.trace = m.trace := congrArg (fun s => s.2.2) m.settings_step
    rw [List.flatMap_cons, logged_append, List.filter_append, trace_step, ih, htrace,
      List.filterMap_cons]
    split
    · rcases m.fetch? <;> rfl
    · rfl

/-- **A traced run tells what it reads.** -/
theorem trace_run (m : Machine) (budget : Option Nat) :
    (logged (m.run budget).effects.toList).filter Event.isTrace =
      if m.trace then (m.fetched budget).map .ofFetch else [] := by
  rw [filter_run (fun _ _ => rfl) (fun _ _ => rfl), trace_trail]

/-! ### Where the instructions stand -/

/-- The second instruction has been read where the first one ends. -/
def IsNext (x y : Address × Instruction) : Prop := y.1.toNat = x.1.toNat + x.2.size

lemma pc_of_fetch? {x : Address × Instruction} (h : m.fetch? = some x) : x.1 = m.pc := by
  unfold fetch? at h
  repeat' split at h
  all_goals cases h
  rfl

/-- **A run reads one instruction after the other**, from the program counter on. -/
theorem fetched_inRow (m : Machine) (budget : Option Nat) :
    (∀ x ∈ (m.fetched budget).head?, x.1 = m.pc) ∧ (m.fetched budget).IsChain IsNext := by
  unfold fetched
  fun_induction m.trail budget with
  | case1 m => exact ⟨fun x hx => absurd hx (Option.not_mem_none x), .nil⟩
  | case2 m budget hb stop hs =>
    rw [List.filterMap_cons]
    rcases hx : m.fetch? with _ | x
    · exact ⟨fun x hx => absurd hx (Option.not_mem_none x), .nil⟩
    · exact ⟨fun y hy => Option.some.inj hy ▸ pc_of_fetch? hx, .singleton x⟩
  | case3 m budget hb hs ih =>
    obtain ⟨i, hi, -⟩ := passes_of_goesOn (live_of_goesOn hs) hs
    obtain ⟨hhead, hchain⟩ := ih
    rw [List.filterMap_cons, fetch?_of_ok hi.live hi.decoded]
    refine ⟨fun y hy => Option.some.inj hy ▸ rfl, List.isChain_cons.2 ⟨fun y hy => ?_, hchain⟩⟩
    rw [IsNext, hhead y hy, hi.pc_toNat]

/-! ### What is told and not retired -/

/-- The instruction that a run newly refuses for a register, as it stands in the memory that is
left. There is none if the machine had stopped before, or the run ends in another way. -/
inductive Refusal (m after : Machine) (o : Outcome) : Option (Address × Instruction) → Prop
  | refused {a : Address} {i : Instruction} {reg : UInt8} (hlive : ¬ m.state.IsTerminal)
      (ho : o = .stopped (.faulted (.invalidRegister a reg)))
      (hd : decode after.memory.bytes a = .ok i) (hr : i.invalidRegister? = some reg) :
      Refusal m after o (some (a, i))
  | other (h : m.state.IsTerminal ∨ ∀ a reg, o ≠ .stopped (.faulted (.invalidRegister a reg))) :
      Refusal m after o none

/-- A step after which the machine goes on makes no difference to how the run ends. -/
lemma Refusal.before {after : Machine} {o : Outcome} {refused : Option (Address × Instruction)}
    (hs : m.step.1.state.stop? = none) (h : Refusal m.step.1 after o refused) :
    Refusal m after (o.after 1) refused := by
  cases h with
  | refused hlive ho hd hr =>
    exact .refused (live_of_goesOn hs) (Outcome.after_eq_stopped.2 ho) hd hr
  | other h =>
    refine .other (Or.inr fun a reg ho => ?_)
    rcases h with hterm | hne
    · exact State.not_isTerminal_of_stop? hs hterm
    · exact hne a reg (Outcome.after_eq_stopped.1 ho)

/-- The last step of a run. -/
lemma exists_refusal_of_stops {stop : Stop} (hs : m.step.1.state.stop? = some stop) :
    ∃ refused, Refusal m m.step.1 (.stopped stop) refused ∧
      m.fetch?.toList = m.retiring?.toList ++ refused.toList := by
  by_cases hterm : m.state.IsTerminal
  · refine ⟨none, .other (Or.inl hterm), ?_⟩
    rw [fetch?_of_isTerminal hterm, retiring?_of_isTerminal hterm]
    rfl
  obtain ⟨i, hi⟩ | ⟨f, hf⟩ := passes_or_refuses hterm
  · refine ⟨none, .other (Or.inr fun a reg ho => ?_), ?_⟩
    · rw [hi.state] at hs
      split at hs
      · cases hs
        cases ho
      · cases hs
    · rw [fetch?_of_ok hterm hi.decoded, hi.retiring?]
      rfl
  · rw [hf.state] at hs
    cases hs
    rw [hf.retiring?]
    obtain hd | ⟨i, r, hd, -, hr, rfl⟩ := hf.cause
    · refine ⟨none, .other (Or.inr fun a reg ho => ?_), ?_⟩
      · cases ho
        obtain ⟨-, heq⟩ | ⟨b, -, ⟨-, heq⟩ | ⟨op, -, -, heq⟩⟩ := decode_eq_error_iff.1 hd <;>
          cases heq
      · rw [fetch?_of_error hd]
        rfl
    · refine ⟨some (m.pc, i), .refused hterm rfl ?_ hr, ?_⟩
      · rw [hf.memory]
        exact hd
      · rw [fetch?_of_ok hterm hd]
        rfl

/-- **A run reads what it retires**, and at the end what it refuses for a register. -/
theorem fetched_eq (m : Machine) (budget : Option Nat) : ∃ refused,
    Refusal m (m.run budget).machine (m.run budget).outcome refused ∧
      m.fetched budget = m.retired budget ++ refused.toList := by
  unfold fetched retired
  fun_induction m.trail budget with
  | case1 m =>
    refine ⟨none, .other (Or.inr fun a reg ho => ?_), rfl⟩
    rw [m.run_zero.2.1] at ho
    cases ho
  | case2 m budget hb stop hs =>
    obtain ⟨hmachine, hout, -⟩ := run_stopped hb hs
    obtain ⟨refused, hrefusal, hfetch⟩ := exists_refusal_of_stops hs
    refine ⟨refused, ?_, ?_⟩
    · rw [hmachine, hout]
      exact hrefusal
    · exact hfetch
  | case3 m budget hb hs ih =>
    obtain ⟨hmachine, hout, -⟩ := run_running hb hs
    obtain ⟨refused, hrefusal, hfetched⟩ := ih
    obtain ⟨i, hi, -⟩ := passes_of_goesOn (live_of_goesOn hs) hs
    refine ⟨refused, ?_, ?_⟩
    · rw [hmachine, hout]
      exact hrefusal.before hs
    · rw [List.filterMap_cons, fetch?_of_ok hi.live hi.decoded, List.filterMap_cons, hi.retiring?]
      exact congrArg _ hfetched

lemma fetched_of_isTerminal (h : m.state.IsTerminal) (budget : Option Nat) :
    m.fetched budget = [] := by
  unfold fetched
  by_cases hb : budget = some 0
  · rw [hb, trail, if_pos rfl]
    rfl
  · obtain ⟨stop, hstop⟩ := Option.isSome_iff_exists.1 h
    have hs : m.step.1.state.stop? = some stop := by rw [step_of_isTerminal h, hstop]
    rw [trail_stopped hb hs, List.filterMap_cons, fetch?_of_isTerminal h]
    rfl

/-- **The trace is faithful.** Without tracing a run logs no line of it, and neither does a machine
that has stopped before. With tracing, whatever the sink answers, the lines are the instructions
that the run retires, in order and each with the address that it has been read from, and after them
the one that it newly refuses for a register, if it does. The first line has the program counter
that the run begins with, and each of the others the address where the instruction before it ends.
There are as many lines as steps are counted, and one more exactly if an instruction has been
refused in this way. -/
theorem trace_tells_run {σ : Type} (sink : Sink σ) (s : σ) (m : Machine) (budget : Option Nat) :
    let r := m.runTo sink budget (s, #[])
    let lines := r.2.2.toList.filter Event.isTrace
    (m.trace = false → lines = []) ∧
    (m.state.IsTerminal → lines = [] ∧ (m.callTo sink .step (s, #[])).2.2 = #[]) ∧
    (m.trace = true → ∃ refused, Refusal m r.1.1 r.1.2 refused ∧
      let told := m.retired budget ++ refused.toList
      lines = told.map .ofFetch ∧
      lines.map Event.message =
        told.map (fun x => Hex.lower 4 x.1.toNat ++ ": " ++ x.2.mnemonic) ∧
      (∀ x ∈ told.head?, x.1 = m.pc) ∧ told.IsChain IsNext ∧
      m.counters.steps + lines.length = r.1.1.counters.steps + refused.toList.length) := by
  intro r lines
  have hr : r = (((m.run budget).machine, (m.run budget).outcome),
      (m.run budget).effects.toList.foldl sink.deliver (s, #[])) :=
    congrFun (m.runTo_eq sink budget) _
  have hlines : lines = if m.trace then (m.fetched budget).map .ofFetch else [] := by
    dsimp only [lines]
    rw [hr, Sink.filter_foldl sink (fun _ => Event.isTrace_of_isWarning), trace_run]
    rfl
  refine ⟨fun htrace => ?_, fun hterm => ⟨?_, ?_⟩, fun htrace => ?_⟩
  · rw [hlines, htrace]
    rfl
  · rw [hlines, fetched_of_isTerminal hterm, List.map_nil, ite_self]
  · have hstep : m.callTo sink .step (s, #[]) = ((m.step.1, .stepped m.step.1.state.stop?),
        m.step.2.foldl sink.deliver (s, #[])) := congrFun (m.callTo_eq sink .step) _
    rw [hstep, step_of_isTerminal hterm]
    rfl
  · obtain ⟨refused, hrefusal, hfetched⟩ := m.fetched_eq budget
    obtain ⟨hhead, hchain⟩ := m.fetched_inRow budget
    rw [hfetched] at hhead hchain
    rw [if_pos htrace, hfetched] at hlines
    refine ⟨refused, ?_, hlines, ?_, hhead, hchain, ?_⟩
    · rw [hr]
      exact hrefusal
    · rw [hlines, List.map_map]
      rfl
    · rw [hr, hlines, steps_run, List.length_map, List.length_append, Nat.add_assoc]

/-- A strict machine that is traced, in front of an instruction that it takes and of one that names
a register which does not exist. -/
def tracedToNine : Machine :=
  let c : Config :=
    { memory := { size := 8, outputPort := 0 }
      execution := { strictRegisters := true, traceInstructions := true } }
  { ofConfig c with memory := ⟨#[0x10, 1, 2, 0x20, 3, 9, 0, 0], by decide⟩ }

/-- Both are told, and one of them is counted. -/
theorem trace_tells_run_refused :
    tracedToNine.trace = true ∧
      let r := tracedToNine.runTo Sink.capture none (#[], #[])
      let lines := r.2.2.toList.filter Event.isTrace
      r.1.2 = .stopped (.faulted (.invalidRegister 3 9)) ∧
        lines.length = r.1.1.counters.steps + 1 ∧
        lines.map Event.message = ["0x0000: load r1, 2", "0x0003: add r3, r9"] := by
  have htrace : tracedToNine.trace = true := rfl
  refine ⟨htrace, ?_⟩
  intro r lines
  have hout : r.1.2 = .stopped (.faulted (.invalidRegister 3 9)) := by decide +kernel
  have htexts : lines.map Event.message = ["0x0000: load r1, 2", "0x0003: add r3, r9"] := by
    decide +kernel
  obtain ⟨refused, hrefusal, -, -, -, -, hcount⟩ :=
    (trace_tells_run Sink.capture #[] tracedToNine none).2.2 htrace
  refine ⟨hout, ?_, htexts⟩
  cases hrefusal with
  | refused => exact (Nat.zero_add _).symm.trans hcount
  | other h =>
    rcases h with hterm | hne
    · exact absurd hterm (by decide)
    · exact absurd hout (hne 3 9)

end Machine

end ByteMachine
